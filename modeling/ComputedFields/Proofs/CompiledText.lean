/-
**The text of a compiled formula.**

A formula compiles to a text that is put together from those of its parts, and in the end from the
fields that it reads.  If these are tidy, so is the whole.  Two things have to be asked of the formula
itself.  Its numbers stand in the text as they are spelled, so they have to be digits and points.  And
where no query is allowed, it may not call a function that makes one; in a generated column this leaves
the calls that round by a precision that is no literal.

Main definitions:

* `ComputedFields.Formula.RoundsByValue` — a call that rounds by a precision that is no literal;
* `ComputedFields.Formula.Flat` — the formulas without such calls, as far as it matters.

Main results:

* `ComputedFields.Formula.tidy_of_compileWith` — **a formula compiles to a tidy text**;
* `ComputedFields.Context.tidy_of_expand` — **so does a field**.
-/

import ComputedFields.Proofs.CompiledWords
import ComputedFields.Proofs.NumberSpelling

set_option relaxedAutoImplicit false
set_option autoImplicit false

namespace ComputedFields

open Sql (Expr Vocabulary)

/-! ### Formulas -/

namespace Formula

/-- The formula calls a rounding function with a precision that does not compile to a literal. -/
def RoundsByValue (t : Target) (read : String → Except CompileError Compiled) (f : Formula) : Prop :=
  ∃ g value precision c, (g = .roundUp ∨ g = .roundDown) ∧
    f = .call (.known (.numeric g)) [value, precision] ∧
    precision.compileWith t read = .ok c ∧ c.fragment.expr.intLiteral? = none

/-- The numbers of the formula are digits and points, and no part of it compiles to a word that is not
allowed. -/
structure Flat (V : Vocabulary) (t : Target) (read : String → Except CompileError Compiled)
    (f : Formula) : Prop where
  [speaks : V.Speaks t.dialect]
  numbers : f.PlainNumbers
  precision : V.Queries ∨
    (t.dialect = .sqlite → ∀ call, Part call f → ¬ call.RoundsByValue t read)

variable {V : Vocabulary} {t : Target} {read : String → Except CompileError Compiled} {f g : Formula}

theorem Flat.sub (h : f.Flat V t read) (hg : Part g f) : g.Flat V t read :=
  have := h.speaks
  ⟨fun spelling hpart => h.numbers spelling (hpart.trans hg),
    h.precision.imp_right fun hcalls hd call hcall => hcalls hd call (hcall.trans hg)⟩

/-- A rounding function takes at most two arguments, so that its second one is the precision. -/
theorem literalPrecision_of_compileAllWith {f : Function} {args : List Formula}
    {parts : List Compiled} (haccepts : f.accepts args.length = true)
    (hparts : compileAllWith t read args = .ok parts)
    (hrounds : t.dialect = .sqlite → ¬ RoundsByValue t read (.call (.known f) args)) :
    f.LiteralPrecision t.dialect (parts.map Compiled.fragment) := by
  intro hd hf p hp hnone
  refine hrounds hd ?_
  obtain ⟨g, hg, rfl⟩ : ∃ g, (g = .roundUp ∨ g = .roundDown) ∧ f = .numeric g := by
    rcases hf with rfl | rfl
    · exact ⟨_, .inl rfl, rfl⟩
    · exact ⟨_, .inr rfl, rfl⟩
  match args, haccepts, hparts with
  | [], _, hparts =>
      cases hparts
      cases hp
  | [value], _, hparts =>
      obtain ⟨first, -, hparts⟩ := exists_of_bind_eq_ok hparts
      cases hparts
      cases hp
  | [value, precision], _, hparts =>
      obtain ⟨first, -, hparts⟩ := exists_of_bind_eq_ok hparts
      obtain ⟨others, hothers, hparts⟩ := exists_of_bind_eq_ok hparts
      obtain ⟨second, hsecond, hothers⟩ := exists_of_bind_eq_ok hothers
      cases hothers
      cases hparts
      cases hp
      exact ⟨g, value, precision, second, hg, rfl, hsecond, hnone⟩
  | _ :: _ :: _ :: rest, haccepts, _ =>
      -- such a call is refused
      rcases hg with rfl | rfl <;>
        simp [Function.accepts, Function.signature, NumericFunction.signature, Signature.accepts]
          at haccepts

theorem tidy_foldl_binary [V.Speaks t.dialect] {op : BinaryOp} {first : Compiled} {others : List Compiled}
    (hfirst : first.fragment.expr.Tidy V) (hothers : ∀ c ∈ others, c.fragment.expr.Tidy V) :
    (others.foldl (Compiled.binary t op) first).fragment.expr.Tidy V := by
  induction others generalizing first with
  | nil => exact hfirst
  | cons other rest ih =>
      rw [List.forall_mem_cons] at hothers
      exact ih (Target.tidy_binary t op hfirst hothers.1) hothers.2

mutual

/-- **A formula compiles to a tidy text**, if its fields do. -/
theorem tidy_of_compileWith (hmode : V.Queries ∨ t.mode = .generated) :
    ∀ {f : Formula} {c : Compiled}, f.compileWith t read = .ok c → f.Flat V t read →
      (∀ ref ∈ f.references, ∀ c, read ref = .ok c → c.fragment.expr.Tidy V) →
      c.fragment.expr.Tidy V
  | .bool value, _, h, _, _ => by
      cases h
      exact .bool value
  | .number spelling, _, h, hflat, _ => by
      cases h
      refine .number (.numeral ?_)
      rw [Sql.isNumeral, List.all_eq_true]
      intro c hc
      rcases hflat.numbers spelling .self c hc with hdigit | rfl
      · simp [Sql.isNumeralChar, hdigit]
      · decide
  | .text value, _, h, hflat, _ => by
      have := hflat.speaks
      cases h
      exact Target.tidy_stringLiteral t value
  | .null, _, h, _, _ => by
      cases h
      exact .null
  | .field id, c, h, _, hread => hread id (List.mem_singleton_self id) c h
  | .unary op operand, _, h, hflat, hread => by
      have := hflat.speaks
      obtain ⟨c, hoperand, h⟩ := exists_of_bind_eq_ok h
      cases h
      exact Target.tidy_unary t op
        (tidy_of_compileWith hmode hoperand (hflat.sub (.operand .self)) hread)
  | .binary left op right, _, h, hflat, hread => by
      have := hflat.speaks
      obtain ⟨l, hleft, h⟩ := exists_of_bind_eq_ok h
      obtain ⟨r, hright, h⟩ := exists_of_bind_eq_ok h
      cases h
      exact Target.tidy_binary t op
        (tidy_of_compileWith hmode hleft (hflat.sub (.left .self)) fun ref href =>
          hread ref (mem_references_binary.2 (.inl href)))
        (tidy_of_compileWith hmode hright (hflat.sub (.right .self)) fun ref href =>
          hread ref (mem_references_binary.2 (.inr href)))
  | .chain op operands, _, h, hflat, hread => by
      have := hflat.speaks
      obtain ⟨parts, hparts, h⟩ := exists_of_bind_eq_ok h
      have htidy : ∀ c ∈ parts, c.fragment.expr.Tidy V :=
        tidy_of_compileAllWith hmode hparts (fun f hf => hflat.sub (.chain hf .self))
          fun f hf ref href => hread ref (mem_references_chain.2 ⟨f, hf, href⟩)
      cases parts with
      | nil => cases h
      | cons first others =>
          cases h
          rw [List.forall_mem_cons] at htidy
          exact tidy_foldl_binary htidy.1 htidy.2
  | .call (.unknown name) args, _, h, _, _ => by cases h
  | .call (.known f) args, _, h, hflat, hread => by
      have := hflat.speaks
      obtain ⟨haccepts, hsupported, parts, fragment, hparts, hfragment, rfl⟩ :=
        compileWith_call_eq_ok_iff.1 h
      have htidy : ∀ c ∈ parts, c.fragment.expr.Tidy V :=
        tidy_of_compileAllWith hmode hparts (fun g hg => hflat.sub (.call hg .self))
          fun g hg ref href => hread ref (mem_references_call.2 ⟨g, hg, href⟩)
      refine Function.apply_tidy ?_ (List.forall_mem_map.2 htidy) _ hfragment
      rcases hmode with hV | hmode
      · exact .inl hV
      · have hgenerates : f.generates t.dialect = true := by
          simpa [hmode, Function.supported] using hsupported
        exact hflat.precision.imp_right fun hcalls => ⟨hgenerates,
          literalPrecision_of_compileAllWith haccepts hparts fun hd => hcalls hd _ .self⟩

theorem tidy_of_compileAllWith (hmode : V.Queries ∨ t.mode = .generated) :
    ∀ {fs : List Formula} {parts : List Compiled}, compileAllWith t read fs = .ok parts →
      (∀ f ∈ fs, f.Flat V t read) →
      (∀ f ∈ fs, ∀ ref ∈ f.references, ∀ c, read ref = .ok c → c.fragment.expr.Tidy V) →
      ∀ c ∈ parts, c.fragment.expr.Tidy V
  | [], _, h, _, _ => by
      cases h
      simp
  | f :: rest, _, h, hflat, hread => by
      obtain ⟨first, hfirst, h⟩ := exists_of_bind_eq_ok h
      obtain ⟨others, hothers, h⟩ := exists_of_bind_eq_ok h
      cases h
      rw [List.forall_mem_cons] at hflat hread ⊢
      exact ⟨tidy_of_compileWith hmode hfirst hflat.1 hread.1,
        tidy_of_compileAllWith hmode hothers hflat.2 hread.2⟩

end

end Formula

/-! ### Fields -/

namespace Context

variable {V : Vocabulary} {ctx : Context} {depth : Nat} {path : List String} {id : String}
  {c : Compiled} {f : Formula}

/-- What a call rounds by does not depend on the way to it. -/
theorem roundsByValue_compileField (h : f.RoundsByValue ctx.target (ctx.expand depth path)) :
    f.RoundsByValue ctx.target ctx.compileField := by
  obtain ⟨g, value, precision, c, hg, hf, hc, hliteral⟩ := h
  exact ⟨g, value, precision, c, hg, hf, compile_of_compileWith hc, hliteral⟩

theorem tidy_asField {field : Field} (h : c.fragment.expr.Tidy V) :
    (asField field c).fragment.expr.Tidy V := by
  unfold asField
  split
  · exact h
  · exact h

/-- **A field compiles to a tidy text**, if the fields that it reads are tidy and the formulas behind it
are flat. -/
theorem tidy_of_expand (hmode : V.Queries ∨ ctx.target.mode = .generated)
    (hc : ctx.expand depth path id = .ok c)
    (hplain : ∀ field ∈ ctx.table.fields, field.id ∈ c.reads →
      (ctx.plain field).fragment.expr.Tidy V)
    (hflat : ∀ id' g, Relation.ReflTransGen ctx.table.Leads id id' → ctx.table.Holds id' g →
      g.Flat V ctx.target ctx.compileField) : c.fragment.expr.Tidy V := by
  induction depth generalizing path id c with
  | zero => cases hc
  | succ depth ih =>
      obtain ⟨field, hfield, ⟨hleaf, rfl⟩ | ⟨depth', source, persisted, g, c', heq, hkind, -,
        hformula, hcompile, rfl⟩⟩ := expand_cases hc
      · exact hplain field (Table.mem_of_field? hfield) (List.mem_singleton_self _)
      · cases heq
        have hholds : ctx.table.Holds id g := ⟨field, source, persisted, hfield, hkind, hformula⟩
        have hgathers := Formula.compileWith_gathers hcompile
        refine tidy_asField (Formula.tidy_of_compileWith hmode hcompile ?_ fun ref href c'' hread => ?_)
        · -- the path that an expansion has come does not change what a precision compiles to
          have hflat := hflat id g .refl hholds
          have := hflat.speaks
          exact ⟨hflat.numbers, hflat.precision.imp_right fun hcalls hd call hcall hrounds =>
            hcalls hd call hcall (roundsByValue_compileField hrounds)⟩
        · refine ih hread (fun field hfield hmem => hplain field hfield ?_) fun id' g' hway =>
            hflat id' g' (hway.head (hholds.leads href))
          rw [reads_asField]
          exact (hgathers.reads_iff _).2 ⟨ref, href, c'', hread, hmem⟩

end Context

end ComputedFields
