/-
**Where the errors of a formula come from.**

A formula that does not compile has a cause: a reference that cannot be read, or a part that is at fault
itself, such as a call with too many arguments.  What a part can be at fault for is told apart from what
only fields can fail with.  So an error about a field is traced from a formula to one of its references,
and from there through the formulas of fields.

Main definitions:

* `ComputedFields.Formula.Faulty` — a formula that is at fault itself;
* `ComputedFields.Formula.Blames` — an error comes from a reference or from a part that is at fault;
* `ComputedFields.CompileError.isLocal`, `ComputedFields.CompileError.isConflict` — an error of a single
  operator or call, and one about a field that two expressions carry;
* `ComputedFields.Table.Unreadable` — a formula field whose formula cannot be read;
* `ComputedFields.Context.Overruns` — a formula that raises to the least integer of 64 bits.

Main results:

* `ComputedFields.Formula.compileWith_blames` — **an error of a formula has a cause in it**;
* `ComputedFields.Formula.Faulty.isLocal` — a part is at fault for local errors only;
* `ComputedFields.Context.expand_error` — what a field can fail with;
* `ComputedFields.Context.overruns_of_compile`, `ComputedFields.Context.not_overruns_of_compile` — **where
  the compiler breaks off**;
* `ComputedFields.Context.expand_failsOnly_isConflict` — formulas know nothing of conflicts.
-/

import ComputedFields.Proofs.GeneratedColumns

set_option relaxedAutoImplicit false
set_option autoImplicit false

namespace ComputedFields

/-- When one step after another fails, one of them does. -/
theorem error_of_bind_eq_error {ε α β : Type} {x : Except ε α} {f : α → Except ε β} {e : ε}
    (h : (x >>= f) = .error e) : x = .error e ∨ ∃ a, x = .ok a ∧ f a = .error e := by
  cases x with
  | error e' => exact .inl (by cases h; rfl)
  | ok a => exact .inr ⟨a, rfl, h⟩

/-! ### Kinds of errors -/

namespace CompileError

/-- The error is one of an operator or of a call and its arguments. -/
def isLocal : CompileError → Bool
  | .unsupportedFunction _ | .unsupportedOperator _ | .argumentCount .. | .argumentType ..
  | .overflow => true
  | _ => false

/-- The error is about a field that two expressions would carry. -/
def isConflict : CompileError → Bool
  | .cteConflict .. => true
  | _ => false

theorem isConflict_of_isLocal {e : CompileError} (h : e.isLocal = true) : e.isConflict = false := by
  cases e with
  | cteConflict field existing requested => simp [isLocal] at h
  | _ => rfl

end CompileError

/-! ### Formulas that are at fault -/

namespace Formula

/-- The formula is at fault for the error itself: its parts compile, if it comes to that. -/
inductive Faulty (t : Target) (read : String → Except CompileError Compiled) :
    Formula → CompileError → Prop where
  | noOperand {op : BinaryOp} : Faulty t read (.chain op []) (.unsupportedOperator op.symbol)
  | unknown {name : String} {args : List Formula} :
      Faulty t read (.call (.unknown name) args) (.unsupportedFunction name)
  | count {f : Function} {args : List Formula} : f.accepts args.length = false →
      Faulty t read (.call (.known f) args) (.argumentCount f.name args.length)
  | unsupported {f : Function} {args : List Formula} : f.accepts args.length = true →
      f.supported t.dialect t.mode = false →
      Faulty t read (.call (.known f) args) (.unsupportedFunction f.name)
  | applied {f : Function} {args : List Formula} {parts : List Compiled} {e : CompileError} :
      f.accepts args.length = true → f.supported t.dialect t.mode = true →
      compileAllWith t read args = .ok parts → f.apply t (parts.map Compiled.fragment) = .error e →
      Faulty t read (.call (.known f) args) e

variable {t : Target} {read : String → Except CompileError Compiled} {f g : Formula}
  {e : CompileError}

/-- What a function can fail with on arguments that compile: it refuses one of them, or the compiler
breaks off. -/
theorem refusal_or_overflows {f : Function} {args : List Formula} {parts : List Compiled}
    (haccepts : f.accepts args.length = true) (hsupported : f.supported t.dialect t.mode = true)
    (hparts : compileAllWith t read args = .ok parts)
    (h : f.apply t (parts.map Compiled.fragment) = .error e) :
    (∃ index < args.length, e = f.refusal index) ∨
      e = .overflow ∧ f.Overflows t (parts.map Compiled.fragment) := by
  have hlength : (parts.map Compiled.fragment).length = args.length := by
    rw [List.length_map, length_of_compileAllWith hparts]
  rw [← hlength] at haccepts ⊢
  exact Function.apply_failsOnly haccepts hsupported e h

/-- A formula is at fault for local errors only. -/
theorem Faulty.isLocal (h : Faulty t read f e) : e.isLocal = true := by
  cases h with
  | noOperand | unknown | count | unsupported => rfl
  | applied haccepts hsupported hparts happly =>
      rcases refusal_or_overflows haccepts hsupported hparts happly with ⟨index, -, rfl⟩ | ⟨rfl, -⟩
      · obtain ⟨name, place, hrefusal⟩ := Function.isWrongType_refusal _ index
        rw [hrefusal]
        rfl
      · rfl

/-- The error comes from a reference of the formula, or from a part of it that is at fault. -/
def Blames (t : Target) (read : String → Except CompileError Compiled) (f : Formula)
    (e : CompileError) : Prop :=
  (∃ ref ∈ f.references, read ref = .error e) ∨ ∃ part, Part part f ∧ Faulty t read part e

/-- What is to blame in a formula is to blame in a larger one. -/
theorem Blames.mono (h : Blames t read f e) (href : ∀ ref ∈ f.references, ref ∈ g.references)
    (hpart : ∀ part, Part part f → Part part g) : Blames t read g e := by
  rcases h with ⟨ref, hmem, hread⟩ | ⟨part, hmem, hfaulty⟩
  · exact .inl ⟨ref, href ref hmem, hread⟩
  · exact .inr ⟨part, hpart part hmem, hfaulty⟩

theorem Faulty.blames (h : Faulty t read f e) : Blames t read f e := .inr ⟨f, .self, h⟩

mutual

/-- **An error of a formula has a cause in it.** -/
theorem compileWith_blames :
    ∀ {f : Formula} {e : CompileError}, f.compileWith t read = .error e → Blames t read f e
  | .bool _, e, h => by cases h
  | .number _, e, h => by cases h
  | .text _, e, h => by cases h
  | .null, e, h => by cases h
  | .field id, e, h => .inl ⟨id, List.mem_singleton_self id, h⟩
  | .unary op operand, e, h => by
      rcases error_of_bind_eq_error h with hoperand | ⟨c, -, h⟩
      · exact (compileWith_blames hoperand).mono (fun _ href => href) fun _ hpart => .operand hpart
      · cases h
  | .binary left op right, e, h => by
      rcases error_of_bind_eq_error h with hleft | ⟨l, -, h⟩
      · refine (compileWith_blames hleft).mono ?_ fun _ hpart => .left hpart
        exact fun ref href => mem_references_binary.2 (.inl href)
      · rcases error_of_bind_eq_error h with hright | ⟨r, -, h⟩
        · refine (compileWith_blames hright).mono ?_ fun _ hpart => .right hpart
          exact fun ref href => mem_references_binary.2 (.inr href)
        · cases h
  | .chain op operands, e, h => by
      rcases error_of_bind_eq_error h with hparts | ⟨parts, hparts, h⟩
      · obtain ⟨f, hf, hblames⟩ := compileAllWith_blames hparts
        refine hblames.mono (fun ref href => ?_) fun _ hpart => .chain hf hpart
        exact mem_references_chain.2 ⟨f, hf, href⟩
      · cases parts with
        | cons first others => cases h
        | nil =>
            cases h
            have hlength := length_of_compileAllWith hparts
            obtain rfl : operands = [] := List.length_eq_zero_iff.1 hlength.symm
            exact Faulty.noOperand.blames
  | .call (.unknown name) args, e, h => by
      cases h
      exact Faulty.unknown.blames
  | .call (.known f) args, e, h => by
      unfold compileWith at h
      split at h
      · next haccepts =>
          cases h
          exact (Faulty.count (by simpa using haccepts)).blames
      · next haccepts =>
          have haccepts : f.accepts args.length = true := by simpa using haccepts
          split at h
          · next hsupported =>
              cases h
              exact (Faulty.unsupported haccepts (by simpa using hsupported)).blames
          · next hsupported =>
              have hsupported : f.supported t.dialect t.mode = true := by simpa using hsupported
              rcases error_of_bind_eq_error h with hparts | ⟨parts, hparts, h⟩
              · obtain ⟨g, hg, hblames⟩ := compileAllWith_blames hparts
                refine hblames.mono (fun ref href => ?_) fun _ hpart => .call hg hpart
                exact mem_references_call.2 ⟨g, hg, href⟩
              · rcases error_of_bind_eq_error h with happly | ⟨fragment, -, h⟩
                · rw [ofExcept_except] at happly
                  exact (Faulty.applied haccepts hsupported hparts happly).blames
                · cases h

theorem compileAllWith_blames :
    ∀ {fs : List Formula} {e : CompileError}, compileAllWith t read fs = .error e →
      ∃ f ∈ fs, Blames t read f e
  | [], e, h => by cases h
  | f :: rest, e, h => by
      rcases error_of_bind_eq_error h with hfirst | ⟨first, -, h⟩
      · exact ⟨f, List.mem_cons_self, compileWith_blames hfirst⟩
      · rcases error_of_bind_eq_error h with hothers | ⟨others, -, h⟩
        · obtain ⟨g, hg, hblames⟩ := compileAllWith_blames hothers
          exact ⟨g, List.mem_cons_of_mem _ hg, hblames⟩
        · cases h

end

/-- An error that no part of a formula can be at fault for comes from a reference. -/
theorem exists_reference_of_error (h : f.compileWith t read = .error e) (hlocal : e.isLocal = false) :
    ∃ ref ∈ f.references, read ref = .error e := by
  rcases compileWith_blames h with href | ⟨part, -, hfaulty⟩
  · exact href
  · rw [hfaulty.isLocal] at hlocal
    cases hlocal

end Formula

/-! ### Fields -/

/-- The field is a formula field whose formula cannot be read. -/
def Table.Unreadable (table : Table) (id : String) (cause : ParseError) : Prop :=
  ∃ field source persisted, table.field? id = some field ∧
    field.kind = .formula source persisted ∧ source.formula = .error cause

namespace Context

variable {ctx : Context} {depth : Nat} {path : List String} {id : String} {e : CompileError}

/-- **What a field can fail with**: it is missing, it is expanded already, its formula cannot be read,
or the formula does not compile. -/
theorem expand_error (h : ctx.expand (depth + 1) path id = .error e) :
    (ctx.table.field? id = none ∧ e = .fieldNotFound id) ∨
      (id ∈ path ∧ e = .circularReference (circle path id)) ∨
      (∃ cause, ctx.table.Unreadable id cause ∧ e = .parse cause) ∨
      ∃ f, id ∉ path ∧ ctx.table.Holds id f ∧
        f.compileWith ctx.target (ctx.expand depth (path ++ [id])) = .error e := by
  cases hfield : ctx.table.field? id with
  | none =>
      rw [expand_of_none hfield] at h
      cases h
      exact .inl ⟨rfl, rfl⟩
  | some field =>
      refine .inr ?_
      cases hkind : field.kind with
      | formula source persisted =>
          by_cases hpath : id ∈ path
          · simp only [expand, hfield, hkind, hpath, if_true] at h
            cases h
            exact .inl ⟨hpath, rfl⟩
          · cases hformula : source.formula with
            | error cause =>
                simp only [expand, hfield, hkind, hpath, if_false, hformula] at h
                cases h
                exact .inr (.inl ⟨cause, ⟨field, source, persisted, hfield, hkind, hformula⟩, rfl⟩)
            | ok f =>
                rw [expand_of_formula hfield hkind hpath hformula] at h
                rcases error_of_bind_eq_error h with hcompile | ⟨c, -, h⟩
                · exact .inr (.inr ⟨f, hpath, ⟨field, source, persisted, hfield, hkind, hformula⟩,
                    hcompile⟩)
                · cases h
      | _ =>
          rw [expand_of_isFormula hfield (by rw [hkind]; rfl)] at h
          cases h

/-! ### Breakdowns -/

/-- The formula raises a number to the least integer of 64 bits: the exponent compiles to that literal. -/
def Overruns (ctx : Context) (f : Formula) : Prop :=
  ∃ base exponent c, Formula.Part (.call (.known (.numeric .power)) [base, exponent]) f ∧
    ctx.compile exponent = .ok c ∧ c.fragment.expr.intLiteral? = some Int64.minValue

theorem Overruns.of_part {f part : Formula} (h : ctx.Overruns part) (hpart : Formula.Part part f) :
    ctx.Overruns f := by
  obtain ⟨base, exponent, c, hcall, hc, hleast⟩ := h
  exact ⟨base, exponent, c, hcall.trans hpart, hc, hleast⟩

/-- The part at which the compiler breaks off raises to the least integer. -/
theorem overruns_of_faulty {part : Formula}
    (h : Formula.Faulty ctx.target (ctx.expand depth path) part .overflow) :
    ctx.target.dialect = .sqlite ∧ ctx.Overruns part := by
  generalize he : CompileError.overflow = e at h
  cases h with
  | noOperand | unknown | count | unsupported => cases he
  | @applied f args parts _ haccepts hsupported hparts happly =>
      subst he
      rcases Formula.refusal_or_overflows haccepts hsupported hparts happly with
        ⟨index, -, hrefusal⟩ | ⟨-, rfl, hd, fragment, hget, hleast⟩
      · obtain ⟨name, place, hwrong⟩ := f.isWrongType_refusal index
        cases hrefusal.trans hwrong
      · have hlower : 2 ≤ args.length := Signature.least_le_of_accepts haccepts
        have hupper : args.length ≤ 2 := of_decide_eq_true (Bool.and_eq_true_iff.1 haccepts).2
        have hlength : args.length = 2 := Nat.le_antisymm hupper hlower
        obtain ⟨base, exponent, rfl⟩ := List.length_eq_two.1 hlength
        obtain ⟨b, -, hparts⟩ := exists_of_bind_eq_ok hparts
        obtain ⟨others, hothers, hparts⟩ := exists_of_bind_eq_ok hparts
        obtain ⟨c, hc, hothers⟩ := exists_of_bind_eq_ok hothers
        cases hothers
        cases hparts
        cases hget
        exact ⟨hd, base, exponent, c, .self, compile_of_compileWith hc, hleast⟩

/-- A field at which the compiler breaks off leads to a formula that raises to the least integer. -/
theorem overruns_of_expand (h : ctx.expand depth path id = .error .overflow) :
    ctx.target.dialect = .sqlite ∧ ∃ x f, Relation.ReflTransGen ctx.table.Leads id x ∧
      ctx.table.Holds x f ∧ ctx.Overruns f := by
  induction depth generalizing path id with
  | zero => cases h
  | succ depth ih =>
      rcases expand_error h with ⟨-, he⟩ | ⟨-, he⟩ | ⟨cause, -, he⟩ | ⟨f, -, hholds, hcompile⟩
      · cases he
      · cases he
      · cases he
      · rcases Formula.compileWith_blames hcompile with ⟨ref, href, hread⟩ | ⟨part, hpart, hfaulty⟩
        · obtain ⟨hd, x, g, hway, hg, hoverruns⟩ := ih hread
          exact ⟨hd, x, g, hway.head (hholds.leads href), hg, hoverruns⟩
        · obtain ⟨hd, hoverruns⟩ := overruns_of_faulty hfaulty
          exact ⟨hd, id, f, .refl, hholds, hoverruns.of_part hpart⟩

/-- **Where the compiler breaks off**, the formula or one that it leads to raises to the least integer,
and the database has no powers. -/
theorem overruns_of_compile {f : Formula} (h : ctx.compile f = .error .overflow) :
    ctx.target.dialect = .sqlite ∧ ∃ g, ctx.table.Expanded f g ∧ ctx.Overruns g := by
  rcases Formula.compileWith_blames h with ⟨ref, href, hread⟩ | ⟨part, hpart, hfaulty⟩
  · obtain ⟨hd, x, g, hway, hholds, hoverruns⟩ := overruns_of_expand hread
    exact ⟨hd, g, .inr ⟨x, .of_leads href hway, hholds⟩, hoverruns⟩
  · obtain ⟨hd, hoverruns⟩ := overruns_of_faulty hfaulty
    exact ⟨hd, f, .inl rfl, hoverruns.of_part hpart⟩

/-- Formulas know nothing of the expressions that carry fields. -/
theorem expand_failsOnly_isConflict (ctx : Context) (depth : Nat) (path : List String) (id : String) :
    FailsOnly (fun e => e.isConflict = false) (ctx.expand depth path id) := by
  induction depth generalizing path id with
  | zero => exact .error rfl
  | succ depth ih =>
      intro e h
      rcases expand_error h with ⟨-, rfl⟩ | ⟨-, rfl⟩ | ⟨cause, -, rfl⟩ | ⟨f, -, -, hcompile⟩
      · rfl
      · rfl
      · rfl
      · rcases Formula.compileWith_blames hcompile with ⟨ref, -, hread⟩ | ⟨part, -, hfaulty⟩
        · exact ih (path ++ [id]) ref e hread
        · exact CompileError.isConflict_of_isLocal hfaulty.isLocal

end Context

end ComputedFields
