/-
**Integer literals in compiled formulas.**

A length, a precision or an exponent that is a literal is read when the formula is compiled.  Formulas that
are given as texts spell their numbers by digits and points, and nothing that happens to them on the way
to SQL puts a sign into a number.  So the compiler never meets the one integer of 64 bits whose negation
is none, however many minus signs stand before a literal and however many fields it is read through: a
literal is read as its value, and it can be negated and its absolute value taken without leaving the range.

Main definitions:

* `ComputedFields.Context.Builds` — the expressions that come up while formulas are compiled.

Main results:

* `ComputedFields.Formula.unsigned_of_compileWith`, `ComputedFields.Context.unsigned_of_expand` — the
  numbers of compiled formulas and fields carry no sign;
* `ComputedFields.Context.builds_literals` — what functions read integers from is among these expressions;
* `ComputedFields.Context.intLiteral_exact` — **an integer literal is read as its value, and its sign can
  be turned**.
-/

import ComputedFields.Proofs.Faults
import ComputedFields.Proofs.LexicalClosure
import ComputedFields.Proofs.UnsignedNumbers

set_option relaxedAutoImplicit false
set_option autoImplicit false

namespace ComputedFields

open Sql (Expr)

/-! ### Formulas and fields -/

namespace Formula

variable {t : Target} {read : String → Except CompileError Compiled}

theorem unsigned_foldl_binary {op : BinaryOp} {first : Compiled} {others : List Compiled}
    (hfirst : first.fragment.expr.Unsigned) (hothers : ∀ c ∈ others, c.fragment.expr.Unsigned) :
    (others.foldl (Compiled.binary t op) first).fragment.expr.Unsigned := by
  induction others generalizing first with
  | nil => exact hfirst
  | cons other rest ih =>
      rw [List.forall_mem_cons] at hothers
      exact ih (t.unsigned_binary op hfirst hothers.1) hothers.2

theorem PlainNumbers.sub {f g : Formula} (h : f.PlainNumbers) (hg : Part g f) : g.PlainNumbers :=
  fun spelling hpart => h spelling (hpart.trans hg)

mutual

/-- **A formula brings in no sign**, if its numbers are digits and points and its fields have none. -/
theorem unsigned_of_compileWith
    (hread : ∀ ref c, read ref = .ok c → c.fragment.expr.Unsigned) :
    ∀ {f : Formula} {c : Compiled}, f.compileWith t read = .ok c → f.PlainNumbers →
      c.fragment.expr.Unsigned
  | .bool value, _, h, _ => by
      cases h
      exact Expr.unsigned_bool value
  | .number spelling, _, h, hnumbers => by
      cases h
      exact .number (unsigned_of_isSpelling (hnumbers spelling .self))
  | .text value, _, h, _ => by
      cases h
      exact t.unsigned_stringLiteral value
  | .null, _, h, _ => by
      cases h
      exact Expr.unsigned_null
  | .field id, c, h, _ => hread id c h
  | .unary op operand, _, h, hnumbers => by
      obtain ⟨c, hoperand, h⟩ := exists_of_bind_eq_ok h
      cases h
      exact t.unsigned_unary op
        (unsigned_of_compileWith hread hoperand (hnumbers.sub (.operand .self)))
  | .binary left op right, _, h, hnumbers => by
      obtain ⟨l, hleft, h⟩ := exists_of_bind_eq_ok h
      obtain ⟨r, hright, h⟩ := exists_of_bind_eq_ok h
      cases h
      exact t.unsigned_binary op (unsigned_of_compileWith hread hleft (hnumbers.sub (.left .self)))
        (unsigned_of_compileWith hread hright (hnumbers.sub (.right .self)))
  | .chain op operands, _, h, hnumbers => by
      obtain ⟨parts, hparts, h⟩ := exists_of_bind_eq_ok h
      have hunsigned := unsigned_of_compileAllWith hread hparts fun f hf => hnumbers.sub (.chain hf .self)
      cases parts with
      | nil => cases h
      | cons first others =>
          cases h
          rw [List.forall_mem_cons] at hunsigned
          exact unsigned_foldl_binary hunsigned.1 hunsigned.2
  | .call (.unknown name) args, _, h, _ => by cases h
  | .call (.known f) args, _, h, hnumbers => by
      obtain ⟨-, -, parts, fragment, hparts, hfragment, rfl⟩ := compileWith_call_eq_ok_iff.1 h
      have hunsigned := unsigned_of_compileAllWith hread hparts fun g hg => hnumbers.sub (.call hg .self)
      exact f.apply_unsigned (List.forall_mem_map.2 hunsigned) _ hfragment

theorem unsigned_of_compileAllWith
    (hread : ∀ ref c, read ref = .ok c → c.fragment.expr.Unsigned) :
    ∀ {fs : List Formula} {parts : List Compiled}, compileAllWith t read fs = .ok parts →
      (∀ f ∈ fs, f.PlainNumbers) → ∀ c ∈ parts, c.fragment.expr.Unsigned
  | [], _, h, _ => by
      cases h
      simp
  | f :: rest, _, h, hnumbers => by
      obtain ⟨first, hfirst, h⟩ := exists_of_bind_eq_ok h
      obtain ⟨others, hothers, h⟩ := exists_of_bind_eq_ok h
      cases h
      rw [List.forall_mem_cons] at hnumbers ⊢
      exact ⟨unsigned_of_compileWith hread hfirst hnumbers.1,
        unsigned_of_compileAllWith hread hothers hnumbers.2⟩

end

end Formula

namespace Context

variable {ctx : Context} {depth : Nat} {path : List String} {id : String} {c : Compiled}

theorem unsigned_plain (ctx : Context) (field : Field) : (ctx.plain field).fragment.expr.Unsigned := by
  have hstored : (ctx.stored field).Unsigned := by
    unfold stored
    split
    · simp
    · split
      · simp
      · split <;> simp
  unfold plain typed
  split
  · exact Expr.unsigned_verbatim _
  · split
    · exact Expr.unsigned_verbatim _
    · split <;> exact hstored

/-- **Nor does a field**, expanded through formulas that are given as texts. -/
theorem unsigned_of_expand (htexts : ctx.table.Textual) (h : ctx.expand depth path id = .ok c) :
    c.fragment.expr.Unsigned := by
  induction depth generalizing path id c with
  | zero => cases h
  | succ depth ih =>
      obtain ⟨field, hfield, ⟨-, rfl⟩ | ⟨_, source, persisted, f, c', heq, hkind, -, hformula,
        hcompile, rfl⟩⟩ := expand_cases h
      · exact ctx.unsigned_plain field
      · cases heq
        have hnumbers : f.PlainNumbers :=
          htexts.plainNumbers ⟨field, source, persisted, hfield, hkind, hformula⟩
        have hunsigned := Formula.unsigned_of_compileWith (fun _ _ hread => ih hread) hcompile hnumbers
        unfold asField
        split <;> exact hunsigned

/-! ### Integer literals -/

/-- The expressions that come up while formulas given as texts are compiled over the table: what the parts
of a formula compile to, in the formula itself or in a field that it is expanded through; the numbers that
the translation writes or computes; and all that stands inside such expressions or is put together from
them, whatever the translation does in between. -/
inductive Builds (ctx : Context) : Expr → Prop where
  | part {source : String} {f g : Formula} {depth : Nat} {path : List String} {c : Compiled} :
      Formula.parse source = .ok f → Formula.Part g f →
      g.compileWith ctx.target (ctx.expand depth path) = .ok c → Builds ctx c.fragment.expr
  | written {spelling : String} : spelling ∈ writtenNumbers → Builds ctx (.number spelling)
  | count (count : Nat) : Builds ctx (.number (toString count ++ ".0"))
  | factor (power : Int32) : Builds ctx (.number (Decimal.factor.render (Decimal.tenToThe power)))
  | piece {e p : Expr} : Builds ctx e → p ∈ e.pieces → Builds ctx p
  | compose {e : Expr} :
      (∀ spelling, e ≠ .number spelling) → (∀ p ∈ e.pieces, Builds ctx p) → Builds ctx e

theorem Builds.unsigned {e : Expr} (he : ctx.Builds e) (htexts : ctx.table.Textual) : e.Unsigned := by
  induction he with
  | part hparse hpart hcompile =>
      exact Formula.unsigned_of_compileWith (fun _ _ hread => unsigned_of_expand htexts hread) hcompile
        ((Formula.plainNumbers_of_parse hparse).sub hpart)
  | written hmem => exact unsigned_of_mem_writtenNumbers _ hmem
  | count count => exact .number (unsigned_count count)
  | factor power => exact .number (Decimal.Layout.unsigned_render _ _)
  | piece _ hmem ih => exact ih.piece _ hmem
  | compose hne _ ih => exact .compose hne ih

/-! ### Where literals are read -/

/-- What has no pieces and is no number comes up. -/
theorem Builds.verbatim (ctx : Context) (sql : String) : ctx.Builds (.verbatim sql) :=
  .compose (fun _ h => by cases h) (fun _ h => by cases h)

theorem Builds.cast {e : Expr} (h : ctx.Builds e) (type : String) : ctx.Builds (.cast e type) :=
  .compose (fun _ h => by cases h) (by simpa [Expr.pieces] using h)

theorem Builds.numeric {fragment : Fragment} (h : ctx.Builds fragment.expr) (t : Target) :
    ctx.Builds (t.numeric fragment) := by
  unfold Target.numeric
  split
  · exact .verbatim ctx _
  · exact h

theorem Builds.integer {fragment : Fragment} (h : ctx.Builds fragment.expr) (t : Target) :
    ctx.Builds (t.integer fragment) := by
  unfold Target.integer
  split
  · exact h
  · exact (h.numeric t).cast _

/-- The arguments of a call come up, wherever the call stands in a formula. -/
theorem builds_args {source : String} {f : Formula} {callee : Callee} {args : List Formula}
    {parts : List Compiled} (hparse : Formula.parse source = .ok f)
    (hcall : Formula.Part (.call callee args) f)
    (hparts : Formula.compileAllWith ctx.target (ctx.expand depth path) args = .ok parts) :
    ∀ fragment ∈ parts.map Compiled.fragment, ctx.Builds fragment.expr := by
  intro fragment hfragment
  obtain ⟨part, hpart, rfl⟩ := List.mem_map.1 hfragment
  obtain ⟨i, hi⟩ := List.mem_iff_getElem?.1 hpart
  obtain ⟨arg, harg, hcompile⟩ :=
    exists_getElem?_of_forall₂ (Formula.compileAllWith_eq_ok_iff.1 hparts).flip hi
  exact .part hparse ((Formula.Part.call (List.mem_of_getElem? harg) .self).trans hcall) hcompile

/-- **What a call reads an integer from comes up.**  The exponent of a power and what is taken for a whole
number are arguments of the call; so is the precision of a scale factor, which may be missing.  The number
of characters at the right of a text is an argument as a whole number, or one. -/
theorem builds_literals {source : String} {f : Formula} {g : Function} {args : List Formula}
    {parts : List Compiled} (hparse : Formula.parse source = .ok f)
    (hcall : Formula.Part (.call (.known g) args) f)
    (hparts : Formula.compileAllWith ctx.target (ctx.expand depth path) args = .ok parts) :
    let call : Call := ⟨g.signature.name, parts.map Compiled.fragment⟩
    (∀ index exponent, call.arg index = .ok exponent → ctx.Builds exponent.expr) ∧
      (∀ (index : Nat) precision, call.args[index]? = some precision → ctx.Builds precision.expr) ∧
      ∀ index, ctx.Builds (call.integerOr ctx.target index (.number "1")) := by
  intro call
  have hargs := builds_args hparse hcall hparts
  refine ⟨fun index exponent h => ?_, fun index precision h => ?_, fun index => ?_⟩
  · exact Call.arg_of_forall hargs exponent h
  · exact hargs precision (List.mem_of_getElem? h)
  · unfold Call.integerOr
    split
    · next fragment hget => exact (hargs fragment (List.mem_of_getElem? hget)).integer ctx.target
    · exact .written (by decide)

/-- A formula that has been read does not raise to the least integer. -/
theorem not_overruns_of_parse (htexts : ctx.table.Textual) {source : String} {f : Formula}
    (hparse : Formula.parse source = .ok f) : ¬ ctx.Overruns f := by
  rintro ⟨base, exponent, c, hcall, hcompile, hleast⟩
  have hpart : Formula.Part exponent f := (Formula.Part.call (by simp) .self).trans hcall
  have hbuilds : ctx.Builds c.fragment.expr := .part hparse hpart hcompile
  exact ((hbuilds.unsigned htexts).intLiteral?_eq_some_iff.1 hleast).2 rfl

/-- **An integer literal is read as its value, and its sign can be turned.**  In every expression that
comes up while formulas given as texts are compiled, a literal under any number of minus signs has a value
of 64 bits exactly when its true value is in that range and not the least one there, and then it is the
true value.  So neither its negation nor its absolute value leaves the range, and no text makes the
compiler break off. -/
theorem intLiteral_exact (ctx : Context) (htexts : ctx.table.Textual) :
    (∀ e, ctx.Builds e → ∀ n : Int64,
      (e.intLiteral? = some n ↔ e.wholeValue? = some n.toInt ∧ n ≠ Int64.minValue) ∧
        (e.intLiteral? = some n → (-n).toInt = -n.toInt ∧ n.abs.toInt = n.toInt.natAbs)) ∧
      ∀ source f, Formula.parse source = .ok f → ctx.compile f ≠ .error .overflow := by
  refine ⟨fun e he n => ?_, fun source f hparse hbreak => ?_⟩
  · have hiff := (he.unsigned htexts).intLiteral?_eq_some_iff (n := n)
    refine ⟨hiff, fun hn => ?_⟩
    obtain ⟨-, hleast⟩ := hiff.1 hn
    exact ⟨toInt_neg_of_ne_minValue hleast, toInt_abs_of_ne_minValue hleast⟩
  · obtain ⟨-, g, rfl | ⟨id, -, hholds⟩, hoverruns⟩ := overruns_of_compile hbreak
    · exact not_overruns_of_parse htexts hparse hoverruns
    · obtain ⟨source', hparse'⟩ := htexts.exists_parse hholds
      exact not_overruns_of_parse htexts hparse' hoverruns

end Context

/-! ### A literal behind a field -/

namespace Sample

def depthFields : List Field :=
  [.single "x" "x" .number .column,
    .single "n" "n" .number (.formula (.text "-(-9223372036854775807)") false)]

/-- The exponent is the largest integer of 64 bits under three minus signs, two of them in a field. -/
def depthContext : Context :=
  ⟨.ofFields "tblA" "powers" depthFields, { dialect := .sqlite, now := ⟨0⟩ }, .detached⟩

def deepest : Formula := .unary .neg (.unary .neg (.number "9223372036854775807"))

theorem parse_deepest : Formula.parse "-(-9223372036854775807)" = .ok deepest := by cbv

theorem parse_exponent : Formula.parse "POWER(\x7bx\x7d, -\x7bn\x7d)" =
    .ok (.call (.known (.numeric .power)) [.field "x", .unary .neg (.field "n")]) := by cbv

def exponent : Expr := .unary .neg (.unary .neg (.unary .neg (.number "9223372036854775807")))

theorem builds_exponent : depthContext.Builds exponent := by
  have hfield : depthContext.expand 3 [] "n" = _ :=
    Context.expand_of_formula rfl rfl List.not_mem_nil parse_deepest
  have hcompile : (Formula.unary .neg (.field "n")).compileWith depthContext.target
      (depthContext.expand 3 []) = .ok ⟨.number exponent, []⟩ := by
    rw [Formula.compileWith, Formula.compileWith, hfield]
    rfl
  exact .part parse_exponent (.call (by simp) .self) hcompile

end Sample

/-- The exponent of a power that is read through a field. -/
theorem Context.intLiteral_exact_exponent :
    Sample.depthContext.table.Textual ∧ Sample.depthContext.Builds Sample.exponent ∧
      Sample.exponent.intLiteral? = some (-9223372036854775807) ∧
      Sample.exponent.wholeValue? = some (-9223372036854775807) ∧
      (Int64.abs (-9223372036854775807)).toInt = 9223372036854775807 ∧
      Sample.depthContext.compile
        (.call (.known (.numeric .power)) [.field "x", .unary .neg (.field "n")]) ≠ .error .overflow := by
  have htexts : Sample.depthContext.table.Textual := by decide
  have hliteral : Sample.exponent.intLiteral? = some (-9223372036854775807) := by cbv
  obtain ⟨hread, hruns⟩ := intLiteral_exact Sample.depthContext htexts
  have hexact := hread _ Sample.builds_exponent (-9223372036854775807)
  exact ⟨htexts, Sample.builds_exponent, hliteral, (hexact.1.1 hliteral).1, (hexact.2 hliteral).2,
    hruns _ _ Sample.parse_exponent⟩

end ComputedFields
