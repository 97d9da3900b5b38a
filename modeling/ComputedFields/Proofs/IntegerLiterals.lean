/-
**Integer literals and their values.**

Where a whole number is asked for, the compiler looks for a literal: a number, under any number of minus
signs.  It reads the number as a signed integer of 64 bits and negates it once for every sign.  There is
one integer of 64 bits whose negation is none, the least one, and a number that carries a sign of its own
could spell it.  As long as no number does, the integers in play lie between `-(2^63 - 1)` and `2^63 - 1`,
and the literal has a value exactly when its true value lies there.

Main definitions:

* `ComputedFields.Text.whole?` — the whole number of any size that a text denotes;
* `ComputedFields.Sql.Expr.wholeValue?` — the value of a literal, of any size;
* `ComputedFields.Sql.Expr.pieces` — the expressions right inside an expression;
* `ComputedFields.Text.Unsigned`, `ComputedFields.Sql.Expr.Unsigned` — no number carries a minus sign.

Main results:

* `ComputedFields.Text.readInt64?_eq_some_iff` — a text is read as what it denotes;
* `ComputedFields.toInt_neg_of_ne_minValue`, `ComputedFields.toInt_abs_of_ne_minValue` — negation and
  absolute value away from the least integer;
* `ComputedFields.Sql.Expr.Unsigned.intLiteral?_eq_some_iff` — **the literals that have a value, and which
  one**.
-/

import Mathlib.Data.Nat.Digits.Defs
import ComputedFields.Sql.Expr

set_option relaxedAutoImplicit false
set_option autoImplicit false

namespace ComputedFields

/-! ### Texts -/

namespace Text

theorem digitsValue_eq_ofDigits (digits : List Char) :
    digitsValue digits =
      Nat.ofDigits 10 (digits.reverse.map fun digit => digit.toNat - '0'.toNat) := by
  rw [digitsValue, ← List.foldr_reverse]
  generalize digits.reverse = reversed
  induction reversed with
  | nil => rfl
  | cons digit rest ih =>
      rw [List.foldr_cons, List.map_cons, Nat.ofDigits_cons, ih, Nat.add_comm]

/-- The number that a non-empty run of decimal digits denotes: the last one counts ones, the one before
it tens, and so on. -/
def decimal? (digits : List Char) : Option Nat :=
  if digits ≠ [] ∧ digits.all Char.isDigit then
    some (Nat.ofDigits 10 (digits.reverse.map fun digit => digit.toNat - '0'.toNat))
  else none

/-- The whole number of any size that a text denotes: an optional sign, then decimal digits. -/
def whole? (s : String) : Option Int :=
  if s.toList.head? = some '-' then (decimal? s.toList.tail).map fun value => -Int.ofNat value
  else if s.toList.head? = some '+' then (decimal? s.toList.tail).map Int.ofNat
  else (decimal? s.toList).map Int.ofNat

theorem readNat?_eq_decimal? (digits : List Char) : readNat? digits = decimal? digits := by
  rw [readNat?, decimal?, digitsValue_eq_ofDigits]

theorem int64?_eq_some_iff {value : Int} {n : Int64} : int64? value = some n ↔ n.toInt = value := by
  refine ⟨toInt_of_int64?, ?_⟩
  rintro rfl
  have hrange : Int64.minValue.toInt ≤ n.toInt ∧ n.toInt ≤ Int64.maxValue.toInt :=
    ⟨n.minValue_le_toInt, n.toInt_le⟩
  rw [int64?, if_pos hrange, Int64.ofInt_toInt]

theorem readInt64?_eq_bind (s : String) : readInt64? s = (whole? s).bind int64? := by
  unfold readInt64? whole?
  split
  · next digits hs => simp [hs, readNat?_eq_decimal?, Option.bind_map]
  · next digits hs => simp [hs, readNat?_eq_decimal?, Option.bind_map]
  · next hminus hplus =>
      have hheads : ∀ c, (∀ digits, s.toList ≠ c :: digits) → s.toList.head? ≠ some c := by
        intro c hc hhead
        obtain ⟨digits, hs⟩ := List.head?_eq_some_iff.1 hhead
        exact hc digits hs
      rw [if_neg (hheads '-' hminus), if_neg (hheads '+' hplus), readNat?_eq_decimal?, Option.bind_map]
      rfl

/-- A text is read as an integer of 64 bits exactly when that is the number it denotes. -/
theorem readInt64?_eq_some_iff {s : String} {n : Int64} :
    readInt64? s = some n ↔ whole? s = some n.toInt := by
  simp only [readInt64?_eq_bind, Option.bind_eq_some_iff, int64?_eq_some_iff, exists_eq_right']

/-- The text denotes no number below zero. -/
def Unsigned (s : String) : Prop := ∀ value ∈ whole? s, 0 ≤ value

theorem unsigned_of_head?_ne {s : String} (h : s.toList.head? ≠ some '-') : Unsigned s := by
  intro value hvalue
  rw [whole?, if_neg h, ← apply_ite (Option.map _)] at hvalue
  obtain ⟨magnitude, -, rfl⟩ := Option.map_eq_some_iff.1 hvalue
  exact Int.natCast_nonneg magnitude

theorem decimal?_eq_none_of_mem {digits : List Char} {c : Char} (hc : c ∈ digits)
    (hdigit : c.isDigit = false) : decimal? digits = none := by
  rw [decimal?, if_neg]
  rintro ⟨_, hall⟩
  rw [List.all_eq_true.1 hall c hc] at hdigit
  cases hdigit

/-- A text with a character that is neither a digit nor a minus sign denotes no number below zero. -/
theorem unsigned_of_mem {s : String} {c : Char} (hc : c ∈ s.toList) (hdigit : c.isDigit = false)
    (hminus : c ≠ '-') : Unsigned s := by
  by_cases hhead : s.toList.head? = some '-'
  · obtain ⟨digits, hs⟩ := List.head?_eq_some_iff.1 hhead
    have hmem : c ∈ digits := by
      rw [hs] at hc
      exact (List.mem_cons.1 hc).resolve_left hminus
    intro value hvalue
    rw [whole?, if_pos hhead, hs, List.tail_cons, decimal?_eq_none_of_mem hmem hdigit] at hvalue
    cases hvalue
  · exact unsigned_of_head?_ne hhead

end Text

/-! ### Integers of 64 bits -/

theorem ne_minValue_iff {n : Int64} : n ≠ Int64.minValue ↔ -9223372036854775807 ≤ n.toInt := by
  have hleast : -9223372036854775808 ≤ n.toInt := n.minValue_le_toInt
  rw [Ne, ← Int64.toInt_inj, Int64.toInt_minValue]
  omega

theorem toInt_neg_of_ne_minValue {n : Int64} (h : n ≠ Int64.minValue) : (-n).toInt = -n.toInt := by
  have hlower := ne_minValue_iff.1 h
  have hupper : n.toInt ≤ 9223372036854775807 := n.toInt_le
  rw [Int64.toInt_neg]
  exact Int.bmod_eq_of_le (by omega) (by omega)

theorem neg_ne_minValue {n : Int64} (h : n ≠ Int64.minValue) : -n ≠ Int64.minValue := by
  have hupper : n.toInt ≤ 9223372036854775807 := n.toInt_le
  rw [ne_minValue_iff, toInt_neg_of_ne_minValue h]
  omega

theorem toInt_abs_of_ne_minValue {n : Int64} (h : n ≠ Int64.minValue) :
    n.abs.toInt = n.toInt.natAbs := by
  refine BitVec.toInt_abs_eq_natAbs_of_ne_intMin fun hleast => h ?_
  exact Int64.toBitVec_inj.1 hleast

namespace Sql.Expr

/-! ### Literals -/

/-- The value of a whole number of any size, under any number of minus signs. -/
def wholeValue? : Expr → Option Int
  | .number spelling => Text.whole? spelling
  | .unary .neg operand => operand.wholeValue?.map fun value => -value
  | _ => none

/-! ### Numbers without a sign -/

/-- The expressions that stand right inside an expression. -/
def pieces : Expr → List Expr
  | .bool _ | .number _ | .text _ | .typedText _ _ | .null | .column _ _ | .keyword _ | .verbatim _ => []
  | .call _ args => args
  | .binary left _ right => [left, right]
  | .chain _ operands => operands
  | .unary _ operand => [operand]
  | .cast operand _ => [operand]
  | .case branches otherwise =>
      branches.map Prod.fst ++ branches.map Prod.snd ++ otherwise.toList

/-- No number of the expression carries a minus sign; minus signs are operators. -/
inductive Unsigned : Expr → Prop where
  | number {spelling : String} : Text.Unsigned spelling → Unsigned (.number spelling)
  | compose {e : Expr} :
      (∀ spelling, e ≠ .number spelling) → (∀ piece ∈ e.pieces, Unsigned piece) → Unsigned e

variable {e left right operand : Expr}

theorem unsigned_number {spelling : String} :
    (number spelling).Unsigned ↔ Text.Unsigned spelling := by
  refine ⟨fun h => ?_, .number⟩
  cases h with
  | number h => exact h
  | compose hne _ => exact absurd rfl (hne spelling)

theorem Unsigned.piece (h : e.Unsigned) : ∀ piece ∈ e.pieces, piece.Unsigned := by
  cases h with
  | number _ => simp [pieces]
  | compose _ hpieces => exact hpieces

theorem unsigned_iff_pieces (hne : ∀ spelling, e ≠ .number spelling) :
    e.Unsigned ↔ ∀ piece ∈ e.pieces, piece.Unsigned :=
  ⟨Unsigned.piece, .compose hne⟩

section

variable {name type : String} {args operands : List Expr} {op : Op} {sign : UnaryOp}
  {branches : List (Expr × Expr)} {otherwise : Option Expr}

@[simp] theorem unsigned_bool (value : Bool) : (bool value).Unsigned :=
  .compose (by simp) (by simp [pieces])

@[simp] theorem unsigned_text (value : String) : (text value).Unsigned :=
  .compose (by simp) (by simp [pieces])

@[simp] theorem unsigned_typedText (value type : String) : (typedText value type).Unsigned :=
  .compose (by simp) (by simp [pieces])

@[simp] theorem unsigned_null : null.Unsigned := .compose (by simp) (by simp [pieces])

@[simp] theorem unsigned_column (rowAlias : Option String) (name : String) :
    (column rowAlias name).Unsigned :=
  .compose (by simp) (by simp [pieces])

@[simp] theorem unsigned_keyword (name : String) : (keyword name).Unsigned :=
  .compose (by simp) (by simp [pieces])

@[simp] theorem unsigned_verbatim (sql : String) : (verbatim sql).Unsigned :=
  .compose (by simp) (by simp [pieces])

@[simp] theorem unsigned_call : (call name args).Unsigned ↔ ∀ arg ∈ args, arg.Unsigned :=
  unsigned_iff_pieces (by simp)

@[simp] theorem unsigned_binary : (binary left op right).Unsigned ↔ left.Unsigned ∧ right.Unsigned := by
  rw [unsigned_iff_pieces (by simp)]
  simp [pieces]

@[simp] theorem unsigned_chain :
    (chain op operands).Unsigned ↔ ∀ operand ∈ operands, operand.Unsigned :=
  unsigned_iff_pieces (by simp)

@[simp] theorem unsigned_unary : (unary sign operand).Unsigned ↔ operand.Unsigned := by
  rw [unsigned_iff_pieces (by simp)]
  simp [pieces]

@[simp] theorem unsigned_cast : (cast operand type).Unsigned ↔ operand.Unsigned := by
  rw [unsigned_iff_pieces (by simp)]
  simp [pieces]

@[simp] theorem unsigned_case : (case branches otherwise).Unsigned ↔
    (∀ branch ∈ branches, branch.1.Unsigned ∧ branch.2.Unsigned) ∧ ∀ e ∈ otherwise, e.Unsigned := by
  rw [unsigned_iff_pieces (by simp), pieces]
  simp only [List.forall_mem_append, List.forall_mem_map, forall_and, Option.mem_toList, Option.mem_def]

theorem unsigned_append (op : Op) (hleft : left.Unsigned) (hright : right.Unsigned) :
    (left.append op right).Unsigned := by
  unfold append
  split
  · split
    · rw [unsigned_chain] at hleft ⊢
      exact List.forall_mem_append.2 ⟨hleft, List.forall_mem_singleton.2 hright⟩
    · simp [hleft, hright]
  · simp [hleft, hright]

end

/-- **The literals that have a value, and which one**: where no number carries a minus sign, those whose
value is in the range of 64 bits and not the least one there, and it is that value. -/
theorem Unsigned.intLiteral?_eq_some_iff (h : e.Unsigned) {n : Int64} :
    e.intLiteral? = some n ↔ e.wholeValue? = some n.toInt ∧ n ≠ Int64.minValue := by
  -- the induction is along the minus signs
  fun_induction intLiteral? e generalizing n with
  | case1 spelling =>
      rw [wholeValue?, Text.readInt64?_eq_some_iff, iff_self_and]
      intro hvalue
      have hnonneg := unsigned_number.1 h _ hvalue
      rw [ne_minValue_iff]
      omega
  | case2 operand ih =>
      have hoperand : operand.Unsigned := h.piece operand (by simp [pieces])
      rw [wholeValue?, Option.map_eq_some_iff, Option.map_eq_some_iff]
      constructor
      · rintro ⟨m, hm, rfl⟩
        obtain ⟨hvalue, hleast⟩ := (ih hoperand).1 hm
        exact ⟨⟨m.toInt, hvalue, (toInt_neg_of_ne_minValue hleast).symm⟩, neg_ne_minValue hleast⟩
      · rintro ⟨⟨value, hvalue, hneg⟩, hleast⟩
        have hback : (-n).toInt = value := by
          rw [toInt_neg_of_ne_minValue hleast]
          omega
        refine ⟨-n, (ih hoperand).2 ⟨hback ▸ hvalue, neg_ne_minValue hleast⟩, Int64.neg_neg⟩
  | case3 e hnumber hneg =>
      have hnone : e.wholeValue? = none := by
        unfold wholeValue?
        split
        · next spelling => exact (hnumber spelling rfl).elim
        · next operand => exact (hneg operand rfl).elim
        · rfl
      simp [hnone]

end Sql.Expr

end ComputedFields
