/-
**How numbers are spelled in a formula that has been read.**

A tree can hold any text in the place of a number, and the compiler copies it.  The reader fills that
place from a token only, and the scanner makes a number of digits with at most one point, so every
number of a formula that has been read is made of digits and points.

Main definitions:

* `ComputedFields.IsSpelling` — digits and points;
* `ComputedFields.Formula.PlainNumbers` — all numbers of a formula are spelled so.

Main results:

* `ComputedFields.Formula.keeps_plainNumbers` — the reader makes such numbers;
* `ComputedFields.Formula.plainNumbers_of_parse` — **the numbers of a formula that has been read are
  digits and points**.
-/

import ComputedFields.Proofs.Reading

set_option relaxedAutoImplicit false
set_option autoImplicit false

namespace ComputedFields

/-- The text is made of digits and points. -/
def IsSpelling (text : List Char) : Prop := ∀ c ∈ text, c.isDigit = true ∨ c = '.'

theorem IsNumber.isSpelling {text : List Char} (h : IsNumber text) : IsSpelling text := by
  cases h with
  | whole hdigits => exact fun c hc => .inl (hdigits c hc)
  | point hdigits hfraction =>
      intro c hc
      rcases List.mem_append.1 hc with hc | hc
      · exact .inl (hdigits c hc)
      · rcases List.mem_cons.1 hc with rfl | hc
        · exact .inr rfl
        · exact .inl (hfraction c hc)

/-! ### The numbers of a formula -/

/-- All numbers of the formula are spelled with digits and points. -/
def Formula.PlainNumbers (f : Formula) : Prop :=
  ∀ spelling, Formula.Part (.number spelling) f → IsSpelling spelling.toList

/-! ### Formulas that have been read -/

/-- The reader makes numbers of digits and points. -/
theorem Formula.keeps_plainNumbers : Parser.Keeps Token.WellSpelled fun f =>
    ∀ spelling, f = .number spelling → IsSpelling spelling.toList where
  bool _ := by
    rintro spelling ⟨⟩
  null := by
    rintro spelling ⟨⟩
  number {token} htoken hkind := by
    rintro spelling ⟨⟩
    rw [Token.WellSpelled, hkind] at htoken
    rw [String.toList_ofList, Token.contents, hkind]
    exact htoken.2.isSpelling
  text _ := by
    rintro spelling ⟨⟩
  field _ _ := by
    rintro spelling ⟨⟩
  call _ _ _ := by
    rintro spelling ⟨⟩
  unary _ := by
    rintro spelling ⟨⟩
  binary _ _ := by
    rintro spelling ⟨⟩
  chain _ _ _ := by
    rintro spelling ⟨⟩

/-- **The numbers of a formula that has been read are digits and points.** -/
theorem Formula.plainNumbers_of_parse {source : String} {f : Formula}
    (h : Formula.parse source = .ok f) : f.PlainNumbers :=
  fun spelling hpart => Formula.part_of_parse keeps_plainNumbers h hpart spelling rfl

end ComputedFields
