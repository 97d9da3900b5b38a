/-
**The numbers of compiled expressions carry no sign.**

A number of SQL comes from three places: it is spelled in a formula, where it is made of digits and
points; it is a constant of the translation; or it is a power of ten that was computed beforehand, whose
text has a point or an exponent and so is no whole number.  A minus sign is always an operator, and all
operators and functions keep it so.

Main definitions:

* `ComputedFields.writtenNumbers` — the constants of the translation.

Main results:

* `ComputedFields.Decimal.Layout.unsigned_render` — a computed power of ten is no whole number;
* `ComputedFields.Target.unsigned_binary`, `ComputedFields.Target.unsigned_unary` — **an operator brings in
  no sign**;
* `ComputedFields.Function.apply_unsigned` — **nor does a call**.
-/

import ComputedFields.Proofs.CompiledWords
import ComputedFields.Proofs.IntegerLiterals
import ComputedFields.Proofs.NumberSpelling

set_option relaxedAutoImplicit false
set_option autoImplicit false

namespace ComputedFields

open Sql (Expr)

/-! ### Numbers -/

theorem unsigned_of_isSpelling {s : String} (h : IsSpelling s.toList) : Text.Unsigned s := by
  refine Text.unsigned_of_head?_ne fun hhead => ?_
  rcases h '-' (List.mem_of_head? hhead) with hdigit | hpoint
  · cases hdigit
  · cases hpoint

/-- The numbers that the translation itself writes, except computed ones. -/
def writtenNumbers : List String :=
  ["0", "1", "2", "3", "4", "6", "7", "10", "12", "1.0", "2.0", "10.0"]

theorem unsigned_of_mem_writtenNumbers : ∀ s ∈ writtenNumbers, (Expr.number s).Unsigned := by
  have hheads : ∀ s ∈ writtenNumbers, s.toList.head? ≠ some '-' := by decide
  exact fun s hs => .number (Text.unsigned_of_head?_ne (hheads s hs))

@[simp] theorem unsigned_writtenNumbers :
    (Expr.number "0").Unsigned ∧ (Expr.number "1").Unsigned ∧ (Expr.number "2").Unsigned ∧
      (Expr.number "3").Unsigned ∧ (Expr.number "4").Unsigned ∧ (Expr.number "6").Unsigned ∧
      (Expr.number "7").Unsigned ∧ (Expr.number "10").Unsigned ∧ (Expr.number "12").Unsigned ∧
      (Expr.number "1.0").Unsigned ∧ (Expr.number "2.0").Unsigned ∧ (Expr.number "10.0").Unsigned := by
  simpa [writtenNumbers] using unsigned_of_mem_writtenNumbers

/-- The number of arguments of a mean has a point. -/
theorem unsigned_count (count : Nat) : Text.Unsigned (toString count ++ ".0") :=
  Text.unsigned_of_mem (c := '.') (by simp) rfl (by decide)

namespace Decimal

theorem Scientific.mem_positional (s : Scientific) : '.' ∈ s.positional.toList := by
  unfold positional
  simp only
  split
  · simp
  · split <;> simp

theorem Scientific.mem_exponential (signed : Bool) (s : Scientific) :
    'e' ∈ (s.exponential signed).toList := by
  unfold exponential
  simp

theorem Layout.exists_mem_renderDecimal (layout : Layout) (s : Scientific) :
    ∃ c ∈ (layout.renderDecimal s).toList, c.isDigit = false ∧ c ≠ '-' := by
  unfold renderDecimal
  split
  · exact ⟨'.', s.mem_positional, rfl, by decide⟩
  · exact ⟨'e', s.mem_exponential _, rfl, by decide⟩

/-- A number with a point or an exponent is no whole number, and neither is an infinite one. -/
theorem Layout.unsigned_render (layout : Layout) (x : Float) : Text.Unsigned (layout.render x) := by
  have hsigned (magnitude : String)
      (h : ∃ c ∈ magnitude.toList, c.isDigit = false ∧ c ≠ '-') :
      Text.Unsigned ((if 2 * x.toBits.toNat < UInt64.size then "" else "-") ++ magnitude) := by
    obtain ⟨c, hc, hdigit, hminus⟩ := h
    refine Text.unsigned_of_mem ?_ hdigit hminus
    rw [String.toList_append]
    exact List.mem_append_right _ hc
  by_cases hinf : x.abs.isInf = true
  · simp only [render, hinf, if_true]
    exact hsigned "inf" ⟨'i', by decide, rfl, by decide⟩
  by_cases hzero : (x.abs == 0) = true
  · simp only [render, hinf, hzero, if_true]
    exact hsigned "0.0" ⟨'.', by decide, rfl, by decide⟩
  · simp only [render, hinf, hzero]
    exact hsigned _ (layout.exists_mem_renderDecimal _)

end Decimal

/-! ### Operators -/

namespace Target

variable {t : Target} {f l r : Fragment} {x y : Expr}

@[simp] theorem unsigned_column (t : Target) (name : String) : (t.column name).Unsigned := by
  unfold column
  split <;> simp

@[simp] theorem unsigned_stringLiteral (t : Target) (value : String) :
    (t.stringLiteral value).Unsigned := by
  unfold stringLiteral
  split <;> simp

theorem unsigned_currentTime (t : Target) : t.currentTime.expr.Unsigned := by
  unfold currentTime
  split <;> simp [Fragment.dateTime]

theorem unsigned_currentDay (t : Target) : t.currentDay.expr.Unsigned := by
  unfold currentDay
  split <;> simp [Fragment.dateTime]

theorem unsigned_text (t : Target) (h : f.expr.Unsigned) : (t.text f).Unsigned := by
  unfold text
  split
  · simp
  · split <;> simp [h]

theorem unsigned_numeric (t : Target) (h : f.expr.Unsigned) : (t.numeric f).Unsigned := by
  unfold numeric
  split <;> simp [h]

theorem unsigned_truthy (h : f.expr.Unsigned) : (truthy f).Unsigned := by
  unfold truthy
  split
  · exact h
  · simp
  · split <;> simp
  · simp
  · simp

theorem unsigned_integer (t : Target) (h : f.expr.Unsigned) : (t.integer f).Unsigned := by
  unfold integer
  split
  · exact h
  · simpa using t.unsigned_numeric h

theorem unsigned_concatOperand (t : Target) (h : f.expr.Unsigned) : (t.concatOperand f).Unsigned := by
  simpa [concatOperand] using t.unsigned_text h

theorem unsigned_ceil (t : Target) (h : x.Unsigned) : (t.ceil x).Unsigned := by
  unfold ceil
  split <;> simp [h]

theorem unsigned_floor (t : Target) (h : x.Unsigned) : (t.floor x).Unsigned := by
  unfold floor
  split <;> simp [h]

theorem unsigned_unrolledPower (h : x.Unsigned) (exponent : Int) : (unrolledPower x exponent).Unsigned := by
  have hfactors : ∀ factor ∈ List.replicate exponent.natAbs x, factor.Unsigned :=
    fun factor hfactor => List.eq_of_mem_replicate hfactor ▸ h
  unfold unrolledPower
  split
  · simp
  · split <;> simpa using fun _ => h

theorem unsigned_computedPower (t : Target) (hx : x.Unsigned) (hf : f.expr.Unsigned) :
    (t.computedPower x f).Unsigned := by
  unfold computedPower
  split
  · simp [hx, t.unsigned_numeric hf]
  · simp

theorem power_unsigned (t : Target) (hx : x.Unsigned) (hf : f.expr.Unsigned) :
    Yields Expr.Unsigned (t.power x f) := by
  rcases t.power_cases x f with ⟨-, -, hpower⟩ | ⟨-, hpower | ⟨n, hpower⟩⟩
  · exact hpower ▸ .error _
  · exact hpower ▸ .ok (t.unsigned_computedPower hx hf)
  · exact hpower ▸ .ok (unsigned_unrolledPower hx _)

theorem unsigned_position (t : Target) (hx : x.Unsigned) (hy : y.Unsigned) : (t.position x y).Unsigned := by
  unfold position
  split <;> simp [hx, hy]

theorem unsigned_scaleFactor (t : Target) {precision : Option Fragment}
    (h : ∀ p ∈ precision, p.expr.Unsigned) : (t.scaleFactor precision).Unsigned := by
  unfold scaleFactor
  split
  · simp
  · next p =>
      split
      · exact .number (Decimal.Layout.unsigned_render _ _)
      · exact t.unsigned_computedPower (by simp) (h p rfl)

theorem unsigned_concat (t : Target) (hl : l.expr.Unsigned) (hr : r.expr.Unsigned) :
    (t.concat l r).expr.Unsigned := by
  refine Expr.unsigned_append .concat ?_ (t.unsigned_concatOperand hr)
  split
  · next hexpr _ => exact hexpr ▸ hl
  · exact t.unsigned_concatOperand hl

theorem unsigned_compare (t : Target) (op : Sql.Op) (hl : l.expr.Unsigned) (hr : r.expr.Unsigned) :
    (t.compare op l r).expr.Unsigned := by
  unfold compare
  split <;> simp [Fragment.boolean, hl, hr, unsigned_numeric]

theorem unsigned_modulo (t : Target) (hl : l.expr.Unsigned) (hr : r.expr.Unsigned) :
    (t.modulo l r).expr.Unsigned := by
  unfold modulo
  split <;> simp [Fragment.number, hl, hr, unsigned_numeric]

/-- **An operator brings in no sign**, if its operands have none. -/
theorem unsigned_binary (t : Target) (op : BinaryOp) (hl : l.expr.Unsigned) (hr : r.expr.Unsigned) :
    (t.binary l op r).expr.Unsigned := by
  have hnumbers := And.intro (t.unsigned_numeric hl) (t.unsigned_numeric hr)
  have hconditions := And.intro (unsigned_truthy hl) (unsigned_truthy hr)
  cases op with
  | add =>
      rw [binary]
      split
      · exact t.unsigned_concat hl hr
      · exact Expr.unsigned_append .add hnumbers.1 hnumbers.2
  | concat => exact t.unsigned_concat hl hr
  | sub | mul | div => simpa [binary, Fragment.number] using hnumbers
  | mod => exact t.unsigned_modulo hl hr
  | eq | ne | lt | le | gt | ge => exact t.unsigned_compare _ hl hr
  | and | or => simpa [binary, Fragment.boolean] using hconditions

theorem unsigned_unary (t : Target) (op : UnaryOp) (h : f.expr.Unsigned) :
    (t.unary op f).expr.Unsigned := by
  cases op with
  | not => simpa [unary, Fragment.boolean] using unsigned_truthy h
  | neg => simpa [unary, Fragment.number] using t.unsigned_numeric h

end Target

/-! ### Arguments of a call -/

namespace Call

variable {t : Target} {name : String} {args : List Fragment} {index : Nat}

theorem numeric_unsigned (hargs : ∀ a ∈ args, a.expr.Unsigned) :
    Yields Expr.Unsigned (numeric t ⟨name, args⟩ index) :=
  (arg_of_forall hargs).bind fun _ h => .ok (t.unsigned_numeric h)

theorem text_unsigned (hargs : ∀ a ∈ args, a.expr.Unsigned) :
    Yields Expr.Unsigned (text t ⟨name, args⟩ index) :=
  (arg_of_forall hargs).bind fun _ h => .ok (t.unsigned_text h)

theorem integer_unsigned (hargs : ∀ a ∈ args, a.expr.Unsigned) :
    Yields Expr.Unsigned (integer t ⟨name, args⟩ index) :=
  (arg_of_forall hargs).bind fun _ h => .ok (t.unsigned_integer h)

theorem integerOr_unsigned (hargs : ∀ a ∈ args, a.expr.Unsigned) {default : Expr}
    (hdefault : default.Unsigned) : (integerOr t ⟨name, args⟩ index default).Unsigned := by
  unfold integerOr
  split
  · next f hf => exact t.unsigned_integer (hargs f (List.mem_of_getElem? hf))
  · exact hdefault

end Call

/-- An optional argument in whatever form the function takes it. -/
theorem unsigned_of_mem_map_getElem? {args : List Fragment} (hargs : ∀ a ∈ args, a.expr.Unsigned)
    {form : Fragment → Expr} (hform : ∀ a, a.expr.Unsigned → (form a).Unsigned) (index : Nat) :
    ∀ e ∈ args[index]?.map form, e.Unsigned := by
  intro e he
  obtain ⟨a, ha, rfl⟩ := Option.map_eq_some_iff.1 he
  exact hform a (forall_mem_getElem? hargs index a ha)

/-! ### Functions from numbers to a number -/

theorem unsigned_signed {value magnitude : Expr} (hvalue : value.Unsigned) (h : magnitude.Unsigned) :
    (signed value magnitude).Unsigned := by
  simp [signed, hvalue, h]

namespace NumericFunction

variable {t : Target} {value : Expr} {args : List Fragment}

theorem unsigned_roundedAt {round : Expr → Expr} (hround : ∀ e, e.Unsigned → (round e).Unsigned)
    {factor : Expr} (hvalue : value.Unsigned) (hfactor : factor.Unsigned) :
    (roundedAt round value factor).Unsigned := by
  have hscaled : (round (.binary (.call "ABS" [value]) .mul factor)).Unsigned :=
    hround _ (by simp [hvalue, hfactor])
  exact unsigned_signed hvalue (by simp [hscaled, hfactor])

theorem unsigned_roundedTo {round : Expr → Expr} (hround : ∀ e, e.Unsigned → (round e).Unsigned)
    {significance : Option Expr} (hvalue : value.Unsigned) (h : ∀ s ∈ significance, s.Unsigned) :
    (roundedTo round value significance).Unsigned := by
  cases significance with
  | none => exact hround _ hvalue
  | some s =>
      have hquotient : (round (.binary value .div s)).Unsigned := hround _ (by simp [hvalue, h s rfl])
      simp [roundedTo, hquotient, h s rfl]

theorem unsigned_evenAbove (t : Target) (hvalue : value.Unsigned) : (evenAbove t value).Unsigned := by
  have hhalf := t.unsigned_ceil (x := .binary (.call "ABS" [value]) .div (.number "2.0"))
    (by simp [hvalue])
  exact unsigned_signed hvalue (by simp [hhalf])

theorem unsigned_oddAbove (t : Target) (hvalue : value.Unsigned) : (oddAbove t value).Unsigned := by
  have hhalf := t.unsigned_ceil
    (x := .binary (.binary (.call "ABS" [value]) .add (.number "1")) .div (.number "2.0"))
    (by simp [hvalue])
  exact unsigned_signed hvalue (by simp [hhalf])

theorem unsigned_squareRoot (d : Dialect) (hvalue : value.Unsigned) : (squareRoot d value).Unsigned := by
  cases d <;> simp [squareRoot, hvalue]

theorem unsigned_extremum (d : Dialect) (greatest : Bool) {values : List Expr}
    (h : ∀ e ∈ values, e.Unsigned) : (extremum d greatest values).Unsigned := by
  cases d <;> cases greatest <;> simpa [extremum] using h

theorem unsigned_rounded (d : Dialect) {precision : Expr} (hvalue : value.Unsigned)
    (h : precision.Unsigned) : (rounded d value precision).Unsigned := by
  cases d <;> simp [rounded, hvalue, h]

theorem unsigned_logarithm (d : Dialect) {base : Expr} (hbase : base.Unsigned)
    (hvalue : value.Unsigned) : (logarithm d base value).Unsigned := by
  cases d <;> simp [logarithm, hvalue, hbase]

theorem apply_unsigned (f : NumericFunction) (hargs : ∀ a ∈ args, a.expr.Unsigned) :
    Yields (fun r : Fragment => r.expr.Unsigned) (f.apply t args) := by
  have hnumbers : ∀ e ∈ args.map t.numeric, e.Unsigned :=
    List.forall_mem_map.2 fun a ha => t.unsigned_numeric (hargs a ha)
  have hsecond := unsigned_of_mem_map_getElem? hargs (fun _ => t.unsigned_numeric) 1
  have hsum : (Expr.chain .add (args.map t.numeric)).Unsigned := Expr.unsigned_chain.2 hnumbers
  have hscale := t.unsigned_scaleFactor (forall_mem_getElem? hargs 1)
  have hvalue {make : Expr → Fragment} (hmake : ∀ e, e.Unsigned → (make e).expr.Unsigned) :
      Yields (fun r : Fragment => r.expr.Unsigned)
        (do let value ← Call.numeric t ⟨f.signature.name, args⟩ 0; .ok (make value)) :=
    (Call.numeric_unsigned hargs).bind fun value h => .ok (hmake value h)
  cases f with
  | sum => exact .ok hsum
  | average => exact .ok (Expr.unsigned_binary.2 ⟨hsum, .number (unsigned_count args.length)⟩)
  | max | min =>
      unfold apply
      simp only
      split
      · next only honly => exact .ok (hnumbers only (by simp [honly]))
      · exact .ok (unsigned_extremum _ _ hnumbers)
  | round =>
      exact hvalue fun _ h => unsigned_rounded _ h (Call.integerOr_unsigned hargs (by simp))
  | roundUp => exact hvalue fun _ h => unsigned_roundedAt (fun _ => t.unsigned_ceil) h hscale
  | roundDown => exact hvalue fun _ h => unsigned_roundedAt (fun _ => t.unsigned_floor) h hscale
  | ceiling => exact hvalue fun _ h => unsigned_roundedTo (fun _ => t.unsigned_ceil) h hsecond
  | floor => exact hvalue fun _ h => unsigned_roundedTo (fun _ => t.unsigned_floor) h hsecond
  | even => exact hvalue fun _ => unsigned_evenAbove t
  | odd => exact hvalue fun _ => unsigned_oddAbove t
  | int => exact hvalue fun _ => t.unsigned_floor
  | abs | exp => exact hvalue fun _ h => Expr.unsigned_call.2 (by simpa using h)
  | sqrt => exact hvalue fun _ => unsigned_squareRoot _
  | power =>
      exact (Call.numeric_unsigned hargs).bind fun base hbase =>
        (Call.arg_of_forall hargs).bind fun exponent hexponent =>
        (t.power_unsigned hbase hexponent).bind fun _ hvalue => .ok hvalue
  | log =>
      refine hvalue fun _ h => unsigned_logarithm _ ?_ h
      cases hbase : args[1]?.map t.numeric with
      | none => simp
      | some base => exact hsecond base hbase
  | mod =>
      exact (Call.arg_of_forall hargs).bind fun l hl =>
        (Call.arg_of_forall hargs).bind fun r hr => .ok (t.unsigned_modulo hl hr)
  | value => exact .bind_any fun _ => .ok (Expr.unsigned_verbatim _)

end NumericFunction

/-! ### Functions on text -/

namespace TextFunction

variable {t : Target} {value : Expr} {args : List Fragment}

theorem unsigned_found (t : Target) {needle haystack : Expr} {start : Option Expr}
    (hneedle : needle.Unsigned) (hhaystack : haystack.Unsigned) (hstart : ∀ s ∈ start, s.Unsigned) :
    (found t needle haystack start).Unsigned := by
  cases start with
  | none => exact t.unsigned_position hhaystack hneedle
  | some s =>
      have hplace := t.unsigned_position (x := .call "SUBSTR" [haystack, s])
        (by simp [hhaystack, hstart s rfl]) hneedle
      simp [found, hplace, hstart s rfl]

theorem unsigned_leftPart (d : Dialect) {count : Expr} (hvalue : value.Unsigned)
    (hcount : count.Unsigned) : (leftPart d value count).Unsigned := by
  cases d <;> simp [leftPart, hvalue, hcount]

theorem unsigned_rightPart (t : Target) {count : Expr} (hvalue : value.Unsigned)
    (hcount : count.Unsigned) : (rightPart t value count).Unsigned := by
  unfold rightPart
  split
  · simp [hvalue, hcount]
  · split <;> simp [hvalue, hcount]

theorem unsigned_overlaid (d : Dialect) {start count replacement : Expr} (hvalue : value.Unsigned)
    (hstart : start.Unsigned) (hcount : count.Unsigned) (hreplacement : replacement.Unsigned) :
    (overlaid d value start count replacement).Unsigned := by
  cases d <;> simp [overlaid, hvalue, hstart, hcount, hreplacement]

theorem unsigned_repeated (d : Dialect) {count : Expr} (hvalue : value.Unsigned)
    (hcount : count.Unsigned) : (repeated d value count).Unsigned := by
  cases d <;> simp [repeated, hvalue, hcount]

theorem unsigned_urlEncoded (t : Target) (hvalue : value.Unsigned) : (urlEncoded t value).Unsigned := by
  unfold urlEncoded
  induction urlEscapes generalizing value with
  | nil => exact hvalue
  | cons entry rest ih => exact ih (by simp [hvalue])

theorem unsigned_foldl_concat (t : Target) {first : Fragment} (hfirst : first.expr.Unsigned)
    (hargs : ∀ a ∈ args, a.expr.Unsigned) : (args.foldl t.concat first).expr.Unsigned := by
  induction args generalizing first with
  | nil => exact hfirst
  | cons a rest ih =>
      rw [List.forall_mem_cons] at hargs
      exact ih (t.unsigned_concat hfirst hargs.1) hargs.2

theorem apply_unsigned (f : TextFunction) (hargs : ∀ a ∈ args, a.expr.Unsigned) :
    Yields (fun r : Fragment => r.expr.Unsigned) (f.apply t args) := by
  have hthird := unsigned_of_mem_map_getElem? hargs (fun _ => t.unsigned_integer) 2
  have hvalue {make : Expr → Fragment} (hmake : ∀ e, e.Unsigned → (make e).expr.Unsigned) :
      Yields (fun r : Fragment => r.expr.Unsigned)
        (do let value ← Call.text t ⟨f.signature.name, args⟩ 0; .ok (make value)) :=
    (Call.text_unsigned hargs).bind fun value h => .ok (hmake value h)
  cases f with
  | concatenate =>
      exact (Call.arg_of_forall hargs).bind fun first hfirst =>
        .ok (unsigned_foldl_concat t (t.unsigned_concatOperand hfirst) fun a ha =>
          hargs a (List.mem_of_mem_drop ha))
  | find =>
      exact (Call.text_unsigned hargs).bind fun needle hneedle =>
        (Call.text_unsigned hargs).bind fun haystack hhaystack =>
          .ok (unsigned_found t hneedle hhaystack hthird)
  | search =>
      exact (Call.text_unsigned hargs).bind fun needle hneedle =>
        (Call.text_unsigned hargs).bind fun haystack hhaystack =>
          .ok (unsigned_found t (Expr.unsigned_call.2 (by simpa using hneedle))
            (Expr.unsigned_call.2 (by simpa using hhaystack)) hthird)
  | mid =>
      exact (Call.text_unsigned hargs).bind fun value hvalue =>
        (Call.integer_unsigned hargs).bind fun start hstart =>
          (Call.integer_unsigned hargs).bind fun count hcount =>
            .ok (Expr.unsigned_call.2 (by simp [hvalue, hstart, hcount]))
  | left => exact hvalue fun _ h => unsigned_leftPart _ h (Call.integerOr_unsigned hargs (by simp))
  | right => exact hvalue fun _ h => unsigned_rightPart t h (Call.integerOr_unsigned hargs (by simp))
  | replace =>
      exact (Call.text_unsigned hargs).bind fun value hvalue =>
        (Call.integer_unsigned hargs).bind fun start hstart =>
          (Call.integer_unsigned hargs).bind fun count hcount =>
            (Call.text_unsigned hargs).bind fun replacement hreplacement =>
              .ok (unsigned_overlaid _ hvalue hstart hcount hreplacement)
  | regexpReplace =>
      unfold apply
      simp only
      split
      · exact .error _
      · exact (Call.text_unsigned hargs).bind fun value hvalue =>
          (Call.text_unsigned hargs).bind fun pattern hpattern =>
            (Call.text_unsigned hargs).bind fun replacement hreplacement =>
              .ok (Expr.unsigned_call.2 (by simp [hvalue, hpattern, hreplacement]))
  | substitute =>
      exact (Call.text_unsigned hargs).bind fun value hvalue =>
        (Call.text_unsigned hargs).bind fun old hold =>
          (Call.text_unsigned hargs).bind fun new hnew =>
            .ok (Expr.unsigned_call.2 (by simp [hvalue, hold, hnew]))
  | lower | upper | trim | len => exact hvalue fun _ h => Expr.unsigned_call.2 (by simpa using h)
  | rept =>
      exact (Call.text_unsigned hargs).bind fun value hvalue =>
        (Call.integer_unsigned hargs).bind fun count hcount =>
          .ok (unsigned_repeated _ hvalue hcount)
  | t =>
      refine (Call.arg_of_forall hargs).bind fun value hvalue => .ok ?_
      split
      · exact hvalue
      · exact t.unsigned_stringLiteral ""
  | encodeUrlComponent => exact hvalue fun _ => unsigned_urlEncoded t

end TextFunction

/-! ### Conditions and choices -/

theorem Target.unsigned_unifyTo (t : Target) (type : ValueType) {f : Fragment} (h : f.expr.Unsigned) :
    (t.unifyTo type f).expr.Unsigned := by
  unfold unifyTo
  split
  · split <;> simp [h]
  · split <;> simp [h]
  · split <;> simp [h]
  · split
    · exact h
    · exact t.unsigned_text h
  · exact h

theorem unsigned_choice {branches : List (Expr × Expr)} {otherwise : Option Expr}
    (hbranches : ∀ branch ∈ branches, branch.1.Unsigned ∧ branch.2.Unsigned)
    (hotherwise : ∀ e ∈ otherwise, e.Unsigned) : (choice branches otherwise).Unsigned := by
  unfold choice
  split
  · next inner last =>
      obtain ⟨hinner, hlast⟩ := Expr.unsigned_case.1 (hotherwise _ rfl)
      exact Expr.unsigned_case.2 ⟨List.forall_mem_append.2 ⟨hbranches, hinner⟩, hlast⟩
  · exact Expr.unsigned_case.2 ⟨hbranches, hotherwise⟩

namespace LogicalFunction

variable {t : Target} {args : List Fragment}

theorem unsigned_chooseIf (t : Target) {condition result : Fragment} {otherwise : Option Fragment}
    (hcondition : condition.expr.Unsigned) (hresult : result.expr.Unsigned)
    (hotherwise : ∀ f ∈ otherwise, f.expr.Unsigned) :
    (chooseIf t condition result otherwise).expr.Unsigned := by
  refine unsigned_choice ?_ ?_
  · simpa using ⟨Target.unsigned_truthy hcondition, t.unsigned_unifyTo _ hresult⟩
  · intro e he
    obtain ⟨f, hf, rfl⟩ := Option.map_eq_some_iff.1 he
    exact t.unsigned_unifyTo _ (hotherwise f hf)

theorem unsigned_pairUp (hargs : ∀ a ∈ args, a.expr.Unsigned) :
    (∀ pair ∈ (pairUp args).1, pair.1.expr.Unsigned ∧ pair.2.expr.Unsigned) ∧
      ∀ f ∈ (pairUp args).2, f.expr.Unsigned := by
  fun_induction pairUp args with
  | case1 => simp
  | case2 last => simpa using hargs
  | case3 pattern result rest ih =>
      simp only [List.forall_mem_cons] at hargs ⊢
      obtain ⟨hpattern, hresult, hrest⟩ := hargs
      exact ⟨⟨⟨hpattern, hresult⟩, (ih hrest).1⟩, (ih hrest).2⟩

theorem unsigned_chooseEqual (t : Target) {subject : Fragment} (hsubject : subject.expr.Unsigned)
    (hargs : ∀ a ∈ args, a.expr.Unsigned) : (chooseEqual t subject args).expr.Unsigned := by
  obtain ⟨hpairs, hdefault⟩ := unsigned_pairUp hargs
  refine unsigned_choice ?_ ?_
  · exact List.forall_mem_map.2 fun pair hpair =>
      ⟨t.unsigned_compare .eq hsubject (hpairs pair hpair).1,
        t.unsigned_unifyTo _ (hpairs pair hpair).2⟩
  · intro e he
    obtain ⟨f, hf, rfl⟩ := Option.map_eq_some_iff.1 he
    exact t.unsigned_unifyTo _ (hdefault f hf)

theorem apply_unsigned (f : LogicalFunction) (hargs : ∀ a ∈ args, a.expr.Unsigned) :
    Yields (fun r : Fragment => r.expr.Unsigned) (f.apply t args) := by
  have hconditions : ∀ e ∈ args.map Target.truthy, e.Unsigned :=
    List.forall_mem_map.2 fun a ha => Target.unsigned_truthy (hargs a ha)
  cases f with
  | ifElse =>
      exact (Call.arg_of_forall hargs).bind fun condition hcondition =>
        (Call.arg_of_forall hargs).bind fun result hresult =>
          .ok (unsigned_chooseIf t hcondition hresult (forall_mem_getElem? hargs 2))
  | switch =>
      exact (Call.arg_of_forall hargs).bind fun subject hsubject =>
        .ok (unsigned_chooseEqual t hsubject fun a ha => hargs a (List.mem_of_mem_drop ha))
  | and | or => exact .ok (Expr.unsigned_chain.2 hconditions)
  | xor =>
      refine .ok ?_
      simpa [Fragment.boolean] using fun a ha => Target.unsigned_truthy (hargs a ha)
  | not =>
      exact (Call.arg_of_forall hargs).bind fun value hvalue =>
        .ok (Expr.unsigned_unary.2 (Target.unsigned_truthy hvalue))
  | blank => exact .ok (t.unsigned_stringLiteral "")
  | error =>
      exact (Call.text_unsigned hargs).bind fun message hmessage =>
        .ok (Expr.unsigned_chain.2 (by simp [hmessage]))
  | isError => exact .bind_any fun _ => .ok (Expr.unsigned_verbatim _)

end LogicalFunction

/-! ### Functions on dates and times -/

namespace Target

variable {t : Target} {f : Fragment} {value : Expr}

theorem unsigned_timestamp (h : f.expr.Unsigned) : (timestamp f).Unsigned := by
  unfold timestamp
  split <;> simpa using h

theorem unsigned_datePart (t : Target) (part : DatePart) (h : f.expr.Unsigned) :
    (t.datePart part f).Unsigned := by
  unfold datePart
  split <;> simp [strftimeInt, h]

theorem unsigned_formatPart (part : FormatPart) (h : value.Unsigned) :
    (formatPart value part).Unsigned := by
  cases part with
  | spec text => simp [formatPart, h]
  | computed token => cases token <;> simp [formatPart, computedToken, strftimeInt, h]

theorem unsigned_joinParts {parts : List Expr} (h : ∀ part ∈ parts, part.Unsigned) :
    (joinParts parts).Unsigned := by
  unfold joinParts
  split
  · simp
  · simpa using h
  · exact Expr.unsigned_chain.2 h

theorem unsigned_formatDate (t : Target) (template : String) (h : f.expr.Unsigned) :
    (t.formatDate f template).Unsigned := by
  unfold formatDate
  split
  · simp
  · exact unsigned_joinParts (List.forall_mem_map.2 fun part _ => unsigned_formatPart part h)

end Target

namespace DateFunction

variable {t : Target} {args : List Fragment}

theorem unsigned_comparable (d : Dialect) (unit : Option DateUnit) {f : Fragment}
    (h : f.expr.Unsigned) : (comparable d unit f).Unsigned := by
  unfold comparable
  split <;> simp [h, Target.unsigned_timestamp h]

theorem difference_unsigned : Yields (fun r : Fragment => r.expr.Unsigned) (difference t args) :=
  .bind_any fun _ => .bind_any fun _ => .bind_any fun _ => .ok (Expr.unsigned_verbatim _)

theorem partOf_unsigned {name : String} (part : DatePart) (hargs : ∀ a ∈ args, a.expr.Unsigned) :
    Yields (fun r : Fragment => r.expr.Unsigned) (partOf t ⟨name, args⟩ part) :=
  (Call.arg_of_forall hargs).bind fun _ hvalue => .ok (t.unsigned_datePart part hvalue)

theorem weekdayOf_unsigned {name : String} (hargs : ∀ a ∈ args, a.expr.Unsigned) :
    Yields (fun r : Fragment => r.expr.Unsigned) (weekdayOf t ⟨name, args⟩) := by
  refine (Call.arg_of_forall hargs).bind fun value hvalue => .bind_any fun start => .ok ?_
  have hday := t.unsigned_datePart .dayOfWeek hvalue
  split <;> simp [Fragment.number, hday]

theorem compared_unsigned {name : String} (op : Sql.Op) (hargs : ∀ a ∈ args, a.expr.Unsigned) :
    Yields (fun r : Fragment => r.expr.Unsigned) (compared t ⟨name, args⟩ op) :=
  (Call.arg_of_forall hargs).bind fun _ hl => (Call.arg_of_forall hargs).bind fun _ hr =>
    .bind_any fun unit =>
      .ok (Expr.unsigned_binary.2 ⟨unsigned_comparable _ unit hl, unsigned_comparable _ unit hr⟩)

theorem parsed_unsigned {name : String} (hargs : ∀ a ∈ args, a.expr.Unsigned) :
    Yields (fun r : Fragment => r.expr.Unsigned) (parsed t ⟨name, args⟩) := by
  unfold parsed
  split
  · refine .bind_any fun template => (Call.text_unsigned hargs).bind fun text htext => .ok ?_
    cases template <;> simp [Fragment.dateTime, htext]
  · exact (Call.text_unsigned hargs).bind fun text htext =>
      .ok (Expr.unsigned_call.2 (by simpa using htext))

theorem apply_unsigned (f : DateFunction) (hargs : ∀ a ∈ args, a.expr.Unsigned) :
    Yields (fun r : Fragment => r.expr.Unsigned) (f.apply t args) := by
  have hformat {name : String} (template : String) : Yields (fun r : Fragment => r.expr.Unsigned)
      (do let value ← Call.arg ⟨name, args⟩ 0; .ok (.string (t.formatDate value template))) :=
    (Call.arg_of_forall hargs).bind fun _ hvalue => .ok (t.unsigned_formatDate template hvalue)
  cases f with
  | today => exact .ok t.unsigned_currentDay
  | now => exact .ok t.unsigned_currentTime
  | year | month | weekNum | day | hour | minute | second => exact partOf_unsigned _ hargs
  | weekday => exact weekdayOf_unsigned hargs
  | fromNow | toNow => exact .bind_any fun _ => difference_unsigned
  | datetimeDiff => exact difference_unsigned
  | workday | workdayDiff =>
      exact .bind_any fun _ => .bind_any fun _ => .ok (Expr.unsigned_verbatim _)
  | isSame | isAfter | isBefore => exact compared_unsigned _ hargs
  | dateAdd =>
      refine .bind_any fun unit => ?_
      cases unit with
      | none => exact .error _
      | some u => exact .bind_any fun _ => .bind_any fun _ => .ok (Expr.unsigned_verbatim _)
  | datestr | timestr => exact hformat _
  | datetimeFormat => exact .bind_any fun _ => hformat _
  | datetimeParse => exact parsed_unsigned hargs
  | createdTime | lastModifiedTime => exact .ok (t.unsigned_column _)

end DateFunction

/-! ### Functions on multi-valued fields and on the record -/

namespace ArrayFunction

variable {t : Target} {args : List Fragment}

theorem join_unsigned {name : String} (hargs : ∀ a ∈ args, a.expr.Unsigned) :
    Yields (fun r : Fragment => r.expr.Unsigned) (join t ⟨name, args⟩) := by
  refine (Call.arg_of_forall hargs).bind fun value hvalue => .ok ?_
  split
  · exact Expr.unsigned_verbatim _
  · exact t.unsigned_text hvalue

theorem remade_unsigned {name : String} (make : String → String)
    (hargs : ∀ a ∈ args, a.expr.Unsigned) :
    Yields (fun r : Fragment => r.expr.Unsigned) (remade t ⟨name, args⟩ make) := by
  refine (Call.arg_of_forall hargs).bind fun value hvalue => .ok ?_
  split <;> simp [Fragment.array, Target.singleton, hvalue]

theorem apply_unsigned (f : ArrayFunction) (hargs : ∀ a ∈ args, a.expr.Unsigned) :
    Yields (fun r : Fragment => r.expr.Unsigned) (f.apply t args) := by
  cases f with
  | countAll => exact .bind_any fun _ => .ok (Expr.unsigned_verbatim _)
  | countA | count => exact .ok (Expr.unsigned_chain.2 (by simp))
  | arrayJoin => exact join_unsigned hargs
  | arrayUnique | arrayFlatten | arrayCompact => exact remade_unsigned _ hargs

end ArrayFunction

theorem SystemFunction.apply_unsigned {t : Target} {args : List Fragment} (f : SystemFunction)
    (hargs : ∀ a ∈ args, a.expr.Unsigned) :
    Yields (fun r : Fragment => r.expr.Unsigned) (f.apply t args) := by
  cases f with
  | recordId | autoNumber => exact .ok (t.unsigned_column _)
  | textAll =>
      exact (Call.arg_of_forall hargs).bind fun value hvalue =>
        ArrayFunction.apply_unsigned .arrayJoin (by simpa using hvalue)

/-- **A call brings in no sign**, if its arguments have none. -/
theorem Function.apply_unsigned {t : Target} {args : List Fragment} (f : Function)
    (hargs : ∀ a ∈ args, a.expr.Unsigned) :
    Yields (fun r : Fragment => r.expr.Unsigned) (f.apply t args) := by
  cases f with
  | numeric g => exact g.apply_unsigned hargs
  | text g => exact g.apply_unsigned hargs
  | logical g => exact g.apply_unsigned hargs
  | date g => exact g.apply_unsigned hargs
  | array g => exact g.apply_unsigned hargs
  | system g => exact g.apply_unsigned hargs

end ComputedFields
