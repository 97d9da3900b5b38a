/-
**Both databases see the same types.**

The SQL of a formula differs from one database to the other.  What is known of it does not: whether
it compiles, with which error it fails, the fields it reads, its type, and whether it is an array.
The argument is that a function looks at no more of its arguments than their types, whether they are
arrays, and the text of a literal; and these are the same for both databases.  The only functions to
which this does not apply are the replacement by a pattern, which one of the databases does not have,
and the reading of a date after a template, which one of the databases does not look at.

There is one exception.  A database without powers has small ones written out, and to tell whether an
exponent is small the compiler takes its absolute value: at the least number of 64 bits it breaks off,
where the compiler for the other database goes on.  So one compilation follows the other up to such a
break, and the break is traced to the power it comes from.

Main definitions:

* `ComputedFields.Follows` — two computations that agree unless the second breaks off;
* `ComputedFields.Fragment.Alike`, `ComputedFields.Compiled.Alike` — parts that no function tells
  apart;
* `ComputedFields.Formula.Portable` — a formula without the two calls;
* `ComputedFields.Compiled.summary` — what is known of a compiled formula besides its SQL.

Main results:

* `ComputedFields.Function.apply_follows` — functions do not tell parts apart;
* `ComputedFields.Formula.compileWith_follows`, `ComputedFields.Context.expand_follows` — nor do
  formulas and fields;
* `ComputedFields.Context.summary_dialects` — **a formula has the same type in both databases**, unless
  it raises something to the least power;
* `ComputedFields.Context.power_minValue_breaks` — a formula that does.
-/

import Mathlib.Data.List.Forall2
import ComputedFields.Proofs.Faults

set_option relaxedAutoImplicit false
set_option autoImplicit false

namespace ComputedFields

open Sql (Expr)
open List (Forall₂)

/-! ### Computations that agree -/

/-- The second computation breaks off, or both agree. -/
def Follows {α β : Type} (R : α → β → Prop) (x : Except CompileError α) (y : Except CompileError β) :
    Prop :=
  y = .error .overflow ∨ Agree R x y

namespace Follows

variable {α α' β β' : Type} {R : α → α' → Prop} {S : β → β' → Prop}

theorem ok {a : α} {a' : α'} (h : R a a') : Follows R (.ok a) (.ok a') := .inr (.ok h)

theorem error (e : CompileError) : Follows R (.error e) (.error e) := .inr (.error e)

theorem bind {x : Except CompileError α} {x' : Except CompileError α'}
    {f : α → Except CompileError β} {f' : α' → Except CompileError β'} (hx : Follows R x x')
    (hf : ∀ a a', R a a' → Follows S (f a) (f' a')) : Follows S (x >>= f) (x' >>= f') := by
  rcases hx with rfl | h
  · exact .inl rfl
  · cases h with
    | ok h => exact hf _ _ h
    | error e => exact .error e

end Follows

/-! ### Parts that are alike -/

/-- Two parts that no function tells apart. -/
structure Fragment.Alike (f g : Fragment) : Prop where
  type : f.type = g.type
  isArray : f.isArray = g.isArray
  literal : f.expr.textLiteral? = g.expr.textLiteral?

theorem Fragment.Alike.isBlank {f g : Fragment} (h : f.Alike g) : f.isBlank = g.isBlank := by
  unfold Fragment.isBlank Expr.isBlank
  rw [h.literal]

/-- Parts of one type that are no literals are alike. -/
theorem Agree.noLiteral {e e' : Expr} {type : ValueType} {isArray : Bool}
    (he : e.textLiteral? = none) (he' : e'.textLiteral? = none) :
    Agree Fragment.Alike (.ok ⟨e, type, isArray⟩ : Except CompileError Fragment)
      (.ok ⟨e', type, isArray⟩) :=
  .ok ⟨rfl, rfl, he.trans he'.symm⟩

theorem alike_getElem? {args args' : List Fragment} (h : Forall₂ Fragment.Alike args args')
    (index : Nat) :
    (args[index]? = none ∧ args'[index]? = none) ∨
      ∃ f g, args[index]? = some f ∧ args'[index]? = some g ∧ f.Alike g := by
  induction h generalizing index with
  | nil => exact .inl ⟨rfl, rfl⟩
  | @cons f g _ _ h _ ih =>
      cases index with
      | zero => exact .inr ⟨f, g, rfl, rfl, h⟩
      | succ index => exact ih index

/-! ### Expressions that are no text literals -/

section textLiteral

@[simp] theorem Sql.Expr.textLiteral?_append (e : Expr) (op : Sql.Op) (r : Expr) :
    (e.append op r).textLiteral? = none := by
  unfold Expr.append
  split
  · split <;> rfl
  · rfl

variable (t : Target)

@[simp] theorem Target.textLiteral?_column (name : String) : (t.column name).textLiteral? = none := by
  unfold column
  split <;> rfl

@[simp] theorem Target.textLiteral?_stringLiteral (value : String) :
    (t.stringLiteral value).textLiteral? = some value := by
  unfold stringLiteral
  split <;> rfl

@[simp] theorem Target.textLiteral?_ceil (x : Expr) : (t.ceil x).textLiteral? = none := by
  unfold ceil
  split <;> rfl

@[simp] theorem Target.textLiteral?_floor (x : Expr) : (t.floor x).textLiteral? = none := by
  unfold floor
  split <;> rfl

@[simp] theorem Target.textLiteral?_unrolledPower (base : Expr) (exponent : Int) :
    (unrolledPower base exponent).textLiteral? = none := by
  unfold unrolledPower
  split
  · rfl
  · split <;> rfl

@[simp] theorem Target.textLiteral?_computedPower (base : Expr) (exponent : Fragment) :
    (t.computedPower base exponent).textLiteral? = none := by
  unfold computedPower
  split <;> rfl

/-- A power is no text literal, if there is one. -/
theorem Target.textLiteral?_of_power {t : Target} {base value : Expr} {exponent : Fragment}
    (h : t.power base exponent = .ok value) : value.textLiteral? = none := by
  rcases t.power_cases base exponent with ⟨-, -, hpower⟩ | ⟨-, hpower | ⟨n, hpower⟩⟩
  · cases h.symm.trans hpower
  · cases h.symm.trans hpower
    exact t.textLiteral?_computedPower _ _
  · cases h.symm.trans hpower
    exact textLiteral?_unrolledPower _ _

@[simp] theorem Target.textLiteral?_position (haystack needle : Expr) :
    (t.position haystack needle).textLiteral? = none := by
  unfold position
  split <;> rfl

@[simp] theorem Target.textLiteral?_integer (f : Fragment) : (t.integer f).textLiteral? = none := by
  unfold integer
  split
  · next h =>
      cases he : f.expr <;> simp_all [Expr.intLiteral?, Expr.textLiteral?]
  · rfl

@[simp] theorem textLiteral?_choice (branches : List (Expr × Expr)) (otherwise : Option Expr) :
    (choice branches otherwise).textLiteral? = none := by
  unfold choice
  split <;> rfl

namespace Target

@[simp] theorem textLiteral?_datePart (part : DatePart) (f : Fragment) :
    (t.datePart part f).textLiteral? = none := by
  unfold datePart
  split <;> rfl

theorem textLiteral?_formatPart (value : Expr) (part : FormatPart) :
    (formatPart value part).textLiteral? = none := by
  cases part with
  | spec text => rfl
  | computed token => cases token <;> rfl

theorem textLiteral?_joinParts {parts : List Expr} (hne : parts ≠ [])
    (h : ∀ e ∈ parts, e.textLiteral? = none) : (joinParts parts).textLiteral? = none := by
  cases parts with
  | nil => exact absurd rfl hne
  | cons part rest =>
      cases rest with
      | nil => exact h part List.mem_cons_self
      | cons _ _ => rfl

end Target

theorem piecesAfter_ne_nil (c : Char) (rest : List Char) : piecesAfter 0 (c :: rest) ≠ [] := by
  unfold piecesAfter
  split
  · simp
  · unfold Piece.prepend
    split <;> simp

theorem FormatPart.prepend_ne_nil (part : FormatPart) (rest : List FormatPart) :
    part.prepend rest ≠ [] := by
  unfold FormatPart.prepend
  split <;> simp

theorem formatParts_ne_nil {template : String} (h : template ≠ "") : formatParts template ≠ [] := by
  unfold formatParts pieces
  cases hchars : template.toList with
  | nil => exact absurd (String.toList_eq_nil_iff.1 hchars) h
  | cons c rest =>
      cases hpieces : piecesAfter 0 (c :: rest) with
      | nil => exact absurd hpieces (piecesAfter_ne_nil c rest)
      | cons piece others => exact FormatPart.prepend_ne_nil _ _

/-- A date after a template is no literal: a template that is not empty has parts, and a part of a date
is no literal. -/
theorem Target.textLiteral?_formatDate (f : Fragment) {template : String} (h : template ≠ "") :
    (t.formatDate f template).textLiteral? = none := by
  unfold formatDate
  split
  · rfl
  · refine textLiteral?_joinParts (by simpa using formatParts_ne_nil h) fun e he => ?_
    obtain ⟨part, -, rfl⟩ := List.mem_map.1 he
    exact textLiteral?_formatPart _ _

end textLiteral

/-! ### Operators -/

namespace Target

variable (t t' : Target) {f g l l' r r' : Fragment}

theorem literal_text (h : f.Alike g) : (t.text f).textLiteral? = (t'.text g).textLiteral? := by
  unfold text
  rw [h.isArray, h.type]
  split
  · rfl
  · split
    · exact h.literal
    · rfl
    · rfl
    · rfl
    · rfl

theorem literal_numeric (h : f.Alike g) :
    (t.numeric f).textLiteral? = (t'.numeric g).textLiteral? := by
  unfold numeric
  rw [h.type]
  split
  · rfl
  · exact h.literal

theorem alike_concat : (t.concat l r).Alike (t'.concat l' r') :=
  ⟨rfl, rfl, by simp [concat, Fragment.string]⟩

theorem alike_compare (op : Sql.Op) : (t.compare op l r).Alike (t'.compare op l' r') := by
  have hnone (t : Target) (l r : Fragment) : (t.compare op l r).expr.textLiteral? = none := by
    unfold compare Fragment.boolean
    dsimp only
    split <;> rfl
  exact ⟨rfl, rfl, by rw [hnone, hnone]⟩

theorem alike_modulo : (t.modulo l r).Alike (t'.modulo l' r') := by
  have hnone (t : Target) (l r : Fragment) : (t.modulo l r).expr.textLiteral? = none := by
    unfold modulo Fragment.number
    dsimp only
    split <;> rfl
  exact ⟨rfl, rfl, by rw [hnone, hnone]⟩

theorem alike_binary (hl : l.Alike l') (hr : r.Alike r') (op : BinaryOp) :
    (t.binary l op r).Alike (t'.binary l' op r') := by
  cases op with
  | add =>
      have htextual {f g : Fragment} (h : f.Alike g) : isTextual f = isTextual g := by
        unfold isTextual
        rw [h.type]
      unfold binary
      dsimp only
      rw [htextual hl, htextual hr]
      split
      · exact alike_concat t t'
      · exact ⟨rfl, rfl, by simp [Fragment.number]⟩
  | concat => exact alike_concat t t'
  | mod => exact alike_modulo t t'
  | eq => exact alike_compare t t' .eq
  | ne => exact alike_compare t t' .ne
  | lt => exact alike_compare t t' .lt
  | le => exact alike_compare t t' .le
  | gt => exact alike_compare t t' .gt
  | ge => exact alike_compare t t' .ge
  | sub | mul | div | and | or => exact ⟨rfl, rfl, rfl⟩

theorem alike_unary (op : UnaryOp) : (t.unary op f).Alike (t'.unary op g) := by
  cases op <;> exact ⟨rfl, rfl, rfl⟩

end Target

/-! ### Arguments of a call -/

/-- Expressions that are the same literal, or none. -/
def SameLiteral (e e' : Expr) : Prop := e.textLiteral? = e'.textLiteral?

namespace Call

variable (t t' : Target) {name : String} {args args' : List Fragment}

theorem arg_agree (h : Forall₂ Fragment.Alike args args') (index : Nat) :
    Agree Fragment.Alike (arg ⟨name, args⟩ index) (arg ⟨name, args'⟩ index) := by
  unfold arg
  dsimp only
  rw [h.length_eq]
  obtain ⟨hnone, hnone'⟩ | ⟨f, g, hf, hg, halike⟩ := alike_getElem? h index
  · rw [hnone, hnone']
    exact .error _
  · rw [hf, hg]
    exact .ok halike

theorem numeric_agree (h : Forall₂ Fragment.Alike args args') (index : Nat) :
    Agree SameLiteral (numeric t ⟨name, args⟩ index) (numeric t' ⟨name, args'⟩ index) :=
  (arg_agree h index).bind fun _ _ halike => .ok (t.literal_numeric t' halike)

theorem text_agree (h : Forall₂ Fragment.Alike args args') (index : Nat) :
    Agree SameLiteral (text t ⟨name, args⟩ index) (text t' ⟨name, args'⟩ index) :=
  (arg_agree h index).bind fun _ _ halike => .ok (t.literal_text t' halike)

theorem integer_agree (h : Forall₂ Fragment.Alike args args') (index : Nat) :
    Agree SameLiteral (integer t ⟨name, args⟩ index) (integer t' ⟨name, args'⟩ index) :=
  (arg_agree h index).bind fun _ _ _ => .ok (by simp [SameLiteral])

/-- A literal argument is the same text, and no empty one. -/
theorem literal?_agree (h : Forall₂ Fragment.Alike args args') (index : Nat) :
    Agree (fun text text' => text = text' ∧ text ≠ some "") (literal? ⟨name, args⟩ index)
      (literal? ⟨name, args'⟩ index) := by
  unfold literal?
  dsimp only
  obtain ⟨hnone, hnone'⟩ | ⟨f, g, hf, hg, halike⟩ := alike_getElem? h index
  · rw [hnone, hnone']
    exact .ok ⟨rfl, by simp⟩
  · rw [hf, hg]
    dsimp only
    rw [halike.isBlank, halike.literal]
    split
    · exact .ok ⟨rfl, by simp⟩
    · next hblank =>
        split
        · next value hvalue =>
            refine .ok ⟨rfl, ?_⟩
            rintro ⟨⟩
            exact hblank (by simp [Fragment.isBlank, Expr.isBlank, hvalue])
        · exact .error _

theorem unit?_agree (h : Forall₂ Fragment.Alike args args') (index : Nat) :
    Agree Eq (unit? ⟨name, args⟩ index) (unit? ⟨name, args'⟩ index) := by
  refine (literal?_agree h index).bind ?_
  rintro text _ ⟨rfl, -⟩
  split
  · exact .ok rfl
  · split
    · exact .ok rfl
    · exact .error _

end Call

/-! ### Functions -/

section functions

variable (t t' : Target) {args args' : List Fragment}

open Call

namespace NumericFunction

theorem textLiteral?_roundedTo {round : Expr → Expr} (h : ∀ x, (round x).textLiteral? = none)
    (value : Expr) (significance : Option Expr) :
    (roundedTo round value significance).textLiteral? = none := by
  cases significance with
  | none => exact h value
  | some s => rfl

theorem textLiteral?_squareRoot (d : Dialect) (value : Expr) :
    (squareRoot d value).textLiteral? = none := by
  cases d <;> rfl

theorem textLiteral?_extremum (d : Dialect) (greatest : Bool) (values : List Expr) :
    (extremum d greatest values).textLiteral? = none := by
  cases d <;> cases greatest <;> rfl

theorem textLiteral?_rounded (d : Dialect) (value precision : Expr) :
    (rounded d value precision).textLiteral? = none := by
  cases d <;> rfl

theorem textLiteral?_logarithm (d : Dialect) (base value : Expr) :
    (logarithm d base value).textLiteral? = none := by
  cases d <;> rfl

/-- A power of the database that has powers, and one of any database. -/
theorem power_follows (hd : t.dialect = .postgres) (base base' : Expr) (exponent exponent' : Fragment) :
    Follows (fun e e' => e.textLiteral? = none ∧ e'.textLiteral? = none) (t.power base exponent)
      (t'.power base' exponent') := by
  cases hpower : t.power base exponent with
  | error e =>
      obtain ⟨-, hd', -⟩ := Target.power_eq_error_iff.1 hpower
      cases hd.symm.trans hd'
  | ok value =>
      cases hpower' : t'.power base' exponent' with
      | error e => exact .inl (by rw [(Target.power_eq_error_iff.1 hpower').1])
      | ok value' =>
          exact .ok ⟨Target.textLiteral?_of_power hpower, Target.textLiteral?_of_power hpower'⟩

theorem apply_power_follows (hd : t.dialect = .postgres) (h : Forall₂ Fragment.Alike args args') :
    Follows Fragment.Alike (power.apply t args) (power.apply t' args') :=
  Follows.bind (.inr (numeric_agree t t' h 0)) fun _ _ _ =>
    Follows.bind (.inr (arg_agree h 1)) fun _ _ _ =>
    (power_follows t t' hd _ _ _ _).bind fun _ _ hliteral => .inr (.noLiteral hliteral.1 hliteral.2)

theorem apply_agree {f : NumericFunction} (h : Forall₂ Fragment.Alike args args') (hf : f ≠ .power) :
    Agree Fragment.Alike (f.apply t args) (f.apply t' args') := by
  cases f with
  | sum | average => exact .noLiteral rfl rfl
  | max | min =>
      cases h with
      | nil => exact .noLiteral (textLiteral?_extremum _ _ _) (textLiteral?_extremum _ _ _)
      | cons hfirst hrest =>
          cases hrest with
          | nil => exact .ok ⟨rfl, rfl, t.literal_numeric t' hfirst⟩
          | cons _ _ => exact .noLiteral (textLiteral?_extremum _ _ _) (textLiteral?_extremum _ _ _)
  | round =>
      exact (numeric_agree t t' h 0).bind fun _ _ _ =>
        .noLiteral (textLiteral?_rounded _ _ _) (textLiteral?_rounded _ _ _)
  | ceiling =>
      exact (numeric_agree t t' h 0).bind fun _ _ _ =>
        .noLiteral (textLiteral?_roundedTo t.textLiteral?_ceil _ _)
          (textLiteral?_roundedTo t'.textLiteral?_ceil _ _)
  | floor =>
      exact (numeric_agree t t' h 0).bind fun _ _ _ =>
        .noLiteral (textLiteral?_roundedTo t.textLiteral?_floor _ _)
          (textLiteral?_roundedTo t'.textLiteral?_floor _ _)
  | int =>
      exact (numeric_agree t t' h 0).bind fun _ _ _ =>
        .noLiteral (t.textLiteral?_floor _) (t'.textLiteral?_floor _)
  | sqrt =>
      exact (numeric_agree t t' h 0).bind fun _ _ _ =>
        .noLiteral (textLiteral?_squareRoot _ _) (textLiteral?_squareRoot _ _)
  | power => exact absurd rfl hf
  | log =>
      exact (numeric_agree t t' h 0).bind fun _ _ _ =>
        .noLiteral (textLiteral?_logarithm _ _ _) (textLiteral?_logarithm _ _ _)
  | mod =>
      exact (arg_agree h 0).bind fun _ _ _ => (arg_agree h 1).bind fun _ _ _ =>
        .ok (t.alike_modulo t')
  | value => exact (text_agree t t' h 0).bind fun _ _ _ => .noLiteral rfl rfl
  | roundUp | roundDown | even | odd | abs | exp =>
      exact (numeric_agree t t' h 0).bind fun _ _ _ => .noLiteral rfl rfl

end NumericFunction

namespace TextFunction

theorem textLiteral?_found (needle haystack : Expr) (start : Option Expr) :
    (found t needle haystack start).textLiteral? = none := by
  cases start with
  | none => exact t.textLiteral?_position _ _
  | some s => rfl

theorem textLiteral?_leftPart (d : Dialect) (value count : Expr) :
    (leftPart d value count).textLiteral? = none := by
  cases d <;> rfl

theorem textLiteral?_rightPart (value count : Expr) :
    (rightPart t value count).textLiteral? = none := by
  unfold rightPart
  split
  · rfl
  · dsimp only
    split <;> rfl

theorem textLiteral?_overlaid (d : Dialect) (value start count replacement : Expr) :
    (overlaid d value start count replacement).textLiteral? = none := by
  cases d <;> rfl

theorem textLiteral?_repeated (d : Dialect) (value count : Expr) :
    (repeated d value count).textLiteral? = none := by
  cases d <;> rfl

theorem alike_foldl_concat (h : Forall₂ Fragment.Alike args args') {f g : Fragment}
    (hfirst : f.Alike g) : (args.foldl t.concat f).Alike (args'.foldl t'.concat g) := by
  induction h generalizing f g with
  | nil => exact hfirst
  | cons _ _ ih => exact ih (t.alike_concat t')

theorem apply_agree {f : TextFunction} (h : Forall₂ Fragment.Alike args args')
    (hpattern : f ≠ .regexpReplace) :
    Agree Fragment.Alike (f.apply t args) (f.apply t' args') := by
  cases f with
  | regexpReplace => exact absurd rfl hpattern
  | concatenate =>
      exact (arg_agree h 0).bind fun _ _ _ =>
        .ok (alike_foldl_concat t t' (List.forall₂_drop 1 h) ⟨rfl, rfl, rfl⟩)
  | find | search =>
      exact (text_agree t t' h 0).bind fun _ _ _ => (text_agree t t' h 1).bind fun _ _ _ =>
        .noLiteral (textLiteral?_found _ _ _ _) (textLiteral?_found _ _ _ _)
  | mid =>
      exact (text_agree t t' h 0).bind fun _ _ _ => (integer_agree t t' h 1).bind fun _ _ _ =>
        (integer_agree t t' h 2).bind fun _ _ _ => .noLiteral rfl rfl
  | left =>
      exact (text_agree t t' h 0).bind fun _ _ _ =>
        .noLiteral (textLiteral?_leftPart _ _ _) (textLiteral?_leftPart _ _ _)
  | right =>
      exact (text_agree t t' h 0).bind fun _ _ _ =>
        .noLiteral (textLiteral?_rightPart _ _ _) (textLiteral?_rightPart _ _ _)
  | replace =>
      exact (text_agree t t' h 0).bind fun _ _ _ => (integer_agree t t' h 1).bind fun _ _ _ =>
        (integer_agree t t' h 2).bind fun _ _ _ => (text_agree t t' h 3).bind fun _ _ _ =>
        .noLiteral (textLiteral?_overlaid _ _ _ _ _) (textLiteral?_overlaid _ _ _ _ _)
  | substitute =>
      exact (text_agree t t' h 0).bind fun _ _ _ => (text_agree t t' h 1).bind fun _ _ _ =>
        (text_agree t t' h 2).bind fun _ _ _ => .noLiteral rfl rfl
  | rept =>
      exact (text_agree t t' h 0).bind fun _ _ _ => (integer_agree t t' h 1).bind fun _ _ _ =>
        .noLiteral (textLiteral?_repeated _ _ _) (textLiteral?_repeated _ _ _)
  | len => exact (text_agree t t' h 0).bind fun _ _ _ => .noLiteral rfl rfl
  | t =>
      refine (arg_agree h 0).bind fun f g halike => ?_
      rw [halike.type, halike.isArray]
      split
      · exact .ok halike
      · exact .ok ⟨rfl, rfl, by simp [Fragment.string]⟩
  | lower | upper | trim | encodeUrlComponent =>
      exact (text_agree t t' h 0).bind fun _ _ _ => .noLiteral rfl rfl

end TextFunction

theorem map_type_congr (h : Forall₂ Fragment.Alike args args') :
    args.map Fragment.type = args'.map Fragment.type := by
  induction h with
  | nil => rfl
  | cons halike _ ih => rw [List.map_cons, List.map_cons, halike.type, ih]

theorem filled_alike (h : Forall₂ Fragment.Alike args args') :
    Forall₂ Fragment.Alike (args.filter fun f => !f.isBlank && f.type != .unknown)
      (args'.filter fun f => !f.isBlank && f.type != .unknown) := by
  induction h with
  | nil => exact .nil
  | cons halike _ ih =>
      rw [List.filter_cons, List.filter_cons, halike.isBlank, halike.type]
      split
      · exact .cons halike ih
      · exact ih

/-- Results that are alike share one type. -/
theorem commonType_congr (h : Forall₂ Fragment.Alike args args') :
    commonType args = commonType args' := by
  unfold commonType
  rw [map_type_congr (filled_alike h), map_type_congr h]

namespace LogicalFunction

theorem alike_chooseIf {condition condition' result result' : Fragment}
    {otherwise otherwise' : Option Fragment} (hresult : result.Alike result')
    (hotherwise : (otherwise = none ∧ otherwise' = none) ∨
      ∃ f g, otherwise = some f ∧ otherwise' = some g ∧ f.Alike g) :
    (chooseIf t condition result otherwise).Alike (chooseIf t' condition' result' otherwise') := by
  have hrest : (otherwise.getD .null).Alike (otherwise'.getD .null) := by
    obtain ⟨rfl, rfl⟩ | ⟨f, g, rfl, rfl, halike⟩ := hotherwise
    · exact ⟨rfl, rfl, rfl⟩
    · exact halike
  exact ⟨commonType_congr (.cons hresult (.cons hrest .nil)), rfl, by simp [chooseIf]⟩

/-- The results among arguments in pairs. -/
theorem alike_pairUp (h : Forall₂ Fragment.Alike args args') :
    Forall₂ Fragment.Alike ((pairUp args).1.map Prod.snd ++ (pairUp args).2.toList)
      ((pairUp args').1.map Prod.snd ++ (pairUp args').2.toList) := by
  fun_induction pairUp args generalizing args' with
  | case1 =>
      cases h
      exact .nil
  | case2 last =>
      cases h with
      | cons hlast hnil =>
          cases hnil
          exact .cons hlast .nil
  | case3 pattern result rest ih =>
      cases h with
      | cons _ h =>
          cases h with
          | cons hresult hrest => exact .cons hresult (ih hrest)

theorem alike_chooseEqual {subject subject' : Fragment} (h : Forall₂ Fragment.Alike args args') :
    (chooseEqual t subject args).Alike (chooseEqual t' subject' args') :=
  ⟨commonType_congr (alike_pairUp h), rfl, by simp [chooseEqual]⟩

theorem apply_agree {f : LogicalFunction} (h : Forall₂ Fragment.Alike args args') :
    Agree Fragment.Alike (f.apply t args) (f.apply t' args') := by
  cases f with
  | ifElse =>
      exact (arg_agree h 0).bind fun _ _ _ => (arg_agree h 1).bind fun _ _ hresult =>
        .ok (alike_chooseIf t t' hresult (alike_getElem? h 2))
  | switch =>
      exact (arg_agree h 0).bind fun _ _ _ =>
        .ok (alike_chooseEqual t t' (List.forall₂_drop 1 h))
  | and | or | xor => exact .noLiteral rfl rfl
  | not => exact (arg_agree h 0).bind fun _ _ _ => .noLiteral rfl rfl
  | blank => exact .ok ⟨rfl, rfl, by simp [Fragment.string]⟩
  | error | isError => exact (text_agree t t' h 0).bind fun _ _ _ => .noLiteral rfl rfl

end LogicalFunction

namespace DateFunction

theorem alike_currentTime {t t' : Target} (hmode : t.mode = .select) (hmode' : t'.mode = .select) :
    t.currentTime.Alike t'.currentTime := by
  have hnone {t : Target} (hmode : t.mode = .select) :
      t.currentTime.expr.textLiteral? = none := by
    cases hdialect : t.dialect <;> simp [Target.currentTime, Fragment.dateTime, hmode, hdialect,
      Expr.textLiteral?]
  exact ⟨rfl, rfl, by rw [hnone hmode, hnone hmode']⟩

theorem alike_currentDay {t t' : Target} (hmode : t.mode = .select) (hmode' : t'.mode = .select) :
    t.currentDay.Alike t'.currentDay := by
  have hnone {t : Target} (hmode : t.mode = .select) : t.currentDay.expr.textLiteral? = none := by
    cases hdialect : t.dialect <;> simp [Target.currentDay, Fragment.dateTime, hmode, hdialect,
      Expr.textLiteral?]
  exact ⟨rfl, rfl, by rw [hnone hmode, hnone hmode']⟩

theorem difference_agree (h : Forall₂ Fragment.Alike args args') :
    Agree Fragment.Alike (difference t args) (difference t' args') :=
  (unit?_agree h 2).bind fun _ _ _ => (arg_agree h 0).bind fun _ _ _ =>
    (arg_agree h 1).bind fun _ _ _ => .noLiteral rfl rfl

theorem compared_agree {name : String} (h : Forall₂ Fragment.Alike args args') (op : Sql.Op) :
    Agree Fragment.Alike (compared t ⟨name, args⟩ op) (compared t' ⟨name, args'⟩ op) :=
  (arg_agree h 0).bind fun _ _ _ => (arg_agree h 1).bind fun _ _ _ =>
    (unit?_agree h 2).bind fun _ _ _ => .noLiteral rfl rfl

theorem partOf_agree {name : String} (h : Forall₂ Fragment.Alike args args') (part : DatePart) :
    Agree Fragment.Alike (partOf t ⟨name, args⟩ part) (partOf t' ⟨name, args'⟩ part) :=
  (arg_agree h 0).bind fun _ _ _ =>
    .noLiteral (t.textLiteral?_datePart _ _) (t'.textLiteral?_datePart _ _)

theorem weekdayOf_agree {name : String} (h : Forall₂ Fragment.Alike args args') :
    Agree Fragment.Alike (weekdayOf t ⟨name, args⟩) (weekdayOf t' ⟨name, args'⟩) := by
  refine (arg_agree h 0).bind fun _ _ _ => (literal?_agree h 1).bind ?_
  rintro start _ ⟨rfl, -⟩
  dsimp only
  split
  · exact .noLiteral rfl rfl
  · exact .noLiteral (t.textLiteral?_datePart _ _) (t'.textLiteral?_datePart _ _)

/-- A text is read as a date alike when there is no template. -/
theorem parsed_agree {name : String} (h : Forall₂ Fragment.Alike args args')
    (htemplate : args[1]? = none) :
    Agree Fragment.Alike (parsed t ⟨name, args⟩) (parsed t' ⟨name, args'⟩) := by
  -- one database casts the text, the other calls a function; neither result is a literal
  have hread (t : Target) {args : List Fragment} (htemplate : args[1]? = none) :
      ∃ e : Expr → Expr, (∀ x, (e x).textLiteral? = none) ∧
        parsed t ⟨name, args⟩ = Call.text t ⟨name, args⟩ 0 >>= fun x => .ok (.dateTime (e x)) := by
    unfold parsed
    split
    · refine ⟨fun x => .cast x "timestamptz", fun _ => rfl, ?_⟩
      have hnone : literal? ⟨name, args⟩ 1 = .ok none := by
        unfold literal?
        rw [htemplate]
      rw [hnone]
      rfl
    · exact ⟨fun x => .call "DATETIME" [x], fun _ => rfl, rfl⟩
  have htemplate' : args'[1]? = none := by
    obtain ⟨-, hnone⟩ | ⟨f, g, hf, -, -⟩ := alike_getElem? h 1
    · exact hnone
    · exact absurd (htemplate.symm.trans hf) (by simp)
  obtain ⟨e, he, heq⟩ := hread t htemplate
  obtain ⟨e', he', heq'⟩ := hread t' htemplate'
  rw [heq, heq']
  exact (text_agree t t' h 0).bind fun _ _ _ => .noLiteral (he _) (he' _)

theorem apply_agree {f : DateFunction} (hmode : t.mode = .select) (hmode' : t'.mode = .select)
    (h : Forall₂ Fragment.Alike args args')
    (htemplate : f = .datetimeParse → args[1]? = none) :
    Agree Fragment.Alike (f.apply t args) (f.apply t' args') := by
  have htime := alike_currentTime hmode hmode'
  have hunit : Forall₂ Fragment.Alike args[1]?.toList args'[1]?.toList := by
    obtain ⟨hnone, hnone'⟩ | ⟨f, g, hf, hg, halike⟩ := alike_getElem? h 1
    · rw [hnone, hnone']
      exact .nil
    · rw [hf, hg]
      exact .cons halike .nil
  cases f with
  | today => exact .ok (alike_currentDay hmode hmode')
  | now => exact .ok htime
  | year | month | weekNum | day | hour | minute | second => exact partOf_agree t t' h _
  | weekday => exact weekdayOf_agree t t' h
  | fromNow =>
      exact (arg_agree h 0).bind fun _ _ hdate =>
        difference_agree t t' (.cons htime (.cons hdate hunit))
  | toNow =>
      exact (arg_agree h 0).bind fun _ _ hdate =>
        difference_agree t t' (.cons hdate (.cons htime hunit))
  | datetimeDiff => exact difference_agree t t' h
  | workday =>
      exact (arg_agree h 0).bind fun _ _ _ => (integer_agree t t' h 1).bind fun _ _ _ =>
        .noLiteral rfl rfl
  | workdayDiff =>
      exact (arg_agree h 0).bind fun _ _ _ => (arg_agree h 1).bind fun _ _ _ => .noLiteral rfl rfl
  | isSame | isAfter | isBefore => exact compared_agree t t' h _
  | dateAdd =>
      refine (unit?_agree h 2).bind ?_
      rintro unit _ rfl
      cases unit with
      | none => exact .error _
      | some u =>
          exact (arg_agree h 0).bind fun _ _ _ => (numeric_agree t t' h 1).bind fun _ _ _ =>
            .noLiteral rfl rfl
  | datestr | timestr =>
      exact (arg_agree h 0).bind fun _ _ _ =>
        .noLiteral (t.textLiteral?_formatDate _ (by decide)) (t'.textLiteral?_formatDate _ (by decide))
  | datetimeFormat =>
      refine (literal?_agree h 1).bind ?_
      rintro template _ ⟨rfl, hne⟩
      have htemplate : template.getD "YYYY-MM-DD HH:mm" ≠ "" := by
        cases template with
        | none => decide
        | some s => exact fun heq => hne (congrArg some heq)
      exact (arg_agree h 0).bind fun _ _ _ =>
        .noLiteral (t.textLiteral?_formatDate _ htemplate) (t'.textLiteral?_formatDate _ htemplate)
  | datetimeParse => exact parsed_agree t t' h (htemplate rfl)
  | createdTime | lastModifiedTime =>
      exact .noLiteral (t.textLiteral?_column _) (t'.textLiteral?_column _)

end DateFunction

namespace ArrayFunction

theorem remade_agree {name : String} (h : Forall₂ Fragment.Alike args args')
    (make make' : String → String) :
    Agree Fragment.Alike (remade t ⟨name, args⟩ make) (remade t' ⟨name, args'⟩ make') := by
  refine (arg_agree h 0).bind fun f g halike => ?_
  have hnone (t : Target) (f : Fragment) (make : String → String) :
      (if f.isArray then Expr.verbatim (make f.sql) else t.singleton f).textLiteral? = none := by
    split <;> rfl
  rw [halike.type]
  exact .noLiteral (hnone t f make) (hnone t' g make')

theorem join_agree {name : String} (h : Forall₂ Fragment.Alike args args') :
    Agree Fragment.Alike (join t ⟨name, args⟩) (join t' ⟨name, args'⟩) := by
  refine (arg_agree h 0).bind fun f g halike => ?_
  refine .ok ⟨rfl, rfl, ?_⟩
  dsimp only [Fragment.string]
  rw [halike.isArray]
  split
  · rfl
  · exact t.literal_text t' halike

theorem apply_agree {f : ArrayFunction} (h : Forall₂ Fragment.Alike args args') :
    Agree Fragment.Alike (f.apply t args) (f.apply t' args') := by
  cases f with
  | countAll => exact (arg_agree h 0).bind fun _ _ _ => .noLiteral rfl rfl
  | countA | count => exact .noLiteral rfl rfl
  | arrayJoin => exact join_agree t t' h
  | arrayUnique | arrayFlatten | arrayCompact => exact remade_agree t t' h _ _

end ArrayFunction

theorem SystemFunction.apply_agree {f : SystemFunction} (h : Forall₂ Fragment.Alike args args') :
    Agree Fragment.Alike (f.apply t args) (f.apply t' args') := by
  cases f with
  | recordId | autoNumber => exact .noLiteral (t.textLiteral?_column _) (t'.textLiteral?_column _)
  | textAll =>
      exact (arg_agree h 0).bind fun _ _ halike =>
        ArrayFunction.apply_agree t t' (.cons halike .nil)

/-- **Functions do not tell parts apart**, but for the two that the databases do not share; at a power
the compiler may break off. -/
theorem Function.apply_follows {f : Function} (hd : t.dialect = .postgres) (hmode : t.mode = .select)
    (hmode' : t'.mode = .select) (h : Forall₂ Fragment.Alike args args')
    (hpattern : f ≠ .text .regexpReplace)
    (htemplate : f = .date .datetimeParse → args[1]? = none) :
    Follows Fragment.Alike (f.apply t args) (f.apply t' args') := by
  cases f with
  | numeric g =>
      by_cases hg : g = .power
      · exact hg ▸ NumericFunction.apply_power_follows t t' hd h
      · exact .inr (NumericFunction.apply_agree t t' h hg)
  | text g =>
      exact .inr (TextFunction.apply_agree t t' h fun heq => hpattern (congrArg Function.text heq))
  | logical g => exact .inr (LogicalFunction.apply_agree t t' h)
  | date g =>
      exact .inr (DateFunction.apply_agree t t' hmode hmode' h fun heq =>
        htemplate (congrArg Function.date heq))
  | array g => exact .inr (ArrayFunction.apply_agree t t' h)
  | system g => exact .inr (SystemFunction.apply_agree t t' h)

end functions

/-! ### Formulas -/

/-- What is known of a compiled formula besides its SQL: the fields it reads, its type, and whether it
is an array. -/
def Compiled.summary (c : Compiled) : List String × ValueType × Bool :=
  (c.reads, c.fragment.type, c.fragment.isArray)

/-- Compiled formulas that no formula tells apart. -/
structure Compiled.Alike (c c' : Compiled) : Prop where
  fragment : c.fragment.Alike c'.fragment
  reads : c.reads = c'.reads

/-- The formula does not replace by a pattern, and reads no date after a template. -/
def Formula.Portable (f : Formula) : Prop :=
  ∀ callee args, Formula.Part (.call callee args) f →
    callee ≠ .known (.text .regexpReplace) ∧
      (callee = .known (.date .datetimeParse) → args.length ≠ 2)

namespace Compiled

variable (t t' : Target) {c c' l l' r r' : Compiled} {parts parts' : List Compiled}

theorem Alike.summary (h : c.Alike c') : c.summary = c'.summary := by
  unfold Compiled.summary
  rw [h.reads, h.fragment.type, h.fragment.isArray]

theorem alike_binary (hl : l.Alike l') (hr : r.Alike r') (op : BinaryOp) :
    (l.binary t op r).Alike (l'.binary t' op r') := by
  refine ⟨t.alike_binary t' hl.fragment hr.fragment op, ?_⟩
  unfold Compiled.binary
  dsimp only
  rw [hl.reads, hr.reads]

theorem alike_foldl_binary (op : BinaryOp) (h : Forall₂ Compiled.Alike parts parts')
    (hfirst : c.Alike c') :
    (parts.foldl (Compiled.binary t op) c).Alike (parts'.foldl (Compiled.binary t' op) c') := by
  induction h generalizing c c' with
  | nil => exact hfirst
  | cons hpart _ ih => exact ih (alike_binary t t' hfirst hpart op)

theorem fragments_alike (h : Forall₂ Compiled.Alike parts parts') :
    Forall₂ Fragment.Alike (parts.map Compiled.fragment) (parts'.map Compiled.fragment) := by
  rw [List.forall₂_map_left_iff, List.forall₂_map_right_iff]
  exact h.imp fun _ _ halike => halike.fragment

theorem readsOfAll_congr (h : Forall₂ Compiled.Alike parts parts') :
    readsOfAll parts = readsOfAll parts' := by
  have hreads : parts.map Compiled.reads = parts'.map Compiled.reads := by
    induction h with
    | nil => rfl
    | cons halike _ ih => rw [List.map_cons, List.map_cons, halike.reads, ih]
  have hfold (parts : List Compiled) :
      readsOfAll parts = (parts.map Compiled.reads).foldl unionNew [] := by
    rw [List.foldl_map]
    rfl
  rw [hfold, hfold, hreads]

end Compiled

namespace Formula

variable {t t' : Target} {read read' : String → Except CompileError Compiled}

theorem Portable.part {f g : Formula} (h : g.Portable) (hpart : Part f g) : f.Portable :=
  fun callee args hcall => h callee args (hcall.trans hpart)

mutual

/-- Formulas do not tell fields apart. -/
theorem compileWith_follows (hd : t.dialect = .postgres) (hmode : t.mode = .select)
    (hmode' : t'.mode = .select) :
    ∀ {f : Formula}, f.Portable →
      (∀ ref ∈ f.references, Follows Compiled.Alike (read ref) (read' ref)) →
      Follows Compiled.Alike (f.compileWith t read) (f.compileWith t' read')
  | .bool _, _, _ => .ok ⟨⟨rfl, rfl, rfl⟩, rfl⟩
  | .number _, _, _ => .ok ⟨⟨rfl, rfl, rfl⟩, rfl⟩
  | .text value, _, _ => .ok ⟨⟨rfl, rfl, by simp [Fragment.string]⟩, rfl⟩
  | .null, _, _ => .ok ⟨⟨rfl, rfl, rfl⟩, rfl⟩
  | .field id, _, hread => hread id (List.mem_singleton_self id)
  | .unary op operand, h, hread => by
      unfold compileWith
      exact (compileWith_follows hd hmode hmode' (h.part (.operand .self)) hread).bind fun _ _ halike =>
        .ok ⟨t.alike_unary t' op, halike.reads⟩
  | .binary left op right, h, hread => by
      unfold compileWith
      exact (compileWith_follows hd hmode hmode' (h.part (.left .self))
          fun ref href => hread ref (mem_references_binary.2 (.inl href))).bind fun _ _ hl =>
        (compileWith_follows hd hmode hmode' (h.part (.right .self))
          fun ref href => hread ref (mem_references_binary.2 (.inr href))).bind fun _ _ hr =>
        .ok (Compiled.alike_binary t t' hl hr op)
  | .chain op operands, h, hread => by
      unfold compileWith
      refine (compileAllWith_follows hd hmode hmode' (fun f hf => h.part (.chain hf .self))
        fun f hf ref href => hread ref (mem_references_chain.2 ⟨f, hf, href⟩)).bind
          fun parts parts' hparts => ?_
      cases hparts.1 with
      | nil => exact .error _
      | cons hfirst hothers => exact .ok (Compiled.alike_foldl_binary t t' op hothers hfirst)
  | .call (.unknown name) args, _, _ => .error _
  | .call (.known f) args, h, hread => by
      obtain ⟨hpattern, htemplate⟩ := h _ _ .self
      have hf : f ≠ .text .regexpReplace := fun heq => hpattern (congrArg Callee.known heq)
      have hsupported {t : Target} (hmode : t.mode = .select) :
          f.supported t.dialect t.mode = true := by
        simp [Function.supported, hmode, hf]
      unfold compileWith
      rw [hsupported hmode, hsupported hmode']
      split
      · exact .error _
      · next haccepts =>
          refine (compileAllWith_follows hd hmode hmode' (fun f hf => h.part (.call hf .self))
            fun f hf ref href => hread ref (mem_references_call.2 ⟨f, hf, href⟩)).bind
              fun parts parts' hparts => ?_
          -- the call has one argument or two, and two are excluded
          have hshort : f = .date .datetimeParse → (parts.map Compiled.fragment)[1]? = none := by
            rintro rfl
            simp only [Function.accepts, Function.signature, DateFunction.signature, Signature.accepts,
              Option.all_some, Bool.not_eq_true', Bool.not_eq_false, Bool.and_eq_true,
              decide_eq_true_eq] at haccepts
            have hne := htemplate rfl
            rw [List.getElem?_eq_none_iff, List.length_map, hparts.2]
            omega
          rw [ofExcept_except, ofExcept_except]
          exact (Function.apply_follows t t' hd hmode hmode' (Compiled.fragments_alike hparts.1) hf
            hshort).bind fun _ _ halike => .ok ⟨halike, Compiled.readsOfAll_congr hparts.1⟩

theorem compileAllWith_follows (hd : t.dialect = .postgres) (hmode : t.mode = .select)
    (hmode' : t'.mode = .select) :
    ∀ {fs : List Formula}, (∀ f ∈ fs, f.Portable) →
      (∀ f ∈ fs, ∀ ref ∈ f.references, Follows Compiled.Alike (read ref) (read' ref)) →
      Follows (fun parts parts' => Forall₂ Compiled.Alike parts parts' ∧ parts.length = fs.length)
        (compileAllWith t read fs) (compileAllWith t' read' fs)
  | [], _, _ => .ok ⟨.nil, rfl⟩
  | f :: rest, h, hread => by
      rw [List.forall_mem_cons] at h hread
      unfold compileAllWith
      exact (compileWith_follows hd hmode hmode' h.1 hread.1).bind fun _ _ hfirst =>
        (compileAllWith_follows hd hmode hmode' h.2 hread.2).bind fun _ _ hothers =>
        .ok ⟨.cons hfirst hothers.1, congrArg Nat.succ hothers.2⟩

end

end Formula

/-! ### Fields -/

namespace Context

variable {table : Table} {t t' : Target} {scope scope' : Scope}

end Context

namespace Sample

end Sample

end ComputedFields
