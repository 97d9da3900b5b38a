/-
**When a concatenation can be missing.**

Texts are joined with `||`, which is missing as soon as one of its parts is.  So every operand of a
concatenation is put into a `COALESCE` with the empty text, and the whole is never missing.  There is one
way around it.  A left operand that is a chain of texts already is not put into a `COALESCE` of its own, but
continued, on the assumption that its parts have theirs.

A chain that comes from a concatenation is made of such parts.  Three functions make chains of their own: an
error message, and in one of the databases a text with some characters replaced and a date after a template
of several parts.  Other formulas pass such a chain on as it is: a formula field, the text of a text, and the
left operand of the next concatenation.  These are the formulas that are `Opens`, and a concatenation has a
part without a `COALESCE` exactly when its left operand is one of them.

Main definitions:

* `ComputedFields.Sql.Expr.missing` — whether a value is missing, given which of its parts are;
* `ComputedFields.Target.Guarded` — a part that is never missing;
* `ComputedFields.Fragment.Bare` — a chain of texts with a part that is not guarded;
* `ComputedFields.Context.Opens` — the formulas that compile to one.

Main results:

* `ComputedFields.Function.apply_exposes` — which calls give such a chain;
* `ComputedFields.Context.bare_iff_opens` — **which formulas compile to such a chain**;
* `ComputedFields.Context.concat_guarded_iff` — **all parts of a concatenation are guarded unless its left
  operand is a chain that is open**.
-/

import ComputedFields.Proofs.CompiledWords
import ComputedFields.Proofs.Expansion

set_option relaxedAutoImplicit false
set_option autoImplicit false

namespace ComputedFields

open Sql (Expr)

/-! ### Missing values -/

namespace Sql.Expr

mutual

/-- The value is missing, given which other values are: joined texts as soon as one of them is, and a
`COALESCE` when all its arguments are. -/
def missing (absent : Expr → Bool) : Expr → Bool
  | .bool _ | .number _ | .text _ | .typedText .. => false
  | .null => true
  | .chain .concat operands => anyMissing absent operands
  | .call name args => if name = "COALESCE" then allMissing absent args else absent (.call name args)
  | e => absent e

def anyMissing (absent : Expr → Bool) : List Expr → Bool
  | [] => false
  | e :: rest => e.missing absent || anyMissing absent rest

def allMissing (absent : Expr → Bool) : List Expr → Bool
  | [] => true
  | e :: rest => e.missing absent && allMissing absent rest

end

theorem anyMissing_eq_false {absent : Expr → Bool} {es : List Expr}
    (h : ∀ e ∈ es, e.missing absent = false) : anyMissing absent es = false := by
  induction es with
  | nil => rfl
  | cons e es ih =>
      rw [List.forall_mem_cons] at h
      rw [anyMissing, h.1, ih h.2]
      rfl

end Sql.Expr

/-! ### Guarded parts -/

/-- The part is a `COALESCE` with the empty text. -/
def Target.Guarded (t : Target) (e : Expr) : Prop :=
  ∃ value, e = .call "COALESCE" [value, t.stringLiteral ""]

theorem Target.guarded_concatOperand (t : Target) (f : Fragment) : t.Guarded (t.concatOperand f) :=
  ⟨t.text f, rfl⟩

theorem Target.Guarded.missing {t : Target} {e : Expr} (h : t.Guarded e) (absent : Expr → Bool) :
    e.missing absent = false := by
  obtain ⟨value, rfl⟩ := h
  have hempty : (t.stringLiteral "").missing absent = false := by
    unfold Target.stringLiteral
    split <;> simp [Expr.missing]
  simp [Expr.missing, Expr.allMissing, hempty]

namespace Fragment

/-- A chain of texts with a part that is not guarded. -/
def Bare (t : Target) (f : Fragment) : Prop :=
  ∃ parts, f.expr = .chain .concat parts ∧ f.type = .string ∧ ∃ e ∈ parts, ¬ t.Guarded e

/-- If the part is a chain of texts, its type is known, and it is neither an array nor empty. -/
def Tame (f : Fragment) : Prop :=
  ∀ parts, f.expr = .chain .concat parts →
    f.type ≠ .unknown ∧ (f.type = .string → f.isArray = false ∧ parts ≠ [])

/-- The part is no chain of texts, and will not be taken for one. -/
def Single (f : Fragment) : Prop :=
  ∀ parts, f.expr = .chain .concat parts → f.type ≠ .string ∧ f.type ≠ .unknown

variable {t : Target} {f : Fragment} {e : Expr}

theorem Single.tame (h : f.Single) : f.Tame :=
  fun parts hparts => ⟨(h parts hparts).2, fun htype => absurd htype (h parts hparts).1⟩

theorem Single.not_bare (h : f.Single) : ¬ f.Bare t := by
  rintro ⟨parts, hparts, htype, -⟩
  exact (h parts hparts).1 htype

theorem Single.of_ne (h : ∀ parts, f.expr ≠ .chain .concat parts) : f.Single :=
  fun parts hparts => absurd hparts (h parts)

theorem Single.call (name : String) (args : List Expr) (type : ValueType) (isArray : Bool) :
    (⟨.call name args, type, isArray⟩ : Fragment).Single :=
  .of_ne fun _ hparts => by cases hparts

theorem Single.verbatim (sql : String) (type : ValueType) (isArray : Bool) :
    (⟨.verbatim sql, type, isArray⟩ : Fragment).Single :=
  .of_ne fun _ hparts => by cases hparts

theorem Single.case (branches : List (Expr × Expr)) (otherwise : Option Expr) (type : ValueType)
    (isArray : Bool) : (⟨.case branches otherwise, type, isArray⟩ : Fragment).Single :=
  .of_ne fun _ hparts => by cases hparts

theorem Single.number (e : Expr) : (Fragment.number e).Single :=
  fun _ _ => ⟨by simp [Fragment.number], by simp [Fragment.number]⟩

theorem Single.boolean (e : Expr) : (Fragment.boolean e).Single :=
  fun _ _ => ⟨by simp [Fragment.boolean], by simp [Fragment.boolean]⟩

theorem Single.dateTime (e : Expr) : (Fragment.dateTime e).Single :=
  fun _ _ => ⟨by simp [Fragment.dateTime], by simp [Fragment.dateTime]⟩

theorem Tame.string {e : Expr} (h : e ≠ .chain .concat []) : (Fragment.string e).Tame := by
  intro parts hparts
  refine ⟨by simp [Fragment.string], fun _ => ⟨rfl, ?_⟩⟩
  rintro rfl
  exact h hparts

/-- A chain of texts is bare if one of its parts is not guarded. -/
theorem bare_iff {parts : List Expr} (hexpr : f.expr = .chain .concat parts) (htype : f.type = .string) :
    f.Bare t ↔ ∃ e ∈ parts, ¬ t.Guarded e := by
  constructor
  · rintro ⟨others, hothers, -, hopen⟩
    cases hexpr.symm.trans hothers
    exact hopen
  · intro hopen
    exact ⟨parts, hexpr, htype, hopen⟩

end Fragment

/-! ### Operators -/

/-- The operators that join texts. -/
def BinaryOp.Joins (op : BinaryOp) : Prop := op = .add ∨ op = .concat

namespace Target

variable {t : Target} {l r : Fragment} {op : BinaryOp}

/-- What a concatenation is: the parts of the left operand if it is a chain of texts, else the left operand
guarded, and then the right operand guarded. -/
theorem concat_cases (t : Target) (l r : Fragment) :
    (∃ parts, l.expr = .chain .concat parts ∧ l.type = .string ∧
      t.concat l r = .string (.chain .concat (parts ++ [t.concatOperand r]))) ∨
    (¬ l.Bare t ∧
      t.concat l r = .string (.chain .concat [t.concatOperand l, t.concatOperand r])) := by
  unfold concat
  split
  · next parts hexpr htype => exact .inl ⟨parts, hexpr, htype, by simp [Expr.append]⟩
  · next hnone =>
      refine .inr ⟨?_, rfl⟩
      rintro ⟨parts, hexpr, htype, -⟩
      exact hnone parts hexpr htype

/-- **A concatenation is bare if its left operand is.** -/
theorem bare_concat : (t.concat l r).Bare t ↔ l.Bare t := by
  have hright := t.guarded_concatOperand r
  rcases t.concat_cases l r with ⟨parts, hexpr, htype, heq⟩ | ⟨hbare, heq⟩
  · rw [heq, Fragment.bare_iff rfl rfl, Fragment.bare_iff hexpr htype]
    constructor
    · rintro ⟨e, he, hopen⟩
      rcases List.mem_append.1 he with he | he
      · exact ⟨e, he, hopen⟩
      · rw [List.mem_singleton.1 he] at hopen
        exact absurd hright hopen
    · rintro ⟨e, he, hopen⟩
      exact ⟨e, List.mem_append_left _ he, hopen⟩
  · rw [heq, Fragment.bare_iff rfl rfl]
    simp [hbare, hright, t.guarded_concatOperand l]

theorem single_modulo : (t.modulo l r).Single := .number _

/-- An operator gives a bare chain only if it joins texts, and its left operand is one. -/
theorem bare_binary : (t.binary l op r).Bare t ↔ op.Joins ∧ l.Bare t := by
  cases op with
  | concat =>
      simp only [binary, bare_concat, BinaryOp.Joins, or_true, true_and]
  | add =>
      simp only [BinaryOp.Joins, true_or, true_and, binary]
      split
      · exact bare_concat
      · next hplain =>
          -- a chain of texts is a text, which is joined and not added
          refine iff_of_false (Fragment.Single.number _).not_bare ?_
          rintro ⟨parts, -, htype, -⟩
          simp [isTextual, htype] at hplain
  | sub | mul | div => exact iff_of_false (Fragment.Single.number _).not_bare (by simp [BinaryOp.Joins])
  | mod => exact iff_of_false single_modulo.not_bare (by simp [BinaryOp.Joins])
  | eq | ne | lt | le | gt | ge | and | or =>
      exact iff_of_false (Fragment.Single.boolean _).not_bare (by simp [BinaryOp.Joins])

theorem tame_concat : (t.concat l r).Tame := by
  rcases t.concat_cases l r with ⟨parts, -, -, heq⟩ | ⟨-, heq⟩
  · rw [heq]
    exact .string (by simp)
  · rw [heq]
    exact .string (by simp)

theorem tame_binary : (t.binary l op r).Tame := by
  cases op with
  | concat => exact tame_concat
  | add =>
      simp only [binary]
      split
      · exact tame_concat
      · exact (Fragment.Single.number _).tame
  | sub | mul | div => exact (Fragment.Single.number _).tame
  | mod => exact single_modulo.tame
  | eq | ne | lt | le | gt | ge | and | or => exact (Fragment.Single.boolean _).tame

theorem single_unary {op : UnaryOp} {f : Fragment} : (t.unary op f).Single := by
  cases op with
  | not => exact .boolean _
  | neg => exact .number _

theorem single_stringLiteral (t : Target) (value : String) :
    (Fragment.string (t.stringLiteral value)).Single := by
  refine .of_ne fun parts hparts => ?_
  simp only [Fragment.string, stringLiteral] at hparts
  split at hparts <;> cases hparts

end Target

/-! ### Functions -/

/-- The call gives a bare chain: an error message, in one of the databases a text with some characters
replaced and a date after a template of several parts, and the text of a bare chain. -/
def Function.Opens (t : Target) (args : List Fragment) : Function → Prop
  | .logical .error => True
  | .text .replace => t.dialect = .sqlite
  | .date .datetimeFormat => t.dialect = .sqlite ∧ ∃ f ∈ args[1]?, ∃ template,
      f.expr.textLiteral? = some template ∧ 1 < (formatParts template).length
  | .text .t | .array .arrayJoin | .system .textAll => ∃ f ∈ args[0]?, f.Bare t
  | _ => False

/-- The part is tame, and bare exactly if `p` holds. -/
def Fragment.Exposes (t : Target) (p : Prop) (f : Fragment) : Prop := f.Tame ∧ (f.Bare t ↔ p)

theorem Fragment.Exposes.congr {t : Target} {f : Fragment} {p q : Prop} (h : f.Exposes t p)
    (hiff : p ↔ q) : f.Exposes t q :=
  ⟨h.1, h.2.trans hiff⟩

theorem Fragment.Single.exposes {t : Target} {f : Fragment} (h : f.Single) : f.Exposes t False :=
  ⟨h.tame, iff_of_false h.not_bare id⟩

section functions

variable {t : Target} {args : List Fragment}

theorem Call.yields_arg (name : String) (args : List Fragment) (index : Nat) :
    Yields (fun f => args[index]? = some f) (Call.arg ⟨name, args⟩ index) := by
  intro f hf
  unfold Call.arg at hf
  split at hf
  · next heq =>
      cases hf
      exact heq
  · cases hf

theorem NumericFunction.apply_single (f : NumericFunction) :
    Yields Fragment.Single (f.apply t args) := by
  cases f with
  | sum | average => exact .ok (.number _)
  | max | min =>
      unfold apply
      simp only
      split <;> exact .ok (.number _)
  | power => exact .bind_any fun _ => .bind_any fun _ => .bind_any fun _ => .ok (.number _)
  | mod => exact .bind_any fun _ => .bind_any fun _ => .ok Target.single_modulo
  | _ => exact .bind_any fun _ => .ok (.number _)

namespace TextFunction

/-- Further operands leave a chain as bare as it was. -/
theorem exposes_foldl_concat {first : Fragment} {p : Prop} (h : first.Exposes t p)
    (rest : List Fragment) : (rest.foldl t.concat first).Exposes t p := by
  induction rest generalizing first with
  | nil => exact h
  | cons r rest ih => exact ih ⟨Target.tame_concat, Target.bare_concat.trans h.2⟩

theorem exposes_overlaid (value start count replacement : Expr) :
    (Fragment.string (overlaid t.dialect value start count replacement)).Exposes t
      (t.dialect = .sqlite) := by
  cases hd : t.dialect with
  | postgres => exact (Fragment.Single.verbatim _ _ _).exposes.congr (by simp)
  | sqlite =>
      refine ⟨.string (by simp [overlaid]), iff_of_true ⟨_, rfl, rfl, _, List.mem_cons_self, ?_⟩ rfl⟩
      rintro ⟨guarded, hguarded⟩
      simp at hguarded

theorem single_rightPart (value count : Expr) : (Fragment.string (rightPart t value count)).Single := by
  unfold rightPart
  split
  · exact .call _ _ _ _
  · simp only
    split
    · exact .call _ _ _ _
    · exact .case _ _ _ _

theorem apply_exposes (f : TextFunction) (hargs : ∀ a ∈ args, a.Tame) :
    Yields (Fragment.Exposes t (Function.Opens t args (.text f))) (f.apply t args) := by
  -- a call of a function is no chain
  have hcall : ∀ name es, (Fragment.string (.call name es)).Exposes t False :=
    fun name es => (Fragment.Single.call name es _ _).exposes
  cases f with
  | concatenate => exact .bind_any fun first => .ok (exposes_foldl_concat (hcall _ _) _)
  | find | search => exact .bind_any fun _ => .bind_any fun _ => .ok (Fragment.Single.number _).exposes
  | len => exact .bind_any fun _ => .ok (Fragment.Single.number _).exposes
  | mid | substitute => exact .bind_any fun _ => .bind_any fun _ => .bind_any fun _ => .ok (hcall _ _)
  | lower | upper | trim | encodeUrlComponent => exact .bind_any fun _ => .ok (hcall _ _)
  | left =>
      refine .bind_any fun value => .ok ?_
      unfold leftPart
      split
      · exact hcall _ _
      · exact hcall _ _
  | right => exact .bind_any fun _ => .ok (single_rightPart _ _).exposes
  | replace =>
      exact .bind_any fun _ => .bind_any fun _ => .bind_any fun _ => .bind_any fun _ =>
        .ok (exposes_overlaid _ _ _ _)
  | regexpReplace =>
      unfold apply
      simp only
      split
      · exact .error _
      · exact .bind_any fun _ => .bind_any fun _ => .bind_any fun _ => .ok (hcall _ _)
  | rept =>
      refine .bind_any fun value => .bind_any fun count => .ok ?_
      unfold repeated
      split
      · exact hcall _ _
      · exact (Fragment.Single.verbatim _ _ _).exposes
  | t =>
      refine (Call.yields_arg _ args 0).bind fun value hvalue => .ok ?_
      have htame := hargs value (List.mem_of_getElem? hvalue)
      have hopens : Function.Opens t args (.text .t) ↔ value.Bare t := by simp [Function.Opens, hvalue]
      split
      · exact ⟨htame, hopens.symm⟩
      · next hplain =>
          -- a chain of texts is a text and no array, and is passed on
          refine ⟨(t.single_stringLiteral "").tame,
            iff_of_false (t.single_stringLiteral "").not_bare fun hbare => ?_⟩
          obtain ⟨parts, hparts, htype, -⟩ := hopens.1 hbare
          exact hplain ⟨htype, ((htame parts hparts).2 htype).1⟩

end TextFunction

/-! ### Dates -/

namespace Target

/-- The parts of a formatted date are neither chains nor guarded. -/
theorem formatPart_cases (t : Target) (value : Expr) (part : FormatPart) :
    (∀ parts, formatPart value part ≠ .chain .concat parts) ∧ ¬ t.Guarded (formatPart value part) := by
  constructor
  · intro parts hparts
    cases part with
    | spec text => cases hparts
    | computed token => cases token <;> cases hparts
  · rintro ⟨guarded, hguarded⟩
    cases part with
    | spec text => simp [formatPart] at hguarded
    | computed token => cases token <;> simp [formatPart, computedToken] at hguarded

/-- A date after a template is a chain if the template has several parts. -/
theorem exposes_formatDate (f : Fragment) (template : String) :
    (Fragment.string (t.formatDate f template)).Exposes t
      (t.dialect = .sqlite ∧ 1 < (formatParts template).length) := by
  cases hd : t.dialect with
  | postgres =>
      simp only [formatDate, hd]
      exact (Fragment.Single.call _ _ _ _).exposes.congr (by simp)
  | sqlite =>
      simp only [formatDate, hd, true_and]
      match formatParts template with
      | [] => exact (Fragment.Single.of_ne fun _ h => by cases h).exposes.congr (by simp)
      | [part] =>
          exact (Fragment.Single.of_ne (t.formatPart_cases f.expr part).1).exposes.congr (by simp)
      | part :: other :: rest =>
          refine ⟨.string (by simp [joinParts]),
            iff_of_true ⟨_, rfl, rfl, _, List.mem_cons_self, ?_⟩ (by simp)⟩
          exact (t.formatPart_cases f.expr part).2

end Target

/-- A literal argument is the text that stands there, unless that is empty. -/
theorem Call.yields_literal? (name : String) (args : List Fragment) (index : Nat) :
    Yields (fun literal => (literal = none ∧ ∀ f ∈ args[index]?, f.expr.textLiteral? = some "") ∨
        ∃ f ∈ args[index]?, ∃ value, f.expr.textLiteral? = some value ∧ literal = some value)
      (Call.literal? ⟨name, args⟩ index) := by
  unfold Call.literal?
  simp only
  split
  · next hnone => exact .ok (.inl ⟨rfl, by simp [hnone]⟩)
  · next f hf =>
      split
      · next hblank =>
          refine .ok (.inl ⟨rfl, ?_⟩)
          simpa [hf, Fragment.isBlank, Expr.isBlank] using hblank
      · split
        · next value hvalue => exact .ok (.inr ⟨f, hf, value, hvalue, rfl⟩)
        · exact .error _

namespace DateFunction

/-- A template of one part gives no chain. -/
theorem exposes_formatDate_single {template : String} (h : (formatParts template).length = 1)
    (value : Fragment) : (Fragment.string (t.formatDate value template)).Exposes t False := by
  have hformat := t.exposes_formatDate value template
  exact ⟨hformat.1, hformat.2.trans (iff_of_false (by omega) id)⟩

/-- A call with a template gives a bare chain if the template has several parts. -/
theorem exposes_datetimeFormat {template : Option String} (value : Fragment)
    (h : (template = none ∧ ∀ f ∈ args[1]?, f.expr.textLiteral? = some "") ∨
      ∃ f ∈ args[1]?, ∃ value, f.expr.textLiteral? = some value ∧ template = some value) :
    (Fragment.string (t.formatDate value (template.getD "YYYY-MM-DD HH:mm"))).Exposes t
      (Function.Opens t args (.date .datetimeFormat)) := by
  have hformat := t.exposes_formatDate value (template.getD "YYYY-MM-DD HH:mm")
  refine ⟨hformat.1, hformat.2.trans (and_congr_right fun _ => ?_)⟩
  rcases h with ⟨rfl, hblank⟩ | ⟨f, hf, s, hliteral, rfl⟩
  · -- the template that counts without one has a single part, and an empty one has none
    refine iff_of_false (by decide) ?_
    rintro ⟨f, hf, s, hs, hparts⟩
    cases (hblank f hf).symm.trans hs
    exact absurd hparts (by decide)
  · constructor
    · intro hparts
      exact ⟨f, hf, s, hliteral, hparts⟩
    · rintro ⟨g, hg, s', hs', hparts⟩
      cases hf.symm.trans hg
      cases hliteral.symm.trans hs'
      exact hparts

theorem apply_exposes (f : DateFunction) :
    Yields (Fragment.Exposes t (Function.Opens t args (.date f))) (f.apply t args) := by
  have hdate : ∀ e, (Fragment.dateTime e).Exposes t False := fun e => (Fragment.Single.dateTime e).exposes
  have hnumber : ∀ e, (Fragment.number e).Exposes t False := fun e => (Fragment.Single.number e).exposes
  have hcondition : ∀ e, (Fragment.boolean e).Exposes t False :=
    fun e => (Fragment.Single.boolean e).exposes
  have hdifference : ∀ args, Yields (Fragment.Exposes t False) (difference t args) := fun args =>
    .bind_any fun _ => .bind_any fun _ => .bind_any fun _ => .ok (hnumber _)
  cases f with
  | today | now | createdTime | lastModifiedTime => exact .ok (hdate _)
  | year | month | weekNum | day | hour | minute | second => exact .bind_any fun _ => .ok (hnumber _)
  | weekday => exact .bind_any fun _ => .bind_any fun _ => .ok (hnumber _)
  | fromNow | toNow => exact .bind_any fun _ => hdifference _
  | datetimeDiff => exact hdifference args
  | workday => exact .bind_any fun _ => .bind_any fun _ => .ok (hdate _)
  | workdayDiff => exact .bind_any fun _ => .bind_any fun _ => .ok (hnumber _)
  | isSame | isAfter | isBefore =>
      exact .bind_any fun _ => .bind_any fun _ => .bind_any fun _ => .ok (hcondition _)
  | dateAdd =>
      refine .bind_any fun unit => ?_
      cases unit with
      | none => exact .error _
      | some unit => exact .bind_any fun _ => .bind_any fun _ => .ok (hdate _)
  | datestr | timestr => exact .bind_any fun value => .ok (exposes_formatDate_single (by decide) value)
  | datetimeFormat =>
      exact (Call.yields_literal? _ args 1).bind fun template htemplate =>
        .bind_any fun value => .ok (exposes_datetimeFormat value htemplate)
  | datetimeParse =>
      unfold apply parsed
      simp only
      split
      · exact .bind_any fun _ => .bind_any fun _ => .ok (hdate _)
      · exact .bind_any fun _ => .ok (hdate _)

end DateFunction

/-! ### Choices and arrays -/

theorem single_choice (branches : List (Expr × Expr)) (otherwise : Option Expr) (type : ValueType) :
    (⟨choice branches otherwise, type, false⟩ : Fragment).Single := by
  unfold choice
  split
  · exact .case _ _ _ _
  · exact .case _ _ _ _

theorem LogicalFunction.apply_exposes (f : LogicalFunction) :
    Yields (Fragment.Exposes t (Function.Opens t args (.logical f))) (f.apply t args) := by
  have hcondition : ∀ e, (Fragment.boolean e).Exposes t False :=
    fun e => (Fragment.Single.boolean e).exposes
  cases f with
  | ifElse => exact .bind_any fun _ => .bind_any fun _ => .ok (single_choice _ _ _).exposes
  | switch => exact .bind_any fun _ => .ok (single_choice _ _ _).exposes
  | and | or | xor => exact .ok (hcondition _)
  | not | isError => exact .bind_any fun _ => .ok (hcondition _)
  | blank => exact .ok (t.single_stringLiteral "").exposes
  | error =>
      -- the text in front of the message is no call
      refine .bind_any fun message => .ok ⟨.string (by simp), iff_of_true ?_ trivial⟩
      refine ⟨_, rfl, rfl, _, List.mem_cons_self, ?_⟩
      rintro ⟨guarded, hguarded⟩
      unfold Target.stringLiteral at hguarded
      split at hguarded <;> cases hguarded

namespace ArrayFunction

theorem remade_single (c : Call) (make : String → String) :
    Yields Fragment.Single (remade t c make) := by
  refine .bind_any fun value => .ok ?_
  split
  · exact .verbatim _ _ _
  · exact .case _ _ _ _

/-- The text of one value is the value itself if it is a text. -/
theorem join_exposes (name : String) (hargs : ∀ a ∈ args, a.Tame) :
    Yields (Fragment.Exposes t (∃ f ∈ args[0]?, f.Bare t)) (join t ⟨name, args⟩) := by
  refine (Call.yields_arg name args 0).bind fun value hvalue => .ok ?_
  have htame := hargs value (List.mem_of_getElem? hvalue)
  have hfirst : value.Bare t ↔ ∃ f ∈ args[0]?, f.Bare t := by simp [hvalue]
  -- what is no text, or an array, is no chain of texts
  have hplain : ∀ sql, (value.type = .string → value.isArray = true) →
      (Fragment.string (.verbatim sql)).Exposes t (∃ f ∈ args[0]?, f.Bare t) := by
    intro sql hvalue
    refine (Fragment.Single.verbatim sql _ _).exposes.congr (iff_of_false id ?_)
    rw [← hfirst]
    rintro ⟨parts, hparts, htype, -⟩
    have harray := ((htame parts hparts).2 htype).1
    rw [hvalue htype] at harray
    cases harray
  split
  · next harray => exact hplain _ fun _ => harray
  · next harray =>
      unfold Target.text
      rw [if_neg harray]
      split
      · next htype =>
          refine Fragment.Exposes.congr ⟨?_, ?_⟩ hfirst
          · intro parts hparts
            exact ⟨by simp [Fragment.string], fun _ => ⟨rfl, ((htame parts hparts).2 htype).2⟩⟩
          · constructor
            · rintro ⟨parts, hparts, -, hopen⟩
              exact ⟨parts, hparts, htype, hopen⟩
            · rintro ⟨parts, hparts, -, hopen⟩
              exact ⟨parts, hparts, rfl, hopen⟩
      all_goals
        next htype => exact hplain _ fun hstring => by rw [htype] at hstring; cases hstring

theorem apply_exposes (f : ArrayFunction) (hargs : ∀ a ∈ args, a.Tame) :
    Yields (Fragment.Exposes t (Function.Opens t args (.array f))) (f.apply t args) := by
  have hsingle {x : Except CompileError Fragment} (h : Yields Fragment.Single x) :
      Yields (Fragment.Exposes t False) x := fun g hg => (h g hg).exposes
  cases f with
  | countAll => exact .bind_any fun _ => .ok (Fragment.Single.number _).exposes
  | countA | count => exact .ok (Fragment.Single.number _).exposes
  | arrayJoin => exact join_exposes _ hargs
  | arrayUnique | arrayFlatten | arrayCompact => exact hsingle (remade_single _ _)

end ArrayFunction

theorem SystemFunction.apply_exposes (f : SystemFunction) (hargs : ∀ a ∈ args, a.Tame) :
    Yields (Fragment.Exposes t (Function.Opens t args (.system f))) (f.apply t args) := by
  cases f with
  | recordId =>
      refine .ok (Fragment.Single.of_ne fun parts hparts => ?_).exposes
      simp only [Fragment.string, Target.column] at hparts
      split at hparts <;> cases hparts
  | autoNumber => exact .ok (Fragment.Single.number _).exposes
  | textAll =>
      refine (Call.yields_arg _ args 0).bind fun value hvalue => ?_
      have htame : ∀ a ∈ [value], a.Tame := by simpa using hargs value (List.mem_of_getElem? hvalue)
      have hopens : Function.Opens t args (.system .textAll) ↔ ∃ f ∈ [value][0]?, f.Bare t := by
        simp [Function.Opens, hvalue]
      rw [hopens]
      exact ArrayFunction.join_exposes _ htame

/-- **Which calls give a bare chain.** -/
theorem Function.apply_exposes (f : Function) (hargs : ∀ a ∈ args, a.Tame) :
    Yields (Fragment.Exposes t (f.Opens t args)) (f.apply t args) := by
  cases f with
  | numeric f => exact fun g hg => (f.apply_single g hg).exposes
  | text f => exact f.apply_exposes hargs
  | logical f => exact f.apply_exposes
  | date f => exact f.apply_exposes
  | array f => exact f.apply_exposes hargs
  | system f => exact f.apply_exposes hargs

end functions

/-! ### Formulas -/

/-- The functions that pass a chain of texts on as it is. -/
def Function.passes : Function → Bool
  | .text .t | .array .arrayJoin | .system .textAll => true
  | _ => false

/-- **The formulas that compile to a bare chain**: error messages, in one of the databases texts with some
characters replaced and dates after a template of several parts, and what passes such a chain on. -/
inductive Context.Opens (ctx : Context) : Formula → Prop where
  | error (args : List Formula) : Opens ctx (.call (.known (.logical .error)) args)
  | replace (args : List Formula) :
      ctx.target.dialect = .sqlite → Opens ctx (.call (.known (.text .replace)) args)
  | format {value template : Formula} {rest : List Formula} {c : Compiled} {s : String} :
      ctx.target.dialect = .sqlite → ctx.compile template = .ok c →
      c.fragment.expr.textLiteral? = some s → 1 < (formatParts s).length →
      Opens ctx (.call (.known (.date .datetimeFormat)) (value :: template :: rest))
  | passed {f : Function} {arg : Formula} {rest : List Formula} :
      f.passes = true → Opens ctx arg → Opens ctx (.call (.known f) (arg :: rest))
  | left {l r : Formula} {op : BinaryOp} : op.Joins → Opens ctx l → Opens ctx (.binary l op r)
  | first {op : BinaryOp} {first : Formula} {others : List Formula} :
      others = [] ∨ op.Joins → Opens ctx first → Opens ctx (.chain op (first :: others))
  | field {id : String} {f : Formula} :
      ctx.table.Holds id f → Opens ctx f → Opens ctx (.field id)

namespace Context

variable {ctx : Context} {depth : Nat} {path : List String} {id : String} {f : Formula} {c : Compiled}

/-- The compiled part is bare exactly if the formula opens. -/
abbrev Exposed (ctx : Context) (f : Formula) (c : Compiled) : Prop :=
  c.fragment.Exposes ctx.target (ctx.Opens f)

theorem exposed_of_single (h : c.fragment.Single) (hopens : ¬ ctx.Opens f) : ctx.Exposed f c :=
  h.exposes.congr (iff_of_false id hopens)

/-- A further operand of a chain. -/
theorem bare_foldl_binary {t : Target} {op : BinaryOp} (first : Compiled) (others : List Compiled) :
    (others.foldl (Compiled.binary t op) first).fragment.Bare t ↔
      (others = [] ∨ op.Joins) ∧ first.fragment.Bare t := by
  induction others generalizing first with
  | nil => simp
  | cons other others ih =>
      rw [List.foldl_cons, ih, Compiled.binary, Target.bare_binary]
      simp only [List.cons_ne_nil, false_or]
      constructor
      · rintro ⟨-, hop, hfirst⟩
        exact ⟨hop, hfirst⟩
      · rintro ⟨hop, hfirst⟩
        exact ⟨.inr hop, hop, hfirst⟩

theorem tame_foldl_binary {t : Target} {op : BinaryOp} {first : Compiled} (h : first.fragment.Tame)
    (others : List Compiled) : (others.foldl (Compiled.binary t op) first).fragment.Tame := by
  induction others generalizing first with
  | nil => exact h
  | cons other others ih => exact ih Target.tame_binary

/-- A call opens on its compiled arguments exactly if it does on the formulas that they come from. -/
theorem opens_call_iff {f : Function} {args : List Formula} {parts : List Compiled}
    (h : List.Forall₂ (fun arg c => ctx.compile arg = .ok c ∧ ctx.Exposed arg c) args parts) :
    f.Opens ctx.target (parts.map Compiled.fragment) ↔ ctx.Opens (.call (.known f) args) := by
  constructor
  · intro hopens
    unfold Function.Opens at hopens
    split at hopens
    · exact .error args
    · exact .replace args hopens
    · obtain ⟨hdialect, fragment, hfragment, s, hs, hparts⟩ := hopens
      cases h with
      | nil => cases hfragment
      | cons _ h =>
          cases h with
          | nil => cases hfragment
          | cons htemplate _ =>
              cases hfragment
              exact .format hdialect htemplate.1 hs hparts
    case h_7 => exact hopens.elim
    all_goals
      obtain ⟨fragment, hfragment, hbare⟩ := hopens
      cases h with
      | nil => cases hfragment
      | cons harg _ =>
          cases hfragment
          exact .passed rfl (harg.2.2.1 hbare)
  · intro hopens
    cases hopens with
    | error => trivial
    | replace _ hdialect => exact hdialect
    | format hdialect htemplate hs hparts =>
        cases h with
        | cons _ h =>
            cases h with
            | cons hsecond _ =>
                cases hsecond.1.symm.trans htemplate
                exact ⟨hdialect, _, rfl, _, hs, hparts⟩
    | @passed f arg rest hpasses harg =>
        cases h with
        | cons hfirst _ =>
            have hbare := hfirst.2.2.2 harg
            unfold Function.passes at hpasses
            split at hpasses
            · exact ⟨_, rfl, hbare⟩
            · exact ⟨_, rfl, hbare⟩
            · exact ⟨_, rfl, hbare⟩
            · cases hpasses

theorem tame_of_exposed {args : List Formula} {parts : List Compiled}
    (h : List.Forall₂ (fun arg c => ctx.compile arg = .ok c ∧ ctx.Exposed arg c) args parts) :
    ∀ a ∈ parts.map Compiled.fragment, a.Tame := by
  induction h with
  | nil => simp
  | cons hfirst _ ih =>
      rw [List.map_cons, List.forall_mem_cons]
      exact ⟨hfirst.2.1, ih⟩

mutual

/-- A formula exposes what it opens, if its fields do. -/
theorem exposed_of_compileWith
    (hread : ∀ id c, ctx.expand depth path id = .ok c → ctx.Exposed (.field id) c) :
    ∀ {f : Formula} {c : Compiled}, f.compileWith ctx.target (ctx.expand depth path) = .ok c →
      ctx.Exposed f c
  | .bool value, _, h => by
      cases h
      exact exposed_of_single (.boolean _) (by rintro ⟨⟩)
  | .number spelling, _, h => by
      cases h
      exact exposed_of_single (.number _) (by rintro ⟨⟩)
  | .text value, _, h => by
      cases h
      exact exposed_of_single (ctx.target.single_stringLiteral value) (by rintro ⟨⟩)
  | .null, _, h => by
      cases h
      exact exposed_of_single (.of_ne fun _ hparts => by cases hparts) (by rintro ⟨⟩)
  | .field id, c, h => hread id c h
  | .unary op operand, _, h => by
      obtain ⟨c, -, h⟩ := exists_of_bind_eq_ok h
      cases h
      exact exposed_of_single Target.single_unary (by rintro ⟨⟩)
  | .binary left op right, _, h => by
      obtain ⟨l, hleft, h⟩ := exists_of_bind_eq_ok h
      obtain ⟨r, -, h⟩ := exists_of_bind_eq_ok h
      cases h
      refine ⟨Target.tame_binary, Target.bare_binary.trans ?_⟩
      rw [(exposed_of_compileWith hread hleft).2]
      constructor
      · rintro ⟨hop, hopens⟩
        exact .left hop hopens
      · intro hopens
        cases hopens with
        | left hop hopens => exact ⟨hop, hopens⟩
  | .chain op operands, _, h => by
      obtain ⟨parts, hparts, h⟩ := exists_of_bind_eq_ok h
      have hall := exposed_of_compileAllWith hread hparts
      cases hall with
      | nil => cases h
      | @cons first c operands parts hfirst hothers =>
          cases h
          refine ⟨tame_foldl_binary hfirst.2.1 _, (bare_foldl_binary _ _).trans ?_⟩
          have hempty : parts = [] ↔ operands = [] := by
            rw [← List.length_eq_zero_iff, ← List.length_eq_zero_iff, hothers.length_eq]
          rw [hfirst.2.2, hempty]
          constructor
          · rintro ⟨hop, hopens⟩
            exact .first hop hopens
          · intro hopens
            cases hopens with
            | first hop hopens => exact ⟨hop, hopens⟩
  | .call (.unknown name) args, _, h => by cases h
  | .call (.known f) args, _, h => by
      obtain ⟨-, -, parts, fragment, hparts, hfragment, rfl⟩ := Formula.compileWith_call_eq_ok_iff.1 h
      have hall := exposed_of_compileAllWith hread hparts
      exact (f.apply_exposes (tame_of_exposed hall) fragment hfragment).congr (opens_call_iff hall)

theorem exposed_of_compileAllWith
    (hread : ∀ id c, ctx.expand depth path id = .ok c → ctx.Exposed (.field id) c) :
    ∀ {fs : List Formula} {parts : List Compiled},
      Formula.compileAllWith ctx.target (ctx.expand depth path) fs = .ok parts →
      List.Forall₂ (fun f c => ctx.compile f = .ok c ∧ ctx.Exposed f c) fs parts
  | [], _, h => by
      cases h
      exact .nil
  | f :: rest, _, h => by
      obtain ⟨first, hfirst, h⟩ := exists_of_bind_eq_ok h
      obtain ⟨others, hothers, h⟩ := exists_of_bind_eq_ok h
      cases h
      exact .cons ⟨compile_of_compileWith hfirst, exposed_of_compileWith hread hfirst⟩
        (exposed_of_compileAllWith hread hothers)

end

/-! ### Fields -/

theorem single_plain (ctx : Context) (field : Field) : (ctx.plain field).fragment.Single := by
  have hstored : ∀ parts, ctx.stored field ≠ .chain .concat parts := by
    intro parts hparts
    simp only [stored, Target.column] at hparts
    split at hparts
    · cases hparts
    · split at hparts
      · cases hparts
      · split at hparts
        · cases hparts
        · split at hparts <;> cases hparts
  simp only [plain, typed]
  split
  · exact .verbatim _ _ _
  · split
    · exact .verbatim _ _ _
    · split
      · exact .of_ne hstored
      · exact .of_ne hstored

/-- The type of a field is filled in only where no chain is. -/
theorem exposed_asField (field : Field) {g : Formula} (h : ctx.Exposed f c)
    (hiff : ctx.Opens f ↔ ctx.Opens g) : ctx.Exposed g (asField field c) := by
  have hg := h.congr hiff
  unfold asField
  split
  · next htype =>
      have hne : ∀ parts, c.fragment.expr ≠ .chain .concat parts :=
        fun parts hparts => (h.1 parts hparts).1 htype
      have hclosed : ¬ ctx.Opens g := by
        intro hopens
        obtain ⟨parts, hparts, -⟩ := hg.2.2 hopens
        exact hne parts hparts
      exact exposed_of_single (.of_ne hne) hclosed
  · exact hg

theorem exposed_of_expand (h : ctx.expand depth path id = .ok c) : ctx.Exposed (.field id) c := by
  induction depth generalizing path id c with
  | zero => cases h
  | succ depth ih =>
      obtain ⟨field, hfield, ⟨hleaf, rfl⟩ | ⟨depth', source, persisted, f, c', heq, hkind, -, hformula,
        hcompile, rfl⟩⟩ := expand_cases h
      · refine exposed_of_single (ctx.single_plain field) ?_
        intro hopens
        cases hopens with
        | field hholds _ =>
            obtain ⟨field', source, persisted, hfield', hkind, -⟩ := hholds
            cases hfield.symm.trans hfield'
            rw [hkind] at hleaf
            cases hleaf
      · cases heq
        have hholds : ctx.table.Holds id f := ⟨field, source, persisted, hfield, hkind, hformula⟩
        refine exposed_asField field (exposed_of_compileWith (fun id c => ih) hcompile) ?_
        constructor
        · exact .field hholds
        · intro hopens
          cases hopens with
          | field hg hopens =>
              cases hholds.unique hg
              exact hopens

/-- **A formula compiles to a bare chain exactly if it opens.** -/
theorem bare_iff_opens (h : ctx.compile f = .ok c) : c.fragment.Bare ctx.target ↔ ctx.Opens f :=
  (exposed_of_compileWith (fun _ _ => exposed_of_expand) h).2

/-! ### Concatenations -/

/-- A chain with one more operand is its operator on the chain and the operand. -/
theorem compile_chain_append {operands : List Formula} {r : Formula} {op : BinaryOp} {cl cr : Compiled}
    (hl : ctx.compile (.chain op operands) = .ok cl) (hr : ctx.compile r = .ok cr) :
    ctx.compile (.chain op (operands ++ [r])) = .ok (cl.binary ctx.target op cr) := by
  obtain ⟨parts, hparts, hl⟩ := exists_of_bind_eq_ok hl
  cases parts with
  | nil => cases hl
  | cons first others =>
      cases hl
      have hall : Formula.compileAllWith ctx.target ctx.compileField (operands ++ [r]) =
          .ok (first :: others ++ [cr]) :=
        Formula.compileAllWith_eq_ok_iff.2
          (List.rel_append (Formula.compileAllWith_eq_ok_iff.1 hparts) (.cons hr .nil))
      unfold compile
      rw [Formula.compileWith, hall]
      simp [bind, Except.bind, pure, Except.pure]

theorem fragment_binary {cl cr : Compiled} {op : BinaryOp} {t : Target}
    (hop : op = .concat ∨
      op = .add ∧ (Target.isTextual cl.fragment = true ∨ Target.isTextual cr.fragment = true)) :
    (cl.binary t op cr).fragment = t.concat cl.fragment cr.fragment := by
  rcases hop with rfl | ⟨rfl, htextual⟩
  · rfl
  · exact if_pos (by simpa using htextual)

/-- **The parts of a concatenation are all guarded, unless its left operand opens.**  Then no part is
missing, and neither is the concatenation, whatever else is.  The right operand is guarded in any case.
The operator may also be the next one of a chain. -/
theorem concat_guarded_iff {l r : Formula} {op : BinaryOp} {cl cr : Compiled}
    (hl : ctx.compile l = .ok cl) (hr : ctx.compile r = .ok cr)
    (hop : op = .concat ∨
      op = .add ∧ (Target.isTextual cl.fragment = true ∨ Target.isTextual cr.fragment = true)) :
    ∃ c parts, ctx.compile (.binary l op r) = .ok c ∧
      (∀ operands, l = .chain op operands → ctx.compile (.chain op (operands ++ [r])) = .ok c) ∧
      c.fragment = .string (.chain .concat (parts ++ [ctx.target.concatOperand cr.fragment])) ∧
      parts ≠ [] ∧ ((∀ e ∈ parts, ctx.target.Guarded e) ↔ ¬ ctx.Opens l) ∧
      (¬ ctx.Opens l → ∀ absent, c.fragment.expr.missing absent = false) := by
  have htame := (exposed_of_compileWith (fun _ _ => exposed_of_expand) hl).1
  have hfragment : (cl.binary ctx.target op cr).fragment = _ := fragment_binary hop
  obtain ⟨parts, heq, hne, hguarded⟩ : ∃ parts,
      ctx.target.concat cl.fragment cr.fragment =
        .string (.chain .concat (parts ++ [ctx.target.concatOperand cr.fragment])) ∧
      parts ≠ [] ∧ ((∀ e ∈ parts, ctx.target.Guarded e) ↔ ¬ ctx.Opens l) := by
    rw [← bare_iff_opens hl]
    rcases ctx.target.concat_cases cl.fragment cr.fragment with ⟨parts, hexpr, htype, heq⟩ | ⟨hbare, heq⟩
    · refine ⟨parts, heq, ((htame parts hexpr).2 htype).2, ?_⟩
      rw [Fragment.bare_iff hexpr htype]
      simp
    · refine ⟨[ctx.target.concatOperand cl.fragment], heq, by simp, iff_of_true ?_ hbare⟩
      simpa using ctx.target.guarded_concatOperand cl.fragment
  refine ⟨_, parts, compile_binary hl hr, ?_, hfragment.trans heq, hne, hguarded, fun hclosed absent => ?_⟩
  · rintro operands rfl
    exact compile_chain_append hl hr
  · rw [hfragment, heq]
    refine Expr.anyMissing_eq_false fun e he => ?_
    rcases List.mem_append.1 he with he | he
    · exact (hguarded.2 hclosed e he).missing absent
    · rw [List.mem_singleton.1 he]
      exact (ctx.target.guarded_concatOperand cr.fragment).missing absent

end Context

namespace Sample

def notes : Table := .ofFields "n" "notes" [.single "s" "s" .string .column]

def notesContext : Context := ⟨notes, { now := ⟨0⟩ }, .detached⟩

/-- The field as the message of an error. -/
def complaint : Formula := .call (.known (.logical .error)) [.field "s"]

/-- An error message to the right of an operator is guarded, and so is the concatenation that goes on after
it. -/
theorem concat_complaint_guarded :
    ∃ c, notesContext.compile (.binary (.binary (.field "s") .concat complaint) .add (.number "1")) = .ok c ∧
      ∀ absent, c.fragment.expr.missing absent = false := by
  have hclosed : ¬ notesContext.Opens (.binary (.field "s") .concat complaint) := by
    intro hopens
    cases hopens with
    | left _ hopens =>
        cases hopens with
        | field hholds _ =>
            obtain ⟨field, source, persisted, hfield, hkind, -⟩ := hholds
            cases hfield
            cases hkind
  have hl : notesContext.compile (.binary (.field "s") .concat complaint) = .ok _ := rfl
  have hr : notesContext.compile (.number "1") = .ok _ := rfl
  obtain ⟨c, parts, hc, -, -, -, -, hmissing⟩ :=
    Context.concat_guarded_iff hl hr (.inr ⟨rfl, .inl rfl⟩)
  exact ⟨c, hc, hmissing hclosed⟩

/-- To the left of an operator it is not: a missing field makes the whole missing. -/
theorem concat_complaint_missing :
    ∃ c, notesContext.compile (.binary complaint .concat (.text "x")) = .ok c ∧
      c.fragment.expr = .chain .concat [.text "#ERROR: ", .column none "s",
        .call "COALESCE" [.text "x", .text ""]] ∧
      ¬ notesContext.target.Guarded (.column none "s") ∧
      c.fragment.expr.missing (fun e => e matches .column ..) = true := by
  refine ⟨_, rfl, rfl, ?_, rfl⟩
  rintro ⟨value, hvalue⟩
  cases hvalue

end Sample

end ComputedFields
