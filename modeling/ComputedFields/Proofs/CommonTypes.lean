/-
**The results of a choice in one type.**

The results of a choice share one type, and a result of another type is brought into it.  The type is found
from the results that count: those that are not empty and whose type is known.  If they agree, the type is
theirs, and an empty text stands for a missing value of it.  If they do not, all results become texts.  When
no result counts, the type is that of the first empty one.

What a result is brought into is a form that fits the type.  Fitting is all that matters afterwards: results
that fit a type, with one of that type among them, have it as their common type and stay as they are.  So
unifying results a second time changes nothing.

Main definitions:

* `ComputedFields.Fragment.Counts` — a result that counts for the type of its choice;
* `ComputedFields.Fragment.Fits` — a result that needs no change in a choice of a type.

Main results:

* `ComputedFields.commonType_cases` — where the type of a choice comes from;
* `ComputedFields.Target.fits_unifyTo` — a unified result fits the common type;
* `ComputedFields.commonType_of_fits`, `ComputedFields.Target.unifyTo_of_fits` — results that fit a type
  have it in common and stay as they are;
* `ComputedFields.Target.unify_once` — **results are unified once and for all**.
-/

import Mathlib.Logic.Basic
import ComputedFields.Builtin.Logical

set_option relaxedAutoImplicit false
set_option autoImplicit false

namespace ComputedFields

open Sql (Expr)

variable {t : Target} {type : ValueType} {results : List Fragment} {f : Fragment}

/-! ### The common type -/

/-- The result counts for the type of its choice: it is not empty, and its type is known. -/
def Fragment.Counts (f : Fragment) : Prop := f.isBlank = false ∧ f.type ≠ .unknown

/-- **Where the type of a choice comes from**: from results that count and agree, from results that count
and do not, or, when no result counts, from the first one whose type is known. -/
theorem commonType_cases (results : List Fragment) :
    ((∃ f ∈ results, f.Counts) ∧ ∀ f ∈ results, f.Counts → f.type = commonType results) ∨
    (commonType results = .string ∧
      ∃ f ∈ results, ∃ g ∈ results, f.Counts ∧ g.Counts ∧ f.type ≠ g.type) ∨
    (∀ f ∈ results, ¬ f.Counts) ∧
      ((∃ f ∈ results, f.type ≠ .unknown ∧ f.type = commonType results) ∨
        commonType results = .unknown ∧ ∀ f ∈ results, f.type = .unknown) := by
  have hcounted : ∀ type, type ∈ (results.filter fun f => !f.isBlank && f.type != .unknown).map
      Fragment.type ↔ ∃ f ∈ results, f.Counts ∧ f.type = type := by
    intro type
    simp [Fragment.Counts, and_assoc]
  unfold commonType
  cases htypes : (results.filter fun f => !f.isBlank && f.type != .unknown).map Fragment.type with
  | nil =>
      refine .inr (.inr ⟨fun f hf hcounts => ?_, ?_⟩)
      · have hmem := (hcounted f.type).2 ⟨f, hf, hcounts, rfl⟩
        simp [htypes] at hmem
      · dsimp only
        cases hfind : (results.map Fragment.type).find? (· ≠ .unknown) with
        | none =>
            refine .inr ⟨rfl, fun f hf => ?_⟩
            have hnone := List.find?_eq_none.1 hfind f.type (List.mem_map_of_mem hf)
            simpa using hnone
        | some type =>
            obtain ⟨f, hf, rfl⟩ := List.mem_map.1 (List.mem_of_find?_eq_some hfind)
            exact .inl ⟨f, hf, by simpa using List.find?_some hfind, rfl⟩
  | cons first others =>
      rw [htypes] at hcounted
      obtain ⟨f, hf, hcounts, hfirst⟩ := (hcounted first).1 List.mem_cons_self
      dsimp only
      split
      · next hagree =>
          refine .inl ⟨⟨f, hf, hcounts⟩, fun g hg hcounts => ?_⟩
          rcases List.mem_cons.1 ((hcounted g.type).2 ⟨g, hg, hcounts, rfl⟩) with hmem | hmem
          · exact hmem
          · simpa using List.all_eq_true.1 hagree g.type hmem
      · next hagree =>
          simp only [List.all_eq_true, not_forall, decide_eq_true_eq] at hagree
          obtain ⟨other, hother, hne⟩ := hagree
          obtain ⟨g, hg, hcounts', rfl⟩ := (hcounted other).1 (List.mem_cons_of_mem _ hother)
          exact .inr (.inl ⟨rfl, f, hf, g, hg, hcounts, hcounts', fun h => hne (h.symm.trans hfirst)⟩)

/-- A result that counts is of the common type, or all results become texts. -/
theorem Fragment.Counts.type_eq (h : f.Counts) (hf : f ∈ results) :
    f.type = commonType results ∨ commonType results = .string := by
  rcases commonType_cases results with ⟨-, hagree⟩ | ⟨hstring, -⟩ | ⟨hnone, -⟩
  · exact .inl (hagree f hf h)
  · exact .inr hstring
  · exact absurd h (hnone f hf)

/-- A type that is known comes from a result, unless all results become texts. -/
theorem exists_of_commonType_ne (h : commonType results ≠ .unknown) :
    ∃ f ∈ results, f.type ≠ .unknown ∧ (f.type = commonType results ∨ commonType results = .string) := by
  rcases commonType_cases results with ⟨⟨f, hf, hcounts⟩, hagree⟩ | ⟨hstring, f, hf, -, -, hcounts, -⟩ |
    ⟨-, ⟨f, hf, hknown, htype⟩ | ⟨hunknown, -⟩⟩
  · exact ⟨f, hf, hcounts.2, .inl (hagree f hf hcounts)⟩
  · exact ⟨f, hf, hcounts.2, .inr hstring⟩
  · exact ⟨f, hf, hknown, .inl htype⟩
  · exact absurd hunknown h

/-- The type is unknown only if that of each result is. -/
theorem type_eq_unknown_of_commonType (h : commonType results = .unknown) (hf : f ∈ results) :
    f.type = .unknown := by
  rcases commonType_cases results with ⟨⟨g, hg, hcounts⟩, hagree⟩ | ⟨hstring, -⟩ |
    ⟨-, ⟨g, -, hknown, htype⟩ | ⟨-, hall⟩⟩
  · exact absurd ((hagree g hg hcounts).trans h) hcounts.2
  · cases hstring.symm.trans h
  · exact absurd (htype.trans h) hknown
  · exact hall f hf

/-! ### Results that fit -/

/-- The result needs no change in a choice of the type.  An empty text is as good as any other, but it is
no value of another type. -/
structure Fragment.Fits (type : ValueType) (f : Fragment) : Prop where
  type_eq : f.type = type ∨ f.type = .unknown
  filled : type ≠ .string → type ≠ .unknown → f.isBlank = false

/-- **Results that fit a type have it in common**, if one of them is of that type. -/
theorem commonType_of_fits (hfits : ∀ f ∈ results, f.Fits type)
    (hsome : type ≠ .unknown → ∃ f ∈ results, f.type = type) : commonType results = type := by
  have htype : ∀ f ∈ results, f.type ≠ .unknown → f.type = type := fun f hf hknown =>
    (hfits f hf).type_eq.resolve_right hknown
  rcases commonType_cases results with ⟨⟨f, hf, hcounts⟩, hagree⟩ |
    ⟨-, f, hf, g, hg, hcounts, hcounts', hne⟩ | ⟨-, ⟨f, hf, hknown, hcommon⟩ | ⟨hunknown, hall⟩⟩
  · exact (hagree f hf hcounts).symm.trans (htype f hf hcounts.2)
  · exact absurd ((htype f hf hcounts.2).trans (htype g hg hcounts'.2).symm) hne
  · exact hcommon.symm.trans (htype f hf hknown)
  · by_cases hknown : type = .unknown
    · rw [hunknown, hknown]
    · obtain ⟨f, hf, rfl⟩ := hsome hknown
      exact absurd (hall f hf) hknown

namespace Target

/-- An empty text becomes a missing value where the type is not that of texts. -/
theorem unifyTo_of_isBlank (t : Target) (hstring : type ≠ .string) (hunknown : type ≠ .unknown)
    (h : f.isBlank = true) : t.unifyTo type f = { f with expr := .null, type } := by
  cases type with
  | string => exact absurd rfl hstring
  | unknown => exact absurd rfl hunknown
  | _ => simp [unifyTo, h]

/-- A result that is not empty only changes to become a text. -/
theorem unifyTo_of_ne_string (t : Target) (hstring : type ≠ .string) (h : f.isBlank = false) :
    t.unifyTo type f = f := by
  cases type with
  | string => exact absurd rfl hstring
  | unknown => rfl
  | _ => simp [unifyTo, h]

/-- A result whose type is known, and is not that of texts, becomes a text. -/
theorem unifyTo_string (t : Target) (harray : f.isArray = false) (hknown : f.type ≠ .unknown)
    (hstring : f.type ≠ .string) : t.unifyTo .string f = ⟨t.text f, .string, false⟩ := by
  simp [unifyTo, harray, hknown, hstring]

/-- **A result that fits stays as it is.** -/
theorem unifyTo_of_fits (t : Target) (h : f.Fits type) : t.unifyTo type f = f := by
  by_cases hstring : type = .string
  · subst hstring
    rcases h.type_eq with htype | htype
    · simp [unifyTo, htype]
    · simp [unifyTo, htype]
  · by_cases hunknown : type = .unknown
    · rw [hunknown]
      rfl
    · exact t.unifyTo_of_ne_string hstring (h.filled hstring hunknown)

/-- What a result becomes: it stays, or is a missing value, or a text. -/
theorem unifyTo_cases (t : Target) (type : ValueType) (harray : f.isArray = false) :
    t.unifyTo type f = f ∨ (f.isBlank = true ∧ t.unifyTo type f = ⟨.null, type, false⟩) ∨
      (type = .string ∧ t.unifyTo type f = ⟨t.text f, .string, false⟩) := by
  cases type with
  | unknown => exact .inl rfl
  | string =>
      by_cases h : f.type = .string ∨ f.type = .unknown
      · exact .inl (by rcases h with h | h <;> simp [unifyTo, h])
      · rw [not_or] at h
        exact .inr (.inr ⟨rfl, t.unifyTo_string harray h.2 h.1⟩)
  | _ =>
      cases hblank : f.isBlank with
      | false => exact .inl (by simp [unifyTo, hblank])
      | true => exact .inr (.inl ⟨rfl, by simp [unifyTo, hblank, harray]⟩)

theorem type_unifyTo (t : Target) (harray : f.isArray = false) (hknown : f.type ≠ .unknown)
    (h : f.type = type ∨ type = .string) : (t.unifyTo type f).type = type := by
  rcases h with rfl | rfl
  · rcases t.unifyTo_cases f.type harray with heq | ⟨-, heq⟩ | ⟨hstring, heq⟩
    · rw [heq]
    · rw [heq]
    · rw [heq, hstring]
  · by_cases hstring : f.type = .string
    · simp [unifyTo, hstring]
    · rw [t.unifyTo_string harray hknown hstring]

/-- **A unified result fits the common type.** -/
theorem fits_unifyTo (t : Target) (harray : f.isArray = false) (hf : f ∈ results) :
    (t.unifyTo (commonType results) f).Fits (commonType results) := by
  by_cases hunknown : commonType results = .unknown
  · rw [hunknown]
    exact ⟨.inl (type_eq_unknown_of_commonType hunknown hf), fun _ h => absurd rfl h⟩
  by_cases hstring : commonType results = .string
  · rw [hstring]
    refine ⟨?_, fun h => absurd rfl h⟩
    by_cases hknown : f.type = .unknown
    · exact .inr (by simp [unifyTo, hknown])
    · exact .inl (t.type_unifyTo harray hknown (.inr rfl))
  · cases hblank : f.isBlank with
    | true =>
        rw [t.unifyTo_of_isBlank hstring hunknown hblank]
        exact ⟨.inl rfl, fun _ _ => rfl⟩
    | false =>
        rw [t.unifyTo_of_ne_string hstring hblank]
        refine ⟨?_, fun _ _ => hblank⟩
        by_cases hknown : f.type = .unknown
        · exact .inr hknown
        · have hcounts : f.Counts := ⟨hblank, hknown⟩
          exact .inl ((hcounts.type_eq hf).resolve_right hstring)

/-! ### Unified results -/

theorem commonType_unify (t : Target) (harray : ∀ f ∈ results, f.isArray = false) :
    commonType (t.unify results) = commonType results := by
  refine commonType_of_fits (List.forall_mem_map.2 fun f hf => t.fits_unifyTo (harray f hf) hf) ?_
  intro hknown
  obtain ⟨f, hf, htype, hcommon⟩ := exists_of_commonType_ne hknown
  exact ⟨_, List.mem_map_of_mem hf, t.type_unifyTo (harray f hf) htype hcommon⟩

/-- **Results are unified once and for all.**  In their common type each result keeps its place: it stays as
it is, or it was empty and is a missing value now, or it is a text now.  Afterwards all results are of the
type, but for those whose type is not known, and where the type is not that of texts none is empty.  A result
that was not empty and of the type already stays.  Unified again, the results have the same type and
stay all. -/
theorem unify_once (t : Target) (results : List Fragment) (harray : ∀ f ∈ results, f.isArray = false) :
    let type := commonType results
    let unified := t.unify results
    let typed := type = .number ∨ type = .boolean ∨ type = .dateTime
    (∀ f ∈ unified, f.type = type ∨ f.type = .unknown) ∧
    (typed → ∀ f ∈ unified, f.isBlank = false) ∧
    unified.length = results.length ∧
    (∀ (i : Nat) f, results[i]? = some f → ∃ g, unified[i]? = some g ∧
      (g = f ∨ (f.isBlank = true ∧ g = ⟨.null, type, false⟩) ∨
        (type = .string ∧ g = ⟨t.text f, .string, false⟩)) ∧
      (typed → f.isBlank = true → g = ⟨.null, type, false⟩) ∧
      (f.isBlank = false → f.type = type → g = f)) ∧
    commonType unified = type ∧ t.unify unified = unified := by
  intro type unified typed
  have hfits : ∀ f ∈ unified, f.Fits type :=
    List.forall_mem_map.2 fun f hf => t.fits_unifyTo (harray f hf) hf
  have htyped : typed → type ≠ .string ∧ type ≠ .unknown := by
    rintro (h | h | h) <;> simp [h]
  have hcommon : commonType unified = type := t.commonType_unify harray
  refine ⟨fun f hf => (hfits f hf).type_eq, ?_, List.length_map _, ?_, hcommon, ?_⟩
  · intro h f hf
    exact (hfits f hf).filled (htyped h).1 (htyped h).2
  · intro i f hi
    have hf : f ∈ results := List.mem_of_getElem? hi
    have hplace : unified[i]? = some (t.unifyTo type f) := by
      simp [unified, unify, type, hi]
    refine ⟨_, hplace, t.unifyTo_cases type (harray f hf), ?_, ?_⟩
    · intro h hblank
      rw [t.unifyTo_of_isBlank (htyped h).1 (htyped h).2 hblank, harray f hf]
    · intro hblank htype
      exact t.unifyTo_of_fits ⟨.inl htype, fun _ _ => hblank⟩
  · have hstay : ∀ f ∈ unified, t.unifyTo (commonType unified) f = f := by
      intro f hf
      rw [hcommon]
      exact t.unifyTo_of_fits (hfits f hf)
    exact (List.map_congr_left hstay).trans (List.map_id' _)

end Target

namespace Sample

/-- An empty text, a number and a missing value. -/
def gaps : List Fragment := [.string (.text ""), .number (.number "1"), .null]

end Sample

/-- Beside a number the empty text is missing, and stays so. -/
theorem Target.unify_once_gaps :
    let t : Target := { now := ⟨0⟩ }
    commonType Sample.gaps = .number ∧ (t.unify Sample.gaps)[0]? = some ⟨.null, .number, false⟩ ∧
      t.unify (t.unify Sample.gaps) = t.unify Sample.gaps := by
  intro t
  have harray : ∀ f ∈ Sample.gaps, f.isArray = false := by
    simp [Sample.gaps, Fragment.string, Fragment.number, Fragment.null]
  obtain ⟨-, -, -, hplaces, -, htwice⟩ := t.unify_once Sample.gaps harray
  obtain ⟨g, hg, -, hmissing, -⟩ := hplaces 0 _ rfl
  exact ⟨rfl, hg.trans (congrArg some (hmissing (.inl rfl) rfl)), htwice⟩

end ComputedFields
