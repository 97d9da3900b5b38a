/-
**Filters for equal fields.**

A filter that asks for nothing but equal fields need not be compiled: its rows are found by a join.  Which
filters these are is decided while their pairs of fields are collected, and the search gives up at the first
condition of another kind, and at every group of alternatives, also at one without members.

The pairs are all there is to such a filter.  It is met when each of them is equal, in the logic of two
truth values as well as in that of SQL, where a comparison with a missing value is neither true nor false
and a row is chosen only when the filter is true.

Main definitions:

* `ComputedFields.Filter.hasAny` — the filter has a group of alternatives;
* `ComputedFields.Condition.pair?` — the two fields that a condition asks to be equal;
* `ComputedFields.Truth`, `ComputedFields.Filter.truth` — truth values of SQL, and that of a filter.

Main results:

* `ComputedFields.Filter.equalities?_eq_some_iff` — the filters for equal fields, and their pairs;
* `ComputedFields.Filter.truth_eq_true_iff` — a filter is true when it is met by what is true;
* `ComputedFields.Filter.equalityPairs_exact` — **which filters ask for equal fields, and for which**.
-/

import ComputedFields.Proofs.GroupedKeys

set_option relaxedAutoImplicit false
set_option autoImplicit false

namespace ComputedFields

universe u

/-! ### Pairs of fields -/

/-- The two fields that a condition asks to be equal, if it asks for that. -/
def Condition.pair? (c : Condition) : Option (String × String) :=
  match c.op, c.operand with
  | .is, .field id => some (c.field, id)
  | _, _ => none

theorem Condition.pair?_isSome_iff {c : Condition} :
    c.pair?.isSome = true ↔ c.op = .is ∧ ∃ id, c.operand = .field id := by
  obtain ⟨field, op, operand⟩ := c
  cases op <;> cases operand <;> simp [pair?]

namespace Filter

mutual

/-- The filter has a group of alternatives. -/
def hasAny : Filter → Bool
  | .condition _ => false
  | .all children => haveAny children
  | .any _ => true

/-- One of the filters has a group of alternatives. -/
def haveAny : List Filter → Bool
  | [] => false
  | f :: rest => f.hasAny || haveAny rest

end

theorem equalities?_condition (c : Condition) :
    (condition c).equalities? = c.pair?.map fun pair => [pair] := by
  obtain ⟨field, op, operand⟩ := c
  cases op <;> cases operand <;> rfl

theorem equalitiesOfAll?_cons_eq_some_iff {f : Filter} {rest : List Filter}
    {pairs : List (String × String)} :
    equalitiesOfAll? (f :: rest) = some pairs ↔
      ∃ first others, f.equalities? = some first ∧ equalitiesOfAll? rest = some others ∧
        pairs = first ++ others := by
  rw [equalitiesOfAll?]
  cases f.equalities? with
  | none => simp
  | some first =>
      cases equalitiesOfAll? rest with
      | none => simp
      | some others => simp [eq_comm]

mutual

/-- **The filters for equal fields, and their pairs.** -/
theorem equalities?_eq_some_iff : ∀ (f : Filter) {pairs : List (String × String)},
    f.equalities? = some pairs ↔ f.hasAny = false ∧
      (∀ c ∈ f.conditions, c.pair?.isSome = true) ∧ pairs = f.conditions.filterMap Condition.pair?
  | .condition c, pairs => by
      rw [equalities?_condition, hasAny, conditions]
      cases hpair : c.pair? with
      | none => simp [hpair]
      | some p => simpa [hpair] using eq_comm
  | .all children, pairs => equalitiesOfAll?_eq_some_iff children
  | .any children, pairs => by simp [equalities?, hasAny]

theorem equalitiesOfAll?_eq_some_iff : ∀ (fs : List Filter) {pairs : List (String × String)},
    equalitiesOfAll? fs = some pairs ↔ haveAny fs = false ∧
      (∀ c ∈ conditionsOfAll fs, c.pair?.isSome = true) ∧
      pairs = (conditionsOfAll fs).filterMap Condition.pair?
  | [], pairs => by simp [equalitiesOfAll?, haveAny, conditionsOfAll]
  | f :: rest, pairs => by
      rw [equalitiesOfAll?_cons_eq_some_iff, haveAny, conditionsOfAll, Bool.or_eq_false_iff,
        List.forall_mem_append, List.filterMap_append]
      constructor
      · rintro ⟨first, others, hfirst, hothers, rfl⟩
        obtain ⟨hany, hpairs, rfl⟩ := (equalities?_eq_some_iff f).1 hfirst
        obtain ⟨hany', hpairs', rfl⟩ := (equalitiesOfAll?_eq_some_iff rest).1 hothers
        exact ⟨⟨hany, hany'⟩, ⟨hpairs, hpairs'⟩, rfl⟩
      · rintro ⟨⟨hany, hany'⟩, ⟨hpairs, hpairs'⟩, rfl⟩
        exact ⟨_, _, (equalities?_eq_some_iff f).2 ⟨hany, hpairs, rfl⟩,
          (equalitiesOfAll?_eq_some_iff rest).2 ⟨hany', hpairs', rfl⟩, rfl⟩

end

end Filter

/-! ### Truth values of SQL -/

/-- A truth value; none where it depends on a missing value. -/
abbrev Truth := Option Bool

namespace Truth

/-- Both are true. -/
def both : Truth → Truth → Truth
  | some true, b => b
  | some false, _ => some false
  | none, some false => some false
  | none, _ => none

/-- One of them is true. -/
def either : Truth → Truth → Truth
  | some false, b => b
  | some true, _ => some true
  | none, some true => some true
  | none, _ => none

/-- Two values compared; with a missing one the comparison has no truth value. -/
def equal {V : Type u} [DecidableEq V] : Option V → Option V → Truth
  | some x, some y => some (decide (x = y))
  | _, _ => none

@[simp] theorem both_eq_true_iff {a b : Truth} : both a b = some true ↔ a = some true ∧ b = some true := by
  rcases a with _ | _ | _ <;> rcases b with _ | _ | _ <;> decide

@[simp] theorem either_eq_true_iff {a b : Truth} :
    either a b = some true ↔ a = some true ∨ b = some true := by
  rcases a with _ | _ | _ <;> rcases b with _ | _ | _ <;> decide

@[simp] theorem equal_eq_true_iff {V : Type u} [DecidableEq V] {x y : Option V} :
    equal x y = some true ↔ ∃ v, x = some v ∧ y = some v := by
  cases x with
  | none => simp [equal]
  | some x =>
      cases y with
      | none => simp [equal]
      | some y => simp [equal, eq_comm]

end Truth

namespace Filter

mutual

/-- The truth value of a filter, given those of its conditions.  Without conditions a group is true. -/
def truth (value : Condition → Truth) : Filter → Truth
  | .condition c => value c
  | .all children => truthOfAll value children
  | .any [] => some true
  | .any (f :: rest) => truthOfAny value (f :: rest)

/-- The truth value of several filters together. -/
def truthOfAll (value : Condition → Truth) : List Filter → Truth
  | [] => some true
  | f :: rest => Truth.both (f.truth value) (truthOfAll value rest)

/-- The truth value of several filters as alternatives. -/
def truthOfAny (value : Condition → Truth) : List Filter → Truth
  | [] => some false
  | f :: rest => Truth.either (f.truth value) (truthOfAny value rest)

end

variable {value : Condition → Truth}

mutual

/-- **A filter is true when it is met by the conditions that are true.** -/
theorem truth_eq_true_iff : ∀ f : Filter,
    f.truth value = some true ↔ f.Met fun c => value c = some true
  | .condition c => by rw [truth, Met]
  | .all children => by rw [truth, Met, truthOfAll_eq_true_iff]
  | .any [] => by simp [truth, Met]
  | .any (f :: rest) => by
      rw [truth, Met, truthOfAny_eq_true_iff]
      simp

theorem truthOfAll_eq_true_iff : ∀ fs : List Filter,
    truthOfAll value fs = some true ↔ AllMet (fun c => value c = some true) fs
  | [] => by simp [truthOfAll, AllMet]
  | f :: rest => by
      rw [truthOfAll, AllMet, Truth.both_eq_true_iff, truth_eq_true_iff, truthOfAll_eq_true_iff]

theorem truthOfAny_eq_true_iff : ∀ fs : List Filter,
    truthOfAny value fs = some true ↔ AnyMet (fun c => value c = some true) fs
  | [] => by simp [truthOfAny, AnyMet]
  | f :: rest => by
      rw [truthOfAny, AnyMet, Truth.either_eq_true_iff, truth_eq_true_iff, truthOfAny_eq_true_iff]

end

/-! ### What the pairs say -/

theorem equalityPairs?_eq_some_iff {f : Filter} {pairs : List (String × String)} :
    f.equalityPairs? = some pairs ↔ f.equalities? = some pairs ∧ pairs ≠ [] := by
  rw [equalityPairs?, Option.filter_eq_some_iff]
  simp

end Filter

/-- The condition is met by two records.  One for equal fields is met when the values are equal; which
others are met is left open. -/
def Condition.MetBy {V : Type u} (foreign host : String → V) (others : Condition → Prop)
    (c : Condition) : Prop :=
  match c.pair? with
  | some (a, b) => foreign a = host b
  | none => others c

/-- The truth value of a condition on two records, in which values may be missing. -/
def Condition.truthBy {V : Type u} [DecidableEq V] (foreign host : String → Option V)
    (others : Condition → Truth) (c : Condition) : Truth :=
  match c.pair? with
  | some (a, b) => Truth.equal (foreign a) (host b)
  | none => others c

/-- **Which filters ask for equal fields, and for which.**  A filter has pairs of fields exactly when it has
no group of alternatives, when all its conditions ask for a field to be equal to another one, and when there
is a condition at all.  The pairs are then those of the conditions, from left to right.  So whatever the
values of the fields are on a foreign record and on its host, the filter is met exactly when each pair is
equal; and in SQL it is true exactly when both fields of each pair have a value, and the same. -/
theorem Filter.equalityPairs_exact (f : Filter) :
    ((∃ pairs, f.equalityPairs? = some pairs) ↔
      f.hasAny = false ∧ (∀ c ∈ f.conditions, c.op = .is ∧ ∃ id, c.operand = .field id) ∧
        f.conditions ≠ []) ∧
    ∀ pairs, f.equalityPairs? = some pairs →
      f.conditions = pairs.map (fun p => ⟨p.1, .is, .field p.2⟩) ∧
      (∀ (V : Type u) (foreign host : String → V) (others : Condition → Prop),
        f.Met (Condition.MetBy foreign host others) ↔ ∀ p ∈ pairs, foreign p.1 = host p.2) ∧
      ∀ (V : Type u) [DecidableEq V] (foreign host : String → Option V) (others : Condition → Truth),
        f.truth (Condition.truthBy foreign host others) = some true ↔
          ∀ p ∈ pairs, ∃ v, foreign p.1 = some v ∧ host p.2 = some v := by
  constructor
  · simp only [equalityPairs?_eq_some_iff, equalities?_eq_some_iff, Condition.pair?_isSome_iff]
    constructor
    · rintro ⟨pairs, ⟨hany, hconditions, rfl⟩, hne⟩
      refine ⟨hany, hconditions, fun hnil => hne ?_⟩
      rw [hnil, List.filterMap_nil]
    · rintro ⟨hany, hconditions, hne⟩
      refine ⟨_, ⟨hany, hconditions, rfl⟩, fun hnil => ?_⟩
      obtain ⟨c, hc⟩ := List.exists_mem_of_ne_nil _ hne
      obtain ⟨pair, hpair⟩ := Option.isSome_iff_exists.1
        (Condition.pair?_isSome_iff.2 (hconditions c hc))
      exact List.ne_nil_of_mem (List.mem_filterMap.2 ⟨c, hc, hpair⟩) hnil
  · intro pairs h
    have hequalities : f.equalities? = some pairs := (equalityPairs?_eq_some_iff.1 h).1
    refine ⟨f.conditions_of_equalities? hequalities, ?_, ?_⟩
    · intro V foreign host others
      rw [f.met_iff_of_equalities? hequalities]
      rfl
    · intro V _ foreign host others
      rw [f.truth_eq_true_iff, f.met_iff_of_equalities? hequalities]
      exact forall₂_congr fun p _ => Truth.equal_eq_true_iff

namespace Sample

/-- A filter for two pairs of fields, in nested groups of which one is empty. -/
def sameOwner : Filter :=
  .all [.all [], .condition ⟨"cat", .is, .field "hostCat"⟩,
    .all [.all [.condition ⟨"owner", .is, .field "hostOwner"⟩]]]

end Sample

/-- The filter for two pairs, and what it says of records on which one field is missing. -/
theorem Filter.equalityPairs_exact_sameOwner :
    Sample.sameOwner.equalityPairs? = some [("cat", "hostCat"), ("owner", "hostOwner")] ∧
    (∀ (V : Type) (foreign host : String → V), Sample.sameOwner.Met
      (Condition.MetBy foreign host fun _ => False) ↔
        foreign "cat" = host "hostCat" ∧ foreign "owner" = host "hostOwner") ∧
    Sample.sameOwner.truth (Condition.truthBy (fun _ => (none : Option Nat)) (fun _ => none)
      fun _ => none) ≠ some true := by
  have hpairs : Sample.sameOwner.equalityPairs? = some [("cat", "hostCat"), ("owner", "hostOwner")] :=
    rfl
  obtain ⟨-, hmet, htruth⟩ := (Filter.equalityPairs_exact Sample.sameOwner).2 _ hpairs
  refine ⟨hpairs, fun V foreign host => ?_, fun h => ?_⟩
  · rw [hmet V foreign host]
    simp
  · rw [htruth Nat] at h
    obtain ⟨v, hv, -⟩ := h ("cat", "hostCat") (by simp)
    cases hv

end ComputedFields
