/-
**The search for the leaves of a field.**

The fields that a formula field reads are found by a search with a work list: the next id is taken off the
list, and unless it was visited before, its field is found to be a leaf, or a formula whose references are
put in front of the list.  The table may be full of circles, of references to fields that do not exist and
of formulas that cannot be read.

Here the search is run step by step.  Every step takes one id off the list, and a formula field puts its
references on it only once.  So the steps that are left are bounded by the length of the list and by the
references of the fields that were not visited, and this bound falls by one with every step.  What the
search has found, followed by what it is still going to find, is the same list at every moment.

Main definitions:

* `ComputedFields.LeafSearch` — the search at a moment, with `ComputedFields.LeafSearch.step`;
* `ComputedFields.LeafSearch.Visit` — everything that a step can do;
* `ComputedFields.LeafSearch.weight` — a bound on the steps that are left.

Main results:

* `ComputedFields.LeafSearch.Visit.weight` — each step uses up one unit of the bound;
* `ComputedFields.LeafSearch.Visit.finds` — what is found and what is left to be found stay the same;
* `ComputedFields.Table.leafFields_exact` — **the search ends, and finds each leaf behind the field once**.
-/

import Mathlib.Logic.Function.Iterate
import ComputedFields.Proofs.ReadOrder

set_option relaxedAutoImplicit false
set_option autoImplicit false

namespace ComputedFields

open Relation (ReflTransGen)

/-! ### The search step by step -/

/-- The search at a moment: the ids that were visited, those that are to be visited, the next one first,
and the leaves that were found. -/
structure LeafSearch where
  seen : List String := []
  todo : List String
  found : List Field := []

namespace LeafSearch

/-- The search for the leaves behind a field. -/
def start (id : String) : LeafSearch := { todo := [id] }

/-- Takes one id off the work list, if there is one. -/
def step (table : Table) (s : LeafSearch) : LeafSearch :=
  match s.todo with
  | [] => s
  | id :: rest =>
      if id ∈ s.seen then { s with todo := rest }
      else
        match table.field? id with
        | none => { s with seen := id :: s.seen, todo := rest }
        | some field =>
            if field.kind.isFormula then
              { s with seen := id :: s.seen, todo := field.references ++ rest }
            else
              { seen := id :: s.seen, todo := rest, found := Keyed.insert Field.id field s.found }

/-- Everything that a step with work left can do. -/
inductive Visit (table : Table) : LeafSearch → LeafSearch → Prop where
  | again {seen rest : List String} {found : List Field} {id : String} : id ∈ seen →
      Visit table ⟨seen, id :: rest, found⟩ ⟨seen, rest, found⟩
  | missing {seen rest : List String} {found : List Field} {id : String} : id ∉ seen →
      table.field? id = none → Visit table ⟨seen, id :: rest, found⟩ ⟨id :: seen, rest, found⟩
  | formula {seen rest : List String} {found : List Field} {id : String} {field : Field} :
      id ∉ seen → table.field? id = some field → field.kind.isFormula = true →
      Visit table ⟨seen, id :: rest, found⟩ ⟨id :: seen, field.references ++ rest, found⟩
  | leaf {seen rest : List String} {found : List Field} {id : String} {field : Field} :
      id ∉ seen → table.field? id = some field → field.kind.isFormula = false →
      Visit table ⟨seen, id :: rest, found⟩
        ⟨id :: seen, rest, Keyed.insert Field.id field found⟩

variable {table : Table} {s s' : LeafSearch} {leaves : List Field}

theorem visit_step (h : s.todo ≠ []) : Visit table s (s.step table) := by
  obtain ⟨seen, todo, found⟩ := s
  cases todo with
  | nil => exact absurd rfl h
  | cons id rest =>
      by_cases hseen : id ∈ seen
      · simp only [step, if_pos hseen]
        exact .again hseen
      · cases hfield : table.field? id with
        | none =>
            simp only [step, if_neg hseen, hfield]
            exact .missing hseen hfield
        | some field =>
            cases hformula : field.kind.isFormula with
            | true =>
                simp only [step, if_neg hseen, hfield, hformula, if_true]
                exact .formula hseen hfield hformula
            | false =>
                simp only [step, if_neg hseen, hfield, hformula, Bool.false_eq_true, if_false]
                exact .leaf hseen hfield hformula

/-! ### The steps that are left -/

/-- The references of the fields that were not visited. -/
def pending (fields : List Field) (seen : List String) : List String :=
  (fields.filter fun field => field.id ∉ seen).flatMap Field.references

/-- A bound on the steps that are left: one for each id of the work list, and one for each reference of
the fields that were not visited. -/
def weight (table : Table) (s : LeafSearch) : Nat :=
  s.todo.length + (pending table.fields s.seen).length

theorem pending_nil (fields : List Field) : pending fields [] = fields.flatMap Field.references := by
  simp [pending]

theorem pending_cons_of_mem {first : Field} {rest : List Field} {seen : List String}
    (h : first.id ∈ seen) : pending (first :: rest) seen = pending rest seen := by
  simp [pending, h]

theorem pending_cons_of_notMem {first : Field} {rest : List Field} {seen : List String}
    (h : first.id ∉ seen) :
    pending (first :: rest) seen = first.references ++ pending rest seen := by
  simp [pending, h]

/-- An id that is none of the fields changes nothing. -/
theorem pending_visit_of_notMem {fields : List Field} {seen : List String} {id : String}
    (h : id ∉ fields.map Field.id) : pending fields (id :: seen) = pending fields seen := by
  refine congrArg (List.flatMap Field.references) (List.filter_congr fun field hfield => ?_)
  have hne : field.id ≠ id := fun heq => h (heq ▸ List.mem_map_of_mem hfield)
  simp [hne]

/-- The references of a field that is visited are no longer to come. -/
theorem length_pending_visit {fields : List Field} {seen : List String} {field : Field}
    (hdistinct : (fields.map Field.id).Nodup) (hmem : field ∈ fields) (hnew : field.id ∉ seen) :
    (pending fields (field.id :: seen)).length + field.references.length =
      (pending fields seen).length := by
  induction fields with
  | nil => simp at hmem
  | cons first rest ih =>
      rw [List.map_cons, List.nodup_cons] at hdistinct
      rcases List.mem_cons.1 hmem with rfl | hrest
      · rw [pending_cons_of_mem List.mem_cons_self, pending_visit_of_notMem hdistinct.1,
          pending_cons_of_notMem hnew, List.length_append]
        omega
      · have hsum := ih hdistinct.2 hrest
        by_cases hfirst : first.id ∈ seen
        · rw [pending_cons_of_mem (List.mem_cons_of_mem _ hfirst), pending_cons_of_mem hfirst, hsum]
        · have hne : first.id ≠ field.id := fun heq => hdistinct.1 (heq ▸ List.mem_map_of_mem hrest)
          have hfirst' : first.id ∉ field.id :: seen := by simp [hne, hfirst]
          rw [pending_cons_of_notMem hfirst', pending_cons_of_notMem hfirst, List.length_append,
            List.length_append]
          omega

/-- **Each step uses up one unit of the bound.** -/
theorem Visit.weight (h : Visit table s s') : s'.weight table + 1 = s.weight table := by
  cases h with
  | again hseen =>
      simp only [LeafSearch.weight, List.length_cons]
      omega
  | @missing seen rest found id hseen hfield =>
      have hmissing : id ∉ table.fields.map Field.id := Table.notMem_fieldIds_of_field? hfield
      simp only [LeafSearch.weight, List.length_cons, pending_visit_of_notMem hmissing]
      omega
  | @formula seen rest found id field hseen hfield hformula =>
      obtain rfl := Table.id_of_field? hfield
      have hsum := length_pending_visit table.distinct (Table.mem_of_field? hfield) hseen
      simp only [LeafSearch.weight, List.length_cons, List.length_append]
      omega
  | @leaf seen rest found id field hseen hfield hleaf =>
      obtain rfl := Table.id_of_field? hfield
      have hsum := length_pending_visit table.distinct (Table.mem_of_field? hfield) hseen
      rw [Field.references_of_isFormula hleaf, List.length_nil] at hsum
      simp only [LeafSearch.weight, List.length_cons]
      omega

/-- The search ends within its bound. -/
theorem exists_iterate_todo_eq_nil (table : Table) (s : LeafSearch) :
    ∃ n ≤ s.weight table, ((step table)^[n] s).todo = [] := by
  induction hw : s.weight table using Nat.strongRecOn generalizing s with
  | _ w ih =>
      by_cases hdone : s.todo = []
      · exact ⟨0, Nat.zero_le w, hdone⟩
      · have hstep : (s.step table).weight table + 1 = w := hw ▸ (visit_step hdone).weight
        obtain ⟨n, hn, hend⟩ := ih _ (by omega) (s.step table) rfl
        refine ⟨n + 1, by omega, ?_⟩
        rwa [Function.iterate_succ_apply]

/-! ### What is found -/

theorem mem_cons_congr {ids seen seen' : List String} {id : String}
    (h : ∀ x ∈ ids, x ∈ seen ↔ x ∈ seen') : ∀ x ∈ ids, x ∈ id :: seen ↔ x ∈ id :: seen' := by
  intro x hx
  rw [List.mem_cons, List.mem_cons, h x hx]

/-- Only the fields of the table count among those that were visited. -/
theorem leavesFrom_congr {seen seen' todo : List String}
    (h : ∀ id ∈ table.fieldIds, id ∈ seen ↔ id ∈ seen') :
    table.leavesFrom seen todo = table.leavesFrom seen' todo := by
  fun_induction Table.leavesFrom table seen todo generalizing seen' with
  | case1 seen => rw [Table.leavesFrom_nil]
  | case2 seen id rest hseen ih =>
      rw [ih h]
      cases hfield : table.field? id with
      | none => rw [Table.leavesFrom_of_missing hfield]
      | some field =>
          have hseen' := (h id (Table.mem_fieldIds_of_field? hfield)).1 hseen
          rw [Table.leavesFrom_of_mem hseen']
  | case3 seen id rest hnew hfield ih => rw [ih h, Table.leavesFrom_of_missing hfield]
  | case4 seen id rest hnew field hfield hformula ih =>
      have hnew' := mt (h id (Table.mem_fieldIds_of_field? hfield)).2 hnew
      rw [ih (mem_cons_congr h), Table.leavesFrom_of_formula hnew' hfield hformula]
  | case5 seen id rest hnew field hfield hformula ih =>
      have hnew' := mt (h id (Table.mem_fieldIds_of_field? hfield)).2 hnew
      rw [ih (mem_cons_congr h), Table.leavesFrom_of_leaf hnew' hfield (by simpa using hformula)]

/-- The search has found some of the leaves and is going to find the others, in order.  What it found was
visited. -/
structure Finds (table : Table) (s : LeafSearch) (leaves : List Field) : Prop where
  visited : ∀ field ∈ s.found, field.id ∈ s.seen
  leaves : s.found ++ table.leavesFrom s.seen s.todo = leaves

theorem finds_start (table : Table) (id : String) : Finds table (start id) (table.leafFields id) where
  visited _ hmem := absurd hmem List.not_mem_nil
  leaves := List.nil_append _

/-- **What is found and what is left to be found stay the same.** -/
theorem Visit.finds (h : Visit table s s') (hs : Finds table s leaves) : Finds table s' leaves := by
  obtain ⟨hvisited, hleaves⟩ := hs
  cases h with
  | again hseen => exact ⟨hvisited, by rw [← hleaves, Table.leavesFrom_of_mem hseen]⟩
  | @missing seen rest found id hseen hfield =>
      refine ⟨fun field hmem => List.mem_cons_of_mem _ (hvisited field hmem), ?_⟩
      rw [← hleaves, Table.leavesFrom_of_missing hfield]
      refine congrArg (found ++ ·) (leavesFrom_congr fun x hx => ?_)
      -- the id that was visited is none of the table
      have hne : x ≠ id := fun heq => Table.notMem_fieldIds_of_field? hfield (heq ▸ hx)
      rw [List.mem_cons, or_iff_right hne]
  | formula hseen hfield hformula =>
      refine ⟨fun field hmem => List.mem_cons_of_mem _ (hvisited field hmem), ?_⟩
      rw [← hleaves, Table.leavesFrom_of_formula hseen hfield hformula]
  | @leaf seen rest found id field hseen hfield hleaf =>
      obtain rfl := Table.id_of_field? hfield
      have hnew : field.id ∉ found.map Field.id := by
        intro hid
        obtain ⟨other, hmem, heq⟩ := List.mem_map.1 hid
        exact hseen (heq ▸ hvisited other hmem)
      refine ⟨fun other hmem => ?_, ?_⟩
      · rcases Keyed.mem_of_mem_insert hmem with hmem | rfl
        · exact List.mem_cons_of_mem _ (hvisited other hmem)
        · exact List.mem_cons_self
      · rw [← hleaves, Table.leavesFrom_of_leaf hseen hfield hleaf, Keyed.insert_of_notMem hnew,
          List.append_assoc, List.singleton_append]

theorem Finds.step (h : Finds table s leaves) : Finds table (s.step table) leaves := by
  by_cases hdone : s.todo = []
  · have hstop : s.step table = s := by simp [LeafSearch.step, hdone]
    rwa [hstop]
  · exact (visit_step hdone).finds h

theorem Finds.iterate (h : Finds table s leaves) (n : Nat) :
    Finds table ((LeafSearch.step table)^[n] s) leaves := by
  induction n generalizing s with
  | zero => exact h
  | succ n ih => exact ih h.step

end LeafSearch

/-! ### Leaves -/

namespace Table

variable {table : Table} {id : String} {leaf : Field}

/-- What is found stands behind a field of the work list. -/
theorem behind_of_mem_leavesFrom {seen todo : List String} (h : leaf ∈ table.leavesFrom seen todo) :
    ∃ x ∈ todo, table.Behind [] x leaf := by
  fun_induction leavesFrom table seen todo with
  | case1 seen => simp at h
  | case2 seen id rest _ ih =>
      obtain ⟨x, hx, hbehind⟩ := ih h
      exact ⟨x, List.mem_cons_of_mem _ hx, hbehind⟩
  | case3 seen id rest _ _ ih =>
      obtain ⟨x, hx, hbehind⟩ := ih h
      exact ⟨x, List.mem_cons_of_mem _ hx, hbehind⟩
  | case4 seen id rest _ field hfield hformula ih =>
      obtain ⟨x, hx, hbehind⟩ := ih h
      rcases List.mem_append.1 hx with hx | hx
      · exact ⟨id, List.mem_cons_self, .there List.not_mem_nil hfield hformula hx hbehind⟩
      · exact ⟨x, List.mem_cons_of_mem _ hx, hbehind⟩
  | case5 seen id rest _ field hfield hformula ih =>
      rcases List.mem_cons.1 h with rfl | h
      · exact ⟨id, List.mem_cons_self, .here List.not_mem_nil hfield (by simpa using hformula)⟩
      · obtain ⟨x, hx, hbehind⟩ := ih h
        exact ⟨x, List.mem_cons_of_mem _ hx, hbehind⟩

/-- What was visited is not found any more, and nothing is found twice. -/
theorem nodup_leavesFrom (table : Table) (seen todo : List String) :
    ((table.leavesFrom seen todo).map Field.id).Nodup ∧
      ∀ leaf ∈ table.leavesFrom seen todo, leaf.id ∉ seen := by
  fun_induction leavesFrom table seen todo with
  | case1 seen => simp
  | case2 seen id rest _ ih => exact ih
  | case3 seen id rest _ _ ih => exact ih
  | case4 seen id rest _ field hfield hformula ih =>
      exact ⟨ih.1, fun leaf hleaf hseen => ih.2 leaf hleaf (List.mem_cons_of_mem _ hseen)⟩
  | case5 seen id rest hnew field hfield hformula ih =>
      obtain rfl := id_of_field? hfield
      refine ⟨?_, ?_⟩
      · rw [List.map_cons, List.nodup_cons]
        refine ⟨fun hid => ?_, ih.1⟩
        obtain ⟨other, hmem, heq⟩ := List.mem_map.1 hid
        exact ih.2 other hmem (heq ▸ List.mem_cons_self)
      · intro leaf hleaf hseen
        rcases List.mem_cons.1 hleaf with rfl | hleaf
        · exact hnew hseen
        · exact ih.2 leaf hleaf (List.mem_cons_of_mem _ hseen)

/-- A leaf that a field leads to stands behind it. -/
theorem behind_of_leads (hway : ReflTransGen table.Leads id leaf.id) (hmem : leaf ∈ table.fields)
    (hleaf : leaf.kind.isFormula = false) : table.Behind [] id leaf := by
  induction hway using ReflTransGen.head_induction_on with
  | refl => exact .here List.not_mem_nil (field?_of_mem hmem) hleaf
  | head hlead _ ih =>
      obtain ⟨field, hfield, hformula, href⟩ := leads_iff_references.1 hlead
      exact .there List.not_mem_nil hfield hformula href ih

/-- **The search ends, and finds each leaf behind the field once.**  It takes at most one step for the
field and one for every reference of the table.  Then it has found the leaves, which are the fields of the
table that are no formulas and that the field leads to. -/
theorem leafFields_exact (table : Table) (id : String) :
    (∃ n ≤ 1 + (table.fields.flatMap Field.references).length, ∃ seen,
        (LeafSearch.step table)^[n] (LeafSearch.start id) = ⟨seen, [], table.leafFields id⟩) ∧
      (table.leafFields id).Nodup ∧
      ∀ leaf, leaf ∈ table.leafFields id ↔
        leaf ∈ table.fields ∧ leaf.kind.isFormula = false ∧ ReflTransGen table.Leads id leaf.id := by
  refine ⟨?_, ?_, fun leaf => ⟨fun h => ?_, ?_⟩⟩
  · obtain ⟨n, hn, hend⟩ := LeafSearch.exists_iterate_todo_eq_nil table (.start id)
    have hfinds := (LeafSearch.finds_start table id).iterate n
    rw [LeafSearch.weight, LeafSearch.start, LeafSearch.pending_nil] at hn
    refine ⟨n, hn, ?_⟩
    generalize (LeafSearch.step table)^[n] (.start id) = s at hend hfinds
    obtain ⟨seen, todo, found⟩ := s
    cases hend
    have hleaves := hfinds.leaves
    rw [leavesFrom_nil, List.append_nil] at hleaves
    exact ⟨seen, by rw [← hleaves]⟩
  · exact (nodup_leavesFrom table [] [id]).1.of_map Field.id
  · obtain ⟨x, hx, hbehind⟩ := behind_of_mem_leavesFrom h
    rw [List.mem_singleton.1 hx] at hbehind
    exact ⟨mem_fields_of_mem_leafFields h, hbehind.isFormula_eq_false, hbehind.leads.2⟩
  · rintro ⟨hmem, hleaf, hway⟩
    exact mem_leafFields_of_behind (behind_of_leads hway hmem hleaf)

-- two formulas that refer to each other: the search passes the circle and finds what is beyond it
example :
    ((Table.ofFields "tblA" "table_a"
      [.single "n" "n" .number .column, .single "s" "s" .string .column,
       .single "up" "up" .number
         (.formula (.tree (some (.binary (.field "down") .add (.field "n")))) false),
       .single "down" "down" .number
         (.formula (.tree (some (.binary (.field "up") .sub (.field "gone")))) false)]).leafFields
      "down").map Field.id = ["n"] := by
  cbv

end Table

end ComputedFields
