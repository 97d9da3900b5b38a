/-
**Plans list what a projection needs, and every unit after those it reads.**

The graph of a projection is found by a work list, and its units are listed by a depth-first walk
with a stack, on which a unit may lie several times.  This module proves both right, for every
catalog, circles included.

The work list looks at every unit once.  Its invariant, `ComputedFields.UnitGraph.Discovering`, says
that the units which are no longer pending have all their edges, and that the others have none.

The walk tells three kinds of units apart: those it has not met, those it has left, and those that
wait on the stack.  Its invariant, `ComputedFields.UnitGraph.Walking`, says of a unit that waits
that all above its uppermost place on the stack can be reached from it, and that what it reads and
has not been met lies there.  So when it comes to the top, what it reads has been left, or waits
below and reaches back to it; the latter happens in a circle only.

Main definitions:

* `ComputedFields.Catalog.LeastClosed` — the least units that hold given ones and all that they
  read;
* `ComputedFields.UnitGraph.Discovering`, `ComputedFields.UnitGraph.Walking` — the invariants.

Main results:

* `ComputedFields.Catalog.leastClosed_graph` — the graph holds what the projection needs, and no
  more;
* `ComputedFields.Catalog.successors_graph` — its edges are the requirements;
* `ComputedFields.Catalog.mem_order_iff`, `ComputedFields.UnitGraph.nodup_order` — the plan lists
  the units of the graph, each once;
* `ComputedFields.Catalog.cyclic_iff` — the plan is marked exactly when there is a circle;
* `ComputedFields.Catalog.plan_exact` — **plans are right**.
-/

import Mathlib.Data.List.Nodup
import Mathlib.Logic.Relation
import Mathlib.Tactic.Tauto
import ComputedFields.Cte.Plan

set_option relaxedAutoImplicit false
set_option autoImplicit false

namespace ComputedFields

open Relation (ReflTransGen TransGen)

/-! ### What units read -/

/-- A unit reads another one. -/
def Catalog.Requires (catalog : Catalog) (unit required : CteUnit) : Prop :=
  required ∈ catalog.requirements unit

/-- The units hold the seeds and all that they read, and any other set that does so holds them. -/
structure Catalog.LeastClosed (catalog : Catalog) (seeds units : List CteUnit) : Prop where
  seeds_mem : ∀ unit ∈ seeds, unit ∈ units
  closed : ∀ unit ∈ units, ∀ required ∈ catalog.requirements unit, required ∈ units
  least : ∀ S : Set CteUnit, (∀ unit ∈ seeds, unit ∈ S) →
    (∀ unit ∈ S, ∀ required ∈ catalog.requirements unit, required ∈ S) → ∀ unit ∈ units, unit ∈ S

theorem Table.nodup_unitsNeeded (table : Table) (ids : List String) :
    (table.unitsNeeded ids).Nodup :=
  nodup_unionNew List.nodup_nil

theorem Catalog.nodup_unitsRead (catalog : Catalog) (host : Table) (reads : UnitReads) :
    (catalog.unitsRead host reads).Nodup :=
  nodup_unionNew (host.nodup_unitsNeeded _)

theorem Catalog.nodup_requirements (catalog : Catalog) (unit : CteUnit) :
    (catalog.requirements unit).Nodup := by
  unfold Catalog.requirements
  cases hhost : catalog.table? unit.table with
  | none => simp
  | some host =>
      cases hfield : host.field? unit.field with
      | none => simp [hfield]
      | some field =>
          cases hreads : unit.reads? host field with
          | none => simp [hfield, hreads]
          | some reads => simpa [hfield, hreads] using catalog.nodup_unitsRead host reads

namespace UnitGraph

/-! ### Edges -/

/-- There is an edge from one unit to another. -/
def Reads (graph : UnitGraph) (unit other : CteUnit) : Prop := other ∈ graph.successors unit

theorem successors_addEdges_self (graph : UnitGraph) (unit : CteUnit) (required : List CteUnit) :
    (graph.addEdges unit required).successors unit = graph.successors unit ++ required := by
  simp [successors, addEdges, List.filterMap_append, List.filterMap_map]

theorem successors_addEdges_of_ne (graph : UnitGraph) {unit other : CteUnit}
    (required : List CteUnit) (h : unit ≠ other) :
    (graph.addEdges unit required).successors other = graph.successors other := by
  simp [successors, addEdges, List.filterMap_append, List.filterMap_map, h]

theorem mem_units_addEdges {graph : UnitGraph} {unit other : CteUnit} {required : List CteUnit} :
    other ∈ (graph.addEdges unit required).units ↔ other ∈ graph.units ∨ other ∈ required := by
  by_cases h : other ∈ graph.units <;> simp [addEdges, h]

/-! ### The work list -/

/-- What holds while a graph is found: a unit that is no longer pending has been looked at, and has
all its edges; one that is pending, or not found yet, has none. -/
structure Discovering (catalog : Catalog) (graph : UnitGraph) (pending : List CteUnit) : Prop where
  nodup : graph.units.Nodup
  nodup_pending : pending.Nodup
  pending_found : ∀ unit ∈ pending, unit ∈ graph.units
  looked_at : ∀ unit ∈ graph.units, unit ∉ pending →
    graph.successors unit = catalog.requirements unit ∧
      ∀ required ∈ catalog.requirements unit, required ∈ graph.units
  untouched : ∀ unit, unit ∈ pending ∨ unit ∉ graph.units → graph.successors unit = []

/-- Looking at one unit keeps the invariant. -/
theorem Discovering.step {catalog : Catalog} {graph : UnitGraph} {unit : CteUnit}
    {rest : List CteUnit} (h : Discovering catalog graph (unit :: rest)) :
    Discovering catalog (graph.addEdges unit (catalog.requirements unit))
      (((catalog.requirements unit).filter (· ∉ graph.units)).reverse ++ rest) := by
  obtain ⟨hunit, hrest⟩ := List.nodup_cons.1 h.nodup_pending
  have hfound : unit ∈ graph.units := h.pending_found unit List.mem_cons_self
  have hnew : ∀ other, other ∈ (catalog.requirements unit).filter (· ∉ graph.units) ↔
      other ∈ catalog.requirements unit ∧ other ∉ graph.units := by
    intro other
    simp
  have hnodup := (catalog.nodup_requirements unit).filter (· ∉ graph.units)
  refine ⟨?_, ?_, ?_, ?_, ?_⟩
  · refine List.nodup_append.2 ⟨h.nodup, hnodup, ?_⟩
    rintro other hother _ hother' rfl
    exact ((hnew other).1 hother').2 hother
  · refine List.nodup_append.2 ⟨List.nodup_reverse.2 hnodup, hrest, ?_⟩
    rintro other hother _ hother' rfl
    exact ((hnew other).1 (List.mem_reverse.1 hother)).2
      (h.pending_found other (List.mem_cons_of_mem _ hother'))
  · intro other hother
    rw [mem_units_addEdges]
    rcases List.mem_append.1 hother with hother | hother
    · exact Or.inr ((hnew other).1 (List.mem_reverse.1 hother)).1
    · exact Or.inl (h.pending_found other (List.mem_cons_of_mem _ hother))
  · intro other hother hpending
    rw [List.mem_append, List.mem_reverse, hnew, not_or] at hpending
    -- Units that are new are pending now, so this one was found before.
    have hother : other ∈ graph.units := by
      rcases mem_units_addEdges.1 hother with hother | hother
      · exact hother
      · by_contra hmem
        exact hpending.1 ⟨hother, hmem⟩
    by_cases heq : unit = other
    · subst heq
      refine ⟨?_, fun required hrequired => mem_units_addEdges.2 (Or.inr hrequired)⟩
      rw [successors_addEdges_self, h.untouched unit (Or.inl List.mem_cons_self), List.nil_append]
    · have hlooked := h.looked_at other hother
        (by simp [Ne.symm heq, hpending.2])
      rw [successors_addEdges_of_ne _ _ heq]
      exact ⟨hlooked.1, fun required hrequired =>
        mem_units_addEdges.2 (Or.inl (hlooked.2 required hrequired))⟩
  · intro other hother
    have hother : other ∈ rest ∨ other ∉ graph.units := by
      rw [List.mem_append, List.mem_reverse, hnew, mem_units_addEdges] at hother
      tauto
    have hne : unit ≠ other := by
      rintro rfl
      exact hother.elim hunit (fun hmem => hmem hfound)
    rw [successors_addEdges_of_ne _ _ hne]
    exact h.untouched other (hother.imp_left (List.mem_cons_of_mem _))

/-- When the work list is empty, every unit that was found has been looked at. -/
theorem discovering_discover {catalog : Catalog} {graph : UnitGraph} {pending : List CteUnit}
    (h : Discovering catalog graph pending) :
    Discovering catalog (discover catalog graph pending) [] := by
  fun_induction discover catalog graph pending with
  | case1 graph => exact h
  | case2 graph unit rest required ih => exact ih h.step

theorem subset_units_discover {catalog : Catalog} {graph : UnitGraph} {pending : List CteUnit}
    {unit : CteUnit} (h : unit ∈ graph.units) : unit ∈ (discover catalog graph pending).units := by
  fun_induction discover catalog graph pending with
  | case1 graph => exact h
  | case2 graph other rest required ih => exact ih (mem_units_addEdges.2 (Or.inl h))

theorem roots_discover (catalog : Catalog) (graph : UnitGraph) (pending : List CteUnit) :
    (discover catalog graph pending).roots = graph.roots := by
  fun_induction discover catalog graph pending with
  | case1 graph => rfl
  | case2 graph unit rest required ih => exact ih

/-- Nothing is found but what a closed set holds that holds the units to begin with. -/
theorem mem_of_mem_discover {catalog : Catalog} {graph : UnitGraph} {pending : List CteUnit}
    {S : Set CteUnit} (hclosed : ∀ unit ∈ S, ∀ required ∈ catalog.requirements unit, required ∈ S)
    (hunits : ∀ unit ∈ graph.units, unit ∈ S) (hpending : ∀ unit ∈ pending, unit ∈ S) :
    ∀ unit ∈ (discover catalog graph pending).units, unit ∈ S := by
  fun_induction discover catalog graph pending with
  | case1 graph => exact hunits
  | case2 graph unit rest required ih =>
      have hrequired : ∀ other ∈ required, other ∈ S :=
        hclosed unit (hpending unit List.mem_cons_self)
      apply ih
      · intro other hother
        exact (mem_units_addEdges.1 hother).elim (hunits other) (hrequired other)
      · intro other hother
        rcases List.mem_append.1 hother with hother | hother
        · exact hrequired other (List.mem_filter.1 (List.mem_reverse.1 hother)).1
        · exact hpending other (List.mem_cons_of_mem _ hother)

/-! ### Depth first -/

/-- A unit has been met and waits on the stack: all above its uppermost place can be reached from
it, and there lies what it reads and has not been met. -/
def Waits (graph : UnitGraph) (unmet stack : List CteUnit) (unit : CteUnit) : Prop :=
  ∃ above below, stack = above ++ unit :: below ∧ unit ∉ above ∧
    (∀ other ∈ above, ReflTransGen graph.Reads unit other) ∧
    ∀ other ∈ graph.successors unit, other ∈ unmet → other ∈ above

/-- Every unit of a list comes after those it reads, unless they read it in turn. -/
def Ordered (graph : UnitGraph) (units : List CteUnit) : Prop :=
  ∀ before unit after, units = before ++ unit :: after →
    ∀ other ∈ graph.successors unit, other ∈ before ∨ ReflTransGen graph.Reads other unit

/-- Edges stay inside the graph. -/
def Closed (graph : UnitGraph) : Prop :=
  ∀ unit ∈ graph.units, ∀ other ∈ graph.successors unit, other ∈ graph.units

/-- What holds while a graph is walked. -/
structure Walking (graph : UnitGraph) (w : Walk) (stack : List CteUnit) : Prop where
  nodup_unmet : w.unmet.Nodup
  nodup_finished : w.finished.Nodup
  stack_units : ∀ unit ∈ stack, unit ∈ graph.units
  finished_units : ∀ unit ∈ w.finished, unit ∈ graph.units
  finished_met : ∀ unit ∈ w.finished, unit ∉ w.unmet
  successors_met : ∀ unit ∈ w.finished, ∀ other ∈ graph.successors unit, other ∉ w.unmet
  waits : ∀ unit ∈ graph.units, unit ∉ w.unmet → unit ∉ w.finished →
    graph.Waits w.unmet stack unit
  ordered : graph.Ordered w.finished

/-- A unit on top of the stack has nothing above it. -/
theorem Waits.of_top {graph : UnitGraph} {unmet rest : List CteUnit} {unit : CteUnit}
    (h : graph.Waits unmet (unit :: rest) unit) :
    ∀ other ∈ graph.successors unit, other ∉ unmet := by
  obtain ⟨above, below, hstack, hunit, _, habove⟩ := h
  cases above with
  | nil => exact fun other hother hunmet => List.not_mem_nil (habove other hother hunmet)
  | cons top above =>
      obtain ⟨rfl, _⟩ := List.cons.inj hstack
      exact absurd List.mem_cons_self hunit

/-- A unit that waits below another one reaches it. -/
theorem Waits.reaches_top {graph : UnitGraph} {unmet rest : List CteUnit} {unit top : CteUnit}
    (h : graph.Waits unmet (top :: rest) unit) : ReflTransGen graph.Reads unit top := by
  obtain ⟨above, below, hstack, _, hreach, _⟩ := h
  cases above with
  | nil =>
      obtain ⟨rfl, _⟩ := List.cons.inj hstack
      exact ReflTransGen.refl
  | cons other above =>
      obtain ⟨rfl, _⟩ := List.cons.inj hstack
      exact hreach _ List.mem_cons_self

/-- What waits below the top still waits when the top is taken away. -/
theorem Waits.pop {graph : UnitGraph} {unmet rest : List CteUnit} {unit top : CteUnit}
    (h : graph.Waits unmet (top :: rest) unit) (hne : unit ≠ top) (htop : top ∉ unmet) :
    graph.Waits unmet rest unit := by
  obtain ⟨above, below, hstack, hunit, hreach, habove⟩ := h
  cases above with
  | nil => exact absurd (List.cons.inj hstack).1.symm hne
  | cons other above =>
      obtain ⟨rfl, rfl⟩ := List.cons.inj hstack
      refine ⟨above, below, rfl, fun hmem => hunit (List.mem_cons_of_mem _ hmem), ?_, ?_⟩
      · exact fun v hv => hreach v (List.mem_cons_of_mem _ hv)
      · intro v hv hunmet
        rcases List.mem_cons.1 (habove v hv hunmet) with rfl | hmem
        · exact absurd hunmet htop
        · exact hmem

/-- What waits below the top still waits when successors of the top are put on it. -/
theorem Waits.push {graph : UnitGraph} {unmet unmet' rest found : List CteUnit}
    {unit top : CteUnit} (h : graph.Waits unmet (top :: rest) unit) (hne : unit ≠ top)
    (hsub : ∀ other ∈ unmet', other ∈ unmet) (hunit : unit ∉ found)
    (hfound : ∀ other ∈ found, graph.Reads top other) :
    graph.Waits unmet' (found ++ top :: rest) unit := by
  have htop := h.reaches_top
  obtain ⟨above, below, hstack, hmem, hreach, habove⟩ := h
  cases above with
  | nil => exact absurd (List.cons.inj hstack).1.symm hne
  | cons other above =>
      obtain ⟨rfl, rfl⟩ := List.cons.inj hstack
      refine ⟨found ++ top :: above, below, by simp, ?_, ?_, ?_⟩
      · rw [List.mem_append, not_or]
        exact ⟨hunit, hmem⟩
      · intro v hv
        rcases List.mem_append.1 hv with hv | hv
        · exact htop.tail (hfound v hv)
        · exact hreach v hv
      · intro v hv hunmet
        exact List.mem_append_right _ (habove v hv (hsub v hunmet))

/-- Meeting the unit on top of the stack keeps the invariant. -/
theorem Walking.meet {graph : UnitGraph} {w : Walk} {unit : CteUnit} {rest : List CteUnit}
    (hclosed : graph.Closed) (h : Walking graph w (unit :: rest)) (hunit : unit ∈ w.unmet) :
    Walking graph { w with unmet := w.unmet.erase unit }
      ((graph.successors unit).filter (· ∈ w.unmet.erase unit) ++ unit :: rest) := by
  have herase : ∀ other, other ∈ w.unmet.erase unit ↔ other ≠ unit ∧ other ∈ w.unmet :=
    fun other => h.nodup_unmet.mem_erase_iff
  have hfound : ∀ other, other ∈ (graph.successors unit).filter (· ∈ w.unmet.erase unit) ↔
      other ∈ graph.successors unit ∧ other ∈ w.unmet.erase unit := by
    intro other
    simp
  have hunits := h.stack_units unit List.mem_cons_self
  refine ⟨h.nodup_unmet.erase unit, h.nodup_finished, ?_, h.finished_units, ?_, ?_, ?_, h.ordered⟩
  · intro other hother
    rcases List.mem_append.1 hother with hother | hother
    · exact hclosed unit hunits other ((hfound other).1 hother).1
    · exact h.stack_units other hother
  · exact fun other hother hunmet => h.finished_met other hother ((herase other).1 hunmet).2
  · intro other hother v hv hunmet
    exact h.successors_met other hother v hv ((herase v).1 hunmet).2
  · intro other hother hunmet hfinished
    -- The unit waits right below what it reads; other units wait where they did.
    by_cases heq : other = unit
    · subst heq
      refine ⟨_, rest, rfl, fun hmem => hunmet ((hfound other).1 hmem).2, ?_, ?_⟩
      · exact fun v hv => ReflTransGen.single ((hfound v).1 hv).1
      · exact fun v hv hv' => (hfound v).2 ⟨hv, hv'⟩
    · have hmet : other ∉ w.unmet := fun hmem => hunmet ((herase other).2 ⟨heq, hmem⟩)
      exact (h.waits other hother hmet hfinished).push heq
        (fun v hv => ((herase v).1 hv).2) (fun hmem => hunmet ((hfound other).1 hmem).2)
        (fun v hv => ((hfound v).1 hv).1)

/-- A unit that is left after what it reads keeps the order. -/
theorem Ordered.concat {graph : UnitGraph} {units : List CteUnit} {unit : CteUnit}
    (h : graph.Ordered units)
    (hunit : ∀ other ∈ graph.successors unit, other ∈ units ∨ ReflTransGen graph.Reads other unit) :
    graph.Ordered (units ++ [unit]) := by
  intro before last after hsplit
  rcases List.eq_nil_or_concat after with rfl | ⟨after, x, rfl⟩
  · obtain ⟨rfl, hlast⟩ := List.append_inj' hsplit rfl
    obtain ⟨rfl, _⟩ := List.cons.inj hlast
    exact hunit
  · rw [List.concat_eq_append, ← List.cons_append, ← List.append_assoc] at hsplit
    exact h before last after (List.append_inj' hsplit rfl).1

/-- Leaving the unit on top of the stack keeps the invariant. -/
theorem Walking.leave {graph : UnitGraph} {w : Walk} {unit : CteUnit} {rest : List CteUnit}
    (hclosed : graph.Closed) (h : Walking graph w (unit :: rest)) (hunit : unit ∉ w.unmet) :
    Walking graph { w with finished := insertNew w.finished unit } rest := by
  have hunits := h.stack_units unit List.mem_cons_self
  -- A unit can lie on the stack several times, so it may have been left before.
  have hmet : ∀ other ∈ graph.successors unit, other ∉ w.unmet := by
    by_cases hfinished : unit ∈ w.finished
    · exact h.successors_met unit hfinished
    · exact (h.waits unit hunits hunit hfinished).of_top
  refine ⟨h.nodup_unmet, nodup_insertNew h.nodup_finished unit, ?_, ?_, ?_, ?_, ?_, ?_⟩
  · exact fun other hother => h.stack_units other (List.mem_cons_of_mem _ hother)
  · intro other hother
    rcases mem_insertNew.1 hother with hother | rfl
    · exact h.finished_units other hother
    · exact hunits
  · intro other hother
    rcases mem_insertNew.1 hother with hother | rfl
    · exact h.finished_met other hother
    · exact hunit
  · intro other hother
    rcases mem_insertNew.1 hother with hother | rfl
    · exact h.successors_met other hother
    · exact hmet
  · intro other hother hunmet hfinished
    rw [mem_insertNew, not_or] at hfinished
    exact (h.waits other hother hunmet hfinished.1).pop hfinished.2 hunit
  · change graph.Ordered (insertNew w.finished unit)
    unfold insertNew
    split
    · exact h.ordered
    · refine h.ordered.concat fun other hother => ?_
      -- What the unit reads has been met: it is left already, or waits below and reaches back.
      by_cases hfinished : other ∈ w.finished
      · exact Or.inl hfinished
      · have hwaits :=
          h.waits other (hclosed unit hunits other hother) (hmet other hother) hfinished
        exact Or.inr hwaits.reaches_top

/-- A walk ends with an empty stack, and keeps the invariant. -/
theorem walking_walk {graph : UnitGraph} {w : Walk} {stack : List CteUnit} (hclosed : graph.Closed)
    (h : Walking graph w stack) : Walking graph (graph.walk w stack) [] := by
  fun_induction walk graph w stack with
  | case1 w => exact h
  | case2 w unit rest hunit unmet ih => exact ih (h.meet hclosed hunit)
  | case3 w unit rest hunit ih => exact ih (h.leave hclosed hunit)

/-- Between two walks every unit that has been met is left. -/
theorem Walking.mem_finished {graph : UnitGraph} {w : Walk} (h : Walking graph w [])
    {unit : CteUnit} (hunit : unit ∈ graph.units) (hmet : unit ∉ w.unmet) : unit ∈ w.finished := by
  by_contra hfinished
  obtain ⟨above, below, hstack, _⟩ := h.waits unit hunit hmet hfinished
  simp at hstack

/-- A walk may start from any units of the graph. -/
theorem Walking.start {graph : UnitGraph} {w : Walk} (h : Walking graph w [])
    {stack : List CteUnit} (hstack : ∀ unit ∈ stack, unit ∈ graph.units) :
    Walking graph w stack := by
  refine ⟨h.nodup_unmet, h.nodup_finished, hstack, h.finished_units, h.finished_met,
    h.successors_met, ?_, h.ordered⟩
  exact fun unit hunit hmet hfinished => absurd (h.mem_finished hunit hmet) hfinished

/-- The invariant holds before anything is met. -/
theorem walking_init {graph : UnitGraph} (h : graph.units.Nodup) :
    Walking graph ⟨graph.units, []⟩ [] := by
  refine ⟨h, List.nodup_nil, ?_, ?_, ?_, ?_, ?_, ?_⟩
  · simp
  · simp
  · simp
  · simp
  · exact fun unit hunit hmet _ => absurd hunit hmet
  · intro before unit after hsplit
    simp at hsplit

theorem mem_walk_of_mem_finished {graph : UnitGraph} {w : Walk} {stack : List CteUnit}
    {unit : CteUnit} (h : unit ∈ w.finished) : unit ∈ (graph.walk w stack).finished := by
  fun_induction walk graph w stack with
  | case1 w => exact h
  | case2 w top rest _ unmet ih => exact ih h
  | case3 w top rest _ ih => exact ih (mem_insertNew.2 (Or.inl h))

/-- What lies on the stack is left in the end. -/
theorem mem_walk_of_mem_stack {graph : UnitGraph} {w : Walk} {stack : List CteUnit}
    {unit : CteUnit} (h : unit ∈ stack) : unit ∈ (graph.walk w stack).finished := by
  fun_induction walk graph w stack with
  | case1 w => simp at h
  | case2 w top rest _ unmet ih => exact ih (List.mem_append_right _ h)
  | case3 w top rest _ ih =>
      rcases List.mem_cons.1 h with rfl | h
      · exact mem_walk_of_mem_finished (mem_insertNew.2 (Or.inr rfl))
      · exact ih h

/-- A walk leaves nothing but what a closed set holds that holds the stack. -/
theorem mem_of_mem_walk {graph : UnitGraph} {w : Walk} {stack : List CteUnit} {S : Set CteUnit}
    (hclosed : ∀ unit ∈ S, ∀ other ∈ graph.successors unit, other ∈ S)
    (hfinished : ∀ unit ∈ w.finished, unit ∈ S) (hstack : ∀ unit ∈ stack, unit ∈ S) :
    ∀ unit ∈ (graph.walk w stack).finished, unit ∈ S := by
  fun_induction walk graph w stack with
  | case1 w => exact hfinished
  | case2 w top rest _ unmet ih =>
      refine ih hfinished fun unit hunit => ?_
      rcases List.mem_append.1 hunit with hunit | hunit
      · exact hclosed top (hstack top List.mem_cons_self) unit (List.mem_filter.1 hunit).1
      · exact hstack unit hunit
  | case3 w top rest _ ih =>
      refine ih ?_ (fun unit hunit => hstack unit (List.mem_cons_of_mem _ hunit))
      intro unit hunit
      rcases mem_insertNew.1 hunit with hunit | rfl
      · exact hfinished unit hunit
      · exact hstack unit List.mem_cons_self

/-! ### The order of a graph -/

/-- Walks from one root after the other keep the invariant, and leave the roots. -/
theorem walking_foldl {graph : UnitGraph} {w : Walk} {roots : List CteUnit}
    (hclosed : graph.Closed) (hroots : ∀ root ∈ roots, root ∈ graph.units)
    (h : Walking graph w []) :
    Walking graph (roots.foldl (fun w root => graph.walk w [root]) w) [] ∧
      ∀ unit, unit ∈ w.finished ∨ unit ∈ roots →
        unit ∈ (roots.foldl (fun w root => graph.walk w [root]) w).finished := by
  induction roots generalizing w with
  | nil => exact ⟨h, fun unit hunit => by simpa using hunit⟩
  | cons root rest ih =>
      have hroot : ∀ unit ∈ [root], unit ∈ graph.units := by
        intro unit hunit
        rw [List.mem_singleton.1 hunit]
        exact hroots root List.mem_cons_self
      obtain ⟨hwalking, hleft⟩ := ih (fun unit hunit => hroots unit (List.mem_cons_of_mem _ hunit))
        (walking_walk hclosed (h.start hroot))
      refine ⟨hwalking, fun unit hunit => hleft unit ?_⟩
      rcases hunit with hunit | hunit
      · exact Or.inl (mem_walk_of_mem_finished hunit)
      · rcases List.mem_cons.1 hunit with rfl | hunit
        · exact Or.inl (mem_walk_of_mem_stack List.mem_cons_self)
        · exact Or.inr hunit

section Order

variable {graph : UnitGraph} (hnodup : graph.units.Nodup) (hclosed : graph.Closed)
  (hroots : ∀ root ∈ graph.roots, root ∈ graph.units)

include hnodup hclosed hroots

theorem nodup_order : graph.order.Nodup :=
  (walking_foldl hclosed hroots (walking_init hnodup)).1.nodup_finished

theorem ordered_order : graph.Ordered graph.order :=
  (walking_foldl hclosed hroots (walking_init hnodup)).1.ordered

theorem mem_units_of_mem_order {unit : CteUnit} (h : unit ∈ graph.order) : unit ∈ graph.units :=
  (walking_foldl hclosed hroots (walking_init hnodup)).1.finished_units unit h

theorem mem_order_of_mem_roots {unit : CteUnit} (h : unit ∈ graph.roots) : unit ∈ graph.order :=
  (walking_foldl hclosed hroots (walking_init hnodup)).2 unit (Or.inr h)

theorem mem_order_of_reads {unit other : CteUnit} (h : unit ∈ graph.order)
    (hother : graph.Reads unit other) : other ∈ graph.order := by
  obtain ⟨hwalking, _⟩ := walking_foldl hclosed hroots (walking_init hnodup)
  exact hwalking.mem_finished (hclosed unit (hwalking.finished_units unit h) other hother)
    (hwalking.successors_met unit h other hother)

end Order

/-- A unit is left on a walk from its successors exactly when a path leads back to it. -/
theorem mem_walk_successors_iff {graph : UnitGraph} (hnodup : graph.units.Nodup)
    (hclosed : graph.Closed) {unit other : CteUnit} (hunit : unit ∈ graph.units) :
    other ∈ (graph.walk ⟨graph.units, []⟩ (graph.successors unit)).finished ↔
      TransGen graph.Reads unit other := by
  have hwalking := walking_walk hclosed ((walking_init hnodup).start (hclosed unit hunit))
  constructor
  · refine mem_of_mem_walk (S := TransGen graph.Reads unit) ?_ ?_ ?_ other
    · exact fun v hv v' hv' => TransGen.tail hv hv'
    · intro v hv
      exact absurd hv List.not_mem_nil
    · exact fun v hv => TransGen.single hv
  · intro hpath
    induction hpath with
    | single hfirst => exact mem_walk_of_mem_stack hfirst
    | tail _ hlast ih =>
        have hlast' := hclosed _ (hwalking.finished_units _ ih) _ hlast
        exact hwalking.mem_finished hlast' (hwalking.successors_met _ ih _ hlast)

end UnitGraph

/-! ### The graph of a projection -/

section Graph

variable (catalog : Catalog) (table : Table) (projection : List String)

theorem Catalog.discovering_graph :
    UnitGraph.Discovering catalog (catalog.graph table projection) [] := by
  apply UnitGraph.discovering_discover
  have hnodup := table.nodup_unitsNeeded projection
  refine ⟨hnodup, List.nodup_reverse.2 hnodup, ?_, ?_, ?_⟩
  · intro unit hunit
    exact List.mem_reverse.1 hunit
  · intro unit hunit hpending
    exact absurd (List.mem_reverse.2 hunit) hpending
  · intro unit _
    rfl

@[simp] theorem Catalog.roots_graph :
    (catalog.graph table projection).roots = table.unitsNeeded projection :=
  UnitGraph.roots_discover ..

/-- The graph holds the units of the projection with all that they read, and nothing else. -/
theorem Catalog.leastClosed_graph :
    catalog.LeastClosed (table.unitsNeeded projection) (catalog.graph table projection).units := by
  refine ⟨?_, ?_, ?_⟩
  · intro unit hunit
    exact UnitGraph.subset_units_discover hunit
  · intro unit hunit
    exact ((catalog.discovering_graph table projection).looked_at unit hunit List.not_mem_nil).2
  · intro S hseeds hclosed
    exact UnitGraph.mem_of_mem_discover hclosed hseeds
      (fun unit hunit => hseeds unit (List.mem_reverse.1 hunit))

variable {catalog table projection}

/-- The edges of the graph are the requirements of its units. -/
theorem Catalog.successors_graph {unit : CteUnit}
    (h : unit ∈ (catalog.graph table projection).units) :
    (catalog.graph table projection).successors unit = catalog.requirements unit :=
  ((catalog.discovering_graph table projection).looked_at unit h List.not_mem_nil).1

theorem Catalog.requires_of_reads {unit other : CteUnit}
    (h : (catalog.graph table projection).Reads unit other) :
    unit ∈ (catalog.graph table projection).units ∧ catalog.Requires unit other := by
  by_cases hunit : unit ∈ (catalog.graph table projection).units
  · refine ⟨hunit, ?_⟩
    rw [UnitGraph.Reads, Catalog.successors_graph hunit] at h
    exact h
  · rw [UnitGraph.Reads,
      (catalog.discovering_graph table projection).untouched unit (Or.inr hunit)] at h
    exact absurd h List.not_mem_nil

/-- What can be reached through requirements can be reached in the graph. -/
theorem Catalog.transGen_reads_iff {unit other : CteUnit}
    (h : unit ∈ (catalog.graph table projection).units) :
    TransGen (catalog.graph table projection).Reads unit other ↔
      TransGen catalog.Requires unit other := by
  constructor
  · intro hpath
    exact TransGen.mono (fun _ _ hread => (Catalog.requires_of_reads hread).2) _ _ hpath
  · intro hpath
    have hedge {a b : CteUnit} (ha : a ∈ (catalog.graph table projection).units)
        (hab : catalog.Requires a b) : (catalog.graph table projection).Reads a b := by
      rw [UnitGraph.Reads, Catalog.successors_graph ha]
      exact hab
    have hclosed := (catalog.leastClosed_graph table projection).closed
    induction hpath using TransGen.head_induction_on with
    | single hlast => exact TransGen.single (hedge h hlast)
    | head hfirst _ ih => exact TransGen.head (hedge h hfirst) (ih (hclosed _ h _ hfirst))

/-! ### Plans -/

theorem Catalog.closed_graph : (catalog.graph table projection).Closed := by
  intro unit hunit other hother
  rw [Catalog.successors_graph hunit] at hother
  exact (catalog.leastClosed_graph table projection).closed unit hunit other hother

theorem Catalog.roots_graph_subset :
    ∀ root ∈ (catalog.graph table projection).roots,
      root ∈ (catalog.graph table projection).units := by
  rw [Catalog.roots_graph]
  exact (catalog.leastClosed_graph table projection).seeds_mem

/-- The plan lists the units of the graph. -/
theorem Catalog.mem_order_iff {unit : CteUnit} :
    unit ∈ (catalog.plan table projection).order ↔
      unit ∈ (catalog.graph table projection).units := by
  have hnodup := (catalog.discovering_graph table projection).nodup
  have hleast := catalog.leastClosed_graph table projection
  constructor
  · exact UnitGraph.mem_units_of_mem_order hnodup Catalog.closed_graph Catalog.roots_graph_subset
  · -- The units that are listed hold the roots and are closed, so the least such set is among them.
    refine hleast.least {unit | unit ∈ (catalog.plan table projection).order} ?_ ?_ unit
    · intro root hroot
      refine UnitGraph.mem_order_of_mem_roots hnodup Catalog.closed_graph
        Catalog.roots_graph_subset ?_
      rw [Catalog.roots_graph]
      exact hroot
    · intro listed hlisted required hrequired
      refine UnitGraph.mem_order_of_reads hnodup Catalog.closed_graph Catalog.roots_graph_subset
        hlisted ?_
      have hunits := UnitGraph.mem_units_of_mem_order hnodup Catalog.closed_graph
        Catalog.roots_graph_subset hlisted
      rw [UnitGraph.Reads, Catalog.successors_graph hunits]
      exact hrequired

theorem Catalog.nodup_plan : (catalog.plan table projection).order.Nodup :=
  UnitGraph.nodup_order (catalog.discovering_graph table projection).nodup Catalog.closed_graph
    Catalog.roots_graph_subset

/-- The plan is marked exactly when some unit reads itself, directly or through others. -/
theorem Catalog.cyclic_iff :
    (catalog.plan table projection).cyclic = true ↔
      ∃ unit ∈ (catalog.graph table projection).units, TransGen catalog.Requires unit unit := by
  have hnodup := (catalog.discovering_graph table projection).nodup
  change (catalog.graph table projection).isCyclic = true ↔ _
  simp only [UnitGraph.isCyclic, List.any_eq_true, decide_eq_true_eq]
  constructor
  · rintro ⟨unit, hunit, hmem⟩
    rw [UnitGraph.mem_walk_successors_iff hnodup Catalog.closed_graph hunit,
      Catalog.transGen_reads_iff hunit] at hmem
    exact ⟨unit, hunit, hmem⟩
  · rintro ⟨unit, hunit, hpath⟩
    rw [← Catalog.transGen_reads_iff hunit,
      ← UnitGraph.mem_walk_successors_iff hnodup Catalog.closed_graph hunit] at hpath
    exact ⟨unit, hunit, hpath⟩

/-- Without a circle, every unit of a plan comes after those it reads. -/
theorem Catalog.requirements_before (h : (catalog.plan table projection).cyclic = false)
    {before after : List CteUnit} {unit : CteUnit}
    (hsplit : (catalog.plan table projection).order = before ++ unit :: after) :
    ∀ required ∈ catalog.requirements unit, required ∈ before := by
  intro required hrequired
  have hunit : unit ∈ (catalog.graph table projection).units :=
    Catalog.mem_order_iff.1 (by simp [hsplit])
  have hread : (catalog.graph table projection).Reads unit required := by
    rw [UnitGraph.Reads, Catalog.successors_graph hunit]
    exact hrequired
  have hordered := UnitGraph.ordered_order (catalog.discovering_graph table projection).nodup
    Catalog.closed_graph Catalog.roots_graph_subset
  rcases hordered before unit after hsplit required hread with hbefore | hback
  · exact hbefore
  · have hcircle := (Catalog.transGen_reads_iff hunit).1 (TransGen.head' hread hback)
    rw [Catalog.cyclic_iff.2 ⟨unit, hunit, hcircle⟩] at h
    exact absurd h (by decide)

/-- **Plans are right.**  For every catalog, table and projection, the graph holds the least units
that hold those of the projection and all that they read; the plan lists these, each once, and
nothing else; it is marked exactly when some of them read each other in a circle; and unless it is
marked, every unit comes after all that it reads. -/
theorem Catalog.plan_exact (catalog : Catalog) (table : Table) (projection : List String) :
    catalog.LeastClosed (table.unitsNeeded projection) (catalog.graph table projection).units ∧
      (catalog.plan table projection).order.Nodup ∧
      (catalog.plan table projection).order.Perm (catalog.graph table projection).units ∧
      ((catalog.plan table projection).cyclic = true ↔
        ∃ unit ∈ (catalog.graph table projection).units, TransGen catalog.Requires unit unit) ∧
      ((catalog.plan table projection).cyclic = false →
        ∀ before unit after, (catalog.plan table projection).order = before ++ unit :: after →
          ∀ required ∈ catalog.requirements unit, required ∈ before) := by
  refine ⟨catalog.leastClosed_graph table projection, Catalog.nodup_plan, ?_,
    Catalog.cyclic_iff, ?_⟩
  · have hnodup := (catalog.discovering_graph table projection).nodup
    exact (List.perm_ext_iff_of_nodup Catalog.nodup_plan hnodup).2 fun _ => Catalog.mem_order_iff
  · intro hcyclic before unit after hsplit
    exact Catalog.requirements_before hcyclic hsplit

end Graph

end ComputedFields
