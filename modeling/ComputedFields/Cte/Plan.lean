/-
**The order in which units are built.**

A unit reads fields of other tables, and these may be carried by units themselves.  The units that a
projection needs are the nodes of a graph, with an edge from a unit to every unit it reads.  A plan
lists them, every unit after those it reads.  Where units read each other in a circle there is no such
order; the plan then says so, and whichever unit comes first reads nothing of the other.

Main definitions:

* `ComputedFields.Table.unitsNeeded` — the units behind fields of a table;
* `ComputedFields.UnitReads`, `ComputedFields.CteUnit.reads?` — the fields that a unit reads;
* `ComputedFields.Catalog.requirements` — the units that a unit reads;
* `ComputedFields.UnitGraph`, `ComputedFields.Catalog.graph` — the graph of a projection, found by a
  work list;
* `ComputedFields.UnitGraph.walk`, `ComputedFields.UnitGraph.order` — depth first through the graph,
  and its units in the order in which they are left;
* `ComputedFields.Plan`, `ComputedFields.Catalog.plan` — the units of a projection in order.

Main results:

* `ComputedFields.Catalog.mem_units_of_mem_requirements` — a unit reads units of the catalog, of which
  there are finitely many.
-/

import ComputedFields.Cte.Leaves
import ComputedFields.Cte.Unit

set_option relaxedAutoImplicit false
set_option autoImplicit false

namespace ComputedFields

/-! ### What a unit reads -/

/-- The units behind fields of a table, each once. -/
def Table.unitsNeeded (table : Table) (ids : List String) : List CteUnit :=
  unionNew [] (ids.flatMap fun id => (table.leafFields id).filterMap (CteUnit.of? table))

/-- The fields that a unit reads, of the foreign table and of its own. -/
structure UnitReads where
  foreignTable : String
  foreign : List String
  host : List String := []

/-- The fields that a filter mentions. -/
def Filter.mentions (filter : Option Filter) : List String :=
  match filter with
  | some f => f.fieldIds ++ f.valueFieldIds
  | none => []

/-- The fields of the foreign table that a member of a link reads. -/
def Field.memberReads (field : Field) : List String :=
  match field.kind with
  | .lookup _ related | .rollup _ related _ => related.target :: Filter.mentions related.filter
  | _ => []

/-- The fields that the unit of a link reads: the title, and what its members read. -/
def Link.reads (link : Link) (members : List Field) : UnitReads :=
  ⟨link.foreignTable, link.titleField :: members.flatMap Field.memberReads, []⟩

/-- The fields that the unit of a single field reads: the target, those of the filter, and the one
that orders the rows. -/
def RowChoice.reads (choice : RowChoice) : UnitReads :=
  let related := choice.related
  let order := (related.sort.map SortKey.field).toList
  if choice.hostValues then
    { foreignTable := related.foreignTable
      foreign := related.target :: ((related.filter.map Filter.fieldIds).getD [] ++ order)
      host := (related.filter.map Filter.valueFieldIds).getD [] }
  else ⟨related.foreignTable, related.target :: (Filter.mentions related.filter ++ order), []⟩

/-- The fields that a unit reads, given the field it is named after. -/
def CteUnit.reads? (unit : CteUnit) (host : Table) (field : Field) : Option UnitReads :=
  match unit with
  | .link .. =>
      match field.kind with
      | .link l => some (l.reads (host.linkMembers field.id))
      | _ => none
  | .conditional .. => field.rowChoice?.map RowChoice.reads

/-- The units behind the fields that are read; of a foreign table that is missing there are none. -/
def Catalog.unitsRead (catalog : Catalog) (host : Table) (reads : UnitReads) : List CteUnit :=
  let foreign := match catalog.table? reads.foreignTable with
    | some table => table.unitsNeeded reads.foreign
    | none => []
  unionNew (host.unitsNeeded reads.host) foreign

/-- The units that a unit reads. -/
def Catalog.requirements (catalog : Catalog) (unit : CteUnit) : List CteUnit :=
  let found := do
    let host ← catalog.table? unit.table
    let field ← host.field? unit.field
    let reads ← unit.reads? host field
    some (catalog.unitsRead host reads)
  found.getD []

/-! ### The units of a catalog -/

/-- The units of all fields of a catalog. -/
def Catalog.units (catalog : Catalog) : List CteUnit :=
  catalog.tables.flatMap fun table => table.fields.filterMap (CteUnit.of? table)

theorem Table.mem_unitsNeeded {table : Table} {ids : List String} {unit : CteUnit} :
    unit ∈ table.unitsNeeded ids ↔
      ∃ id ∈ ids, ∃ leaf ∈ table.leafFields id, CteUnit.of? table leaf = some unit := by
  simp [Table.unitsNeeded]

theorem Catalog.mem_units {catalog : Catalog} {unit : CteUnit} :
    unit ∈ catalog.units ↔
      ∃ table ∈ catalog.tables, ∃ field ∈ table.fields, CteUnit.of? table field = some unit := by
  simp [Catalog.units]

theorem Catalog.mem_units_of_mem_unitsNeeded {catalog : Catalog} {table : Table}
    {ids : List String} {unit : CteUnit} (htable : table ∈ catalog.tables)
    (h : unit ∈ table.unitsNeeded ids) : unit ∈ catalog.units := by
  obtain ⟨id, _, leaf, hleaf, hunit⟩ := Table.mem_unitsNeeded.1 h
  exact Catalog.mem_units.2 ⟨table, htable, leaf, Table.mem_fields_of_mem_leafFields hleaf, hunit⟩

theorem Catalog.mem_unitsRead {catalog : Catalog} {host : Table} {reads : UnitReads}
    {unit : CteUnit} :
    unit ∈ catalog.unitsRead host reads ↔
      unit ∈ host.unitsNeeded reads.host ∨
        ∃ foreign, catalog.table? reads.foreignTable = some foreign ∧
          unit ∈ foreign.unitsNeeded reads.foreign := by
  unfold Catalog.unitsRead
  cases hforeign : catalog.table? reads.foreignTable <;> simp

/-- What a unit reads, in terms of its table and field. -/
theorem Catalog.mem_requirements {catalog : Catalog} {unit required : CteUnit} :
    required ∈ catalog.requirements unit ↔
      ∃ host field reads, catalog.table? unit.table = some host ∧
        host.field? unit.field = some field ∧ unit.reads? host field = some reads ∧
        required ∈ catalog.unitsRead host reads := by
  unfold Catalog.requirements
  cases hhost : catalog.table? unit.table with
  | none => simp
  | some host =>
      cases hfield : host.field? unit.field with
      | none => simp [hfield]
      | some field =>
          cases hreads : unit.reads? host field with
          | none => simp [hfield, hreads]
          | some reads => simp [hfield, hreads]

/-- A unit reads units of the catalog only. -/
theorem Catalog.mem_units_of_mem_requirements {catalog : Catalog} {unit required : CteUnit}
    (h : required ∈ catalog.requirements unit) : required ∈ catalog.units := by
  obtain ⟨host, field, reads, hhost, _, _, hread⟩ := Catalog.mem_requirements.1 h
  rcases Catalog.mem_unitsRead.1 hread with hread | ⟨foreign, hforeign, hread⟩
  · exact Catalog.mem_units_of_mem_unitsNeeded (Catalog.mem_of_table? hhost) hread
  · exact Catalog.mem_units_of_mem_unitsNeeded (Catalog.mem_of_table? hforeign) hread

/-! ### The graph of a projection -/

/-- The units behind a projection, and which of them reads which. -/
structure UnitGraph where
  /-- The units of the projected fields. -/
  roots : List CteUnit
  /-- All units, in the order in which they were found. -/
  units : List CteUnit
  /-- A unit and one that it reads, in the order in which they were found. -/
  edges : List (CteUnit × CteUnit) := []
  deriving DecidableEq, Repr

namespace UnitGraph

/-- The units that a unit reads, the one that was found first in front. -/
def successors (graph : UnitGraph) (unit : CteUnit) : List CteUnit :=
  graph.edges.filterMap fun edge => if edge.1 = unit then some edge.2 else none

/-- Adds what a unit reads. -/
def addEdges (graph : UnitGraph) (unit : CteUnit) (required : List CteUnit) : UnitGraph :=
  { graph with
    units := graph.units ++ required.filter (· ∉ graph.units)
    edges := graph.edges ++ required.map fun other => (unit, other) }

/-- Adds what the pending units read, and what that reads in turn; what was found last is looked at
first. -/
def discover (catalog : Catalog) (graph : UnitGraph) (pending : List CteUnit) : UnitGraph :=
  match pending with
  | [] => graph
  | unit :: rest =>
      let required := catalog.requirements unit
      discover catalog (graph.addEdges unit required)
        ((required.filter (· ∉ graph.units)).reverse ++ rest)
termination_by (catalog.units.countP (· ∉ graph.units), pending.length)
decreasing_by
  -- Either something new is found, of which the catalog has only so much, or nothing is added.
  cases hnew : (catalog.requirements unit).filter (· ∉ graph.units) with
  | nil =>
      simp only [addEdges, hnew, List.append_nil, List.reverse_nil, List.nil_append]
      exact Prod.Lex.right _ (by simp)
  | cons found others =>
      have hfound : found ∈ (catalog.requirements unit).filter (· ∉ graph.units) := by
        rw [hnew]
        exact List.mem_cons_self
      have hmem := List.mem_filter.1 hfound
      refine Prod.Lex.left _ _ (countP_notMem_lt (fun _ h => List.mem_append_left _ h)
        (Catalog.mem_units_of_mem_requirements hmem.1) (by simpa using hmem.2) ?_)
      exact List.mem_append_right _ hfound

/-! ### Depth first -/

/-- How far a walk has come: the units it has not met, and those it has left, in order. -/
structure Walk where
  unmet : List CteUnit
  finished : List CteUnit := []
  deriving DecidableEq, Repr

/-- Walks depth first from the units of a stack.  A unit that is met stays on the stack below those
that it reads, and is left when it comes to the top again. -/
def walk (graph : UnitGraph) (w : Walk) (stack : List CteUnit) : Walk :=
  match stack with
  | [] => w
  | unit :: rest =>
      if _hmem : unit ∈ w.unmet then
        let unmet := w.unmet.erase unit
        graph.walk { w with unmet }
          ((graph.successors unit).filter (· ∈ unmet) ++ unit :: rest)
      else graph.walk { w with finished := insertNew w.finished unit } rest
termination_by (w.unmet.length, stack.length)
decreasing_by
  · refine Prod.Lex.left _ _ ?_
    have hpos := List.length_pos_of_mem _hmem
    rw [List.length_erase_of_mem _hmem]
    omega
  · exact Prod.Lex.right _ (by simp)

/-- The units in the order in which they are left, when the walk starts from one root after the
other. -/
def order (graph : UnitGraph) : List CteUnit :=
  (graph.roots.foldl (fun w root => graph.walk w [root]) ⟨graph.units, []⟩).finished

/-- Some unit is met on a walk from those that it reads. -/
def isCyclic (graph : UnitGraph) : Bool :=
  graph.units.any fun unit =>
    unit ∈ (graph.walk ⟨graph.units, []⟩ (graph.successors unit)).finished

end UnitGraph

/-- The graph of a projection of a table. -/
def Catalog.graph (catalog : Catalog) (table : Table) (projection : List String) : UnitGraph :=
  let roots := table.unitsNeeded projection
  UnitGraph.discover catalog { roots, units := roots } roots.reverse

/-! ### Plans -/

/-- Units in the order in which they are built, and whether some read each other in a circle. -/
structure Plan where
  order : List CteUnit := []
  cyclic : Bool := false
  deriving DecidableEq, Repr

/-- The plan of a projection of a table. -/
def Catalog.plan (catalog : Catalog) (table : Table) (projection : List String) : Plan :=
  let graph := catalog.graph table projection
  { order := graph.order, cyclic := graph.isCyclic }

end ComputedFields
