/-
**An expression has one body, whatever is projected.**

The units of a plan are built one after the other, and the order depends on the projection; so does the
set of expressions that exist when a body is built.  In a plan without a circle this cannot be seen in the
body.  Its requirements come before it, and those that have a table and a field to be built from have been
built.  They are the same in every plan, so that each body is the one that its unit has when everything
exists that can.

Main definitions:

* `ComputedFields.Catalog.grounds` — the table and the field of a unit exist;
* `ComputedFields.Catalog.settled` — the names of all units that can be built.

Main results:

* `ComputedFields.BuildContext.exists_stage_of_mem_made` — the stage of a run at which a body is built;
* `ComputedFields.BuildContext.mem_built_iff_grounds` — **which requirements exist at that stage**;
* `ComputedFields.BuildContext.exists_settled_of_mem_ctes` — every expression is the settled one of its
  unit;
* `ComputedFields.BuildContext.record_bodies_agree` — **queries of different projections agree on the
  expressions that they share**.
-/

import ComputedFields.Proofs.CteScope
import ComputedFields.Proofs.Lockstep

set_option relaxedAutoImplicit false
set_option autoImplicit false

namespace ComputedFields

open Sql

/-! ### Units that can be built -/

namespace Catalog

variable {catalog : Catalog} {unit : CteUnit}

/-- The table and the field that the unit is named after exist. -/
def grounds (catalog : Catalog) (unit : CteUnit) : Bool :=
  (catalog.table? unit.table).any fun host => (host.field? unit.field).isSome

/-- The names of the units of the catalog that can be built. -/
def settled (catalog : Catalog) : List String := (catalog.units.filter catalog.grounds).map CteUnit.name

theorem grounds_iff :
    catalog.grounds unit = true ↔
      ∃ host field, catalog.table? unit.table = some host ∧ host.field? unit.field = some field := by
  constructor
  · intro h
    obtain ⟨host, hhost, hsome⟩ := (Option.any_eq_true _ _).1 h
    obtain ⟨field, hfield⟩ := Option.isSome_iff_exists.1 hsome
    exact ⟨host, field, hhost, hfield⟩
  · rintro ⟨host, field, hhost, hfield⟩
    simp [grounds, hhost, hfield]

theorem mem_settled_iff (hnames : catalog.DistinctNames) (hunit : unit ∈ catalog.units) :
    unit.name ∈ catalog.settled ↔ catalog.grounds unit = true := by
  unfold settled
  constructor
  · intro h
    obtain ⟨other, hother, heq⟩ := List.mem_map.1 h
    obtain ⟨hmem, hgrounds⟩ := List.mem_filter.1 hother
    rwa [hnames other hmem unit hunit heq] at hgrounds
  · intro h
    exact List.mem_map_of_mem (List.mem_filter.2 ⟨hunit, h⟩)

end Catalog

/-! ### Stages of a run -/

namespace BuildContext

variable {ctx : BuildContext} {main : String}

theorem addUnits_cons_ok {unit : CteUnit} {rest : List CteUnit} {b mid b' : Build}
    (hunit : (ctx.addUnit main unit).run b = (.ok (), mid))
    (hrest : (ctx.addUnits main rest).run mid = (.ok (), b')) :
    (ctx.addUnits main (unit :: rest)).run b = (.ok (), b') := by
  rw [addUnits, run_bind, hunit]
  exact hrest

/-- Whatever a run makes, it makes at some stage, from the expressions that exist then. -/
theorem exists_stage_of_mem_made {units : List CteUnit} {b b' : Build} {m : Made}
    (hrun : (ctx.addUnits main units).run b = (.ok (), b')) (hm : m ∈ ctx.made b.built units) :
    ∃ before after mid, units = before ++ m.unit :: after ∧
      (ctx.addUnits main before).run b = (.ok (), mid) ∧
      m.unit.body? (ctx.bodyContext mid.built) = .ok (some m.body) := by
  induction units generalizing b with
  | nil => exact absurd hm List.not_mem_nil
  | cons unit rest ih =>
      obtain ⟨_, mid, hunit, hrest⟩ := exists_of_run_bind hrun
      -- what is made later is made at a later stage, which this unit comes before
      have hlater (hm : m ∈ ctx.made mid.built rest) : ∃ before after last,
          unit :: rest = before ++ m.unit :: after ∧
            (ctx.addUnits main before).run b = (.ok (), last) ∧
            m.unit.body? (ctx.bodyContext last.built) = .ok (some m.body) := by
        obtain ⟨before, after, last, rfl, hbefore, hbody⟩ := ih hrest hm
        exact ⟨unit :: before, after, last, rfl, addUnits_cons_ok hunit hbefore, hbody⟩
      rcases addUnit_cases hunit with ⟨rfl, hname | hnone⟩ | ⟨body, hname, hbody, hextends⟩
      · rw [made_of_mem hname] at hm
        exact hlater hm
      · rw [made_of_none hnone] at hm
        exact hlater hm
      · rw [made_of_some hname hbody] at hm
        rcases List.mem_cons.1 hm with rfl | hm
        · exact ⟨[], rest, b, rfl, rfl, hbody⟩
        · have hmid : mid.built = b.built ++ [unit.name] := hextends.built_eq
          exact hlater (hmid ▸ hm)

/-- Whatever exists after a run from nothing has been made by it. -/
theorem exists_made_of_mem_built {units : List CteUnit} {query : Query} {b : Build} {name : String}
    (hrun : (ctx.addUnits main units).run { query } = (.ok (), b)) (h : name ∈ b.built) :
    ∃ m ∈ ctx.made [] units, m.name = name := by
  rw [(addUnits_extends hrun).built_eq] at h
  exact List.mem_map.1 h

theorem grounds_of_mem_made {built : List String} {units : List CteUnit} {m : Made}
    (h : m ∈ ctx.made built units) : ctx.catalog.grounds m.unit = true := by
  obtain ⟨host, field, hhost, hfield, -⟩ := carries_of_mem_made h
  exact Catalog.grounds_iff.2 ⟨host, field, hhost, hfield⟩

variable {table : Table} {projection : List String}

/-- **Which requirements exist when a body is built**: all that can be built. -/
theorem mem_built_iff_grounds (hnames : ctx.catalog.DistinctNames) (htable : table ∈ ctx.catalog.tables)
    (hacyclic : (ctx.catalog.plan table projection).cyclic = false) {unit : CteUnit}
    {before after : List CteUnit}
    (horder : (ctx.catalog.plan table projection).order = before ++ unit :: after) {query : Query}
    {mid : Build} (hrun : (ctx.addUnits table.id before).run { query } = (.ok (), mid))
    {carrier : CteUnit} (hrequired : carrier ∈ ctx.catalog.requirements unit) :
    carrier.name ∈ mid.built ↔ ctx.catalog.grounds carrier = true := by
  have hbefore : carrier ∈ before := Catalog.requirements_before hacyclic horder _ hrequired
  have hunits : ∀ other ∈ before, other ∈ ctx.catalog.units := by
    intro other hother
    have hmem : other ∈ (ctx.catalog.plan table projection).order := by
      rw [horder]
      exact List.mem_append_left _ hother
    exact Catalog.mem_units_of_mem_order htable hmem
  constructor
  · intro hname
    obtain ⟨m, hm, heq⟩ := exists_made_of_mem_built hrun hname
    have hunit : m.unit = carrier :=
      hnames _ (hunits _ (mem_units_of_mem_made hm)) _ (hunits _ hbefore) heq
    exact hunit ▸ grounds_of_mem_made hm
  · intro hgrounds
    obtain ⟨host, field, hhost, hfield⟩ := Catalog.grounds_iff.1 hgrounds
    refine (built_of_addUnits hrun hbefore).resolve_right ?_
    rintro ⟨built, hnone⟩
    cases (CteUnit.field?_eq_none_of_body? hnone hhost).symm.trans hfield

/-! ### Expressions of a query -/

theorem exists_made_of_mem_ctes {query : Query} {state : QueryState}
    (h : ctx.record table projection = .ok (query, state)) {cte : Cte} (hcte : cte ∈ query.ctes) :
    ∃ m ∈ ctx.made [] (ctx.catalog.plan table projection).order, m.cte = cte := by
  obtain ⟨b, b', hextends, -, hselect, rfl, -⟩ := record_ok h
  obtain ⟨fields, -, -, -, -, hquery⟩ := select_ok hselect
  rw [hquery, (selectColumns_keeps ..).1,
    hextends.ctes_eq fun name hname => absurd hname List.not_mem_nil] at hcte
  exact List.mem_map.1 hcte

/-- **Every expression is the settled one of its unit**: its body is the one that the unit has when
everything exists that can be built. -/
theorem exists_settled_of_mem_ctes (hnames : ctx.catalog.DistinctNames)
    (htable : table ∈ ctx.catalog.tables)
    (hacyclic : (ctx.catalog.plan table projection).cyclic = false) {query : Query}
    {state : QueryState} (h : ctx.record table projection = .ok (query, state)) {cte : Cte}
    (hcte : cte ∈ query.ctes) :
    ∃ unit ∈ ctx.catalog.units, ∃ body, cte = ⟨unit.name, body.sql⟩ ∧
      unit.body? (ctx.bodyContext ctx.catalog.settled) = .ok (some body) := by
  obtain ⟨m, hm, rfl⟩ := exists_made_of_mem_ctes h hcte
  obtain ⟨b, -, -, hrun, -⟩ := record_ok h
  obtain ⟨before, after, mid, horder, hbefore, hbody⟩ := exists_stage_of_mem_made hrun hm
  have hunit : m.unit ∈ ctx.catalog.units :=
    Catalog.mem_units_of_mem_order htable (mem_units_of_mem_made hm)
  have hsame : m.unit.trace (ctx.bodyContext ctx.catalog.settled) =
      m.unit.trace (ctx.bodyContext mid.built) := by
    refine @CteUnit.trace_congr (ctx.bodyContext mid.built) _ m.unit fun carrier hrequired => ?_
    have hcarrier := Catalog.mem_units_of_mem_requirements hrequired
    rw [Catalog.mem_settled_iff hnames hcarrier]
    exact mem_built_iff_grounds hnames htable hacyclic horder hbefore hrequired
  refine ⟨m.unit, hunit, m.body, rfl, ?_⟩
  rw [CteUnit.body?, hsame]
  exact hbody

/-- **Queries of different projections agree on the expressions that they share.**  In a catalog whose
units are told apart by their names, two queries whose plans have no circle give each common name the same
body.  They need not even be queries of the same table. -/
theorem record_bodies_agree {table' : Table} {projection' : List String} {query query' : Query}
    {state state' : QueryState} (hnames : ctx.catalog.DistinctNames)
    (htable : table ∈ ctx.catalog.tables) (htable' : table' ∈ ctx.catalog.tables)
    (hacyclic : (ctx.catalog.plan table projection).cyclic = false)
    (hacyclic' : (ctx.catalog.plan table' projection').cyclic = false)
    (h : ctx.record table projection = .ok (query, state))
    (h' : ctx.record table' projection' = .ok (query', state')) :
    ∀ cte ∈ query.ctes, ∀ cte' ∈ query'.ctes, cte.name = cte'.name → cte.body = cte'.body := by
  intro cte hcte cte' hcte' hname
  obtain ⟨unit, hunit, body, rfl, hbody⟩ :=
    exists_settled_of_mem_ctes hnames htable hacyclic h hcte
  obtain ⟨unit', hunit', body', rfl, hbody'⟩ :=
    exists_settled_of_mem_ctes hnames htable' hacyclic' h' hcte'
  obtain rfl : unit = unit' := hnames unit hunit unit' hunit' hname
  cases hbody.symm.trans hbody'
  rfl

end BuildContext

/-! ### Two queries of one table -/

namespace Sample

/-- An errand starts at a place and has an owner, who has a home. -/
def errands : Table :=
  .ofFields "errands" "errands" [linkTo "start" "places" "place", linkTo "owner" "people" "town"]

def errandContext : BuildContext :=
  ⟨.ofTables [places, people, errands], { now := ⟨0⟩ }, .postgres⟩

theorem errands_mem : errands ∈ errandContext.catalog.tables :=
  Catalog.mem_of_table? (by rfl : errandContext.catalog.table? "errands" = some errands)

end Sample

/-- The owner of an errand and their home have the same expressions with the start and without it,
although the start comes first when it is projected. -/
theorem BuildContext.record_bodies_agree_errands :
    ∃ query state query' state',
      Sample.errandContext.record Sample.errands ["start", "owner"] = .ok (query, state) ∧
      Sample.errandContext.record Sample.errands ["owner"] = .ok (query', state') ∧
      query.cteNames = ["CTE_start", "CTE_home", "CTE_owner"] ∧
      query'.cteNames = ["CTE_home", "CTE_owner"] ∧
      ∀ cte ∈ query.ctes, ∀ cte' ∈ query'.ctes, cte.name = cte'.name → cte.body = cte'.body := by
  have hplan : Sample.errandContext.catalog.plan Sample.errands ["start", "owner"] =
      ⟨[.link "errands" "start", .link "people" "home", .link "errands" "owner"], false⟩ := by cbv
  have hplan' : Sample.errandContext.catalog.plan Sample.errands ["owner"] =
      ⟨[.link "people" "home", .link "errands" "owner"], false⟩ := by cbv
  obtain ⟨made, hmade, hnames⟩ : ∃ made,
      Sample.errandContext.record Sample.errands ["start", "owner"] = .ok made ∧
        made.1.cteNames = ["CTE_start", "CTE_home", "CTE_owner"] := by
    unfold record addCtes
    rw [hplan]
    exact ⟨_, rfl, rfl⟩
  obtain ⟨made', hmade', hnames'⟩ : ∃ made,
      Sample.errandContext.record Sample.errands ["owner"] = .ok made ∧
        made.1.cteNames = ["CTE_home", "CTE_owner"] := by
    unfold record addCtes
    rw [hplan']
    exact ⟨_, rfl, rfl⟩
  exact ⟨made.1, made.2, made'.1, made'.2, hmade, hmade', hnames, hnames',
    record_bodies_agree (by decide) Sample.errands_mem Sample.errands_mem
      (congrArg Plan.cyclic hplan) (congrArg Plan.cyclic hplan') hmade hmade'⟩

end ComputedFields
