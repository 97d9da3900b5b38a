/-
**When two units have the same name.**

The expression of a unit is named after a field: with one beginning for links, and with another one for
single fields, which begins like the first one.  A unit whose name is taken is passed over when a query is
built.  Here it is shown when this happens, in a catalog in which no two tables have a field of the same
id.

There are two ways.  A link may have an id that begins as the names of single fields go on; then it shares
its name with a single field, and whichever of the two comes second has no expression at all.  Or lookups
of two tables go through links of the same id; then at least one of the tables has no such link, and its
unit could not be built anyway.  Nothing else happens, so that names are distinct where every link exists
and none has such an id.

Main definitions:

* `ComputedFields.CteUnit.Clash` — a link and a single field whose names are the same;
* `ComputedFields.Catalog.OwnIds` — no two tables have a field of the same id.

Main results:

* `ComputedFields.CteUnit.name_eq_iff` — when two units have the same name;
* `ComputedFields.Catalog.name_eq_iff_of_ownIds` — the same in a catalog whose ids are not shared;
* `ComputedFields.BuildContext.plan_names` — **when two units of a plan have the same name, and which of
  them are passed over for it**;
* `ComputedFields.BuildContext.record_passes_over` — a query without the expression of one of its fields.
-/

import ComputedFields.Proofs.SharedBodies

set_option relaxedAutoImplicit false
set_option autoImplicit false

namespace ComputedFields

open Sql

/-! ### Names -/

namespace CteUnit

/-- One is the unit of a link and the other one that of a single field, and the id of the link makes up for
the difference of their beginnings. -/
inductive Clash : CteUnit → CteUnit → Prop where
  | linkFirst (table table' id : String) :
      Clash (.link table ("CONDITIONAL_" ++ id)) (.conditional table' id)
  | linkSecond (table table' id : String) :
      Clash (.conditional table' id) (.link table ("CONDITIONAL_" ++ id))

variable {unit other : CteUnit}

theorem link_name_eq_iff {link id : String} :
    "CTE_" ++ link = "CTE_CONDITIONAL_" ++ id ↔ link = "CONDITIONAL_" ++ id := by
  have hbeginning : "CTE_CONDITIONAL_" = "CTE_" ++ "CONDITIONAL_" := by decide
  rw [hbeginning, String.append_assoc, String.append_right_inj]

/-- **When two units have the same name**: they are of the same kind and named after the same id, or one of
them is a link and makes up for the difference. -/
theorem name_eq_iff :
    unit.name = other.name ↔
      (∃ table table' id, unit = .link table id ∧ other = .link table' id) ∨
        (∃ table table' id, unit = .conditional table id ∧ other = .conditional table' id) ∨
        Clash unit other := by
  constructor
  · intro h
    cases unit with
    | link table id =>
        cases other with
        | link table' id' =>
            obtain rfl := (String.append_right_inj _).1 h
            exact .inl ⟨table, table', id, rfl, rfl⟩
        | conditional table' id' =>
            obtain rfl := link_name_eq_iff.1 h
            exact .inr (.inr (.linkFirst table table' id'))
    | conditional table id =>
        cases other with
        | link table' id' =>
            obtain rfl := link_name_eq_iff.1 h.symm
            exact .inr (.inr (.linkSecond table' table id))
        | conditional table' id' =>
            obtain rfl := (String.append_right_inj _).1 h
            exact .inr (.inl ⟨table, table', id, rfl, rfl⟩)
  · rintro (⟨table, table', id, rfl, rfl⟩ | ⟨table, table', id, rfl, rfl⟩ | hclash)
    · rfl
    · rfl
    · cases hclash with
      | linkFirst table table' id => exact link_name_eq_iff.2 rfl
      | linkSecond table table' id => exact (link_name_eq_iff.2 rfl).symm

end CteUnit

/-! ### Catalogs whose ids are not shared -/

namespace Catalog

variable {catalog : Catalog} {unit other : CteUnit}

/-- No two tables have a field of the same id. -/
def OwnIds (catalog : Catalog) : Prop :=
  ∀ table ∈ catalog.tables, ∀ other ∈ catalog.tables, ∀ id ∈ table.fieldIds, id ∈ other.fieldIds →
    table.id = other.id

instance (catalog : Catalog) : Decidable catalog.OwnIds :=
  inferInstanceAs (Decidable (∀ table ∈ catalog.tables, ∀ other ∈ catalog.tables,
    ∀ id ∈ table.fieldIds, id ∈ other.fieldIds → table.id = other.id))

theorem id_of_table? {id : String} {table : Table} (h : catalog.table? id = some table) :
    table.id = id :=
  Keyed.key_of_get? h

/-- Units that can be built are of the same table when they are named after the same id. -/
theorem OwnIds.table_eq (hids : catalog.OwnIds) (h : catalog.grounds unit = true)
    (h' : catalog.grounds other = true) (hfield : unit.field = other.field) :
    unit.table = other.table := by
  obtain ⟨host, field, hhost, hfound⟩ := grounds_iff.1 h
  obtain ⟨host', field', hhost', hfound'⟩ := grounds_iff.1 h'
  have hid : unit.field ∈ host.fieldIds :=
    host.id_of_field? hfound ▸ List.mem_map_of_mem (host.mem_of_field? hfound)
  have hid' : unit.field ∈ host'.fieldIds :=
    hfield ▸ host'.id_of_field? hfound' ▸ List.mem_map_of_mem (host'.mem_of_field? hfound')
  rw [← id_of_table? hhost, ← id_of_table? hhost']
  exact hids host (mem_of_table? hhost) host' (mem_of_table? hhost') _ hid hid'

/-- The unit of a single field is named after a field that exists. -/
theorem grounds_of_conditional {table id : String} (h : .conditional table id ∈ catalog.units) :
    catalog.grounds (.conditional table id) = true := by
  obtain ⟨owner, howner, source, hsource, hof⟩ := mem_units.1 h
  obtain ⟨htable, hid | ⟨l, hlink, -⟩⟩ := CteUnit.of?_cases hof
  · refine grounds_iff.2 ⟨owner, source, ?_, ?_⟩
    · rw [htable]
      exact table?_of_mem howner
    · rw [hid]
      exact Table.field?_of_mem hsource
  · cases hlink

/-- **When two units of a catalog have the same name**, if ids are not shared between tables. -/
theorem name_eq_iff_of_ownIds (hids : catalog.OwnIds) (hunit : unit ∈ catalog.units)
    (hother : other ∈ catalog.units) (hne : unit ≠ other) :
    unit.name = other.name ↔
      CteUnit.Clash unit other ∨
        ∃ table table' id, unit = .link table id ∧ other = .link table' id ∧
          ¬ (catalog.grounds unit = true ∧ catalog.grounds other = true) := by
  rw [CteUnit.name_eq_iff]
  constructor
  · rintro (⟨table, table', id, rfl, rfl⟩ | ⟨table, table', id, rfl, rfl⟩ | hclash)
    · refine .inr ⟨table, table', id, rfl, rfl, ?_⟩
      rintro ⟨h, h'⟩
      obtain rfl : table = table' := hids.table_eq h h' rfl
      exact hne rfl
    · -- both fields exist, so they are the same field of the same table
      obtain rfl : table = table' :=
        hids.table_eq (grounds_of_conditional hunit) (grounds_of_conditional hother) rfl
      exact absurd rfl hne
    · exact .inl hclash
  · rintro (hclash | ⟨table, table', id, rfl, rfl, -⟩)
    · exact .inr (.inr hclash)
    · exact .inl ⟨table, table', id, rfl, rfl⟩

end Catalog

/-! ### Units that are passed over -/

namespace BuildContext

variable {ctx : BuildContext} {table : Table} {projection : List String}

/-- A unit that could be built is passed over only for one that it clashes with. -/
theorem exists_clash_of_passed_over (hids : ctx.catalog.OwnIds) (htable : table ∈ ctx.catalog.tables)
    {before after : List CteUnit} {unit : CteUnit}
    (horder : (ctx.catalog.plan table projection).order = before ++ unit :: after) {query : Query}
    {b : Build} (hrun : (ctx.addUnits table.id before).run { query } = (.ok (), b))
    (hname : unit.name ∈ b.built) (hgrounds : ctx.catalog.grounds unit = true) :
    ∃ m ∈ ctx.made [] before, CteUnit.Clash unit m.unit := by
  have hunits : ∀ other ∈ before ++ unit :: after, other ∈ ctx.catalog.units := by
    rw [← horder]
    exact fun other hother => Catalog.mem_units_of_mem_order htable hother
  have hnodup : (before ++ unit :: after).Nodup := horder ▸ Catalog.nodup_plan
  obtain ⟨m, hm, heq⟩ := exists_made_of_mem_built hrun hname
  have hbefore : m.unit ∈ before := mem_units_of_mem_made hm
  have hne : unit ≠ m.unit := by
    rintro rfl
    exact (List.nodup_append.1 hnodup).2.2 _ hbefore _ List.mem_cons_self rfl
  refine ⟨m, hm, ?_⟩
  rcases (Catalog.name_eq_iff_of_ownIds hids (hunits _ (by simp)) (hunits _ (by simp [hbefore]))
    hne).1 heq.symm with hclash | ⟨_, _, _, -, -, hmissing⟩
  · exact hclash
  · exact absurd ⟨hgrounds, grounds_of_mem_made hm⟩ hmissing

/-- **When two units of a plan have the same name, and which of them are passed over for it.**  In a catalog
in which no two tables have a field of the same id, they clash, or they are links of the same id of which
one does not exist.  A unit that could be built and whose name is taken clashes with one that was built
before it.  So where every link exists and no two units clash, all names are distinct. -/
theorem plan_names (hids : ctx.catalog.OwnIds) (htable : table ∈ ctx.catalog.tables)
    (projection : List String) :
    (∀ unit ∈ (ctx.catalog.plan table projection).order,
        ∀ other ∈ (ctx.catalog.plan table projection).order, unit ≠ other →
        (unit.name = other.name ↔
          CteUnit.Clash unit other ∨
            ∃ table table' id, unit = .link table id ∧ other = .link table' id ∧
              ¬ (ctx.catalog.grounds unit = true ∧ ctx.catalog.grounds other = true))) ∧
      (∀ before unit after query b,
        (ctx.catalog.plan table projection).order = before ++ unit :: after →
        (ctx.addUnits table.id before).run { query } = (.ok (), b) →
        unit.name ∈ b.built → ctx.catalog.grounds unit = true →
        ∃ m ∈ ctx.made [] before, CteUnit.Clash unit m.unit) ∧
      ((∀ unit ∈ ctx.catalog.units, ctx.catalog.grounds unit = true) →
        (∀ unit ∈ ctx.catalog.units, ∀ other ∈ ctx.catalog.units, ¬ CteUnit.Clash unit other) →
        ctx.catalog.DistinctNames) := by
  refine ⟨?_, ?_, ?_⟩
  · intro unit hunit other hother hne
    exact Catalog.name_eq_iff_of_ownIds hids (Catalog.mem_units_of_mem_order htable hunit)
      (Catalog.mem_units_of_mem_order htable hother) hne
  · intro before unit after query b horder hrun hname hgrounds
    exact exists_clash_of_passed_over hids htable horder hrun hname hgrounds
  · intro hgrounds hclear unit hunit other hother hname
    by_contra hne
    rcases (Catalog.name_eq_iff_of_ownIds hids hunit hother hne).1 hname with
      hclash | ⟨_, _, _, -, -, hmissing⟩
    · exact hclear unit hunit other hother hclash
    · exact hmissing ⟨hgrounds unit hunit, hgrounds other hother⟩

end BuildContext

/-! ### A table with a clash -/

namespace Sample

/-- A link whose id begins as the names of single fields go on, and a single field. -/
def picks : Table :=
  .ofFields "p" "picks"
    [.single "n" "name" .string .column, linkTo "CONDITIONAL_x" "p" "n",
     .ofConditionalLookup "x" "pick" .string none { foreignTable := "p", target := "n" }]

def pickContext : BuildContext := ⟨.ofTables [picks], { now := ⟨0⟩ }, .postgres⟩

theorem picks_mem : picks ∈ pickContext.catalog.tables :=
  Catalog.mem_of_table? (by rfl : pickContext.catalog.table? "p" = some picks)

theorem picks_plan : pickContext.catalog.plan picks ["CONDITIONAL_x", "x"] =
    ⟨[.link "p" "CONDITIONAL_x"] ++ .conditional "p" "x" :: [], false⟩ := by cbv

/-- The query of picks, once the link has been added. -/
def afterPickLink : Build :=
  ((pickContext.addUnits picks.id [.link "p" "CONDITIONAL_x"]).run
    { query := .ofTable "picks" "t" }).2

end Sample

namespace BuildContext

/-- The single field is passed over for the link. -/
theorem plan_names_picks :
    Sample.pickContext.catalog.OwnIds ∧
      CteUnit.name (.link "p" "CONDITIONAL_x") = CteUnit.name (.conditional "p" "x") ∧
      ∃ m ∈ Sample.pickContext.made [] [.link "p" "CONDITIONAL_x"],
        CteUnit.Clash (.conditional "p" "x") m.unit := by
  have hids : Sample.pickContext.catalog.OwnIds := by decide
  have hrun : (Sample.pickContext.addUnits Sample.picks.id [.link "p" "CONDITIONAL_x"]).run
      { query := .ofTable "picks" "t" } = (.ok (), Sample.afterPickLink) := Prod.ext (by rfl) rfl
  have horder := congrArg Plan.order Sample.picks_plan
  obtain ⟨hsame, hpassed, -⟩ :=
    plan_names hids Sample.picks_mem ["CONDITIONAL_x", "x"]
  refine ⟨hids, ?_, hpassed _ _ _ _ _ horder hrun (by decide) (by decide)⟩
  refine (hsame _ ?_ _ ?_ (by decide)).2 (.inl (.linkFirst "p" "p" "x"))
  · rw [horder]
    exact List.mem_cons_self
  · rw [horder]
    exact List.mem_cons_of_mem _ List.mem_cons_self

/-- Two fields of a table whose ids are its own, and one expression: the single field is selected as a
missing value, although it has a unit and its field exists. -/
theorem record_passes_over :
    Sample.pickContext.catalog.OwnIds ∧ Sample.picks ∈ Sample.pickContext.catalog.tables ∧
      (Sample.pickContext.catalog.plan Sample.picks ["CONDITIONAL_x", "x"]).order =
        [.link "p" "CONDITIONAL_x", .conditional "p" "x"] ∧
      CteUnit.name (.link "p" "CONDITIONAL_x") = CteUnit.name (.conditional "p" "x") ∧
      (Sample.pickContext.record Sample.picks ["CONDITIONAL_x", "x"]).toOption.map
          (fun made => (made.1.cteNames, made.2.ctes, made.2.selection? "x")) =
        some (["CTE_CONDITIONAL_x"], [("CONDITIONAL_x", "CTE_CONDITIONAL_x")],
          some "NULL::jsonb") := by
  refine ⟨by decide, Sample.picks_mem, congrArg Plan.order Sample.picks_plan, by decide, ?_⟩
  unfold record addCtes
  rw [Sample.picks_plan]
  rfl

end BuildContext

end ComputedFields
