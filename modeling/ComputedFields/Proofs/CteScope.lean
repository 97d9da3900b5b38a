/-
**A query with common table expressions is well scoped.**

The units of a plan are built one after the other.  A body may read an expression only if it exists
already, and only fields that the expression carries; whatever is joined or registered must exist
too.  Here the whole run is followed.  `ComputedFields.BuildContext.made` lists the expressions that
a run makes, each with the reads made for it; one step of the run adds what it says, hence the run
does (`ComputedFields.Build.Extends`).

Two main results follow.  In a plan without a circle no read comes before its expression: what is
missing is missing because the field that the unit is named after does not exist.  And in every
plan, with circles or not, reads and registrations lead to expressions that exist and carry the
field.

Main definitions:

* `ComputedFields.Catalog.DistinctNames` — units of the catalog are told apart by their names;
* `ComputedFields.Made`, `ComputedFields.BuildContext.made` — the expressions that a run makes;
* `ComputedFields.Build.Extends` — what a run adds to a query under construction.

Main results:

* `ComputedFields.BuildContext.addUnit_cases`, `ComputedFields.BuildContext.addUnits_extends` —
  what a step adds, and what a run adds;
* `ComputedFields.BuildContext.made_trace` — every body is made from the expressions before it;
* `ComputedFields.BuildContext.nested_reads_exist` — **requirements come first**;
* `ComputedFields.BuildContext.record_scoped` — **finished queries are well scoped**.
-/

import Mathlib.Data.List.Permutation
import ComputedFields.Proofs.BuildOrder
import ComputedFields.Proofs.Selection

set_option relaxedAutoImplicit false
set_option autoImplicit false

namespace ComputedFields

open Sql

/-! ### Units and their names -/

/-- Distinct units of the catalog have distinct names. -/
def Catalog.DistinctNames (catalog : Catalog) : Prop :=
  ∀ unit ∈ catalog.units, ∀ other ∈ catalog.units, unit.name = other.name → unit = other

instance (catalog : Catalog) : Decidable catalog.DistinctNames :=
  inferInstanceAs (Decidable (∀ unit ∈ catalog.units, ∀ other ∈ catalog.units,
    unit.name = other.name → unit = other))

/-- The plan of a table of the catalog holds units of the catalog. -/
theorem Catalog.mem_units_of_mem_order {catalog : Catalog} {table : Table}
    {projection : List String} (htable : table ∈ catalog.tables) {unit : CteUnit}
    (h : unit ∈ (catalog.plan table projection).order) : unit ∈ catalog.units := by
  have hleast := (catalog.leastClosed_graph table projection).least {unit | unit ∈ catalog.units}
  refine hleast ?_ ?_ unit (Catalog.mem_order_iff.1 h)
  · exact fun root hroot => Catalog.mem_units_of_mem_unitsNeeded htable hroot
  · exact fun unit _ required hrequired => Catalog.mem_units_of_mem_requirements hrequired

/-! ### What a run makes -/

/-- A common table expression that was made: its unit, its body, and the reads made for it. -/
structure Made where
  unit : CteUnit
  body : Body
  reads : List NestedRead

namespace Made

/-- The name of the expression. -/
def name (m : Made) : String := m.unit.name

/-- The expression in the query. -/
def cte (m : Made) : Cte := ⟨m.name, m.body.sql⟩

end Made

namespace BuildContext

variable {ctx : BuildContext} {main : String}

/-- The expressions that are made for units in order, when those of the given names exist.  A unit
whose name is known, or which has no body, is passed over; one that fails ends the run. -/
def made (ctx : BuildContext) (built : List String) : List CteUnit → List Made
  | [] => []
  | unit :: rest =>
      if unit.name ∈ built then ctx.made built rest
      else
        match unit.trace (ctx.bodyContext built) with
        | (.ok (some body), reads) => ⟨unit, body, reads⟩ :: ctx.made (built ++ [unit.name]) rest
        | (.ok none, _) => ctx.made built rest
        | (.error _, _) => []

theorem made_of_mem {built : List String} {unit : CteUnit} {rest : List CteUnit}
    (h : unit.name ∈ built) : ctx.made built (unit :: rest) = ctx.made built rest := by
  rw [made, if_pos h]

theorem made_of_none {built : List String} {unit : CteUnit} {rest : List CteUnit}
    (h : unit.body? (ctx.bodyContext built) = .ok none) :
    ctx.made built (unit :: rest) = ctx.made built rest := by
  rw [made]
  split
  · rfl
  · unfold CteUnit.body? at h
    split
    · next heq =>
        rw [heq] at h
        cases h
    · rfl
    · next heq =>
        rw [heq] at h
        cases h

theorem made_of_some {built : List String} {unit : CteUnit} {rest : List CteUnit} {body : Body}
    (hname : unit.name ∉ built) (h : unit.body? (ctx.bodyContext built) = .ok (some body)) :
    ctx.made built (unit :: rest) =
      ⟨unit, body, (unit.trace (ctx.bodyContext built)).2⟩ ::
        ctx.made (built ++ [unit.name]) rest := by
  rw [made, if_neg hname]
  unfold CteUnit.body? at h
  split
  · next heq =>
      rw [heq] at h ⊢
      cases h
      rfl
  · next heq =>
      rw [heq] at h
      cases h
  · next heq =>
      rw [heq] at h
      cases h

theorem mem_units_of_mem_made {built : List String} {units : List CteUnit} {m : Made}
    (h : m ∈ ctx.made built units) : m.unit ∈ units := by
  induction units generalizing built with
  | nil => simp [made] at h
  | cons unit rest ih =>
      rw [made] at h
      split at h
      · exact List.mem_cons_of_mem _ (ih h)
      · split at h
        · rcases List.mem_cons.1 h with rfl | h
          · exact List.mem_cons_self
          · exact List.mem_cons_of_mem _ (ih h)
        · exact List.mem_cons_of_mem _ (ih h)
        · exact absurd h List.not_mem_nil

/-- No name is given twice. -/
theorem nodup_made {built : List String} (units : List CteUnit) (h : built.Nodup) :
    (built ++ (ctx.made built units).map Made.name).Nodup := by
  induction units generalizing built with
  | nil => simpa [made] using h
  | cons unit rest ih =>
      rw [made]
      split
      · exact ih h
      · next hname =>
          split
          · have hnodup : (built ++ [unit.name]).Nodup := by
              rw [List.nodup_append]
              refine ⟨h, List.nodup_singleton _, ?_⟩
              rintro name hmem _ hmem' rfl
              exact hname (List.mem_singleton.1 hmem' ▸ hmem)
            simpa [Made.name] using ih hnodup
          · exact ih h
          · simpa using h

/-- Every body is made from the expressions before it. -/
theorem made_trace {built : List String} {units : List CteUnit} {before after : List Made}
    {m : Made} (h : ctx.made built units = before ++ m :: after) :
    m.unit.trace (ctx.bodyContext (built ++ before.map Made.name)) =
      (.ok (some m.body), m.reads) := by
  induction units generalizing built before with
  | nil => simp [made] at h
  | cons unit rest ih =>
      rw [made] at h
      split at h
      · exact ih h
      · split at h
        · next body reads htrace =>
            cases before with
            | nil =>
                obtain ⟨rfl, _⟩ := List.cons.inj h
                simpa using htrace
            | cons first before =>
                obtain ⟨rfl, hrest⟩ := List.cons.inj h
                simpa [Made.name] using ih hrest
        · exact ih h
        · simp at h

end BuildContext

/-! ### Registration -/

/-- What a registration does to the expressions that carry fields. -/
theorem QueryState.registerCte_ok {s s' : QueryState} {field cte : String}
    (h : s.registerCte field cte = .ok s') :
    s'.selections = s.selections ∧ s'.cteName? field = some cte ∧
      (∀ other, other ≠ field → s'.cteName? other = s.cteName? other) ∧
      (s.cteName? field = none ∨ s.cteName? field = some cte) ∧
      ∀ entry ∈ s'.ctes, entry ∈ s.ctes ∨ entry = (field, cte) := by
  unfold QueryState.registerCte at h
  cases hname : s.cteName? field with
  | some existing =>
      simp only [hname] at h
      split at h
      · next heq =>
          cases h
          subst heq
          exact ⟨rfl, hname, fun _ _ => rfl, Or.inr rfl, fun _ hentry => Or.inl hentry⟩
      · cases h
  | none =>
      simp only [hname] at h
      cases h
      refine ⟨rfl, Entries.get?_insert_self .., ?_, Or.inl rfl, ?_⟩
      · exact fun other hne => Entries.get?_insert_of_ne _ _ (Ne.symm hne)
      · exact fun entry hentry => Keyed.mem_of_mem_insert hentry

/-- Registering the fields of an expression: each is registered, none is lost, and no other is new.
-/
theorem registerAll_ok {cte : String} {fields : List String} {b b' : Build}
    (h : (registerAll cte fields).run b = (.ok (), b')) :
    b'.built = b.built ∧ b'.query = b.query ∧ b'.state.selections = b.state.selections ∧
      (∀ field ∈ fields, b'.state.cteName? field = some cte) ∧
      (∀ field name, b.state.cteName? field = some name → b'.state.cteName? field = some name) ∧
      ∀ entry ∈ b'.state.ctes, entry ∈ b.state.ctes ∨ entry.1 ∈ fields ∧ entry.2 = cte := by
  induction fields generalizing b with
  | nil =>
      cases h
      exact ⟨rfl, rfl, rfl, by simp, fun _ _ h => h, fun _ h => Or.inl h⟩
  | cons field rest ih =>
      unfold registerAll at h
      obtain ⟨_, _, hget, h⟩ := exists_of_run_bind h
      cases hget
      cases hregister : b.state.registerCte field cte with
      | error e =>
          simp only [hregister] at h
          cases h
      | ok state =>
          simp only [hregister] at h
          obtain ⟨_, _, hset, h⟩ := exists_of_run_bind h
          cases hset
          obtain ⟨hselections, hfield, hother, hbefore, hentries⟩ :=
            QueryState.registerCte_ok hregister
          obtain ⟨hbuilt, hquery, hselections', hrest, hkept, hentries'⟩ := ih h
          refine ⟨hbuilt, hquery, hselections'.trans hselections, ?_, ?_, ?_⟩
          · intro other hmem
            rcases List.mem_cons.1 hmem with rfl | hmem
            · exact hkept other cte hfield
            · exact hrest other hmem
          · intro other name hname
            refine hkept other name ?_
            by_cases heq : other = field
            · subst heq
              rcases hbefore with hnone | hsome
              · rw [hnone] at hname
                cases hname
              · rw [hsome] at hname
                cases hname
                exact hfield
            · exact (hother other heq).trans hname
          · intro entry hentry
            rcases hentries' entry hentry with hentry | ⟨hmem, hcte⟩
            · rcases hentries entry hentry with hentry | rfl
              · exact Or.inl hentry
              · exact Or.inr ⟨List.mem_cons_self, rfl⟩
            · exact Or.inr ⟨List.mem_cons_of_mem _ hmem, hcte⟩

/-! ### What a run adds -/

/-- Every expression of the query is known to exist. -/
def Build.Known (b : Build) : Prop := ∀ name ∈ b.query.cteNames, name ∈ b.built

/-- What is added when expressions are made: they come after those that exist; those of the main
table are joined, and the fields they carry are registered. -/
structure Build.Extends (main : String) (b : Build) (made : List Made) (b' : Build) : Prop where
  built_eq : b'.built = b.built ++ made.map Made.name
  ctes_eq : b.Known → b'.query.ctes = b.query.ctes ++ made.map Made.cte
  mem_joined : ∀ name, name ∈ b'.query.joined ↔
    name ∈ b.query.joined ∨ ∃ m ∈ made, m.unit.table = main ∧ m.name = name
  mem_ctes : ∀ entry ∈ b'.state.ctes, entry ∈ b.state.ctes ∨
    ∃ m ∈ made, m.unit.table = main ∧ m.name = entry.2 ∧ entry.1 ∈ m.body.fields
  registered : ∀ m ∈ made, m.unit.table = main →
    ∀ field ∈ m.body.fields, b'.state.cteName? field = some m.name
  kept : ∀ field name, b.state.cteName? field = some name → b'.state.cteName? field = some name
  selections_eq : b'.state.selections = b.state.selections
  columns_eq : b'.query.columns = b.query.columns

namespace Build.Extends

variable {main : String} {b b' b'' : Build} {made made' : List Made}

theorem refl (b : Build) : Extends main b [] b := by
  refine ⟨by simp, by simp, by simp, ?_, by simp, fun _ _ h => h, rfl, rfl⟩
  exact fun entry hentry => Or.inl hentry

theorem known (h : Extends main b made b') (hb : b.Known) : b'.Known := by
  intro name hname
  unfold Query.cteNames at hname
  rw [h.ctes_eq hb, List.map_append, List.map_map] at hname
  rw [h.built_eq]
  exact (List.mem_append.1 hname).elim (fun hold => List.mem_append_left _ (hb name hold))
    (List.mem_append_right _)

theorem trans (h : Extends main b made b') (h' : Extends main b' made' b'') :
    Extends main b (made ++ made') b'' := by
  refine ⟨?_, ?_, ?_, ?_, ?_, ?_, h'.selections_eq.trans h.selections_eq,
    h'.columns_eq.trans h.columns_eq⟩
  · rw [h'.built_eq, h.built_eq, List.map_append, List.append_assoc]
  · intro hb
    rw [h'.ctes_eq (h.known hb), h.ctes_eq hb, List.map_append, List.append_assoc]
  · intro name
    rw [h'.mem_joined, h.mem_joined, or_assoc]
    simp only [List.mem_append, or_and_right, exists_or]
  · intro entry hentry
    rcases h'.mem_ctes entry hentry with hentry | ⟨m, hm, hrest⟩
    · rcases h.mem_ctes entry hentry with hentry | ⟨m, hm, hrest⟩
      · exact Or.inl hentry
      · exact Or.inr ⟨m, List.mem_append_left _ hm, hrest⟩
    · exact Or.inr ⟨m, List.mem_append_right _ hm, hrest⟩
  · intro m hm htable field hfield
    rcases List.mem_append.1 hm with hm | hm
    · exact h'.kept field m.name (h.registered m hm htable field hfield)
    · exact h'.registered m hm htable field hfield
  · exact fun field name hname => h'.kept field name (h.kept field name hname)

/-- A new expression of another table. -/
theorem push (m : Made) (hname : m.name ∉ b.built) (htable : m.unit.table ≠ main) :
    Extends main b [m] (b.push m.name m.body.sql) := by
  refine ⟨?_, ?_, ?_, ?_, ?_, fun _ _ h => h, rfl, Query.columns_pushCte ..⟩
  · exact insertNew_of_notMem hname
  · exact fun hb => Query.ctes_pushCte fun hcte => hname (hb _ hcte)
  · intro name
    simp [Build.push, htable]
  · exact fun entry hentry => Or.inl hentry
  · intro m' hm' htable'
    rw [List.mem_singleton.1 hm'] at htable'
    exact absurd htable' htable

/-- A new expression of the main table, once its fields are registered. -/
theorem join (m : Made) (hname : m.name ∉ b.built) (htable : m.unit.table = main)
    (h : (registerAll m.name m.body.fields).run ((b.push m.name m.body.sql).join m.name) =
      (.ok (), b')) :
    Extends main b [m] b' := by
  obtain ⟨hbuilt, hquery, hselections, hregistered, hkept, hentries⟩ := registerAll_ok h
  refine ⟨?_, ?_, ?_, ?_, ?_, hkept, hselections, ?_⟩
  · rw [hbuilt]
    exact insertNew_of_notMem hname
  · intro hb
    rw [hquery]
    exact Query.ctes_pushCte fun hcte => hname (hb _ hcte)
  · intro name
    rw [hquery]
    simp [Build.join, Build.push, Query.joinCte, htable, eq_comm]
  · intro entry hentry
    refine (hentries entry hentry).imp_right fun hnew => ?_
    exact ⟨m, List.mem_singleton_self m, htable, hnew.2.symm, hnew.1⟩
  · intro m' hm' _
    rw [List.mem_singleton.1 hm']
    exact hregistered
  · rw [hquery]
    exact Query.columns_pushCte ..

end Build.Extends

namespace BuildContext

variable {ctx : BuildContext} {main : String}

/-- A step that succeeds passes its unit over, or adds its expression; that of the main table is joined
then, and its fields are registered. -/
theorem addUnit_ok {unit : CteUnit} {b b' : Build}
    (h : (ctx.addUnit main unit).run b = (.ok (), b')) :
    (b' = b ∧ (unit.name ∈ b.built ∨ unit.body? (ctx.bodyContext b.built) = .ok none)) ∨
      ∃ body, unit.name ∉ b.built ∧ unit.body? (ctx.bodyContext b.built) = .ok (some body) ∧
        ((unit.table = main ∧ (registerAll unit.name body.fields).run
            ((b.push unit.name body.sql).join unit.name) = (.ok (), b')) ∨
          (unit.table ≠ main ∧ b' = b.push unit.name body.sql)) := by
  unfold addUnit at h
  obtain ⟨_, _, hget, h⟩ := exists_of_run_bind h
  cases hget
  split at h
  · next hname =>
      cases h
      exact Or.inl ⟨rfl, Or.inl hname⟩
  · next hname =>
      split at h
      · cases h
      · next hbody =>
          cases h
          exact Or.inl ⟨rfl, Or.inr hbody⟩
      · next body hbody =>
          refine Or.inr ⟨body, hname, hbody, ?_⟩
          obtain ⟨_, _, hset, h⟩ := exists_of_run_bind h
          cases hset
          split at h
          · next htable =>
              obtain ⟨_, _, hmodify, h⟩ := exists_of_run_bind h
              cases hmodify
              exact Or.inl ⟨htable, h⟩
          · next htable =>
              cases h
              exact Or.inr ⟨htable, rfl⟩

/-- What a step does when it succeeds: the unit is passed over, or its expression is made. -/
theorem addUnit_cases {unit : CteUnit} {b b' : Build}
    (h : (ctx.addUnit main unit).run b = (.ok (), b')) :
    (b' = b ∧ (unit.name ∈ b.built ∨ unit.body? (ctx.bodyContext b.built) = .ok none)) ∨
      ∃ body, unit.name ∉ b.built ∧ unit.body? (ctx.bodyContext b.built) = .ok (some body) ∧
        Build.Extends main b [⟨unit, body, (unit.trace (ctx.bodyContext b.built)).2⟩] b' := by
  refine (addUnit_ok h).imp_right ?_
  rintro ⟨body, hname, hbody, ⟨htable, hregister⟩ | ⟨htable, rfl⟩⟩
  · exact ⟨body, hname, hbody, .join ⟨unit, body, _⟩ hname htable hregister⟩
  · exact ⟨body, hname, hbody, .push ⟨unit, body, _⟩ hname htable⟩

/-- **What a run adds.** -/
theorem addUnits_extends {units : List CteUnit} {b b' : Build}
    (h : (ctx.addUnits main units).run b = (.ok (), b')) :
    Build.Extends main b (ctx.made b.built units) b' := by
  induction units generalizing b with
  | nil =>
      cases h
      exact .refl _
  | cons unit rest ih =>
      obtain ⟨_, mid, hunit, hrest⟩ := exists_of_run_bind h
      rcases addUnit_cases hunit with ⟨heq, hname | hnone⟩ | ⟨body, hname, hbody, hextends⟩
      · rw [made_of_mem hname]
        exact ih (heq ▸ hrest)
      · rw [made_of_none hnone]
        exact ih (heq ▸ hrest)
      · -- later units see the new expression
        rw [made_of_some hname hbody]
        have hmid : mid.built = b.built ++ [unit.name] := hextends.built_eq
        exact hextends.trans (hmid ▸ ih hrest)

/-- After a run every unit exists, unless it has no body. -/
theorem built_of_addUnits {units : List CteUnit} {b b' : Build} {unit : CteUnit}
    (h : (ctx.addUnits main units).run b = (.ok (), b')) (hunit : unit ∈ units) :
    unit.name ∈ b'.built ∨ ∃ built, unit.body? (ctx.bodyContext built) = .ok none := by
  induction units generalizing b with
  | nil => exact absurd hunit List.not_mem_nil
  | cons first rest ih =>
      obtain ⟨_, mid, hfirst, hrest⟩ := exists_of_run_bind h
      rcases List.mem_cons.1 hunit with rfl | hunit
      · have hkept : unit.name ∈ mid.built → unit.name ∈ b'.built := by
          rw [(addUnits_extends hrest).built_eq]
          exact List.mem_append_left _
        rcases addUnit_cases hfirst with ⟨rfl, hname | hnone⟩ | ⟨body, _, _, hextends⟩
        · exact Or.inl (hkept hname)
        · exact Or.inr ⟨_, hnone⟩
        · refine Or.inl (hkept ?_)
          rw [hextends.built_eq]
          exact List.mem_append_right _ (List.mem_singleton_self _)
      · exact ih hrest hunit

end BuildContext

/-! ### A small database

Tasks have owners and helpers, and these have homes.  One field of people goes through a link that
does not exist, and another one needs itself: the rank of a person is the rank of their boss. -/

namespace Sample

/-- A link to one record of a table. -/
def linkTo (id foreignTable titleField : String) : Field :=
  .ofLink id id { relationship := .manyToOne, foreignTable, titleField }

/-- A lookup of a field of the linked record. -/
def lookupOf (id linkField foreignTable target : String) : Field :=
  .ofLookup id id .string false linkField { foreignTable, target }

def places : Table := .ofFields "places" "places" [.single "place" "place" .string .column]

def town : Field := lookupOf "town" "home" "places" "place"

def lost : Field := lookupOf "lost" "ghost" "places" "place"

def people : Table :=
  .ofFields "people" "people"
    [linkTo "home" "places" "place", town, lost, linkTo "boss" "people" "town",
     lookupOf "rank" "boss" "people" "rank",
     .single "label" "label" .string
       (.formula (.tree (some (.binary (.field "town") .concat (.field "lost")))) false)]

def tasks : Table :=
  .ofFields "tasks" "tasks"
    [linkTo "owner" "people" "town", lookupOf "city" "owner" "people" "lost",
     linkTo "helper" "people" "rank"]

def context : BuildContext := ⟨.ofTables [places, people, tasks], { now := ⟨0⟩ }, .postgres⟩

theorem tasks_mem : tasks ∈ context.catalog.tables :=
  Catalog.mem_of_table? (by rfl : context.catalog.table? "tasks" = some tasks)

/-- The units that the link of a task requires. -/
def ownerUnits : List CteUnit := [.link "people" "home", .link "people" "ghost"]

/-- The query of tasks, once these units have been added. -/
def afterOwners : Build :=
  ((context.addUnits tasks.id ownerUnits).run { query := .ofTable "tasks" "t" }).2

end Sample

/-! ### Reads in a plan without a circle -/

/-- A field that is carried elsewhere is read from the expression that is recorded. -/
theorem BodyContext.run_nested_of_cte_eq {ctx : BodyContext} {read : NestedRead}
    (h : read.cte = ctx.cteOf? read.row.table read.field) (log : List NestedRead) :
    (ctx.nested read.row read.field).run log =
      (.ok (read.cte.map fun name => read.row.fromCte name read.field), log ++ [read]) := by
  have hread : read = ⟨read.row, read.field, ctx.cteOf? read.row.table read.field⟩ := by rw [← h]
  rw [hread]
  rfl

namespace BuildContext

variable {ctx : BuildContext}

theorem cteOf?_eq_some {row : Table} {field : Field} {carrier : CteUnit} {built : List String}
    (hcarrier : CteUnit.of? row field = some carrier) (hname : carrier.name ∈ built) :
    (ctx.bodyContext built).cteOf? row field = some carrier.name := by
  simp [BodyContext.cteOf?, bodyContext, hcarrier, hname]

theorem cteOf?_eq_none {row : Table} {field : Field} {carrier : CteUnit} {built : List String}
    (hcarrier : CteUnit.of? row field = some carrier) (hname : carrier.name ∉ built) :
    (ctx.bodyContext built).cteOf? row field = none := by
  simp [BodyContext.cteOf?, bodyContext, hcarrier, hname]

/-- **Requirements come first.**  In a plan without a circle, whatever a body reads elsewhere is
found in an expression that was made before, unless that expression cannot be made at all because
its table has no field that it is named after.  What the body gets for a read is what was recorded of
it: the column of the expression that was found, or nothing. -/
theorem nested_reads_exist {table : Table} {projection : List String} {unit : CteUnit}
    {before after : List CteUnit} {start b : Build}
    (hnames : ctx.catalog.DistinctNames) (htable : table ∈ ctx.catalog.tables)
    (hacyclic : (ctx.catalog.plan table projection).cyclic = false)
    (horder : (ctx.catalog.plan table projection).order = before ++ unit :: after)
    (hrun : (ctx.addUnits table.id before).run start = (.ok (), b)) :
    ∀ read ∈ (unit.trace (ctx.bodyContext b.built)).2,
      (∀ log, ((ctx.bodyContext b.built).nested read.row read.field).run log =
          (.ok (read.cte.map fun name => read.row.fromCte name read.field), log ++ [read])) ∧
        ∃ carrier, CteUnit.of? read.row.table read.field = some carrier ∧
          ctx.catalog.table? carrier.table = some read.row.table ∧
          ((read.cte = some carrier.name ∧
              (carrier.name ∈ start.built ∨ ∃ m ∈ ctx.made start.built before, m.unit = carrier)) ∨
            (read.cte = none ∧ read.row.table.field? carrier.field = none)) := by
  intro read hread
  obtain ⟨carrier, hforesees⟩ := CteUnit.foresees_of_mem_trace hread
  have hbefore : carrier ∈ before :=
    Catalog.requirements_before hacyclic horder _ hforesees.required
  have hhost : ctx.catalog.table? carrier.table = some read.row.table := by
    rw [(CteUnit.of?_cases hforesees.carrier_eq).1]
    exact hforesees.table_eq
  refine ⟨BodyContext.run_nested_of_cte_eq hforesees.cte_eq, carrier, hforesees.carrier_eq, hhost, ?_⟩
  have hunits : ∀ other ∈ before, other ∈ ctx.catalog.units := by
    intro other hother
    have hmem : other ∈ (ctx.catalog.plan table projection).order := by
      rw [horder]
      exact List.mem_append_left _ hother
    exact Catalog.mem_units_of_mem_order htable hmem
  -- the carrier was passed: it exists now, unless it has no body
  by_cases hname : carrier.name ∈ b.built
  · refine Or.inl ⟨hforesees.cte_eq.trans (cteOf?_eq_some hforesees.carrier_eq hname), ?_⟩
    rw [(addUnits_extends hrun).built_eq] at hname
    refine (List.mem_append.1 hname).imp_right fun hmade => ?_
    obtain ⟨m, hm, heq⟩ := List.mem_map.1 hmade
    exact ⟨m, hm, hnames _ (hunits _ (mem_units_of_mem_made hm)) _ (hunits _ hbefore) heq⟩
  · refine Or.inr ⟨hforesees.cte_eq.trans (cteOf?_eq_none hforesees.carrier_eq hname), ?_⟩
    obtain ⟨built, hnone⟩ := (built_of_addUnits hrun hbefore).resolve_left hname
    exact CteUnit.field?_eq_none_of_body? hnone hhost

/-- A task reads the town of its owner, which exists, and a place that nothing leads to. -/
theorem nested_reads_exist_tasks :
    (((CteUnit.link "tasks" "owner").trace
          (Sample.context.bodyContext Sample.afterOwners.built)).2.map
        fun read => (read.field.id, read.cte)) = [("town", some "CTE_home"), ("lost", none)] ∧
      ∀ read ∈ ((CteUnit.link "tasks" "owner").trace
          (Sample.context.bodyContext Sample.afterOwners.built)).2,
        (∀ log, ((Sample.context.bodyContext Sample.afterOwners.built).nested read.row
              read.field).run log =
            (.ok (read.cte.map fun name => read.row.fromCte name read.field), log ++ [read])) ∧
          ∃ carrier, CteUnit.of? read.row.table read.field = some carrier ∧
            Sample.context.catalog.table? carrier.table = some read.row.table ∧
            ((read.cte = some carrier.name ∧
                (carrier.name ∈ [] ∨
                  ∃ m ∈ Sample.context.made [] Sample.ownerUnits, m.unit = carrier)) ∨
              (read.cte = none ∧ read.row.table.field? carrier.field = none)) := by
  have hplan : Sample.context.catalog.plan Sample.tasks ["city"] =
      ⟨Sample.ownerUnits ++ .link "tasks" "owner" :: [], false⟩ := by cbv
  have hrun : ((Sample.context.addUnits Sample.tasks.id Sample.ownerUnits).run
      { query := .ofTable "tasks" "t" }) = (.ok (), Sample.afterOwners) := Prod.ext (by rfl) rfl
  refine ⟨by decide +kernel, ?_⟩
  exact nested_reads_exist (by decide) Sample.tasks_mem (congrArg Plan.cyclic hplan)
    (congrArg Plan.order hplan) hrun

/-! ### Finished queries -/

/-- A query that is finished was built by adding the units of its plan and then selecting. -/
theorem record_ok {table : Table} {projection : List String} {query : Query} {state : QueryState}
    (h : ctx.record table projection = .ok (query, state)) :
    ∃ b b', Build.Extends table.id { query := .ofTable table.name ctx.options.rowAlias }
        (ctx.made [] (ctx.catalog.plan table projection).order) b ∧
      (ctx.addCtes table projection).run { query := .ofTable table.name ctx.options.rowAlias } =
        (.ok (), b) ∧
      (ctx.select table projection).run b = (.ok (), b') ∧ b'.query = query ∧ b'.state = state := by
  unfold record step at h
  dsimp only at h
  split at h
  · next b' hrun =>
      cases h
      obtain ⟨_, b, hadd, hselect⟩ := exists_of_run_bind hrun
      exact ⟨b, b', addUnits_extends hadd, hadd, hselect, rfl, rfl⟩
  · cases h

/-- A query with its state is well scoped, where the given expressions were made for it. -/
structure Scoped (ctx : BuildContext) (query : Query) (state : QueryState) (made : List Made) :
    Prop where
  /-- The expressions of the query are those that were made, in their order. -/
  ctes_eq : query.ctes = made.map Made.cte
  /-- No two expressions have the same name. -/
  nodup : query.cteNames.Nodup
  /-- Every body was built when those before it existed, and no others. -/
  trace_eq : ∀ before m after, made = before ++ m :: after →
    m.unit.trace (ctx.bodyContext (before.map Made.name)) = (.ok (some m.body), m.reads)
  /-- What a body reads elsewhere is carried by an expression before it. -/
  reads : ∀ before m after, made = before ++ m :: after →
    ∀ read ∈ m.reads, ∀ name, read.cte = some name →
      ∃ source ∈ before, source.name = name ∧
        ∃ host fields, source.body.Carries host fields ∧ read.field ∈ fields
  /-- Whatever is joined exists. -/
  joined : ∀ name ∈ query.joined, name ∈ query.cteNames
  /-- A registered field is carried by an expression that is joined. -/
  registered : ∀ entry ∈ state.ctes, entry.2 ∈ query.joined ∧
    ∃ m ∈ made, m.name = entry.2 ∧
      ∃ host fields, m.body.Carries host fields ∧ entry.1 ∈ fields.map Field.id

theorem body?_of_mem_made {built : List String} {units : List CteUnit} {m : Made}
    (h : m ∈ ctx.made built units) :
    ∃ built', m.unit.body? (ctx.bodyContext built') = .ok (some m.body) := by
  obtain ⟨before, after, hsplit⟩ := List.append_of_mem h
  exact ⟨built ++ before.map Made.name, congrArg Prod.fst (made_trace hsplit)⟩

/-- What was made carries the fields of its unit. -/
theorem carries_of_mem_made {built : List String} {units : List CteUnit} {m : Made}
    (h : m ∈ ctx.made built units) :
    ∃ host field, ctx.catalog.table? m.unit.table = some host ∧
      host.field? m.unit.field = some field ∧ m.body.Carries host (m.unit.carried host field) := by
  obtain ⟨built', hbody⟩ := body?_of_mem_made h
  exact CteUnit.carries_of_body? hbody

/-- A body that finds a field elsewhere finds it in an expression that carries it. -/
theorem carries_of_read (hnames : ctx.catalog.DistinctNames) {units : List CteUnit}
    (hunits : ∀ unit ∈ units, unit ∈ ctx.catalog.units) {before after : List Made} {m : Made}
    (hsplit : ctx.made [] units = before ++ m :: after) {read : NestedRead} (hread : read ∈ m.reads)
    {name : String} (hcte : read.cte = some name) :
    ∃ source ∈ before, source.name = name ∧
      ∃ host fields, source.body.Carries host fields ∧ read.field ∈ fields := by
  have htrace := made_trace hsplit
  have hread : read ∈ (m.unit.trace (ctx.bodyContext ([] ++ before.map Made.name))).2 := by
    rw [htrace]
    exact hread
  obtain ⟨carrier, hforesees⟩ := CteUnit.foresees_of_mem_trace hread
  -- the read succeeded, so the name of the carrier is that of an expression before this one
  have hname : carrier.name = name ∧ name ∈ before.map Made.name := by
    have hfound := hforesees.cte_eq.symm.trans hcte
    simpa [BodyContext.cteOf?, bodyContext, hforesees.carrier_eq, Option.filter_eq_some_iff,
      and_comm] using hfound
  obtain ⟨source, hsource, heq⟩ := List.mem_map.1 hname.2
  refine ⟨source, hsource, heq, ?_⟩
  have hmade : source ∈ ctx.made [] units := hsplit ▸ List.mem_append_left _ hsource
  obtain ⟨host, field, hhost, hfield, hcarries⟩ := carries_of_mem_made hmade
  have hunit : source.unit = carrier :=
    hnames _ (hunits _ (mem_units_of_mem_made hmade)) _
      (Catalog.mem_units_of_mem_requirements hforesees.required) (heq.trans hname.1.symm)
  rw [hunit] at hhost hfield hcarries
  have htable : read.row.table = host := by
    have hget := hforesees.table_eq
    rw [← (CteUnit.of?_cases hforesees.carrier_eq).1] at hget
    exact Option.some.inj (hget.symm.trans hhost)
  subst htable
  exact ⟨_, _, hcarries, CteUnit.mem_carried hforesees.carrier_eq hforesees.field_mem hfield⟩

/-- **Finished queries are well scoped**, also when their plan has a circle. -/
theorem record_scoped {table : Table} {projection : List String} {query : Query}
    {state : QueryState} (hnames : ctx.catalog.DistinctNames) (htable : table ∈ ctx.catalog.tables)
    (h : ctx.record table projection = .ok (query, state)) :
    ctx.Scoped query state (ctx.made [] (ctx.catalog.plan table projection).order) := by
  obtain ⟨b, b', hextends, _, hselect, rfl, rfl⟩ := record_ok h
  obtain ⟨fields, _, _, _, _, hquery⟩ := select_ok hselect
  have hctes : b'.query.ctes =
      (ctx.made [] (ctx.catalog.plan table projection).order).map Made.cte := by
    rw [hquery, (selectColumns_keeps ..).1]
    exact hextends.ctes_eq (by simp [Build.Known, Query.cteNames, Query.ofTable])
  have hcteNames : b'.query.cteNames =
      (ctx.made [] (ctx.catalog.plan table projection).order).map Made.name := by
    rw [Query.cteNames, hctes, List.map_map]
    rfl
  have hjoined : ∀ name, name ∈ b'.query.joined ↔
      ∃ m ∈ ctx.made [] (ctx.catalog.plan table projection).order,
        m.unit.table = table.id ∧ m.name = name := by
    intro name
    rw [hquery, (selectColumns_keeps ..).2.1, hextends.mem_joined]
    simp [Query.ofTable]
  refine ⟨hctes, ?_, ?_, ?_, ?_, ?_⟩
  · rw [hcteNames]
    exact nodup_made _ List.nodup_nil
  · intro before m after hsplit
    have htrace := made_trace hsplit
    rwa [List.nil_append] at htrace
  · intro before m after hsplit read hread name hcte
    exact carries_of_read hnames (fun unit hunit => Catalog.mem_units_of_mem_order htable hunit)
      hsplit hread hcte
  · intro name hname
    obtain ⟨m, hm, _, rfl⟩ := (hjoined name).1 hname
    rw [hcteNames]
    exact List.mem_map_of_mem hm
  · intro entry hentry
    rw [(select_selected hselect).ctes_eq] at hentry
    obtain ⟨m, hm, hmain, hname, hfield⟩ := (hextends.mem_ctes entry hentry).resolve_left (by simp)
    obtain ⟨host, field, _, _, hcarries⟩ := carries_of_mem_made hm
    refine ⟨(hjoined _).2 ⟨m, hm, hmain, hname⟩, m, hm, hname, host, _, hcarries, ?_⟩
    exact hcarries.1 ▸ hfield

/-- The query of two fields of tasks, one of which leads into a circle. -/
theorem record_scoped_tasks :
    ∃ query state, Sample.context.record Sample.tasks ["city", "helper"] = .ok (query, state) ∧
      query.cteNames = ["CTE_home", "CTE_owner", "CTE_boss", "CTE_helper"] ∧
      query.joined = ["CTE_owner", "CTE_helper"] ∧
      state.ctes = [("owner", "CTE_owner"), ("city", "CTE_owner"), ("helper", "CTE_helper")] ∧
      Sample.context.Scoped query state (Sample.context.made []
        (Sample.context.catalog.plan Sample.tasks ["city", "helper"]).order) := by
  have hplan : Sample.context.catalog.plan Sample.tasks ["city", "helper"] =
      ⟨[.link "people" "home", .link "people" "ghost", .link "tasks" "owner", .link "people" "boss",
        .link "tasks" "helper"], true⟩ := by cbv
  have hview : ((Sample.context.record Sample.tasks ["city", "helper"]).toOption.map
      fun made => (made.1.cteNames, made.1.joined, made.2.ctes)) =
        some (["CTE_home", "CTE_owner", "CTE_boss", "CTE_helper"], ["CTE_owner", "CTE_helper"],
          [("owner", "CTE_owner"), ("city", "CTE_owner"), ("helper", "CTE_helper")]) := by
    unfold record addCtes
    rw [hplan]
    decide +kernel
  cases hrecord : Sample.context.record Sample.tasks ["city", "helper"] with
  | error e =>
      rw [hrecord] at hview
      cases hview
  | ok made =>
      rw [hrecord] at hview
      obtain ⟨hnames, hrest⟩ := Prod.mk.inj (Option.some.inj hview)
      obtain ⟨hjoined, hctes⟩ := Prod.mk.inj hrest
      exact ⟨made.1, made.2, rfl, hnames, hjoined, hctes,
        record_scoped (by decide) Sample.tasks_mem hrecord⟩

end BuildContext

end ComputedFields
