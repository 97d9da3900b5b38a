/-
**No field is registered twice.**

When an expression of the main table is made, the fields that it carries are registered with it, and it
is an error if one of them is registered with another expression.  This error does not occur.  Each field
that comes from another table belongs to one unit, which the field alone decides on, and the body of a
unit carries fields of this unit only.  So along the run over a plan, with circles or with units that
share a name, a registered field is registered with the expression of its own unit, and a step that
registers it again does so under the same name.

Nothing else in the construction of a query could report such an error, since neither bodies nor formulas
know what is registered.

Main definition:

* `ComputedFields.Build.Registers` — every registered field is registered with the expression of its unit.

Main results:

* `ComputedFields.BuildContext.addUnit_answer_of_registers` — **a step fails only if its body does**;
* `ComputedFields.BuildContext.addUnits_registers` — what a run keeps, and how it fails;
* `ComputedFields.BuildContext.record_conflict_free` — **no query fails because of a field that is
  registered twice**.
-/

import ComputedFields.Proofs.Lockstep
import ComputedFields.Proofs.VirtualReads

set_option relaxedAutoImplicit false
set_option autoImplicit false

namespace ComputedFields

open Sql

/-! ### Registering fields -/

/-- Fields that are not registered with another expression can be registered. -/
theorem exists_registerAll {cte : String} {fields : List String} {b : Build}
    (h : ∀ field ∈ fields, ∀ name, b.state.cteName? field = some name → name = cte) :
    ∃ b', (registerAll cte fields).run b = (.ok (), b') := by
  induction fields generalizing b with
  | nil => exact ⟨b, rfl⟩
  | cons field rest ih =>
      rw [List.forall_mem_cons] at h
      obtain ⟨state, hstate⟩ : ∃ state, b.state.registerCte field cte = .ok state := by
        unfold QueryState.registerCte
        split
        · next existing hname => exact ⟨_, if_pos (h.1 existing hname)⟩
        · exact ⟨_, rfl⟩
      obtain ⟨_, hfield, hother, _, _⟩ := QueryState.registerCte_ok hstate
      obtain ⟨b', hrest⟩ := ih (b := { b with state }) fun other hmem name hname => by
        by_cases heq : other = field
        · subst heq
          exact Option.some.inj (hname.symm.trans hfield)
        · exact h.2 other hmem name ((hother other heq).symm.trans hname)
      refine ⟨b', ?_⟩
      have hget : (get : BuildM Build).run b = (.ok b, b) := rfl
      have hset : (set { b with state } : BuildM PUnit).run b = (.ok (), { b with state }) := rfl
      unfold registerAll
      simp only [run_bind, hget, hstate, hset]
      exact hrest

/-- Every field that is registered is a field of the table, with the expression of its unit. -/
def Build.Registers (table : Table) (b : Build) : Prop :=
  ∀ entry ∈ b.state.ctes, ∃ field ∈ table.fields, field.id = entry.1 ∧
    ∃ unit, CteUnit.of? table field = some unit ∧ unit.name = entry.2

theorem Build.registers_start (table : Table) (query : Query) :
    Build.Registers table { query } := by
  intro entry hentry
  cases hentry

theorem CteUnit.mem_fields_of_mem_carried {unit : CteUnit} {host : Table} {field leaf : Field}
    (hfield : field ∈ host.fields) (h : leaf ∈ unit.carried host field) : leaf ∈ host.fields := by
  cases unit with
  | link table id =>
      rcases List.mem_cons.1 h with rfl | hmember
      · exact hfield
      · exact (List.mem_filter.1 hmember).1
  | conditional table id => exact List.mem_singleton.1 h ▸ hfield

/-! ### Steps -/

namespace BuildContext

variable {ctx : BuildContext} {table : Table} {unit : CteUnit} {b b' : Build}

/-- The body of a unit carries fields of its table, and each of them belongs to the unit. -/
theorem of?_of_mem_fields (htable : table ∈ ctx.catalog.tables) (hunit : unit ∈ ctx.catalog.units)
    (hmain : unit.table = table.id) {built : List String} (hname : unit.name ∉ built) {body : Body}
    (hbody : unit.body? (ctx.bodyContext built) = .ok (some body)) {id : String}
    (hid : id ∈ body.fields) :
    ∃ field ∈ table.fields, field.id = id ∧ CteUnit.of? table field = some unit := by
  have hm : ⟨unit, body, (unit.trace (ctx.bodyContext built)).2⟩ ∈ ctx.made built [unit] := by
    rw [made_of_some hname hbody]
    exact List.mem_cons_self
  obtain ⟨host, named, hhost, hnamed, hcarries⟩ := carries_of_mem_made hm
  obtain rfl : host = table :=
    Option.some.inj (hhost.symm.trans (hmain ▸ Catalog.table?_of_mem htable))
  have hfields := hid
  rw [hcarries.1] at hfields
  obtain ⟨field, hcarried, rfl⟩ := List.mem_map.1 hfields
  have hfield := CteUnit.mem_fields_of_mem_carried (host.mem_of_field? hnamed) hcarried
  exact ⟨field, hfield, rfl, of?_of_mem_made htable (by simpa using hunit) hm hmain hfield hid⟩

/-- A step registers fields with the expression of their unit. -/
theorem registers_of_addUnit (htable : table ∈ ctx.catalog.tables) (hunit : unit ∈ ctx.catalog.units)
    (hb : b.Registers table) (h : (ctx.addUnit table.id unit).run b = (.ok (), b')) :
    b'.Registers table := by
  rcases addUnit_cases h with ⟨rfl, _⟩ | ⟨body, hname, hbody, hextends⟩
  · exact hb
  · intro entry hentry
    rcases hextends.mem_ctes entry hentry with hold | ⟨m, hm, hmain, hcte, hid⟩
    · exact hb entry hold
    · rw [List.mem_singleton.1 hm] at hmain hcte hid
      obtain ⟨field, hfield, heq, hof⟩ := of?_of_mem_fields htable hunit hmain hname hbody hid
      exact ⟨field, hfield, heq, unit, hof, hcte⟩

/-- What the body of a unit carries is free: where it is registered already, it is so under the name of
the unit. -/
theorem name_eq_of_registers (htable : table ∈ ctx.catalog.tables) (hunit : unit ∈ ctx.catalog.units)
    (hb : b.Registers table) (hmain : unit.table = table.id) (hname : unit.name ∉ b.built)
    {body : Body} (hbody : unit.body? (ctx.bodyContext b.built) = .ok (some body)) {id : String}
    (hid : id ∈ body.fields) {name : String} (hregistered : b.state.cteName? id = some name) :
    name = unit.name := by
  obtain ⟨field, hfield, heq, hof⟩ := of?_of_mem_fields htable hunit hmain hname hbody hid
  obtain ⟨other, hother, hotherId, carrier, hcarrier, rfl⟩ :=
    hb _ (QueryState.mem_of_cteName? hregistered)
  obtain rfl := Table.eq_of_id_eq hother hfield (hotherId.trans heq.symm)
  rw [Option.some.inj (hcarrier.symm.trans hof)]

/-- **A step fails only if its body does**, and then nothing has changed. -/
theorem addUnit_answer_of_registers (htable : table ∈ ctx.catalog.tables)
    (hunit : unit ∈ ctx.catalog.units) (hb : b.Registers table) :
    (∃ b', (ctx.addUnit table.id unit).run b = (.ok (), b')) ∨
      ∃ e, unit.body? (ctx.bodyContext b.built) = .error e ∧
        (ctx.addUnit table.id unit).run b = (.error e, b) := by
  have hget : (get : BuildM Build).run b = (.ok b, b) := rfl
  unfold addUnit
  simp only [run_bind, hget]
  by_cases hname : unit.name ∈ b.built
  · rw [if_pos hname]
    exact Or.inl ⟨b, rfl⟩
  rw [if_neg hname]
  cases hbody : unit.body? (ctx.bodyContext b.built) with
  | error e => exact Or.inr ⟨e, rfl, rfl⟩
  | ok body =>
      refine Or.inl ?_
      cases body with
      | none => exact ⟨b, rfl⟩
      | some body =>
          by_cases hmain : unit.table = table.id
          · have hfree : ∀ id ∈ body.fields, ∀ name,
                ((b.push unit.name body.sql).join unit.name).state.cteName? id = some name →
                  name = unit.name := by
              intro id hid name hregistered
              exact name_eq_of_registers htable hunit hb hmain hname hbody hid hregistered
            obtain ⟨b', hregister⟩ := exists_registerAll hfree
            refine ⟨b', ?_⟩
            simp only [if_pos hmain]
            exact hregister
          · refine ⟨b.push unit.name body.sql, ?_⟩
            simp only [if_neg hmain]
            rfl

/-! ### Runs -/

/-- **What a run keeps, and how it fails**: fields are registered with the expressions of their units at
the end, also of a run that fails, and it does not fail because of one that is registered twice. -/
theorem addUnits_registers (htable : table ∈ ctx.catalog.tables) {units : List CteUnit}
    (hunits : ∀ unit ∈ units, unit ∈ ctx.catalog.units) (hb : b.Registers table) :
    FailsOnly (fun e => e.isConflict = false) ((ctx.addUnits table.id units).run b).1 ∧
      (((ctx.addUnits table.id units).run b).2).Registers table := by
  induction units generalizing b with
  | nil => exact ⟨.ok (), hb⟩
  | cons unit rest ih =>
      rw [List.forall_mem_cons] at hunits
      rw [addUnits, run_bind]
      rcases addUnit_answer_of_registers htable hunits.1 hb with ⟨mid, hstep⟩ | ⟨e, hbody, hstep⟩
      · rw [hstep]
        exact ih hunits.2 (registers_of_addUnit htable hunits.1 hb hstep)
      · rw [hstep]
        exact ⟨.error (CteUnit.body?_failsOnly_isConflict _ unit e hbody), hb⟩

/-! ### Selections -/

theorem project_failsOnly (table : Table) (projection : List String) :
    FailsOnly (fun e => e.isConflict = false) (table.project projection) := by
  induction projection with
  | nil => exact .ok []
  | cons id rest ih =>
      unfold Table.project
      split
      · exact .error rfl
      · exact ih.bind fun others _ => .ok _

theorem formulaSelections_failsOnly (state : QueryState) (fields : List Field) :
    FailsOnly (fun e => e.isConflict = false) (ctx.formulaSelections table state fields) := by
  induction fields with
  | nil => exact .ok []
  | cons field rest ih =>
      refine FailsOnly.bind (Context.expand_failsOnly_isConflict _ _ _ _) fun c _ => ?_
      exact ih.bind fun others _ => .ok _

/-- Selecting does not look at whether a field could be registered. -/
theorem select_failsOnly (projection : List String) (b : Build) :
    FailsOnly (fun e => e.isConflict = false) ((ctx.select table projection).run b).1 := by
  have hget : (get : BuildM Build).run b = (.ok b, b) := rfl
  have hset (b' : Build) : (set b' : BuildM PUnit).run b = (.ok (), b') := rfl
  unfold select
  cases hfields : table.project projection with
  | error e => exact .error (project_failsOnly table projection e hfields)
  | ok fields =>
      simp only [run_bind, hget, hset]
      cases hselections : ctx.formulaSelections table
          (ctx.selectPlain b.state (fields.filter fun f => !f.kind.isFormula))
          (fields.filter fun f => f.kind.isFormula) with
      | error e => exact .error (formulaSelections_failsOnly _ _ e hselections)
      | ok selections => exact .ok _

/-! ### Queries -/

/-- The error of a query comes from the run over its plan, or from selecting after it. -/
theorem record_failsOnly (htable : table ∈ ctx.catalog.tables) (projection : List String) :
    FailsOnly (fun e => e.isConflict = false) (ctx.record table projection) := by
  have hstart := Build.registers_start table (.ofTable table.name ctx.options.rowAlias)
  have hunits : ∀ unit ∈ (ctx.catalog.plan table projection).order, unit ∈ ctx.catalog.units :=
    fun unit hunit => Catalog.mem_units_of_mem_order htable hunit
  have hfails := (addUnits_registers htable hunits hstart).1
  unfold record step addCtes
  simp only [run_bind]
  rcases hrun : (ctx.addUnits table.id (ctx.catalog.plan table projection).order).run
    { query := .ofTable table.name ctx.options.rowAlias } with ⟨result, b⟩
  rw [hrun] at hfails
  cases result with
  | error e => exact .error (hfails e rfl)
  | ok _ =>
      have hselect := @select_failsOnly ctx table projection b
      rcases hanswer : (ctx.select table projection).run b with ⟨answer, b'⟩
      rw [hanswer] at hselect
      simp only [hanswer]
      cases answer with
      | error e => exact .error (hselect e rfl)
      | ok _ => exact .ok _

/-- **No query fails because of a field that is registered twice.**  Fields may have the same ids in
different tables, units may share their names and read each other in circles: at no time during the run
over the plan is a field of the main table registered with an expression other than that of its unit. -/
theorem record_conflict_free (htable : table ∈ ctx.catalog.tables) (projection : List String) :
    (∀ field existing requested,
        ctx.record table projection ≠ .error (.cteConflict field existing requested)) ∧
      ∀ before, before <+: (ctx.catalog.plan table projection).order →
        (((ctx.addUnits table.id before).run
          { query := .ofTable table.name ctx.options.rowAlias }).2).Registers table := by
  constructor
  · intro field existing requested hrecord
    cases record_failsOnly htable projection _ hrecord
  · intro before hbefore
    have hunits : ∀ unit ∈ before, unit ∈ ctx.catalog.units := fun unit hunit =>
      Catalog.mem_units_of_mem_order htable (hbefore.subset hunit)
    exact (addUnits_registers htable hunits (Build.registers_start table _)).2

/-- People, who are linked to each other in a circle: two units of the table are made for one query, and a
third one cannot be. -/
theorem record_conflict_free_people :
    (Sample.context.record Sample.people ["rank", "town", "lost"]).toOption.map
        (fun made => made.2.ctes) =
      some [("home", "CTE_home"), ("town", "CTE_home"), ("boss", "CTE_boss"), ("rank", "CTE_boss")] ∧
      (∀ field existing requested, Sample.context.record Sample.people ["rank", "town", "lost"] ≠
        .error (.cteConflict field existing requested)) ∧
      ∀ before, before <+: (Sample.context.catalog.plan Sample.people ["rank", "town", "lost"]).order →
        (((Sample.context.addUnits Sample.people.id before).run
          { query := .ofTable "people" "t" }).2).Registers Sample.people := by
  have hpeople : Sample.people ∈ Sample.context.catalog.tables :=
    Catalog.mem_of_table? (by rfl : Sample.context.catalog.table? "people" = some Sample.people)
  have hplan : Sample.context.catalog.plan Sample.people ["rank", "town", "lost"] =
      ⟨[.link "people" "home", .link "people" "boss", .link "people" "ghost"], true⟩ := by cbv
  refine ⟨?_, record_conflict_free hpeople ["rank", "town", "lost"]⟩
  unfold record addCtes
  rw [hplan]
  rfl

end BuildContext

end ComputedFields
