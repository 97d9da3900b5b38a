/-
**What a projection selects.**

Selecting the fields of a projection comes last, when it is known which expressions carry fields.
The fields that are no formulas are selected first, then the formulas, which see those selections.
Here the outcome is described without the order of the steps: a field that is no formula is selected
as the registrations say, a formula as it compiles in the final state, and nothing else is selected.

Main definitions:

* `ComputedFields.BuildContext.formulas` — the context in which the formulas of a query are
  compiled;
* `ComputedFields.BuildContext.Selected` — what has been selected for a projection.

Main results:

* `ComputedFields.Table.project_eq_ok_iff`, `ComputedFields.Table.project_eq_error_iff` — what a projection
  gives, and how it fails;
* `ComputedFields.BuildContext.select_ok` — what a selection does when it succeeds;
* `ComputedFields.BuildContext.select_selected` — **what a projection selects**.
-/

import ComputedFields.Proofs.FormulaReads
import ComputedFields.Proofs.ReadCoverage
import ComputedFields.RecordQuery

set_option relaxedAutoImplicit false
set_option autoImplicit false

namespace ComputedFields

open Sql

/-! ### Projections -/

/-- A projection gives the field of each id. -/
theorem Table.project_eq_ok_iff {table : Table} {projection : List String} {fields : List Field} :
    table.project projection = .ok fields ↔
      List.Forall₂ (fun id field => table.field? id = some field) projection fields := by
  induction projection generalizing fields with
  | nil =>
      rw [Table.project, List.forall₂_nil_left_iff]
      exact ⟨fun h => (Except.ok.inj h).symm, fun h => by rw [h]⟩
  | cons id rest ih =>
      rw [Table.project]
      constructor
      · intro h
        cases hfield : table.field? id with
        | none =>
            rw [hfield] at h
            cases h
        | some field =>
            rw [hfield] at h
            obtain ⟨others, hothers, heq⟩ := exists_of_bind_eq_ok h
            cases heq
            exact .cons hfield (ih.1 hothers)
      · intro h
        cases h with
        | cons hfield hrest => rw [hfield, ih.2 hrest]; rfl

/-- A projection fails with the first id that is not in the table. -/
theorem Table.project_eq_error_iff {table : Table} {projection : List String} {e : CompileError} :
    table.project projection = .error e ↔
      ∃ id, projection.find? (fun id => (table.field? id).isNone) = some id ∧
        e = .fieldNotFound id := by
  induction projection with
  | nil => simp [Table.project]
  | cons id rest ih =>
      rw [Table.project]
      cases hfield : table.field? id with
      | none => simp [hfield, eq_comm]
      | some field =>
          rw [List.find?_cons_of_neg (by simp [hfield]), ← ih]
          cases table.project rest with
          | error e' => rfl
          | ok others => exact ⟨nofun, nofun⟩

/-- The fields of a projection are those of the table with the given ids. -/
theorem Table.project_ok {table : Table} {projection : List String} {fields : List Field}
    (h : table.project projection = .ok fields) :
    fields.map Field.id = projection ∧ ∀ field ∈ fields, field ∈ table.fields := by
  induction Table.project_eq_ok_iff.1 h with
  | nil => exact ⟨rfl, by simp⟩
  | cons hfield hrest ih =>
      obtain ⟨hids, hmem⟩ := ih (Table.project_eq_ok_iff.2 hrest)
      refine ⟨by rw [List.map_cons, hids, table.id_of_field? hfield], ?_⟩
      exact List.forall_mem_cons.2 ⟨table.mem_of_field? hfield, hmem⟩

theorem Table.mem_of_project {table : Table} {projection : List String} {fields : List Field}
    (h : table.project projection = .ok fields) {field : Field} :
    field ∈ fields ↔ field ∈ table.fields ∧ field.id ∈ projection := by
  obtain ⟨rfl, hmem⟩ := Table.project_ok h
  refine ⟨fun hfield => ⟨hmem field hfield, List.mem_map_of_mem hfield⟩, ?_⟩
  rintro ⟨hfield, hid⟩
  obtain ⟨other, hother, heq⟩ := List.mem_map.1 hid
  exact Table.eq_of_id_eq (hmem other hother) hfield heq ▸ hother

/-! ### Selections in a scope -/

namespace Scope

theorem selection?_setSelection_self (scope : Scope) (field sql : String) :
    (scope.setSelection field sql).selection? field = some sql := by
  cases hlayers : scope.layers <;> simp [setSelection, hlayers, selection?]

theorem selection?_setSelection_of_ne (scope : Scope) {field other : String} (sql : String)
    (h : field ≠ other) :
    (scope.setSelection field sql).selection? other = scope.selection? other := by
  cases hlayers : scope.layers with
  | nil => simp [setSelection, hlayers, selection?, Entries.get?_insert_of_ne _ _ h]
  | cons layer outer =>
      simp only [setSelection, hlayers, selection?, List.findSome?_cons,
        Entries.get?_insert_of_ne _ _ h]

theorem cteName?_setSelection (scope : Scope) (field sql other : String) :
    (scope.setSelection field sql).cteName? other = scope.cteName? other := by
  cases hlayers : scope.layers <;> simp [setSelection, hlayers, cteName?]

end Scope

/-! ### Selections in a state -/

namespace QueryState

/-- Selects several fields, one after the other. -/
def setSelections (s : QueryState) (selections : List (String × String)) : QueryState :=
  selections.foldl (fun s selection => s.setSelection selection.1 selection.2) s

@[simp] theorem selection?_scope (s : QueryState) (field : String) :
    s.scope.selection? field = s.selection? field := by
  simp only [scope, Scope.selection?, selection?, List.findSome?_cons, List.findSome?_nil]
  cases s.selections.get? field <;> rfl

@[simp] theorem cteName?_scope (s : QueryState) (field : String) :
    s.scope.cteName? field = s.cteName? field := rfl

/-- A field that is registered has an entry. -/
theorem mem_of_cteName? {s : QueryState} {field cte : String} (h : s.cteName? field = some cte) :
    (field, cte) ∈ s.ctes := by
  obtain ⟨entry, hentry, rfl⟩ := Option.map_eq_some_iff.1 h
  have hkey : entry.1 = field := Keyed.key_of_get? hentry
  subst hkey
  exact Keyed.mem_of_get? hentry

theorem ctes_setSelections (s : QueryState) (selections : List (String × String)) :
    (s.setSelections selections).ctes = s.ctes := by
  induction selections generalizing s with
  | nil => rfl
  | cons selection rest ih => exact ih _

theorem selection?_setSelections_of_notMem {s : QueryState} {selections : List (String × String)}
    {id : String} (h : id ∉ selections.map Prod.fst) :
    (s.setSelections selections).selection? id = s.selection? id := by
  induction selections generalizing s with
  | nil => rfl
  | cons selection rest ih =>
      rw [List.map_cons, List.mem_cons, not_or] at h
      refine (ih h.2).trans ?_
      exact Entries.get?_insert_of_ne _ _ (Ne.symm h.1)

/-- A field that is selected, always in the same way, is selected in that way. -/
theorem selection?_setSelections_of_mem {s : QueryState} {selections : List (String × String)}
    {id sql : String} (h : id ∈ selections.map Prod.fst)
    (hsql : ∀ selection ∈ selections, selection.1 = id → selection.2 = sql) :
    (s.setSelections selections).selection? id = some sql := by
  induction selections generalizing s with
  | nil => exact absurd h List.not_mem_nil
  | cons selection rest ih =>
      by_cases hrest : id ∈ rest.map Prod.fst
      · exact ih hrest fun other hother => hsql other (List.mem_cons_of_mem _ hother)
      · refine (selection?_setSelections_of_notMem hrest).trans ?_
        have hid : selection.1 = id := by
          rw [List.map_cons, List.mem_cons] at h
          exact (h.resolve_right hrest).symm
        rw [← hsql selection List.mem_cons_self hid, ← hid]
        exact Entries.get?_insert_self ..

end QueryState

namespace BuildContext

variable {ctx : BuildContext} {table : Table}

/-! ### Stages -/

/-- The context in which the formulas of a query are compiled. -/
def formulas (ctx : BuildContext) (table : Table) (state : QueryState) : Context :=
  ⟨table, ctx.options.target ctx.options.rowAlias, state.scope⟩

theorem plainSelection_congr {s s' : QueryState} (h : s'.ctes = s.ctes) (field : Field) :
    ctx.plainSelection s' field = ctx.plainSelection s field := by
  unfold plainSelection QueryState.cteName?
  rw [h]

/-- Fields that are no formulas are selected as the first state says. -/
theorem selectPlain_eq (state : QueryState) (fields : List Field) :
    ctx.selectPlain state fields =
      state.setSelections (fields.map fun field => (field.id, ctx.plainSelection state field)) := by
  have hfold : ∀ s : QueryState, s.ctes = state.ctes →
      fields.foldl (fun s field => s.setSelection field.id (ctx.plainSelection s field)) s =
        s.setSelections (fields.map fun field => (field.id, ctx.plainSelection state field)) := by
    induction fields with
    | nil => exact fun _ _ => rfl
    | cons field rest ih =>
        intro s hs
        rw [List.foldl_cons, plainSelection_congr hs]
        exact ih _ hs
  exact hfold state rfl

/-- Every formula is compiled, and selected as it compiles. -/
theorem formulaSelections_ok {state : QueryState} {fields : List Field}
    {selections : List (String × String)}
    (h : ctx.formulaSelections table state fields = .ok selections) :
    selections.map Prod.fst = fields.map Field.id ∧
      ∀ selection ∈ selections, ∃ c, (ctx.formulas table state).compileField selection.1 = .ok c ∧
        selection.2 = c.sql := by
  induction fields generalizing selections with
  | nil =>
      cases h
      exact ⟨rfl, by simp⟩
  | cons field rest ih =>
      unfold formulaSelections at h
      obtain ⟨c, hc, h⟩ := exists_of_bind_eq_ok h
      obtain ⟨others, hothers, heq⟩ := exists_of_bind_eq_ok h
      cases heq
      obtain ⟨hids, hmem⟩ := ih hothers
      refine ⟨by rw [List.map_cons, hids, List.map_cons], ?_⟩
      intro selection hselection
      rcases List.mem_cons.1 hselection with rfl | hselection
      · exact ⟨c, hc, rfl⟩
      · exact hmem selection hselection

/-- Every column is the selection of a field; expressions and joins are not changed. -/
theorem selectColumns_keeps (state : QueryState) (fields : List Field) (query : Query) :
    (selectColumns state fields query).ctes = query.ctes ∧
      (selectColumns state fields query).joined = query.joined ∧
      ∀ column ∈ (selectColumns state fields query).columns, column ∈ query.columns ∨
        ∃ field ∈ fields, column.name = field.column ∧
          state.selection? field.id = some column.sql := by
  unfold selectColumns
  induction fields generalizing query with
  | nil => exact ⟨rfl, rfl, fun column hcolumn => Or.inl hcolumn⟩
  | cons field rest ih =>
      rw [List.foldl_cons]
      split
      · next sql hsql =>
          obtain ⟨hctes, hjoined, hcolumns⟩ := ih (query.select sql field.column)
          refine ⟨hctes, hjoined, fun column hcolumn => ?_⟩
          rcases hcolumns column hcolumn with hold | ⟨other, hother, hrest⟩
          · refine (List.mem_append.1 hold).imp_right fun hnew => ?_
            rw [List.mem_singleton.1 hnew]
            exact ⟨field, List.mem_cons_self, rfl, hsql⟩
          · exact Or.inr ⟨other, List.mem_cons_of_mem _ hother, hrest⟩
      · obtain ⟨hctes, hjoined, hcolumns⟩ := ih query
        refine ⟨hctes, hjoined, fun column hcolumn => (hcolumns column hcolumn).imp_right ?_⟩
        rintro ⟨other, hother, hrest⟩
        exact ⟨other, List.mem_cons_of_mem _ hother, hrest⟩

/-- What a selection does when it succeeds. -/
theorem select_ok {projection : List String} {b b' : Build}
    (h : (ctx.select table projection).run b = (.ok (), b')) :
    ∃ fields selections, table.project projection = .ok fields ∧
      ctx.formulaSelections table
        (ctx.selectPlain b.state (fields.filter fun f => !f.kind.isFormula))
        (fields.filter fun f => f.kind.isFormula) = .ok selections ∧
      b'.state = (ctx.selectPlain b.state (fields.filter fun f => !f.kind.isFormula)).setSelections
        selections ∧
      b'.query = selectColumns b'.state fields b.query := by
  unfold select at h
  split at h
  · cases h
  · next fields hfields =>
      obtain ⟨_, _, hget, h⟩ := exists_of_run_bind h
      cases hget
      dsimp only at h
      obtain ⟨_, _, hset, h⟩ := exists_of_run_bind h
      cases hset
      split at h
      · cases h
      · next selections hselections =>
          cases h
          exact ⟨fields, selections, hfields, hselections, rfl, rfl⟩

/-! ### The outcome -/

/-- What has been selected for a projection, where `carried` says which expressions carry fields. -/
structure Selected (ctx : BuildContext) (table : Table) (projection : List String)
    (carried state : QueryState) : Prop where
  ctes_eq : state.ctes = carried.ctes
  plain : ∀ field ∈ table.fields, field.id ∈ projection → field.kind.isFormula = false →
    state.selection? field.id = some (ctx.plainSelection carried field)
  formula : ∀ field ∈ table.fields, field.id ∈ projection → field.kind.isFormula = true →
    ∃ c, (ctx.formulas table state).compileField field.id = .ok c ∧
      state.selection? field.id = some c.sql
  rest : ∀ id, id ∉ projection → state.selection? id = carried.selection? id

/-- A field is stored alike in states that select it alike and let the same expression carry it. -/
theorem stored_formulas_congr {s s' : QueryState} {field : Field} (hctes : s'.ctes = s.ctes)
    (hselection : s'.selection? field.id = s.selection? field.id) :
    (ctx.formulas table s').stored field = (ctx.formulas table s).stored field := by
  have hname : s'.cteName? field.id = s.cteName? field.id := by
    unfold QueryState.cteName?
    rw [hctes]
  simp only [Context.stored, Context.visible, formulas, QueryOptions.target,
    QueryState.selection?_scope, QueryState.cteName?_scope, hselection, hname]

section Stages

variable {projection : List String} {fields : List Field} {state : QueryState}

theorem selection?_selectPlain (hfields : table.project projection = .ok fields) {field : Field}
    (hfield : field ∈ table.fields) (hid : field.id ∈ projection)
    (hformula : field.kind.isFormula = false) :
    (ctx.selectPlain state (fields.filter fun f => !f.kind.isFormula)).selection? field.id =
      some (ctx.plainSelection state field) := by
  rw [selectPlain_eq]
  refine QueryState.selection?_setSelections_of_mem ?_ ?_
  · rw [List.map_map]
    refine List.mem_map.2 ⟨field, List.mem_filter.2 ⟨?_, by simp [hformula]⟩, rfl⟩
    exact (Table.mem_of_project hfields).2 ⟨hfield, hid⟩
  · intro selection hselection heq
    obtain ⟨other, hother, rfl⟩ := List.mem_map.1 hselection
    have hmem := ((Table.mem_of_project hfields).1 (List.mem_filter.1 hother).1).1
    rw [Table.eq_of_id_eq hmem hfield heq]

theorem selection?_selectPlain_of_notMem (hfields : table.project projection = .ok fields)
    {id : String} (hid : id ∉ projection) :
    (ctx.selectPlain state (fields.filter fun f => !f.kind.isFormula)).selection? id =
      state.selection? id := by
  rw [selectPlain_eq]
  refine QueryState.selection?_setSelections_of_notMem fun hmem => hid ?_
  rw [List.map_map] at hmem
  obtain ⟨field, hfield, rfl⟩ := List.mem_map.1 hmem
  exact ((Table.mem_of_project hfields).1 (List.mem_filter.1 hfield).1).2

/-- The formulas of a projection are selected in the second stage, and no other fields. -/
theorem mem_formulaSelections (hfields : table.project projection = .ok fields)
    {selections : List (String × String)}
    (h : ctx.formulaSelections table state (fields.filter fun f => f.kind.isFormula) =
      .ok selections) {field : Field} (hfield : field ∈ table.fields) :
    field.id ∈ selections.map Prod.fst ↔ field.id ∈ projection ∧ field.kind.isFormula = true := by
  rw [(formulaSelections_ok h).1]
  constructor
  · intro hid
    obtain ⟨other, hother, heq⟩ := List.mem_map.1 hid
    obtain ⟨hmem, hformula⟩ := List.mem_filter.1 hother
    obtain ⟨htable, hprojection⟩ := (Table.mem_of_project hfields).1 hmem
    obtain rfl := Table.eq_of_id_eq htable hfield heq
    exact ⟨hprojection, hformula⟩
  · rintro ⟨hid, hformula⟩
    refine List.mem_map_of_mem (List.mem_filter.2 ⟨?_, hformula⟩)
    exact (Table.mem_of_project hfields).2 ⟨hfield, hid⟩

end Stages

/-- **What a projection selects.** -/
theorem select_selected {projection : List String} {b b' : Build}
    (h : (ctx.select table projection).run b = (.ok (), b')) :
    ctx.Selected table projection b.state b'.state := by
  obtain ⟨fields, selections, hfields, hselections, hstate, _⟩ := select_ok h
  obtain ⟨hids, hcompiled⟩ := formulaSelections_ok hselections
  have hkeys := fun field => @mem_formulaSelections ctx table projection fields _ hfields _
    hselections field
  have hplain : ∀ field ∈ table.fields, field.kind.isFormula = false →
      b'.state.selection? field.id = (ctx.selectPlain b.state
        (fields.filter fun f => !f.kind.isFormula)).selection? field.id := by
    intro field hfield hformula
    rw [hstate]
    refine QueryState.selection?_setSelections_of_notMem fun hmem => ?_
    rw [((hkeys field hfield).1 hmem).2] at hformula
    cases hformula
  have hctes : b'.state.ctes = (ctx.selectPlain b.state
      (fields.filter fun f => !f.kind.isFormula)).ctes := by
    rw [hstate, QueryState.ctes_setSelections]
  refine ⟨?_, ?_, ?_, ?_⟩
  · rw [hctes, selectPlain_eq, QueryState.ctes_setSelections]
  · intro field hfield hid hformula
    rw [hplain field hfield hformula]
    exact selection?_selectPlain hfields hfield hid hformula
  · intro field hfield hid hformula
    have hmem := (hkeys field hfield).2 ⟨hid, hformula⟩
    obtain ⟨selection, hselection, heq⟩ := List.mem_map.1 hmem
    obtain ⟨c, hc, hsql⟩ := hcompiled selection hselection
    rw [heq] at hc
    -- what the formula reads is no formula, so the second stage does not select it anew
    refine ⟨c, Context.expand_congr hc fun leaf hleaf hread => ?_, ?_⟩
    · obtain ⟨found, hbehind, hfound⟩ := Context.behind_of_mem_reads hc hread
      have hmem := Table.mem_fields_of_mem_leafFields (Table.mem_leafFields_of_behind hbehind)
      obtain rfl := Table.eq_of_id_eq hmem hleaf hfound
      exact stored_formulas_congr hctes (hplain found hleaf hbehind.isFormula_eq_false)
    · rw [hstate]
      refine QueryState.selection?_setSelections_of_mem hmem fun other hother hid' => ?_
      obtain ⟨c', hc', hsql'⟩ := hcompiled other hother
      rw [hid', hc] at hc'
      cases hc'
      exact hsql'
  · intro id hid
    rw [hstate]
    refine (QueryState.selection?_setSelections_of_notMem fun hmem => hid ?_).trans
      (selection?_selectPlain_of_notMem hfields hid)
    rw [hids] at hmem
    obtain ⟨field, hfield, rfl⟩ := List.mem_map.1 hmem
    exact ((Table.mem_of_project hfields).1 (List.mem_filter.1 hfield).1).2

end BuildContext

end ComputedFields
