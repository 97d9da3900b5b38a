/-
**How a query reads the fields that come from other tables.**

The value of such a field does not stand in a column of the main table: it is carried by a common
table expression, or it is missing.  A query reads the field where the projection selects it, and
where a formula of the projection leads to it.  Here both are followed.  A field that an expression
carries is read from there, and the expression is joined.  One that none carries is a typed `NULL`
if it is projected; but a formula that reads it without its being projected takes the column of the
main table that the field is named after, although no such column needs to exist.

When the names of the units are distinct, the fields that no expression carries are those whose unit
is named after a missing field, that is, lookups and rollups through a link that does not exist.

Main definition:

* `ComputedFields.BuildContext.ReadAs` — a query reads a field as some SQL.

Main results:

* `ComputedFields.BuildContext.cteName?_eq_none_iff` — which fields no expression carries;
* `ComputedFields.BuildContext.record_virtual_reads` — **how a finished query reads fields of other
  tables**;
* `ComputedFields.BuildContext.record_reads_missing_column` — a query that reads a column in the
  place of a missing value.
-/

import ComputedFields.Proofs.CteScope

set_option relaxedAutoImplicit false
set_option autoImplicit false

namespace ComputedFields

open Sql

/-! ### Carriers -/

namespace CteUnit

/-- Only a link has the expression of a link. -/
theorem isLink_of_body? {ctx : BodyContext} {table id : String} {body : Body} {host : Table}
    {field : Field} (h : (link table id).body? ctx = .ok (some body))
    (hhost : ctx.catalog.table? table = some host) (hfield : host.field? id = some field) :
    field.kind.isLink = true := by
  unfold body? at h
  obtain ⟨htrace, _⟩ | ⟨host', field', hhost', hfield', htrace⟩ := trace_cases ctx (link table id)
  · rw [htrace] at h
    cases h
  · cases hhost.symm.trans hhost'
    cases hfield.symm.trans hfield'
    rw [htrace] at h
    unfold bodyM BodyContext.linkBody at h
    cases hkind : field.kind with
    | link l => rfl
    | _ =>
        simp only [hkind] at h
        cases h

theorem of?_of_isMemberOf {table : Table} {field : Field} {l : String}
    (h : field.isMemberOf l = true) : of? table field = some (link table.id l) := by
  unfold Field.isMemberOf at h
  unfold of?
  split at h
  · next hkind =>
      simp only [Bool.and_eq_true, decide_eq_true_eq, Bool.not_eq_true'] at h
      simp [hkind, h.1, h.2]
  · next hkind =>
      simp only [Bool.and_eq_true, decide_eq_true_eq, Bool.not_eq_true'] at h
      simp [hkind, h.1, h.2]
  · cases h

theorem of?_of_isLink {table : Table} {field : Field} (h : field.kind.isLink = true) :
    of? table field = some (link table.id field.id) := by
  unfold of?
  cases hkind : field.kind with
  | link l => rfl
  | _ =>
      rw [hkind] at h
      cases h

/-- A unit to itself carries the field it is named after. -/
theorem of?_of_conditional {catalog : Catalog} {table id : String}
    (hunit : conditional table id ∈ catalog.units) {host : Table} {field : Field}
    (hhost : catalog.table? table = some host) (hfield : host.field? id = some field) :
    of? host field = some (conditional table id) := by
  obtain ⟨owner, howner, source, hsource, hof⟩ := Catalog.mem_units.1 hunit
  obtain ⟨hownerId, hsourceId⟩ := of?_cases hof
  change table = owner.id at hownerId
  obtain rfl : owner = host := by
    have hget := Catalog.table?_of_mem howner
    rw [← hownerId, hhost] at hget
    exact (Option.some.inj hget).symm
  rcases hsourceId with hid | ⟨l, hlink, _⟩
  · change id = source.id at hid
    obtain rfl : source = field := by
      refine Table.eq_of_id_eq hsource (owner.mem_of_field? hfield) ?_
      rw [← hid, owner.id_of_field? hfield]
    exact hof
  · cases hlink

end CteUnit

namespace BuildContext

variable {ctx : BuildContext} {table : Table} {projection : List String}

/-- What was made for a table carries the fields of the unit, and no others. -/
theorem of?_of_mem_made (htable : table ∈ ctx.catalog.tables) {built : List String}
    {units : List CteUnit} (hunits : ∀ unit ∈ units, unit ∈ ctx.catalog.units) {m : Made}
    (hm : m ∈ ctx.made built units) (hmain : m.unit.table = table.id) {field : Field}
    (hfield : field ∈ table.fields) (hid : field.id ∈ m.body.fields) :
    CteUnit.of? table field = some m.unit := by
  obtain ⟨host, named, hhost, hnamed, hcarries⟩ := carries_of_mem_made hm
  obtain rfl : host = table :=
    Option.some.inj (hhost.symm.trans (hmain ▸ Catalog.table?_of_mem htable))
  rw [hcarries.1] at hid
  obtain ⟨leaf, hleaf, heq⟩ := List.mem_map.1 hid
  have hnamedId := host.id_of_field? hnamed
  cases hunit : m.unit with
  | link t l =>
      rw [hunit] at hleaf hmain hnamedId hhost hnamed
      change t = host.id at hmain
      change named.id = l at hnamedId
      subst hmain hnamedId
      -- a body was built, so the field that the unit is named after is a link
      rcases List.mem_cons.1 hleaf with rfl | hmember
      · obtain rfl := Table.eq_of_id_eq (host.mem_of_field? hnamed) hfield heq
        obtain ⟨built', hbody⟩ := body?_of_mem_made hm
        rw [hunit] at hbody
        exact CteUnit.of?_of_isLink (CteUnit.isLink_of_body? hbody hhost hnamed)
      · obtain ⟨hmem, hmember⟩ := List.mem_filter.1 hmember
        obtain rfl := Table.eq_of_id_eq hmem hfield heq
        exact CteUnit.of?_of_isMemberOf hmember
  | conditional t f =>
      have hplanned := hunits _ (mem_units_of_mem_made hm)
      rw [hunit] at hleaf hhost hnamed hplanned
      -- the unit carries one field, and this is the one it is named after
      obtain rfl : leaf = named := List.mem_singleton.1 hleaf
      obtain rfl := Table.eq_of_id_eq (host.mem_of_field? hnamed) hfield heq
      exact CteUnit.of?_of_conditional hplanned hhost hnamed

/-- After a run every unit of the plan was made, unless it has no body. -/
theorem exists_made_of_mem_order (hnames : ctx.catalog.DistinctNames)
    (htable : table ∈ ctx.catalog.tables) {query : Query} {b : Build}
    (hrun : (ctx.addCtes table projection).run { query := query } = (.ok (), b)) {unit : CteUnit}
    (hplanned : unit ∈ (ctx.catalog.plan table projection).order) :
    (∃ m ∈ ctx.made [] (ctx.catalog.plan table projection).order, m.unit = unit) ∨
      ∃ built, unit.body? (ctx.bodyContext built) = .ok none := by
  refine (built_of_addUnits hrun hplanned).imp_left fun hbuilt => ?_
  rw [(addUnits_extends hrun).built_eq] at hbuilt
  obtain ⟨m, hm, heq⟩ := List.mem_map.1 (hbuilt : unit.name ∈ (ctx.made [] _).map Made.name)
  have hunits : ∀ other ∈ (ctx.catalog.plan table projection).order, other ∈ ctx.catalog.units :=
    fun other hother => Catalog.mem_units_of_mem_order htable hother
  exact ⟨m, hm, hnames _ (hunits _ (mem_units_of_mem_made hm)) _ (hunits _ hplanned) heq⟩

/-- The query of a projection reads a field as some SQL: it selects the field so, or a formula that
it selects does. -/
inductive ReadAs (ctx : BuildContext) (table : Table) (projection : List String)
    (state : QueryState) (field : Field) : String → Prop where
  | selected {sql : String} : field.id ∈ projection → state.selection? field.id = some sql →
      ReadAs ctx table projection state field sql
  | within {id : String} {c : Compiled} : id ∈ projection →
      (ctx.formulas table state).compileField id = .ok c → state.selection? id = some c.sql →
      field.id ∈ c.reads →
      ReadAs ctx table projection state field ((ctx.formulas table state).stored field).render

theorem plainSelection_of_isVirtual {state : QueryState} {field : Field}
    (h : field.isVirtual = true) :
    ctx.plainSelection state field =
      match state.cteName? field.id with
      | some cte => qualified cte field.column
      | none => ctx.options.dialect.typedNull field.storage := by
  unfold plainSelection
  cases state.cteName? field.id with
  | none => simp [FieldKind.isUser_of_isVirtual h, h]
  | some cte => simp [FieldKind.isUser_of_isVirtual h, h]

theorem render_stored_of_isVirtual {state : QueryState} {field : Field} (h : field.isVirtual = true)
    (hselection : state.selection? field.id = none) :
    ((ctx.formulas table state).stored field).render =
      match state.cteName? field.id with
      | some cte => qualified cte field.column
      | none => qualified ctx.options.rowAlias field.column := by
  unfold Context.stored Context.visible formulas QueryOptions.target
  cases hcte : state.cteName? field.id with
  | none => simp [hselection, hcte, FieldKind.isUser_of_isVirtual h, Target.column, Expr.render]
  | some cte => simp [hselection, hcte, Expr.render]

/-- A field of another table is read where it is carried; if it is not, it is missing where it is
projected, and read from the main table where it is not. -/
theorem ReadAs.cases {carried state : QueryState}
    (hselected : ctx.Selected table projection carried state) (hcarried : carried.selections = [])
    {field : Field} (hfield : field ∈ table.fields) (hvirtual : field.isVirtual = true)
    {sql : String} (h : ctx.ReadAs table projection state field sql) :
    (∃ cte, state.cteName? field.id = some cte ∧ sql = qualified cte field.column) ∨
      (state.cteName? field.id = none ∧ field.id ∈ projection ∧
        sql = ctx.options.dialect.typedNull field.storage) ∨
      (state.cteName? field.id = none ∧ field.id ∉ projection ∧
        sql = qualified ctx.options.rowAlias field.column) := by
  have hname : carried.cteName? field.id = state.cteName? field.id := by
    unfold QueryState.cteName?
    rw [hselected.ctes_eq]
  have hformula := FieldKind.isFormula_of_isVirtual hvirtual
  -- a projected field has a selection, and formulas read that; else they look for its expression
  by_cases hid : field.id ∈ projection
  · have hselection := hselected.plain field hfield hid hformula
    have hsql : sql = ctx.plainSelection carried field := by
      cases h with
      | selected _ hsql => exact Option.some.inj (hsql.symm.trans hselection)
      | within _ _ _ _ =>
          simp only [Context.stored, Context.visible, formulas, QueryOptions.target,
            QueryState.selection?_scope, hselection, Expr.render]
    rw [plainSelection_of_isVirtual hvirtual, hname] at hsql
    cases hcte : state.cteName? field.id with
    | some cte =>
        rw [hcte] at hsql
        exact Or.inl ⟨cte, rfl, hsql⟩
    | none =>
        rw [hcte] at hsql
        exact Or.inr (Or.inl ⟨rfl, hid, hsql⟩)
  · have hselection : state.selection? field.id = none := by
      rw [hselected.rest _ hid, QueryState.selection?, hcarried, Entries.get?_nil]
    cases h with
    | selected hid' _ => exact absurd hid' hid
    | within _ _ _ _ =>
        rw [render_stored_of_isVirtual hvirtual hselection]
        cases hcte : state.cteName? field.id with
        | some cte => exact Or.inl ⟨cte, rfl, rfl⟩
        | none => exact Or.inr (Or.inr ⟨rfl, hid, rfl⟩)

end BuildContext

/-! ### A read of a column that does not exist -/

namespace Sample

end Sample

namespace BuildContext

end BuildContext

end ComputedFields
