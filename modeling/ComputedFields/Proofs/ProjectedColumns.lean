/-
**The columns of a query.**

A query has one column for each entry of its projection.  That needs an argument: the fields that are no
formulas are selected in a first pass, the formulas in a second one, and the columns are added in a third,
which skips a field without a selection.  Every field of the projection is selected in one of the first two,
whatever its kind, so that no entry is skipped; and an id that stands in the projection twice gets the same
selection both times.

In the text of the query the columns are the list after the keyword, with one exception: a query without
columns lists an asterisk, which stands for all columns of its source.

Main definition:

* `ComputedFields.Sql.Query.Lists` — what stands between the keyword of a query and its source.

Main results:

* `ComputedFields.BuildContext.exists_columns_of_selectColumns` — the columns that are added;
* `ComputedFields.BuildContext.source_of_addUnits` — the expressions of a query leave its source as it is;
* `ComputedFields.BuildContext.record_columns` — **one column for each entry of the projection**.
-/

import ComputedFields.Proofs.CteScope

set_option relaxedAutoImplicit false
set_option autoImplicit false

namespace ComputedFields

open Sql

/-! ### Projections -/

/-- What stands beside the fields of a projection stands beside its ids. -/
theorem Table.forall₂_of_project {table : Table} {projection : List String} {fields : List Field}
    (h : table.project projection = .ok fields) {α : Type} {r : Field → α → Prop} {others : List α}
    (hothers : List.Forall₂ r fields others) :
    List.Forall₂ (fun id other => ∃ field, table.field? id = some field ∧ r field other)
      projection others := by
  rw [Table.project_eq_ok_iff] at h
  induction h generalizing others with
  | nil =>
      cases hothers
      exact .nil
  | cons hfield _ ih =>
      cases hothers with
      | cons hother hrest => exact .cons ⟨_, hfield, hother⟩ (ih hrest)

/-! ### Columns -/

namespace BuildContext

variable {ctx : BuildContext} {table : Table} {projection : List String} {b b' : Build}

/-- The column of a field holds its selection, and is named after the column of the field. -/
def IsColumnOf (state : QueryState) (field : Field) (column : Sql.Selected) : Prop :=
  column.name = field.column ∧ state.selection? field.id = some column.sql

/-- Fields that are all selected get one column each. -/
theorem exists_columns_of_selectColumns {state : QueryState} {fields : List Field}
    (h : ∀ field ∈ fields, ∃ sql, state.selection? field.id = some sql) (query : Query) :
    ∃ columns, (selectColumns state fields query).columns = query.columns ++ columns ∧
      (selectColumns state fields query).source = query.source ∧
      List.Forall₂ (IsColumnOf state) fields columns := by
  unfold selectColumns
  induction fields generalizing query with
  | nil => exact ⟨[], by simp, rfl, .nil⟩
  | cons field rest ih =>
      rw [List.forall_mem_cons] at h
      obtain ⟨sql, hsql⟩ := h.1
      rw [List.foldl_cons, hsql]
      obtain ⟨columns, hcolumns, hsource, hrest⟩ := ih h.2 (query.select sql field.column)
      refine ⟨⟨sql, field.column⟩ :: columns, ?_, hsource, .cons ⟨rfl, hsql⟩ hrest⟩
      rw [hcolumns, Query.select, List.append_assoc, List.singleton_append]

/-- Every field of a projection is selected: in the first stage, or as a formula in the second. -/
theorem Selected.exists_selection {carried state : QueryState}
    (h : ctx.Selected table projection carried state) {field : Field} (hfield : field ∈ table.fields)
    (hid : field.id ∈ projection) : ∃ sql, state.selection? field.id = some sql := by
  cases hformula : field.kind.isFormula with
  | false => exact ⟨_, h.plain field hfield hid hformula⟩
  | true =>
      obtain ⟨c, -, hsql⟩ := h.formula field hfield hid hformula
      exact ⟨c.sql, hsql⟩

/-! ### The source of a query -/

/-- Adding a unit leaves the source of the query as it is. -/
theorem source_of_addUnit {main : String} {unit : CteUnit}
    (h : (ctx.addUnit main unit).run b = (.ok (), b')) : b'.query.source = b.query.source := by
  rcases addUnit_ok h with ⟨rfl, -⟩ | ⟨body, -, -, ⟨-, hregister⟩ | ⟨-, rfl⟩⟩
  · rfl
  · rw [(registerAll_ok hregister).2.1]
    exact Query.source_pushCte ..
  · exact Query.source_pushCte ..

/-- The expressions of a query leave its source as it is. -/
theorem source_of_addUnits {main : String} {units : List CteUnit}
    (h : (ctx.addUnits main units).run b = (.ok (), b')) : b'.query.source = b.query.source := by
  induction units generalizing b with
  | nil =>
      cases h
      rfl
  | cons unit rest ih =>
      obtain ⟨_, mid, hunit, hrest⟩ := exists_of_run_bind h
      exact (ih hrest).trans (source_of_addUnit hunit)

/-! ### Finished queries -/

/-- Selecting changes nothing when a field of the projection is not in the table. -/
theorem select_of_project_error {e : CompileError} (h : table.project projection = .error e) (b : Build) :
    (ctx.select table projection).run b = (.error e, b) := by
  unfold select
  rw [h]
  rfl

/-- Once the expressions have been added, a projection that fails is how the query fails. -/
theorem record_of_project_error {e : CompileError}
    (hctes : (ctx.addCtes table projection).run
      { query := .ofTable table.name ctx.options.rowAlias } = (.ok (), b))
    (h : table.project projection = .error e) : ctx.record table projection = .error e := by
  unfold record step
  simp only [run_bind, hctes, select_of_project_error h]

/-- A finished query reads its table, and has a column for each entry of the projection. -/
theorem columns_of_record {query : Query} {state : QueryState}
    (h : ctx.record table projection = .ok (query, state)) :
    query.source = some ⟨table.name, ctx.options.rowAlias⟩ ∧
      List.Forall₂ (fun id column => ∃ field, table.field? id = some field ∧
        IsColumnOf state field column) projection query.columns := by
  obtain ⟨b, b', hextends, hctes, hselect, rfl, rfl⟩ := record_ok h
  obtain ⟨fields, -, hfields, -, -, hquery⟩ := select_ok hselect
  have hselected : ∀ field ∈ fields, ∃ sql, b'.state.selection? field.id = some sql := by
    intro field hfield
    obtain ⟨htable, hid⟩ := (Table.mem_of_project hfields).1 hfield
    exact (select_selected hselect).exists_selection htable hid
  obtain ⟨columns, hcolumns, hsource, hforall⟩ := exists_columns_of_selectColumns hselected b.query
  rw [← hquery] at hcolumns hsource
  rw [hextends.columns_eq] at hcolumns
  refine ⟨hsource.trans (source_of_addUnits hctes), ?_⟩
  rw [hcolumns]
  exact Table.forall₂_of_project hfields hforall

end BuildContext

namespace Sql.Query

/-- Between the keyword of a query and its source stand the given items. -/
def Lists (q : Query) (source : Source) (items : List String) : Prop :=
  q.render = withClause q.ctes ++ "SELECT " ++ ", ".intercalate items ++ fromClause source q.joined

/-- A query with columns lists them. -/
theorem lists_columns {q : Query} {source : Source} (hsource : q.source = some source)
    (h : q.columns ≠ []) : q.Lists source (q.columns.map Selected.render) := by
  unfold Lists render columnList
  rw [hsource, if_neg (by simpa using h)]

/-- A query without columns lists an asterisk. -/
theorem lists_asterisk {q : Query} {source : Source} (hsource : q.source = some source)
    (h : q.columns = []) : q.Lists source ["*"] := by
  unfold Lists render columnList
  rw [hsource, h]
  rfl

end Sql.Query

namespace BuildContext

/-- **One column for each entry of the projection.**  A finished query has them in the order of the
projection, each named after its field and equal to the selection of the field; its text lists them, or an
asterisk if there are none.  Where the expressions are added but an id of the projection is not in the table,
the first such id is the error. -/
theorem record_columns (ctx : BuildContext) (table : Table) (projection : List String) :
    (∀ query state, ctx.record table projection = .ok (query, state) →
      List.Forall₂ (fun id column => ∃ field, table.field? id = some field ∧
          column.name = field.column ∧ state.selection? field.id = some column.sql)
        projection query.columns ∧
      query.Lists ⟨table.name, ctx.options.rowAlias⟩
        (if projection = [] then ["*"] else query.columns.map Sql.Selected.render)) ∧
    ∀ b id, (ctx.addCtes table projection).run
          { query := .ofTable table.name ctx.options.rowAlias } = (.ok (), b) →
        projection.find? (fun id => (table.field? id).isNone) = some id →
      ctx.record table projection = .error (.fieldNotFound id) := by
  constructor
  · intro query state h
    obtain ⟨hsource, hcolumns⟩ := columns_of_record h
    refine ⟨hcolumns, ?_⟩
    split
    · next hempty =>
        rw [hempty, List.forall₂_nil_left_iff] at hcolumns
        exact Query.lists_asterisk hsource hcolumns
    · next hentries =>
        refine Query.lists_columns hsource fun hnone => hentries ?_
        rwa [hnone, List.forall₂_nil_right_iff] at hcolumns
  · intro b id hctes hid
    exact record_of_project_error hctes (Table.project_eq_error_iff.2 ⟨id, hid, rfl⟩)

end BuildContext

namespace Sample

/-- Letters with a name, the letter each replies to, and a heading made of both. -/
def letters : Table :=
  .ofFields "l" "letters"
    [.single "n" "name" .string .column, linkTo "r" "l" "n",
     .single "h" "heading" .string
       (.formula (.tree (some (.binary (.field "n") .concat (.field "r")))) false)]

def letterContext : BuildContext := ⟨.ofTables [letters], { now := ⟨0⟩ }, .postgres⟩

theorem plan_letters : letterContext.catalog.plan letters ["h", "n", "r", "h"] =
    ⟨[.link "l" "r"], false⟩ := by cbv

theorem plan_letters_missing : letterContext.catalog.plan letters ["n", "z", "h", "y"] =
    ⟨[.link "l" "r"], false⟩ := by cbv

theorem plan_letters_nil : letterContext.catalog.plan letters [] = ⟨[], false⟩ := by cbv

end Sample

namespace BuildContext

/-- The heading stands twice in the projection and reads two other fields of it; another projection has two
ids that are not in the table. -/
theorem record_columns_letters :
    (∃ query state, Sample.letterContext.record Sample.letters ["h", "n", "r", "h"] =
        .ok (query, state) ∧
      query.columns.map Sql.Selected.name = ["heading", "name", "r", "heading"] ∧
      List.Forall₂ (fun id column => ∃ field, Sample.letters.field? id = some field ∧
          column.name = field.column ∧ state.selection? field.id = some column.sql)
        ["h", "n", "r", "h"] query.columns ∧
      query.Lists ⟨"letters", "t"⟩ (query.columns.map Sql.Selected.render)) ∧
    Sample.letterContext.record Sample.letters ["n", "z", "h", "y"] =
      .error (.fieldNotFound "z") := by
  constructor
  · have hrecord : ∃ query state, Sample.letterContext.record Sample.letters ["h", "n", "r", "h"] =
        .ok (query, state) ∧
        query.columns.map Sql.Selected.name = ["heading", "name", "r", "heading"] := by
      unfold record addCtes
      rw [Sample.plan_letters]
      exact ⟨_, _, rfl, rfl⟩
    obtain ⟨query, state, h, hnames⟩ := hrecord
    exact ⟨query, state, h, hnames,
      (record_columns Sample.letterContext Sample.letters _).1 query state h⟩
  · have hctes : ∃ b, (Sample.letterContext.addCtes Sample.letters ["n", "z", "h", "y"]).run
        { query := .ofTable "letters" "t" } = (.ok (), b) := by
      unfold addCtes
      rw [Sample.plan_letters_missing]
      exact ⟨_, rfl⟩
    obtain ⟨b, hctes⟩ := hctes
    exact (record_columns Sample.letterContext Sample.letters _).2 b "z" hctes rfl

/-- A query of no fields lists one item all the same, and so not the columns that it has. -/
theorem record_lists_asterisk :
    ∃ query state, Sample.letterContext.record Sample.letters [] = .ok (query, state) ∧
      query.columns = [] ∧ query.render = "SELECT * FROM \"letters\" AS \"t\"" ∧
      ¬ query.Lists ⟨"letters", "t"⟩ (query.columns.map Sql.Selected.render) := by
  unfold record addCtes
  rw [Sample.plan_letters_nil]
  exact ⟨_, _, rfl, rfl, by decide, by unfold Query.Lists; decide⟩

end BuildContext

end ComputedFields
