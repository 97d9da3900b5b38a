/-
**The bodies of common table expressions are lexically closed.**

A body is put together from what its fields read: values, filters, orders and keys.  Whatever a link,
its junction table and its columns are called, the body is lexically closed as soon as these are.

Main definitions:

* `ComputedFields.Member.Sealed` — a lookup or rollup whose value and filter are lexically closed.

Main results:

* `ComputedFields.Link.sealed_body` — **the body of a link**;
* `ComputedFields.sealed_groupedBody`, `ComputedFields.sealed_subqueryBody` — **the two forms of the body
  of a single field**.
-/

import ComputedFields.Cte.ConditionalBody
import ComputedFields.Proofs.QueryText

set_option relaxedAutoImplicit false
set_option autoImplicit false

namespace ComputedFields

open Sql (Sealed ident qualified)

variable {x : String}

/-! ### Columns of a record -/

theorem Row.sealed_column (row : Row) (field : Field) : Sealed (row.column field) := .qualified _ _

theorem Row.sealed_fromCte (row : Row) (cte : String) (field : Field) :
    Sealed (row.fromCte cte field) := by
  unfold Row.fromCte
  split
  · exact .qualified _ _
  · exact .template [.text _, .hole, .text _, .hole, .text _, .hole, .text _, .hole, .text _]
      [_, _, _, _] (by decide) (by simp)

theorem NestedRead.sealed_joinClause (reads : List NestedRead) :
    Sealed (NestedRead.joinClause reads) :=
  Sql.Query.sealed_joinClauses _ _

/-! ### Heads of bodies -/

theorem sealed_namedColumns {columns : List String} (h : ∀ column ∈ columns, Sealed column)
    (fields : List Field) : Sealed (namedColumns columns fields) := by
  induction columns generalizing fields with
  | nil => exact .empty
  | cons sql columns ih =>
      cases fields with
      | nil => exact .empty
      | cons field fields =>
          rw [List.forall_mem_cons] at h
          have hfirst : Sealed (", " ++ sql ++ " AS " ++ ident field.column) :=
            .template [.text _, .hole, .text _, .hole] [sql, _] (by decide) (by simpa using h.1)
          rw [namedColumns, List.zipWith_cons_cons, String.join_cons]
          exact hfirst.append (ih h.2 fields)

theorem sealed_bodyHead (host : Table) {columns : List String} (h : ∀ column ∈ columns, Sealed column)
    (fields : List Field) : Sealed (bodyHead host columns fields) :=
  .template [.text _, .hole, .text _, .hole, .hole, .text _, .hole] [_, _, _, _] (by decide)
    (by simpa using sealed_namedColumns h fields)

theorem BodyContext.sealed_degraded (ctx : BodyContext) (host : Table) (fields : List Field) :
    Sealed (ctx.degraded host fields).sql :=
  sealed_bodyHead host (List.forall_mem_map.2 fun _ _ => Dialect.sealed_typedNull _ _) fields

/-! ### Linked rows -/

namespace Link

variable (link : Link) (foreign : Table)

theorem sealed_hostJoins : Sealed (link.hostJoins foreign) := by
  unfold hostJoins
  dsimp only
  split
  · exact .template [.text _, .hole, .text _, .hole, .text _, .hole, .text _, .hole, .text _, .hole,
      .text _, .hole] [_, _, _, _, _, _] (by decide) (by simp)
  · exact .template [.text _, .hole, .text _, .hole, .text _, .hole] [_, _, _] (by decide) (by simp)
  · exact .template [.text _, .hole, .text _, .hole, .text _, .hole] [_, _, _] (by decide) (by simp)

theorem sealed_correlated :
    Sealed (link.correlated foreign).1 ∧ Sealed (link.correlated foreign).2 := by
  unfold correlated
  dsimp only
  split
  · exact ⟨.template [.hole, .text _, .hole, .text _, .hole, .text _, .hole] [_, _, _, _] (by decide)
      (by simp), sealed_equation (.qualified _ _) sealed_hostId⟩
  · exact ⟨sealed_aliased _ _, sealed_equation sealed_foreignId (.qualified _ _)⟩
  · exact ⟨sealed_aliased _ _, sealed_equation (.qualified _ _) sealed_hostId⟩

theorem sealed_order : Sealed link.order := by
  have hafter : ∀ position, Sealed position →
      Sealed (position ++ " ASC NULLS FIRST, " ++ foreignId ++ " ASC") := fun position h =>
    .template [.hole, .text _, .hole, .text _] [position, _] (by decide) (by simpa using h)
  unfold order
  dsimp only
  split
  · exact hafter _ (.qualified _ _)
  · exact hafter _ (.qualified _ _)
  · exact hafter _ (.qualified _ _)
  · exact .template [.hole, .text _] [_] (by decide) (by simp)

end Link

theorem sealed_titleText (d : Dialect) (field : Field) (hx : Sealed x) :
    Sealed (titleText d field x) := by
  unfold titleText
  split
  · exact d.sealed_linkTitle _ hx
  · split
    · exact d.sealed_linkTitle _ hx
    · split
      · split
        · exact d.sealed_formatNumberArray _ hx
        · exact d.sealed_formatNumber _ hx
      · split
        · exact hx
        · exact d.sealed_textCast hx

/-! ### Members of a link -/

theorem RollupFunction.sealed_input (d : Dialect) (f : RollupFunction) (target : Option Field)
    (hx : Sealed x) : Sealed (f.input d target x) := by
  unfold RollupFunction.input
  split
  · exact d.sealed_coerceNumeric hx
  · exact hx

/-- The value and the filter of the member are lexically closed. -/
structure Member.Sealed (m : Member) : Prop where
  value : Sql.Sealed m.value
  filter : ∀ f ∈ m.filter, Sql.Sealed f

/-- The rows of a link are lexically closed if what they are made of is. -/
theorem sealed_linkedRows {source correlation order : String} (hsource : Sealed source)
    (hcorrelation : Sealed correlation) (horder : Sealed order) (hx : Sealed x)
    {filter : Option String} (hfilter : ∀ f ∈ filter, Sealed f) :
    (linkedRows source correlation order x filter).Sealed where
  value := hx
  source := hsource
  conditions := List.forall_mem_cons.2 ⟨hcorrelation, sealed_parenthesized hfilter⟩
  order := horder
  keys := by simp [linkedRows]

namespace Member

variable {m : Member} (d : Dialect)

theorem sealed_column {make : Member → String} (h : Sql.Sealed (make m)) :
    Sql.Sealed (m.column d make) := by
  unfold column
  split
  · exact d.sealed_typedNull _
  · exact h

theorem sealed_single (h : m.Sealed) : Sql.Sealed (m.single d) := by
  have hinput : Aggregate.Sealed
      { value := m.value, rowId := foreignId, filter := m.filter, multi := m.targetMulti } :=
    ⟨h.value, sealed_foreignId, by simp, h.filter⟩
  unfold single
  dsimp only
  split
  · exact Aggregate.sealed_overOne d _ hinput
  · exact Aggregate.sealed_filteredValue hinput

theorem sealed_grouped {order : String} (horder : Sql.Sealed order) (h : m.Sealed) :
    Sql.Sealed (m.grouped d order) := by
  have horder : ∀ o ∈ some order, Sql.Sealed o := by simpa using horder
  unfold grouped
  split
  · next f _ =>
      exact f.sealed_orIdentity d _ (Aggregate.sealed_overRows d f
        ⟨f.sealed_input d _ h.value, sealed_foreignId, horder, h.filter⟩)
  · have hvalues := d.sealed_jsonAggregate h.value horder h.filter
    dsimp only
    split
    · exact d.sealed_flattenArray hvalues
    · exact hvalues

theorem sealed_correlated {rowsOf : String → Option String → Rows} (h : m.Sealed)
    (hrows : ∀ value filter, Sql.Sealed value → (∀ f ∈ filter, Sql.Sealed f) →
      (rowsOf value filter).Sealed) : Sql.Sealed (m.correlated d rowsOf) := by
  unfold correlated
  split
  · next f _ =>
      have hrows := hrows _ _ (f.sealed_input d m.target h.value) h.filter
      refine Rows.sealed_subquery hrows (f.sealed_orIdentity d _ (Aggregate.sealed_overRows d f ?_))
      exact ⟨Rows.sealed_outerValue _ d _, .qualified _ _, by simp, by simp⟩
  · have hrows := hrows _ _ h.value h.filter
    refine Rows.sealed_subquery ⟨hrows.value, hrows.source, hrows.conditions, hrows.order,
      hrows.keys⟩ ?_
    exact d.sealed_jsonAggregate (Rows.sealed_outerValue _ d _) (by simp) (by simp)

end Member

/-- **The body of a link is lexically closed**, if its members and the object of a linked record are. -/
theorem Link.sealed_body (link : Link) (d : Dialect) (host foreign : Table) {joins object : String}
    (hjoins : Sealed joins) (hobject : Sealed object) {members : List Member}
    (hmembers : ∀ m ∈ members, m.Sealed) (fields : List Field) :
    Sealed (link.body d host foreign joins object members fields) := by
  have hhead : ∀ first make, Sealed first → (∀ m ∈ members, Sealed (make m)) →
      Sealed (bodyHead host (first :: members.map (Member.column d make)) fields) := by
    intro first make hfirst hmake
    refine sealed_bodyHead host (List.forall_mem_cons.2 ⟨hfirst, ?_⟩) fields
    exact List.forall_mem_map.2 fun m hm => Member.sealed_column d (hmake m hm)
  have horder := link.sealed_order
  have hhost := link.sealed_hostJoins foreign
  unfold Link.body
  split
  · have hone : Sealed ("CASE WHEN " ++ foreignId ++ " IS NULL THEN NULL ELSE " ++ object ++ " END") :=
      .template [.text _, .hole, .text _, .hole, .text _] [_, object] (by decide)
        (by simpa using hobject)
    exact ((hhead _ _ hone fun m hm => Member.sealed_single d (hmembers m hm)).append hhost).append
      hjoins
  · split
    · have hlinked : Sealed (foreignId ++ " IS NOT NULL") :=
        .template [.hole, .text _] [_] (by decide) (by simp)
      have hobjects : Sealed (d.jsonAggregate object (some link.order) (some _)) :=
        d.sealed_jsonAggregate hobject (by simpa using horder) (by simpa using hlinked)
      have hcolumns := hhead _ _ hobjects fun m hm => Member.sealed_grouped d horder (hmembers m hm)
      exact .template [.hole, .hole, .hole, .text _, .hole] [_, _, _, _] (by decide)
        (by simpa using ⟨hcolumns, hhost, hjoins⟩)
    · obtain ⟨hsource, hcorrelation⟩ := link.sealed_correlated foreign
      have hrows : ∀ value filter, Sealed value → (∀ f ∈ filter, Sealed f) →
          (linkedRows ((link.correlated foreign).1 ++ joins) (link.correlated foreign).2 link.order
            value filter).Sealed := fun value filter hvalue hfilter =>
        sealed_linkedRows (hsource.append hjoins) hcorrelation horder hvalue hfilter
      -- the linked records themselves are read like the value of a member without a filter
      refine hhead _ _ ?_ fun m hm => Member.sealed_correlated d (hmembers m hm) hrows
      exact Rows.sealed_subquery (hrows object none hobject (by simp))
        (d.sealed_jsonAggregate (Rows.sealed_outerValue _ d _) (by simp) (by simp))

/-! ### Single fields -/

namespace Condensation

variable (c : Condensation) (d : Dialect)

theorem sealed_aggregate (rows : Rows) : Sealed (c.aggregate d rows) := by
  have hvalue := rows.sealed_outerValue d c.targetJson
  have horder : ∀ o ∈ (if d.ordersAggregates then some (qualified Alias.rows "o") else none),
      Sealed o := by
    intro o ho
    split at ho
    · cases ho
      exact .qualified _ _
    · cases ho
  unfold aggregate
  dsimp only
  split
  · exact Aggregate.sealed_overRows d _ ⟨hvalue, .qualified _ _, horder, by simp⟩
  · have hvalues : Sealed (d.jsonAggregate _ _ none) :=
      d.sealed_jsonAggregate hvalue horder (by simp)
    split
    · exact d.sealed_flattenArray hvalues
    · exact hvalues

theorem sealed_orIdentity (hx : Sealed x) : Sealed (c.orIdentity d x) := by
  unfold orIdentity
  split
  · next f _ => exact f.sealed_orIdentity d _ hx
  · exact hx

end Condensation

/-- **The body that joins groups of rows is lexically closed**, if the rows and the keys are. -/
theorem sealed_groupedBody (d : Dialect) (host : Table) (field : Field) (c : Condensation)
    {rows : Rows} (hrows : rows.Sealed) {hostKeys : List String}
    (hkeys : ∀ key ∈ hostKeys, Sealed key) :
    Sealed (groupedBody d host field c rows hostKeys).sql := by
  have hcolumns : Sealed (", ".intercalate ((List.range hostKeys.length).map fun i =>
      qualified Alias.rows (keyColumn i))) :=
    .intercalate (.const (by decide)) (List.forall_mem_map.2 fun _ _ => .qualified _ _)
  have hgroups : Sealed ("SELECT " ++ _ ++ ", " ++ c.aggregate d rows ++ " AS \"v\" FROM " ++
      rows.asTable ++ " GROUP BY " ++ _) :=
    .template [.text _, .hole, .text _, .hole, .text _, .hole, .text _, .hole] [_, _, _, _]
      (by decide) (by simpa using ⟨hcolumns, c.sealed_aggregate d rows, Rows.sealed_asTable hrows,
        hcolumns⟩)
  -- a group is joined on all keys, each against a value of the host
  have hconditions : ∀ condition ∈ hostKeys.mapIdx fun i key =>
      qualified Alias.groups (keyColumn i) ++ " = " ++ key, Sealed condition := by
    intro condition hcondition
    obtain ⟨i, hi, rfl⟩ := List.mem_mapIdx.1 hcondition
    exact sealed_equation (.qualified _ _) (hkeys _ (List.getElem_mem hi))
  have hhead : Sealed (bodyHead host [c.orIdentity d (qualified Alias.groups "v")] [field]) :=
    sealed_bodyHead host (by simpa using c.sealed_orIdentity d (.qualified _ _)) [field]
  have hjoined : Sealed (" AND ".intercalate _) := .intercalate (.const (by decide)) hconditions
  exact .template [.hole, .text _, .hole, .text _, .hole, .text _, .hole] [_, _, _, _] (by decide)
    (by simpa using ⟨hhead, hgroups, hjoined⟩)

/-- **The body that reads rows in a subquery is lexically closed**, if the rows are. -/
theorem sealed_subqueryBody (d : Dialect) (host : Table) (field : Field) (c : Condensation)
    {rows : Rows} (hrows : rows.Sealed) : Sealed (subqueryBody d host field c rows).sql := by
  have hvalue := Rows.sealed_subquery hrows (c.sealed_orIdentity d (c.sealed_aggregate d rows))
  exact sealed_bodyHead host (by simpa using hvalue) [field]

end ComputedFields
