/-
**What limits count.**

A field can ask for the first rows only.  Then each host record reads its rows in a subquery, and the query of
the rows carries the limit.  Where aggregates can be ordered, the query has a row for each record that the
field chooses, and the arrays of those records are joined afterwards: the limit counts records.  So it does
for rollups, and for targets with single values.  A lookup of arrays where aggregates cannot be ordered takes
the arrays apart in the same query: there the limit counts the elements of arrays, and a record with many of
them leaves no room for the next.

Main definitions:

* `ComputedFields.RowTarget` — where the rows of a field come from, and what it reads of each;
* `ComputedFields.BodyContext.rowTarget?` — the target of a field, if nothing on the way is missing;
* `ComputedFields.RowTarget.rows` — the rows that a host record reads in a subquery.

Main results:

* `ComputedFields.BodyContext.conditionalBody_cases` — the body of a field is made from its target;
* `ComputedFields.CteUnit.bodyM_limited` — **a limit counts records unless arrays are taken apart**, and
  where they are.
-/

import ComputedFields.Proofs.NumericRollups

set_option relaxedAutoImplicit false
set_option autoImplicit false

namespace ComputedFields

open Sql

/-! ### Rows with a limit -/

/-- The query of limited rows ends with the limit. -/
theorem Rows.exists_select_of_limit {rows : Rows} {n : Nat} (h : rows.limit = some n) :
    ∃ columns, rows.select = "SELECT " ++ columns ++ rows.fromClause ++ rows.whereClause ++
      rows.orderClause ++ " LIMIT " ++ toString n := by
  refine ⟨rows.valueColumns ++ rows.numberColumn ++ keyColumns 0 rows.keys, ?_⟩
  simp only [select, limitClause, h, String.append_assoc]

/-- Rows with a limit are not grouped. -/
theorem RowChoice.groupPairs?_of_limit {choice : RowChoice} {n : Nat}
    (h : choice.related.limit = some n) : choice.groupPairs? = none := by
  simp [groupPairs?, h]

/-- A field with a limit has a unit to itself. -/
theorem CteUnit.eq_conditional_of_limit {table : Table} {field : Field} {unit : CteUnit}
    {choice : RowChoice} {n : Nat} (hunit : of? table field = some unit)
    (hchoice : field.rowChoice? = some choice) (hlimit : choice.related.limit = some n) :
    unit = .conditional table.id field.id := by
  have hordered : choice.related.isOrdered = true := by simp [Related.isOrdered, hlimit]
  unfold of? at hunit
  unfold Field.rowChoice? at hchoice
  split at hchoice
  · next hkind =>
      cases hchoice
      rw [hkind] at hunit
      exact (Option.some.inj ((if_pos hordered).symm.trans hunit)).symm
  · next hkind =>
      cases hchoice
      rw [hkind] at hunit
      exact (Option.some.inj ((if_pos hordered).symm.trans hunit)).symm
  · next hkind =>
      rw [hkind] at hunit
      exact (Option.some.inj hunit).symm
  · next hkind =>
      rw [hkind] at hunit
      exact (Option.some.inj hunit).symm
  all_goals cases hchoice

/-! ### Targets -/

/-- Where the rows of a field come from, and what the field reads of each. -/
structure RowTarget where
  foreign : Table
  link : Option Link
  sql : String
  field : Field

namespace RowTarget

/-- The records: those that the link leads to, or all of the table. -/
def records (t : RowTarget) : String :=
  ((t.link.map fun l => l.correlated t.foreign).map Prod.fst).getD
    (aliased t.foreign.name Alias.foreign)

/-- What a rollup reads of each row, or a lookup. -/
def value (t : RowTarget) (d : Dialect) (rollup : Option RollupFunction) : String :=
  match rollup with
  | some f => f.input d (some t.field) t.sql
  | none => t.sql

def condensation (t : RowTarget) (rollup : Option RollupFunction) (storage : StorageType) :
    Condensation :=
  ⟨rollup, t.field.multi, t.field.storage = .json, storage⟩

/-- The rows that a host record reads in a subquery. -/
def rows (t : RowTarget) (d : Dialect) (rollup : Option RollupFunction) (limit : Option Nat)
    (filter : Option String) (order joins : String) : Rows where
  value := t.value d rollup
  source := t.records ++ joins
  conditions := ((t.link.map fun l => l.correlated t.foreign).map Prod.snd).toList ++
    (filter.map fun f => "(" ++ f ++ ")").toList
  order := order
  limit := limit
  flatten := rollup.isNone && t.field.multi && !d.ordersAggregates
  numbered := d.ordersAggregates

variable {t : RowTarget} {d : Dialect} {rollup : Option RollupFunction} {limit : Option Nat}
  {filter : Option String} {order joins : String}

/-- The rows are the records unless a lookup takes arrays apart. -/
theorem fromClause_rows (h : ¬ (rollup = none ∧ t.field.multi = true ∧ d = .sqlite)) :
    (t.rows d rollup limit filter order joins).fromClause = " FROM " ++ t.records ++ joins := by
  have hflatten : (rollup.isNone && t.field.multi && !d.ordersAggregates) = false := by
    cases rollup with
    | some f => rfl
    | none =>
        cases d with
        | postgres => simp [Dialect.ordersAggregates]
        | sqlite => simpa [Dialect.ordersAggregates] using h
  simp [Rows.fromClause, rows, hflatten, String.append_assoc]

/-- A lookup of arrays where aggregates cannot be ordered has a row for each element. -/
theorem fromClause_rows_of_arrays (hmulti : t.field.multi = true) :
    (t.rows .sqlite none limit filter order joins).fromClause =
      " FROM " ++ t.records ++ joins ++ ", json_each(" ++ t.sql ++ ") AS \"e\"" := by
  have helement : ident Alias.element = "\"e\"" := by decide
  simp [Rows.fromClause, rows, value, Dialect.ordersAggregates, hmulti, helement, String.append_assoc]

/-- Where aggregates can be ordered, the arrays of a lookup are joined after the rows are read. -/
theorem aggregate_rows_of_arrays {storage : StorageType} (hmulti : t.field.multi = true) :
    (t.condensation none storage).aggregate .postgres (t.rows .postgres none limit filter order joins) =
      Dialect.postgres.flattenArray
        (Dialect.postgres.jsonAggregate "\"s\".\"v\"" (some "\"s\".\"o\"") none) := by
  have hvalue : qualified Alias.rows "v" = "\"s\".\"v\"" := by decide
  have hnumber : qualified Alias.rows "o" = "\"s\".\"o\"" := by decide
  simp [Condensation.aggregate, condensation, rows, Rows.outerValue, Dialect.ordersAggregates,
    Dialect.jsonValue, hmulti, hvalue, hnumber]

end RowTarget

namespace BodyContext

variable {ctx : BodyContext} {host : Table} {field : Field} {choice : RowChoice} {body : Body}
  {reads after : List NestedRead} {n : Nat}

/-- The target of the rows of a field; nothing when the table, the link or the field that it names is
missing. -/
def rowTarget? (ctx : BodyContext) (host : Table) (choice : RowChoice) : Option RowTarget :=
  (ctx.catalog.table? choice.related.foreignTable).bind fun foreign =>
    (choice.link? host).bind fun link =>
      (ctx.found ⟨.foreign, foreign⟩ choice.related.target).map fun v => ⟨foreign, link, v.1, v.2⟩

/-- What is returned for the value of a field is what is found of it. -/
theorem found_of_run_value {row : Row} {id : String} {v : Option (String × Field)}
    (h : (ctx.value row id).run reads = (.ok v, after)) : ctx.found row id = v := by
  obtain ⟨-, -, -, hfound⟩ := ctx.value_meets_found row id reads
  exact (hfound v (congrArg Prod.fst h)).symm

/-- **The body of a field is made from its target**: without one the field is missing, and with one the rows
are condensed. -/
theorem conditionalBody_cases (hchoice : field.rowChoice? = some choice)
    (h : (ctx.conditionalBody host field).answer reads = (.ok body, after)) :
    (ctx.rowTarget? host choice = none ∧ body = ctx.degraded host [field]) ∨
      ∃ t rollup order mid, ctx.rowTarget? host choice = some t ∧ field.rollup? = .ok rollup ∧
        (ctx.condensedBody host t.foreign field choice t.link (t.condensation rollup field.storage)
          (t.value ctx.dialect rollup) order).run mid = (.ok body, after) := by
  unfold BodyM.answer conditionalBody at h
  unfold rowTarget?
  rw [hchoice] at h
  cases hrollup : field.rollup? with
  | error e =>
      rw [hrollup] at h
      cases h
  | ok rollup =>
      cases hforeign : ctx.catalog.table? choice.related.foreignTable with
      | none =>
          simp only [hrollup, hforeign] at h
          cases h
          exact Or.inl ⟨rfl, rfl⟩
      | some foreign =>
          cases hlink : choice.link? host with
          | none =>
              simp only [hrollup, hforeign, hlink] at h
              cases h
              exact Or.inl ⟨rfl, rfl⟩
          | some link =>
              simp only [hrollup, hforeign, hlink] at h
              obtain ⟨read, _, hread, h⟩ := exists_of_run_bind h
              rw [Option.bind_some, Option.bind_some, found_of_run_value hread]
              cases read with
              | none =>
                  cases h
                  exact Or.inl ⟨rfl, rfl⟩
              | some v =>
                  obtain ⟨order, mid, -, h⟩ := exists_of_run_bind h
                  exact Or.inr ⟨_, rollup, order, mid, rfl, rfl, h⟩

/-- The rows of a field with a limit are read in a subquery, whatever its filter is. -/
theorem condensedBody_of_limit {t : RowTarget} {rollup : Option RollupFunction} {order : String}
    (hlimit : choice.related.limit = some n)
    (h : (ctx.condensedBody host t.foreign field choice t.link (t.condensation rollup field.storage)
      (t.value ctx.dialect rollup) order).run reads = (.ok body, after)) :
    ∃ filter,
      (ctx.filterSql? ⟨.foreign, t.foreign⟩
        (if choice.hostValues then ⟨.host, host⟩ else ⟨.foreign, t.foreign⟩)
        choice.related.filter).Settled (.ok filter) ∧
      body = subqueryBody ctx.dialect host field (t.condensation rollup field.storage)
        (t.rows ctx.dialect rollup (some n) filter order (NestedRead.joinClause after)) := by
  unfold condensedBody at h
  simp only [RowChoice.groupPairs?_of_limit hlimit] at h
  obtain ⟨filter, mid, hfilter, h⟩ := exists_of_run_bind h
  obtain ⟨_, _, hget, h⟩ := exists_of_run_bind h
  cases hget
  cases h
  obtain ⟨-, -, -, hsettled⟩ := ctx.filterSql?_meets_settled ⟨.foreign, t.foreign⟩
    (if choice.hostValues then ⟨.host, host⟩ else ⟨.foreign, t.foreign⟩) choice.related.filter reads
  refine ⟨filter, hsettled filter (congrArg Prod.fst hfilter), ?_⟩
  rw [hlimit]
  rfl

end BodyContext

/-! ### Units -/

/-- **What limits count.**  The body of a field with a limit reads the rows of each host record in a subquery,
and the query of the rows ends with the limit; if the table, the link or the field that the rows come from is
missing, so is the field.  The query reads from the records that the field chooses, with the expressions
joined that they need, and from nothing else: so the limit counts records, and the arrays that a lookup
finds are joined only outside of the query.  There is one exception.  A lookup of arrays for a database that
cannot order inside an aggregate reads from the elements of the arrays too, and its limit counts these. -/
theorem CteUnit.bodyM_limited {ctx : BodyContext} {host : Table} {field : Field} {unit : CteUnit}
    {choice : RowChoice} {n : Nat} {reads after : List NestedRead} {body : Body}
    (hunit : CteUnit.of? host field = some unit) (hchoice : field.rowChoice? = some choice)
    (hlimit : choice.related.limit = some n)
    (h : (unit.bodyM ctx host field).answer reads = (.ok body, after)) :
    (ctx.rowTarget? host choice = none ∧ body = ctx.degraded host [field]) ∨
      ∃ t rollup filter order, ctx.rowTarget? host choice = some t ∧ field.rollup? = .ok rollup ∧
        (ctx.filterSql? ⟨.foreign, t.foreign⟩
          (if choice.hostValues then ⟨.host, host⟩ else ⟨.foreign, t.foreign⟩)
          choice.related.filter).Settled (.ok filter) ∧
        let d := ctx.dialect
        let joins := NestedRead.joinClause after
        let rows := t.rows d rollup (some n) filter order joins
        let c := t.condensation rollup field.storage
        body.sql = bodyHead host [rows.subquery (c.orIdentity d (c.aggregate d rows))] [field] ∧
        (∃ columns, rows.select = "SELECT " ++ columns ++ rows.fromClause ++ rows.whereClause ++
          rows.orderClause ++ " LIMIT " ++ toString n) ∧
        (¬ (rollup = none ∧ t.field.multi = true ∧ d = .sqlite) →
          rows.fromClause = " FROM " ++ t.records ++ joins) ∧
        (rollup = none → t.field.multi = true → d = .postgres →
          c.aggregate d rows = d.flattenArray
            (d.jsonAggregate "\"s\".\"v\"" (some "\"s\".\"o\"") none)) ∧
        (rollup = none → t.field.multi = true → d = .sqlite →
          rows.fromClause = " FROM " ++ t.records ++ joins ++ ", json_each(" ++ t.sql ++
            ") AS \"e\"") := by
  obtain rfl := eq_conditional_of_limit hunit hchoice hlimit
  rcases BodyContext.conditionalBody_cases hchoice h with hmissing | hfound
  · exact Or.inl hmissing
  obtain ⟨t, rollup, order, mid, ht, hrollup, hrun⟩ := hfound
  obtain ⟨filter, hfilter, rfl⟩ := BodyContext.condensedBody_of_limit hlimit hrun
  refine Or.inr ⟨t, rollup, filter, order, ht, hrollup, hfilter, rfl, ?_, ?_, ?_, ?_⟩
  · exact Rows.exists_select_of_limit rfl
  · exact RowTarget.fromClause_rows
  · intro hnone hmulti hdialect
    rw [hnone, hdialect]
    exact RowTarget.aggregate_rows_of_arrays hmulti
  · intro hnone hmulti hdialect
    rw [hnone, hdialect]
    exact RowTarget.fromClause_rows_of_arrays hmulti

namespace Sample

/-- The tags of the first two people. -/
def firstTags : Related where
  foreignTable := "p"
  target := "t"
  limit := some 2

def firstTagsField : Field := .ofConditionalLookup "o" "firsts" .string none firstTags

def tags : Field := (Field.single "t" "tags" .string .column).withArrays

def tagged : Table := .ofFields "p" "people" [tags, firstTagsField]

def taggedContext (dialect : Dialect) : BodyContext :=
  { catalog := .ofTables [tagged], options := { now := ⟨0⟩, dialect }, filterDialect := dialect }

/-- The rows of the field are all people, and it reads their tags. -/
def tagTarget : RowTarget := ⟨tagged, none, "\"f\".\"tags\"", tags⟩

end Sample

namespace CteUnit

/-- With aggregates that can be ordered, the tags of two people are read and joined afterwards. -/
theorem bodyM_limited_tags :
    ∃ body order, ((CteUnit.conditional "p" "o").bodyM (Sample.taggedContext .postgres) Sample.tagged
        Sample.firstTagsField).answer [] = (.ok body, []) ∧
      let rows := Sample.tagTarget.rows .postgres none (some 2) none order ""
      body.sql = bodyHead Sample.tagged [rows.subquery (Dialect.postgres.flattenArray
        (Dialect.postgres.jsonAggregate "\"s\".\"v\"" (some "\"s\".\"o\"") none))]
        [Sample.firstTagsField] ∧
      rows.fromClause = " FROM \"people\" AS \"f\"" := by
  have hchoice : Sample.firstTagsField.rowChoice? = some ⟨none, Sample.firstTags, true⟩ := rfl
  have hunit : of? Sample.tagged Sample.firstTagsField = some (.conditional "p" "o") := rfl
  have htarget : (Sample.taggedContext .postgres).rowTarget? Sample.tagged
      ⟨none, Sample.firstTags, true⟩ = some Sample.tagTarget := rfl
  obtain ⟨body, hbody⟩ : ∃ body, ((CteUnit.conditional "p" "o").bodyM (Sample.taggedContext .postgres)
      Sample.tagged Sample.firstTagsField).answer [] = (.ok body, []) := ⟨_, rfl⟩
  rcases bodyM_limited hunit hchoice rfl hbody with ⟨hmissing, -⟩ | hlimited
  · cases htarget.symm.trans hmissing
  obtain ⟨t, rollup, filter, order, ht, hrollup, hfilter, hsql, -, hfrom, haggregate, -⟩ := hlimited
  obtain rfl : Sample.tagTarget = t := Option.some.inj (htarget.symm.trans ht)
  obtain rfl : none = rollup := Except.ok.inj hrollup
  obtain rfl : none = filter := Except.ok.inj (hfilter [])
  refine ⟨body, order, hbody, ?_, ?_⟩
  · rw [hsql, haggregate rfl rfl rfl]
    rfl
  · exact hfrom fun h => absurd h.2.2 (by decide)

/-- With aggregates that cannot, two tags are read instead of those of two people. -/
theorem bodyM_counts_tags :
    let rows := Sample.tagTarget.rows .sqlite none (some 2) none "\"f\".\"__id\" ASC" ""
    ((CteUnit.conditional "p" "o").bodyM (Sample.taggedContext .sqlite) Sample.tagged
      Sample.firstTagsField).answer [] =
        (.ok (subqueryBody .sqlite Sample.tagged Sample.firstTagsField
          (Sample.tagTarget.condensation none .json) rows), []) ∧
      rows.select = "SELECT \"e\".\"value\" AS \"v\", \"e\".\"type\" AS \"t\", " ++
        "\"f\".\"__id\" AS \"r\" FROM \"people\" AS \"f\", json_each(\"f\".\"tags\") AS \"e\" " ++
        "ORDER BY \"f\".\"__id\" ASC, \"e\".\"key\" LIMIT 2" := by
  intro rows
  exact ⟨rfl, by decide +kernel⟩

end CteUnit

end ComputedFields
