/-
**The texts that queries are put together from.**

A query is text inside text: values inside aggregates, these inside rows and bodies, and the bodies
inside the query.  Each of these is a template, and every template closes its quotations and balances
its parentheses.  So it is enough that the parts are lexically closed.  This module says so for every
template of a query, from the fragments of the two databases up to the text of a whole query.

Main definitions:

* `ComputedFields.Aggregate.Sealed`, `ComputedFields.Rows.Sealed` — aggregates and rows all of whose
  parts are lexically closed.

Main results:

* `ComputedFields.Aggregate.sealed_overRows`, `ComputedFields.Aggregate.sealed_overOne` — rollups;
* `ComputedFields.Filter.sealed_of_compile` — **filters, whatever literals they compare with**;
* `ComputedFields.Rows.sealed_select`, `ComputedFields.Rows.sealed_subquery` — rows;
* `ComputedFields.Sql.Query.sealed_render` — **a query is lexically closed if its expressions and its
  columns are**.
-/

import ComputedFields.Cte.Rows
import ComputedFields.Filter.Compile
import ComputedFields.Proofs.CompiledWords
import ComputedFields.Proofs.FormulaReads
import ComputedFields.Rollup

set_option relaxedAutoImplicit false
set_option autoImplicit false

namespace ComputedFields

open Sql (Sealed)

variable {x y : String}

/-! ### Conditions -/

theorem sealed_equation (hx : Sealed x) (hy : Sealed y) : Sealed (x ++ " = " ++ y) :=
  .template [.hole, .text _, .hole] [x, y] (by decide) (by simpa using ⟨hx, hy⟩)

/-- A filter stands in parentheses among other conditions. -/
theorem sealed_parenthesized {filter : Option String} (h : ∀ f ∈ filter, Sealed f) :
    ∀ condition ∈ (filter.map fun f => "(" ++ f ++ ")").toList, Sealed condition := by
  intro condition hcondition
  obtain ⟨f, hf, rfl⟩ := Option.map_eq_some_iff.1 (Option.mem_toList.1 hcondition)
  exact .wrap (by decide) (h f hf)

/-! ### Texts, numbers and missing values -/

namespace Dialect

theorem sealed_textCast (d : Dialect) (hx : Sealed x) : Sealed (d.textCast x) :=
  (tidy_textCast d hx.tidy_every).toSealed

theorem sealed_coerceNumeric (d : Dialect) (hx : Sealed x) : Sealed (d.coerceNumeric x) :=
  (tidy_coerceNumeric d hx.tidy_every).toSealed

@[simp] theorem sealed_typedNull (d : Dialect) (type : StorageType) : Sealed (d.typedNull type) := by
  cases d <;> cases type <;> exact .const (by decide)

theorem sealed_formatNumber (d : Dialect) (format : NumberFormat) (hx : Sealed x) :
    Sealed (d.formatNumber x format) := by
  cases d with
  | postgres =>
      have hrounded : ∀ precision : Nat,
          Sealed ("(ROUND((" ++ x ++ ")::numeric, " ++ toString precision ++ "))::text") :=
        fun precision => .template [.text _, .hole, .text _, .hole, .text _] [x, _]
          (by decide) (by simp [hx])
      cases format with
      | decimal precision => exact hrounded precision
      | percent precision =>
          exact .template [.text _, .hole, .text _, .hole, .text _] [x, _] (by decide)
            (by simp [hx])
      | currency symbol precision =>
          exact .template [.hole, .text _, .hole] [_, _] (by decide)
            (by simpa using hrounded precision)
      | rating => exact .wrap (by decide) hx
  | sqlite =>
      cases format with
      | decimal precision =>
          exact .template [.text _, .hole, .text _, .hole, .text _] [_, x] (by decide)
            (by simp [hx])
      | percent precision =>
          exact .template [.text _, .hole, .text _, .hole, .text _] [_, x] (by decide)
            (by simp [hx])
      | currency symbol precision =>
          exact .template [.hole, .text _, .hole, .text _, .hole, .text _] [_, _, x]
            (by decide) (by simp [hx])
      | rating => exact .wrap (by decide) hx

theorem sealed_formatNumberArray (d : Dialect) (format : NumberFormat) (hx : Sealed x) :
    Sealed (d.formatNumberArray x format) := by
  cases d with
  | postgres =>
      have helement := sealed_formatNumber .postgres format
        (.const (by decide) : Sealed "(e.value)::numeric")
      exact .template [.text _, .hole, .text _, .hole, .text _] [_, x] (by decide)
        (by simpa using ⟨helement, hx⟩)
  | sqlite =>
      have helement := sealed_formatNumber .sqlite format
        (.const (by decide) : Sealed "e.value")
      exact .template [.text _, .hole, .text _, .hole, .text _] [_, x] (by decide)
        (by simpa using ⟨helement, hx⟩)

/-! ### Links, JSON and aggregation -/

theorem sealed_linkExists (d : Dialect) (hx : Sealed x) : Sealed (d.linkExists x) := by
  have htext : ∀ text, Sealed text →
      Sealed ("(" ++ x ++ " IS NOT NULL AND " ++ text ++ " NOT IN ('null', '[]', '\x7b\x7d'))") :=
    fun text h => .template [.text _, .hole, .text _, .hole, .text _] [x, text] (by decide)
      (by simpa using ⟨hx, h⟩)
  cases d with
  | postgres => exact htext _ (.wrap (by decide) hx)
  | sqlite => exact htext _ hx

theorem sealed_linkObject (d : Dialect) (hid : Sealed x) (htitle : Sealed y) :
    Sealed (d.linkObject x y) := by
  cases d <;>
    exact .template [.text _, .hole, .text _, .hole, .text _] [x, y] (by decide)
      (by simpa using ⟨hid, htitle⟩)

theorem sealed_jsonValue (d : Dialect) (hx : Sealed x) : Sealed (d.jsonValue x) := by
  cases d with
  | postgres => exact hx
  | sqlite => exact .wrap (by decide) hx

theorem sealed_arrayLength (d : Dialect) (hx : Sealed x) : Sealed (d.arrayLength x) := by
  cases d <;> exact .wrap (by decide) hx

theorem sealed_orderClause {order : Option String} (h : ∀ o ∈ order, Sealed o) :
    Sealed (orderClause order) := by
  cases order with
  | none => exact .empty
  | some o =>
      exact .template [.text _, .hole] [o] (by decide) (by simpa using h)

theorem sealed_jsonAggregate (d : Dialect) {order filter : Option String} (hx : Sealed x)
    (horder : ∀ o ∈ order, Sealed o) (hfilter : ∀ f ∈ filter, Sealed f) :
    Sealed (d.jsonAggregate x order filter) := by
  have horder := sealed_orderClause horder
  have hkept : ∀ extra, Sealed extra →
      Sealed (" FILTER (WHERE " ++ x ++ " IS NOT NULL" ++ extra ++ ")") :=
    fun extra h => .template [.text _, .hole, .text _, .hole, .text _] [x, extra] (by decide)
      (by simpa using ⟨hx, h⟩)
  -- the condition of the filter stands behind the one that the value is there
  have hrows : ∀ kept, Sealed kept →
      Sealed ("jsonb_agg(" ++ x ++ orderClause order ++ ")" ++ kept) ∧
        Sealed ("NULLIF(json_group_array(" ++ x ++ ")" ++ kept ++ ", '[]')") :=
    fun kept h =>
      ⟨.template [.text _, .hole, .hole, .text _, .hole] [x, _, kept] (by decide)
          (by simpa using ⟨hx, horder, h⟩),
        .template [.text _, .hole, .text _, .hole, .text _] [x, kept] (by decide)
          (by simpa using ⟨hx, h⟩)⟩
  cases filter with
  | none =>
      cases d with
      | postgres => exact (hrows _ (hkept _ .empty)).1
      | sqlite => exact (hrows _ (hkept _ .empty)).2
  | some f =>
      have hextra : Sealed (" AND (" ++ f ++ ")") := .wrap (by decide) (hfilter f rfl)
      cases d with
      | postgres => exact (hrows _ (hkept _ hextra)).1
      | sqlite => exact (hrows _ (hkept _ hextra)).2

theorem sealed_stringAggregate (d : Dialect) (delimiter : String) {order filter : Option String}
    (hx : Sealed x) (horder : ∀ o ∈ order, Sealed o) (hfilter : ∀ f ∈ filter, Sealed f) :
    Sealed (d.stringAggregate x delimiter order filter) := by
  have horder := sealed_orderClause horder
  have hrows : ∀ kept, Sealed kept →
      Sealed ("STRING_AGG(" ++ x ++ ", " ++ Sql.literal delimiter ++ orderClause order ++ ")" ++
          kept) ∧
        Sealed ("group_concat(" ++ x ++ ", " ++ Sql.literal delimiter ++ ")" ++ kept) :=
    fun kept h =>
      ⟨.template [.text _, .hole, .text _, .hole, .hole, .text _, .hole] [x, _, _, kept]
          (by decide) (by simpa using ⟨hx, horder, h⟩),
        .template [.text _, .hole, .text _, .hole, .text _, .hole] [x, _, kept]
          (by decide) (by simpa using ⟨hx, h⟩)⟩
  cases filter with
  | none =>
      cases d with
      | postgres => exact (hrows _ .empty).1
      | sqlite => exact (hrows _ .empty).2
  | some f =>
      have hkept : Sealed (" FILTER (WHERE " ++ f ++ ")") := .wrap (by decide) (hfilter f rfl)
      cases d with
      | postgres => exact (hrows _ hkept).1
      | sqlite => exact (hrows _ hkept).2

end Dialect

/-! ### Rollups -/

theorem RollupFunction.sealed_orIdentity (f : RollupFunction) (d : Dialect) (type : StorageType)
    (hx : Sealed x) : Sealed (f.orIdentity d x type) := by
  have hzero : Sealed ("COALESCE(" ++ x ++ ", 0)") := .wrap (by decide) hx
  have hnull : Sealed ("COALESCE(" ++ x ++ ", " ++ d.typedNull type ++ ")") :=
    .template [.text _, .hole, .text _, .hole, .text _] [x, _] (by decide) (by simp [hx])
  cases f with
  | sum | average | count | countAll | countA => exact hzero
  | max | min => exact hnull
  | _ => exact hx

/-- All parts of the aggregate are lexically closed. -/
structure Aggregate.Sealed (a : Aggregate) : Prop where
  value : Sql.Sealed a.value
  rowId : Sql.Sealed a.rowId
  order : ∀ o ∈ a.order, Sql.Sealed o
  filter : ∀ f ∈ a.filter, Sql.Sealed f

namespace Aggregate

variable {a : Aggregate}

theorem sealed_filterClause (h : a.Sealed) {extra : Option String}
    (hextra : ∀ e ∈ extra, Sql.Sealed e) : Sql.Sealed (a.filterClause extra) := by
  have hconditions : ∀ condition ∈ extra.toList ++ (a.filter.map fun f => "(" ++ f ++ ")").toList,
      Sql.Sealed condition := by
    refine List.forall_mem_append.2 ⟨fun condition hmem => ?_, sealed_parenthesized h.filter⟩
    exact hextra condition (Option.mem_toList.1 hmem)
  unfold filterClause
  dsimp only
  split
  · exact .empty
  · exact .wrap (by decide) (.intercalate (.const (by decide)) hconditions)

theorem sealed_filteredValue (h : a.Sealed) : Sql.Sealed a.filteredValue := by
  unfold filteredValue
  split
  · next f hf =>
      exact .template [.text _, .hole, .text _, .hole, .text _] [f, _] (by decide)
        (by simpa using ⟨h.filter f hf, h.value⟩)
  · exact h.value

theorem sealed_bareText (d : Dialect) (hx : Sql.Sealed x) : Sql.Sealed (bareText d x) := by
  cases d with
  | postgres => exact .wrap (by decide) hx
  | sqlite => exact Dialect.sealed_textCast .sqlite hx

/-- An aggregate with a clause behind it. -/
theorem sealed_call {lead behind : List Char} {clause : String}
    (hseals : Sql.seals [.text lead, .hole, .text behind, .hole] = true) (hx : Sql.Sealed x)
    (hclause : Sql.Sealed clause) :
    Sql.Sealed (String.ofList lead ++ x ++ String.ofList behind ++ clause) :=
  .template [.text lead, .hole, .text behind, .hole] [x, clause] hseals
    (by simpa using ⟨hx, hclause⟩)

theorem sealed_flag (hx : Sql.Sealed x) : Sql.Sealed ("CASE WHEN " ++ x ++ " THEN 1 ELSE 0 END") :=
  .wrap (by decide) hx

theorem sealed_present (h : a.Sealed) :
    Sql.Sealed (a.filterClause (some (a.value ++ " IS NOT NULL"))) :=
  sealed_filterClause h (by simpa using h.value.append (.const (by decide)))

theorem sealed_overRows (d : Dialect) (f : RollupFunction) (h : a.Sealed) :
    Sql.Sealed (overRows d f a) := by
  have hall : Sql.Sealed (a.filterClause none) := sealed_filterClause h (by simp)
  have hbare := sealed_bareText d h.value
  cases f with
  | sum => exact sealed_call (by decide) h.value hall
  | average => exact sealed_call (by decide) h.value hall
  | count => exact sealed_call (by decide) h.value hall
  | countA => exact sealed_call (by decide) hbare hall
  | countAll =>
      unfold overRows
      dsimp only
      split
      · exact sealed_call (by decide) (d.sealed_arrayLength h.value) hall
      · exact sealed_call (by decide) h.rowId hall
  | max => exact sealed_call (by decide) h.value hall
  | min => exact sealed_call (by decide) h.value hall
  | and =>
      cases d with
      | postgres => exact sealed_call (by decide) h.value hall
      | sqlite => exact sealed_call (by decide) (sealed_flag h.value) hall
  | or =>
      cases d with
      | postgres => exact sealed_call (by decide) h.value hall
      | sqlite => exact sealed_call (by decide) (sealed_flag h.value) hall
  | xor =>
      cases d with
      | postgres =>
          have hboolean : Sql.Sealed ("(" ++ a.value ++ ")::boolean") :=
            .wrap (by decide) h.value
          exact .wrap (by decide) (sealed_filterClause h (by simpa using hboolean))
      | sqlite =>
          exact .template [.text _, .hole, .text _, .hole, .text _] [_, _] (by decide)
            (by simpa using ⟨sealed_flag h.value, hall⟩)
  | arrayJoin =>
      exact d.sealed_stringAggregate ", " (d.sealed_textCast h.value) h.order h.filter
  | concatenate =>
      exact d.sealed_stringAggregate "" (d.sealed_textCast h.value) h.order h.filter
  | arrayUnique =>
      cases d with
      | postgres =>
          exact .template [.text _, .hole, .hole, .text _, .hole, .text _, .text _, .text _]
            [_, _, _] (by decide)
            (by simpa using ⟨h.value, Dialect.sealed_orderClause h.order, sealed_present h⟩)
      | sqlite =>
          exact .template [.text _, .hole, .text _, .hole, .text _] [_, _] (by decide)
            (by simpa using ⟨h.value, sealed_present h⟩)
  | arrayCompact =>
      have hfilled : Sql.Sealed (a.value ++ " IS NOT NULL AND " ++ bareText d a.value ++ " <> ''") :=
        .template [.hole, .text _, .hole, .text _] [_, _] (by decide)
          (by simpa using ⟨h.value, hbare⟩)
      have hpresent : Sql.Sealed (a.filterClause (some _)) :=
        sealed_filterClause h (by simpa using hfilled)
      cases d with
      | postgres =>
          exact .template [.text _, .hole, .hole, .text _, .hole] [_, _, _] (by decide)
            (by simpa using ⟨h.value, Dialect.sealed_orderClause h.order, hpresent⟩)
      | sqlite =>
          exact .template [.text _, .hole, .text _, .hole, .text _] [_, _] (by decide)
            (by simpa using ⟨h.value, hpresent⟩)

theorem sealed_overOne (d : Dialect) (f : RollupFunction) (h : a.Sealed) :
    Sql.Sealed (overOne d f a) := by
  have hvalue := sealed_filteredValue h
  have hzero : Sql.Sealed ("COALESCE(" ++ a.filteredValue ++ ", 0)") :=
    .wrap (by decide) hvalue
  have hcounted : ∀ y, Sql.Sealed y → Sql.Sealed ("CASE WHEN " ++ y ++ " IS NULL THEN 0 ELSE 1 END") :=
    fun y hy => .wrap (by decide) hy
  have hlogical : Sql.Sealed (overOne d .and a) := by
    cases d with
    | postgres => exact .wrap (by decide) hvalue
    | sqlite => exact hzero
  have harray : Sql.Sealed (overOne d .arrayUnique a) := by
    cases d <;>
      exact .template [.text _, .hole, .text _, .text _, .hole, .text _] [_, _] (by decide)
        (by simpa using hvalue)
  cases f with
  | sum => exact hzero
  | average => exact hvalue
  | max => exact hvalue
  | min => exact hvalue
  | countAll =>
      unfold overOne
      dsimp only
      split
      · exact .wrap (by decide) (d.sealed_arrayLength hvalue)
      · split
        · exact hcounted _ h.rowId
        · exact hcounted _ hvalue
  | count => exact hcounted _ hvalue
  | countA => exact hcounted _ hvalue
  | and => exact hlogical
  | or => exact hlogical
  | xor => exact hlogical
  | arrayJoin => exact d.sealed_textCast hvalue
  | concatenate => exact d.sealed_textCast hvalue
  | arrayUnique => exact harray
  | arrayCompact => exact harray

end Aggregate

/-! ### Filters -/

/-- All values of the entries are lexically closed. -/
def Entries.Sealed (entries : Entries String) : Prop :=
  ∀ id sql, entries.get? id = some sql → Sql.Sealed sql

theorem Entries.sealed_nil : Entries.Sealed [] := nofun

theorem Entries.Sealed.insert {entries : Entries String} (h : entries.Sealed) (id : String)
    (hx : Sql.Sealed x) : Entries.Sealed (entries.insert id x) := by
  intro id' sql hsql
  by_cases heq : id = id'
  · subst heq
    rw [Entries.get?_insert_self] at hsql
    cases hsql
    exact hx
  · rw [Entries.get?_insert_of_ne _ _ heq] at hsql
    exact h id' sql hsql

theorem Json.sealed_toSql (value : Json) : Sealed value.toSql := by
  cases value with
  | null => exact .const (by decide)
  | bool value => cases value <;> exact .const (by decide)
  | whole n =>
      cases n with
      | ofNat n => exact .repr n
      | negSucc n => exact .template [.text _, .hole] [_] (by decide) (by simp)
  | fraction x => exact .numeral (Decimal.Layout.isNumeral_render _ x)
  | text s => exact .literal s
  | array items => exact .literal _
  | object members => exact .literal _

@[simp] theorem Dialect.sealed_like (d : Dialect) : Sealed d.like := by
  cases d <;> exact .const (by decide)

theorem sealed_of_fieldSql {values : Entries String} (hvalues : values.Sealed) {id : String}
    (h : fieldSql values id = .ok x) : Sealed x := by
  unfold fieldSql at h
  split at h
  · next hsql =>
      cases h
      exact hvalues id x hsql
  · cases h

theorem Operand.sealed_of_compile {values : Entries String} (hvalues : values.Sealed)
    {operand : Operand} {right : Option String} (h : operand.compile values = .ok right) :
    ∀ r ∈ right, Sealed r := by
  unfold Operand.compile at h
  split at h
  · cases h
    simp
  · cases h
    simp
  · next value _ =>
      cases h
      simpa using value.sealed_toSql
  · obtain ⟨sql, hsql, h⟩ := exists_of_bind_eq_ok h
    cases h
    simpa using sealed_of_fieldSql hvalues hsql

namespace Condition

variable {left value : String} {right : Option String}

theorem sealed_pattern (operand : Operand) (hright : ∀ r ∈ right, Sealed r) :
    Sealed (pattern operand right) := by
  unfold pattern
  split
  · exact .literal _
  · next r _ => exact .wrap (by decide) (hright r rfl)
  · exact .const (by decide)

theorem sealed_compared {symbol : String} (hleft : Sealed left) (hsymbol : Sealed symbol)
    (hright : ∀ r ∈ right, Sealed r) : Sealed (compared left symbol right) := by
  cases right with
  | none => exact .const (by decide)
  | some r =>
      exact .template [.text _, .hole, .text _, .hole, .text _, .hole, .text _] [_, _, _]
        (by decide) (by simpa using ⟨hleft, hsymbol, hright r rfl⟩)

/-- A condition is lexically closed if its sides are. -/
theorem sealed_sql (d : Dialect) (c : Condition) (isLink : Bool) (hvalue : Sealed value)
    (hleft : Sealed left) (hright : ∀ r ∈ right, Sealed r) :
    Sealed (c.sql d isLink value left right) := by
  have htext := d.sealed_textCast hleft
  have hexists := d.sealed_linkExists hvalue
  have hfound : Sealed ("(" ++ d.textCast left ++ " " ++ d.like ++ " " ++ pattern c.operand right ++
      ")") :=
    .template [.text _, .hole, .text _, .hole, .text _, .hole, .text _] [_, _, _] (by decide)
      (by simpa using ⟨htext, sealed_pattern c.operand hright⟩)
  obtain ⟨field, op, operand⟩ := c
  cases op with
  | is =>
      cases right with
      | none => exact .wrap (by decide) hleft
      | some r =>
          exact .template [.text _, .hole, .text _, .hole, .text _] [_, _] (by decide)
            (by simpa using ⟨hleft, hright r rfl⟩)
  | isNot =>
      cases right with
      | none => exact .wrap (by decide) hleft
      | some r =>
          exact .template [.text _, .hole, .text _, .hole, .text _, .hole, .text _] [_, _, _]
            (by decide) (by simpa using ⟨hleft, hright r rfl⟩)
  | isGreater => exact sealed_compared hleft (.const (by decide)) hright
  | isGreaterEqual => exact sealed_compared hleft (.const (by decide)) hright
  | isLess => exact sealed_compared hleft (.const (by decide)) hright
  | isLessEqual => exact sealed_compared hleft (.const (by decide)) hright
  | contains => exact hfound
  | doesNotContain =>
      exact .template [.text _, .hole, .text _, .hole, .text _] [_, _] (by decide)
        (by simpa using ⟨hleft, hfound⟩)
  | isEmpty =>
      cases isLink with
      | true => exact .wrap (by decide) hexists
      | false =>
          exact .template [.text _, .hole, .text _, .hole, .text _] [_, _] (by decide)
            (by simpa using ⟨hleft, htext⟩)
  | isNotEmpty =>
      cases isLink with
      | true => exact hexists
      | false =>
          exact .template [.text _, .hole, .text _, .hole, .text _] [_, _] (by decide)
            (by simpa using ⟨hleft, htext⟩)

theorem sealed_of_compile {d : Dialect} {fields : List Field} {values : Entries String}
    (hvalues : values.Sealed) {c : Condition} (h : c.compile d fields values = .ok x) :
    Sealed x := by
  unfold compile at h
  obtain ⟨value, hvalue, h⟩ := exists_of_bind_eq_ok h
  obtain ⟨right, hright, h⟩ := exists_of_bind_eq_ok h
  cases h
  have hvalue := sealed_of_fieldSql hvalues hvalue
  refine sealed_sql d c _ hvalue ?_ (Operand.sealed_of_compile hvalues hright)
  split
  · exact d.sealed_linkTitle _ hvalue
  · exact hvalue

end Condition

namespace Filter

variable {d : Dialect} {fields : List Field} {values : Entries String}

theorem sealed_joined {word : String} {parts : List String} (hword : Sealed word)
    (hparts : ∀ part ∈ parts, Sealed part) : Sealed (joined word parts) := by
  unfold joined
  split
  · exact .const (by decide)
  · have hseparator : Sealed (" " ++ word ++ " ") := .wrap (by decide) hword
    exact .wrap (by decide) (.intercalate hseparator hparts)

theorem sealed_all {parts : List String} (hparts : ∀ part ∈ parts, Sealed part) :
    Sealed (joined "AND" parts) :=
  sealed_joined (.const (by decide)) hparts

theorem sealed_any {parts : List String} (hparts : ∀ part ∈ parts, Sealed part) :
    Sealed (joined "OR" parts) :=
  sealed_joined (.const (by decide)) hparts

mutual

/-- **A filter is lexically closed**, whatever literals it compares with, if the values of its fields
are. -/
theorem sealed_of_compile (hvalues : values.Sealed) : ∀ {f : Filter} {sql : String},
    f.compile d fields values = .ok sql → Sealed sql
  | .condition c, _, h => Condition.sealed_of_compile hvalues h
  | .all children, _, h => by
      obtain ⟨parts, hparts, h⟩ := exists_of_bind_eq_ok h
      cases h
      exact sealed_all (sealed_of_compileAll hvalues hparts)
  | .any children, _, h => by
      obtain ⟨parts, hparts, h⟩ := exists_of_bind_eq_ok h
      cases h
      exact sealed_any (sealed_of_compileAll hvalues hparts)

theorem sealed_of_compileAll (hvalues : values.Sealed) : ∀ {fs : List Filter} {parts : List String},
    compileAll d fields values fs = .ok parts → ∀ part ∈ parts, Sealed part
  | [], _, h => by
      cases h
      simp
  | f :: rest, _, h => by
      obtain ⟨first, hfirst, h⟩ := exists_of_bind_eq_ok h
      obtain ⟨others, hothers, h⟩ := exists_of_bind_eq_ok h
      cases h
      rw [List.forall_mem_cons]
      exact ⟨sealed_of_compile hvalues hfirst, sealed_of_compileAll hvalues hothers⟩

end

end Filter

/-! ### Queries -/

namespace Sql

theorem Cte.sealed_render {cte : Cte} (h : Sealed cte.body) : Sealed cte.render :=
  .template [.hole, .text _, .hole, .text _] [_, _] (by decide) (by simpa using h)

theorem Selected.sealed_render {column : Selected} (h : Sealed column.sql) : Sealed column.render :=
  .template [.hole, .text _, .hole] [_, _] (by decide) (by simpa using h)

namespace Query

theorem sealed_joinClause (rowAlias cte : String) : Sealed (joinClause rowAlias cte) :=
  .template [.text _, .hole, .text _, .hole, .text _, .hole] [_, _, _] (by decide) (by simp)

theorem sealed_joinClauses (rowAlias : String) (joined : List String) :
    Sealed (String.join (joined.map (joinClause rowAlias))) :=
  .join (List.forall_mem_map.2 fun cte _ => sealed_joinClause rowAlias cte)

theorem sealed_withClause {ctes : List Cte} (h : ∀ cte ∈ ctes, Sealed cte.body) :
    Sealed (withClause ctes) := by
  unfold withClause
  split
  · exact .empty
  · exact .wrap (by decide) (.intercalate (.const (by decide))
      (List.forall_mem_map.2 fun cte hcte => Cte.sealed_render (h cte hcte)))

theorem sealed_columnList {columns : List Selected} (h : ∀ column ∈ columns, Sealed column.sql) :
    Sealed (columnList columns) := by
  unfold columnList
  split
  · exact .const (by decide)
  · exact .intercalate (.const (by decide))
      (List.forall_mem_map.2 fun column hcolumn => Selected.sealed_render (h column hcolumn))

theorem sealed_fromClause (source : Source) (joined : List String) :
    Sealed (fromClause source joined) :=
  .template [.text _, .hole, .text _, .hole, .hole] [_, _, _] (by decide)
    (by simpa using sealed_joinClauses source.rowAlias joined)

/-- **A query is lexically closed** if the bodies of its expressions and its columns are. -/
theorem sealed_render {q : Query} (hctes : ∀ cte ∈ q.ctes, Sealed cte.body)
    (hcolumns : ∀ column ∈ q.columns, Sealed column.sql) : Sealed q.render := by
  have hselect : ∀ source, Sealed source →
      Sealed (withClause q.ctes ++ "SELECT " ++ columnList q.columns ++ source) :=
    fun source h => .template [.hole, .text _, .hole, .hole] [_, _, source] (by decide)
      (by simpa using ⟨sealed_withClause hctes, sealed_columnList hcolumns, h⟩)
  unfold render
  split
  · exact hselect _ (sealed_fromClause _ _)
  · exact hselect _ .empty

end Query

end Sql

/-! ### Rows -/

@[simp] theorem sealed_hostId : Sealed hostId := .qualified _ _

@[simp] theorem sealed_foreignId : Sealed foreignId := .qualified _ _

@[simp] theorem sealed_aliased (table rowAlias : String) : Sealed (aliased table rowAlias) :=
  .template [.hole, .text _, .hole] [_, _] (by decide) (by simp)

/-- All parts of the rows are lexically closed. -/
structure Rows.Sealed (r : Rows) : Prop where
  value : Sql.Sealed r.value
  source : Sql.Sealed r.source
  conditions : ∀ condition ∈ r.conditions, Sql.Sealed condition
  order : Sql.Sealed r.order
  keys : ∀ key ∈ r.keys, Sql.Sealed key

namespace Rows

variable {r : Rows}

theorem sealed_keyColumns {keys : List String} (h : ∀ key ∈ keys, Sql.Sealed key) (index : Nat) :
    Sql.Sealed (keyColumns index keys) := by
  induction keys generalizing index with
  | nil => exact .empty
  | cons key rest ih =>
      rw [List.forall_mem_cons] at h
      exact .template [.text _, .hole, .text _, .hole, .hole] [key, _, _] (by decide)
        (by simpa using ⟨h.1, ih h.2 (index + 1)⟩)

theorem sealed_valueColumns (h : r.Sealed) : Sql.Sealed r.valueColumns := by
  unfold valueColumns
  split
  · exact .template [.hole, .text _, .hole, .text _, .hole, .text _] [_, _, _] (by decide)
      (by simp)
  · exact .template [.hole, .text _, .hole, .text _] [_, _] (by decide)
      (by simpa using h.value)

theorem sealed_numberColumn (h : r.Sealed) : Sql.Sealed r.numberColumn := by
  unfold numberColumn
  split
  · exact .wrap (by decide) h.order
  · exact .empty

theorem sealed_fromClause (h : r.Sealed) : Sql.Sealed r.fromClause := by
  have hsource : ∀ elements, Sql.Sealed elements → Sql.Sealed (" FROM " ++ r.source ++ elements) :=
    fun elements helements => .template [.text _, .hole, .hole] [_, elements] (by decide)
      (by simpa using ⟨h.source, helements⟩)
  unfold fromClause
  split
  · exact hsource _ (.template [.text _, .hole, .text _, .hole] [_, _] (by decide)
      (by simpa using h.value))
  · exact hsource _ .empty

theorem sealed_whereClause (h : r.Sealed) : Sql.Sealed r.whereClause := by
  unfold whereClause
  split
  · exact .empty
  · exact .template [.text _, .hole] [_] (by decide)
      (by simpa using Sql.Sealed.intercalate (.const (by decide)) h.conditions)

theorem sealed_orderClause (h : r.Sealed) : Sql.Sealed r.orderClause := by
  have horder : ∀ key, Sql.Sealed key → Sql.Sealed (" ORDER BY " ++ r.order ++ key) :=
    fun key hkey => .template [.text _, .hole, .hole] [_, key] (by decide)
      (by simpa using ⟨h.order, hkey⟩)
  unfold orderClause
  split
  · exact horder _ (.template [.text _, .hole] [_] (by decide) (by simp))
  · exact horder _ .empty

theorem sealed_limitClause (r : Rows) : Sql.Sealed r.limitClause := by
  unfold limitClause
  split
  · exact .template [.text _, .hole] [_] (by decide) (by simp)
  · exact .empty

theorem sealed_select (h : r.Sealed) : Sql.Sealed r.select :=
  .template [.text _, .hole, .hole, .hole, .hole, .hole, .hole, .hole] [_, _, _, _, _, _, _]
    (by decide)
    (by simpa using ⟨sealed_valueColumns h, sealed_numberColumn h, sealed_keyColumns h.keys 0,
      sealed_fromClause h, sealed_whereClause h, sealed_orderClause h, sealed_limitClause r⟩)

theorem sealed_asTable (h : r.Sealed) : Sql.Sealed r.asTable :=
  .template [.text _, .hole, .text _, .hole] [_, _] (by decide)
    (by simpa using sealed_select h)

theorem sealed_subquery (h : r.Sealed) (hx : Sql.Sealed x) : Sql.Sealed (r.subquery x) :=
  .template [.text _, .hole, .text _, .hole, .text _] [x, _] (by decide)
    (by simpa using ⟨hx, sealed_asTable h⟩)

theorem sealed_outerValue (r : Rows) (d : Dialect) (json : Bool) :
    Sql.Sealed (r.outerValue d json) := by
  have hjson := d.sealed_jsonValue (.qualified Alias.rows "v")
  unfold outerValue
  dsimp only
  split
  · exact .template [.text _, .hole, .text _, .hole, .text _, .hole, .text _] [_, _, _]
      (by decide) (by simpa using hjson)
  · split
    · exact hjson
    · exact .qualified _ _

end Rows

end ComputedFields
