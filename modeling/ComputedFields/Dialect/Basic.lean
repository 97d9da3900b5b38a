/-
**SQL dialects.**

Two databases are served.  They differ in casts, in JSON and in aggregation; this module holds the
fragments in which they differ, each as a function of the dialect.  Fragments are text: what is put
into them is SQL already.

Main definitions:

* `ComputedFields.Dialect` — the databases;
* `ComputedFields.Dialect.textCast`, `ComputedFields.Dialect.coerceNumeric`,
  `ComputedFields.Dialect.formatNumber` — text and numbers;
* `ComputedFields.Dialect.linkObject`, `ComputedFields.Dialect.linkTitle` — links as JSON;
* `ComputedFields.Dialect.jsonAggregate`, `ComputedFields.Dialect.stringAggregate` — many values in
  one;
* `ComputedFields.Dialect.typedNull` — a missing value of a column.
-/

import ComputedFields.Schema.Value
import ComputedFields.Sql.Quote

set_option relaxedAutoImplicit false
set_option autoImplicit false

namespace ComputedFields

/-- A database. -/
inductive Dialect where
  | postgres
  | sqlite
  deriving DecidableEq, Repr

namespace Dialect

open Sql

/-! ### Text and numbers -/

/-- A value as text. -/
def textCast (d : Dialect) (x : String) : String :=
  match d with
  | .postgres => "(" ++ x ++ ")::text"
  | .sqlite => "CAST(" ++ x ++ " AS TEXT)"

/-- A number as text, without decimals when it is whole. -/
def numberText (d : Dialect) (x : String) : String :=
  match d with
  | .postgres => d.textCast x
  | .sqlite =>
      "(CASE WHEN " ++ x ++ " = CAST(" ++ x ++ " AS INTEGER) THEN CAST(CAST(" ++ x ++
        " AS INTEGER) AS TEXT) ELSE CAST(" ++ x ++ " AS TEXT) END)"

/-- A number as text in a format. -/
def formatNumber (d : Dialect) (x : String) (format : NumberFormat) : String :=
  match d with
  | .postgres =>
      let rounded (precision : Nat) := "(ROUND((" ++ x ++ ")::numeric, " ++ toString precision ++
        "))::text"
      match format with
      | .decimal precision => rounded precision
      | .percent precision =>
          "(ROUND((" ++ x ++ ")::numeric * 100, " ++ toString precision ++ "))::text || '%'"
      | .currency symbol precision => literal symbol ++ " || " ++ rounded precision
      | .rating => "(ROUND((" ++ x ++ ")::numeric))::text"
  | .sqlite =>
      let spec (precision : Nat) := literal ("%." ++ toString precision ++ "f")
      match format with
      | .decimal precision => "printf(" ++ spec precision ++ ", " ++ x ++ ")"
      | .percent precision => "printf(" ++ spec precision ++ ", (" ++ x ++ ") * 100) || '%'"
      | .currency symbol precision =>
          literal symbol ++ " || printf(" ++ spec precision ++ ", " ++ x ++ ")"
      | .rating => "printf('%d', ROUND(" ++ x ++ "))"

/-- The numbers of a JSON array as one text. -/
def formatNumberArray (d : Dialect) (x : String) (format : NumberFormat) : String :=
  match d with
  | .postgres =>
      "(SELECT string_agg(" ++ d.formatNumber "(e.value)::numeric" format ++
        ", ', ' ORDER BY e.ordinality) FROM jsonb_array_elements_text(" ++ x ++
        ") WITH ORDINALITY AS e(value, ordinality))"
  | .sqlite =>
      "(SELECT group_concat(" ++ d.formatNumber "e.value" format ++ ", ', ') FROM json_each(" ++ x ++
        ") AS e)"

/-- The texts that read as numbers: an optional sign, then digits with at most one point. -/
def numericPattern : String := "^\\s*[-+]?([0-9]+(\\.[0-9]*)?|\\.[0-9]+)\\s*$"

/-- The number that a value reads as, or nothing when it reads as none. -/
def coerceNumeric (d : Dialect) (x : String) : String :=
  match d with
  | .postgres =>
      "CASE WHEN (" ++ x ++ ")::text ~ " ++ literal numericPattern ++ " THEN ((" ++ x ++
        ")::text)::numeric ELSE NULL END"
  | .sqlite =>
      let text := "TRIM(CAST(" ++ x ++ " AS TEXT))"
      let unsigned := "(CASE WHEN SUBSTR(" ++ text ++ ", 1, 1) IN ('-', '+') THEN SUBSTR(" ++ text ++
        ", 2) ELSE " ++ text ++ " END)"
      "CASE WHEN typeof(" ++ x ++ ") IN ('integer', 'real') THEN " ++ x ++ " WHEN " ++ unsigned ++
        " GLOB '*[0-9]*' AND " ++ unsigned ++ " NOT GLOB '*[^0-9.]*' AND " ++ unsigned ++
        " NOT GLOB '*.*.*' THEN CAST(" ++ text ++ " AS REAL) ELSE NULL END"

/-! ### Links and users -/

/-- A link leads to some record. -/
def linkExists (d : Dialect) (x : String) : String :=
  let text := match d with
    | .postgres => "(" ++ x ++ ")::text"
    | .sqlite => x
  "(" ++ x ++ " IS NOT NULL AND " ++ text ++ " NOT IN ('null', '[]', '\x7b\x7d'))"

/-- The title of a link, or the titles of several. -/
def linkTitle (d : Dialect) (x : String) (multi : Bool) : String :=
  match d, multi with
  | .postgres, true =>
      "(SELECT string_agg(e.value ->> 'title', ', ' ORDER BY e.ordinality) " ++
        "FROM jsonb_array_elements(" ++ x ++ ") WITH ORDINALITY AS e(value, ordinality))"
  | .postgres, false => "(" ++ x ++ " ->> 'title')"
  | .sqlite, true =>
      "(SELECT group_concat(json_extract(e.value, '$.title'), ', ') FROM json_each(" ++ x ++
        ") AS e)"
  | .sqlite, false => "json_extract(" ++ x ++ ", '$.title')"

/-- A link: the id and the title of a record, where a missing title is left out. -/
def linkObject (d : Dialect) (id title : String) : String :=
  match d with
  | .postgres =>
      "jsonb_strip_nulls(jsonb_build_object('id', " ++ id ++ ", 'title', " ++ title ++ "))"
  | .sqlite =>
      "json_patch('\x7b\x7d', json_object('id', " ++ id ++ ", 'title', " ++ title ++ "))"

/-- The user with the given id. -/
def userLookup (d : Dialect) (id userTable : String) : String :=
  let build := match d with
    | .postgres => "jsonb_build_object"
    | .sqlite => "json_object"
  "(SELECT " ++ build ++ "('id', " ++ qualified "u" "id" ++ ", 'title', " ++ qualified "u" "name" ++
    ") FROM " ++ ident userTable ++ " AS " ++ ident "u" ++ " WHERE " ++ qualified "u" "id" ++ " = " ++
    id ++ ")"

/-! ### JSON and aggregation -/

/-- A text that is JSON, as a JSON value. -/
def jsonValue (d : Dialect) (x : String) : String :=
  match d with
  | .postgres => x
  | .sqlite => "json(" ++ x ++ ")"

/-- Values can be ordered inside an aggregate; where they cannot, they come from ordered rows. -/
def ordersAggregates : Dialect → Bool
  | .postgres => true
  | .sqlite => false

/-- The order inside an aggregate. -/
def orderClause (order : Option String) : String :=
  match order with
  | some o => " ORDER BY " ++ o
  | none => ""

/-- The JSON array of the values that are there, missing when there are none. -/
def jsonAggregate (d : Dialect) (x : String) (order filter : Option String) : String :=
  let extra := match filter with
    | some f => " AND (" ++ f ++ ")"
    | none => ""
  let kept := " FILTER (WHERE " ++ x ++ " IS NOT NULL" ++ extra ++ ")"
  match d with
  | .postgres => "jsonb_agg(" ++ x ++ orderClause order ++ ")" ++ kept
  | .sqlite => "NULLIF(json_group_array(" ++ x ++ ")" ++ kept ++ ", '[]')"

/-- The values as one text, with a delimiter between them. -/
def stringAggregate (d : Dialect) (x delimiter : String) (order filter : Option String) : String :=
  let kept := match filter with
    | some f => " FILTER (WHERE " ++ f ++ ")"
    | none => ""
  match d with
  | .postgres => "STRING_AGG(" ++ x ++ ", " ++ literal delimiter ++ orderClause order ++ ")" ++ kept
  | .sqlite => "group_concat(" ++ x ++ ", " ++ literal delimiter ++ ")" ++ kept

/-- A JSON array without one level of nesting. -/
def flattenArray (d : Dialect) (x : String) : String :=
  match d with
  | .postgres => "jsonb_path_query_array(" ++ x ++ ", '$[*][*]')"
  | .sqlite =>
      "(SELECT NULLIF(json_group_array(v), '[]') FROM (SELECT CASE WHEN i.type IN " ++
        "('object', 'array') THEN json(i.value) ELSE i.value END AS v FROM json_each(" ++ x ++
        ") AS o, json_each(CASE WHEN o.type = 'array' THEN o.value WHEN o.type = 'object' THEN " ++
        "json_array(json(o.value)) ELSE json_array(o.value) END) AS i ORDER BY o.key, i.key))"

/-- The length of a JSON array. -/
def arrayLength (d : Dialect) (x : String) : String :=
  match d with
  | .postgres => "jsonb_array_length(" ++ x ++ ")"
  | .sqlite => "json_array_length(" ++ x ++ ")"

/-- A missing value of a column. -/
def typedNull (d : Dialect) (type : StorageType) : String :=
  match d with
  | .postgres =>
      match type with
      | .text => "NULL::text"
      | .integer => "NULL::integer"
      | .real => "NULL::double precision"
      | .boolean => "NULL::boolean"
      | .dateTime => "NULL::timestamptz"
      | .json => "NULL::jsonb"
  | .sqlite =>
      match type with
      | .integer | .boolean => "CAST(NULL AS INTEGER)"
      | .real => "CAST(NULL AS REAL)"
      | .text | .dateTime | .json => "CAST(NULL AS TEXT)"

end Dialect

end ComputedFields
