/-
**Functions on multi-valued fields.**

A value that is no array counts as an array of one; what these functions make of a missing one is
missing too.

Main definitions:

* `ComputedFields.Target.singleton` — the array of one value;
* `ComputedFields.ArrayFunction.apply` — a call in SQL.
-/

import ComputedFields.Builtin.Call
import ComputedFields.Function

set_option relaxedAutoImplicit false
set_option autoImplicit false

namespace ComputedFields

open Sql (Expr)

/-- The array of one value. -/
def Target.singleton (t : Target) (f : Fragment) : Expr :=
  let build := match t.dialect with
    | .postgres => "jsonb_build_array"
    | .sqlite => "json_array"
  .case [(.verbatim (f.sql ++ " IS NULL"), .null)] (some (.call build [f.expr]))

namespace ArrayFunction

/-- One for a value that is there, else zero. -/
def present (x : String) : String := "CASE WHEN " ++ x ++ " IS NULL THEN 0 ELSE 1 END"

/-- The number of values. -/
def size (d : Dialect) (f : Fragment) : String :=
  if f.isArray then "COALESCE(" ++ d.arrayLength f.sql ++ ", 0)" else present f.sql

/-- The number of values that are neither missing nor empty. -/
def filledCount (t : Target) (f : Fragment) : String :=
  if f.isArray then
    match t.dialect with
    | .postgres =>
        "(SELECT COUNT(*) FROM jsonb_array_elements_text(" ++ f.sql ++
          ") AS e(v) WHERE e.v IS NOT NULL AND e.v <> '')"
    | .sqlite =>
        "(SELECT COUNT(*) FROM json_each(" ++ f.sql ++
          ") AS e WHERE e.type <> 'null' AND CAST(e.value AS TEXT) <> '')"
  else
    "CASE WHEN " ++ f.sql ++ " IS NULL OR " ++ (t.text f).render ++ " = '' THEN 0 ELSE 1 END"

/-- The number of values that are numbers. -/
def numberCount (t : Target) (f : Fragment) : String :=
  if f.isArray then
    match t.dialect with
    | .postgres =>
        "(SELECT COUNT(*) FROM jsonb_array_elements(" ++ f.sql ++
          ") AS e(v) WHERE jsonb_typeof(e.v) = 'number')"
    | .sqlite =>
        "(SELECT COUNT(*) FROM json_each(" ++ f.sql ++
          ") AS e WHERE e.type IN ('integer', 'real'))"
  else
    match f.type with
    | .number => present f.sql
    | .string => present (t.numeric f).render
    | _ => "0"

/-- The values as one text. -/
def joinedText (d : Dialect) (x separator : String) : String :=
  match d with
  | .postgres =>
      "(SELECT string_agg(e.v, " ++ separator ++
        " ORDER BY e.i) FROM jsonb_array_elements_text(" ++ x ++ ") WITH ORDINALITY AS e(v, i))"
  | .sqlite =>
      "(SELECT group_concat(e.value, " ++ separator ++ ") FROM json_each(" ++ x ++ ") AS e)"

/-- An element of an array, as JSON when it is an array or an object. -/
def element : String :=
  "CASE WHEN e.type IN ('object', 'array') THEN json(e.value) ELSE e.value END"

/-- The array with every value at its first place only. -/
def unique (d : Dialect) (x : String) : String :=
  match d with
  | .postgres =>
      "(SELECT jsonb_agg(e.v ORDER BY e.i) FROM jsonb_array_elements(" ++ x ++
        ") WITH ORDINALITY AS e(v, i) WHERE NOT EXISTS (SELECT 1 FROM jsonb_array_elements(" ++ x ++
        ") WITH ORDINALITY AS p(v, i) WHERE p.v = e.v AND p.i < e.i))"
  | .sqlite =>
      "(SELECT json_group_array(" ++ element ++ ") FROM json_each(" ++ x ++
        ") AS e WHERE NOT EXISTS (SELECT 1 FROM json_each(" ++ x ++
        ") AS p WHERE p.value IS e.value AND p.key < e.key))"

/-- The array without values that are missing or empty. -/
def compact (d : Dialect) (x : String) : String :=
  match d with
  | .postgres =>
      "(SELECT jsonb_agg(e.v ORDER BY e.i) FROM jsonb_array_elements(" ++ x ++
        ") WITH ORDINALITY AS e(v, i) WHERE e.v <> 'null'::jsonb AND e.v <> '\"\"'::jsonb)"
  | .sqlite =>
      "(SELECT json_group_array(" ++ element ++ ") FROM json_each(" ++ x ++
        ") AS e WHERE e.type <> 'null' AND NOT (e.type = 'text' AND e.value = ''))"

/-- The values joined to one text, with the second argument between them. -/
def join (t : Target) (c : Call) : Except CompileError Fragment := do
  let value ← c.arg 0
  let separator := (c.args[1]?.map t.text).getD (t.stringLiteral ", ")
  .ok (.string (if value.isArray then
      .verbatim (joinedText t.dialect value.sql separator.render)
    else t.text value))

/-- An array made from the only argument. -/
def remade (t : Target) (c : Call) (make : String → String) : Except CompileError Fragment := do
  let value ← c.arg 0
  .ok (.array (if value.isArray then .verbatim (make value.sql) else t.singleton value) value.type)

/-- A call in SQL. -/
def apply (t : Target) (f : ArrayFunction) (args : List Fragment) :
    Except CompileError Fragment :=
  let c : Call := ⟨f.signature.name, args⟩
  match f with
  | .countAll => do
      let value ← c.arg 0
      .ok (.number (.verbatim (size t.dialect value)))
  | .countA => .ok (.number (.chain .add (args.map fun f => .verbatim (filledCount t f))))
  | .count => .ok (.number (.chain .add (args.map fun f => .verbatim (numberCount t f))))
  | .arrayJoin => join t c
  | .arrayUnique => remade t c (unique t.dialect)
  | .arrayFlatten => remade t c t.dialect.flattenArray
  | .arrayCompact => remade t c (compact t.dialect)

end ArrayFunction

end ComputedFields
