/-
**SQL for SQLite is SQL of SQLite.**

Formulas for SQLite go the same way through operators and functions as those for Postgres, and only where
the databases differ does each have a template of its own.  A branch that has been forgotten would send
words to SQLite that it does not know.  None has: no SQL for SQLite has a cast with colons outside of its
quotations, or a word that only Postgres knows.  Names of columns and strings of a formula may hold any
of them, since they stand in quotations.

Main definitions:

* `ComputedFields.Sql.Vocabulary.native` — all words but those that only Postgres knows.

Main results:

* `ComputedFields.Sql.Vocabulary.queries_native` — the keyword of a query is one of them;
* `ComputedFields.Context.native_compile` — **formulas for SQLite compile to such words**.
-/

import ComputedFields.Proofs.LexicalClosure

set_option relaxedAutoImplicit false
set_option autoImplicit false

namespace ComputedFields

open Sql (Vocabulary)

namespace Sql

/-- All words but those that only Postgres knows, and no casts with colons. -/
def Vocabulary.native : Vocabulary :=
  ⟨fun word => isPostgresWord word = false, False, fun _ _ hcommon => hcommon⟩

theorem Vocabulary.queries_native : native.Queries := by
  rintro ⟨word, hselect⟩
  show isPostgresWord word = false
  rw [isPostgresWord, of_decide_eq_true hselect]
  decide

end Sql

/-! ### Formulas -/

namespace Context

/-- **SQL for SQLite is SQL of SQLite.**  A formula that has been read, over a table whose formula fields
hold texts, compiles for SQLite to SQL without a colon outside of its quotations, and without the words
that only Postgres knows, whatever the mode, the alias of the record, the time zone and the names of
columns are. -/
theorem native_compile (ctx : Context) (hdialect : ctx.target.dialect = .sqlite)
    (hscope : ctx.scope = .detached) (htexts : ctx.table.Textual) (source : String) (f : Formula)
    (hparse : Formula.parse source = .ok f) (c : Compiled) (hc : ctx.compile f = .ok c) :
    ':' ∉ Sql.bare c.sql ∧ ∀ word ∈ Sql.words c.sql, Sql.isPostgresWord word = false := by
  have hspeaks : Vocabulary.native.Speaks ctx.target.dialect := hdialect ▸ inferInstance
  have hselections : ctx.scope.Tidy .native := hscope ▸ Scope.tidy_detached
  have hflat : f.Flat .native ctx.target ctx.compileField :=
    ⟨Formula.plainNumbers_of_parse hparse, .inl Vocabulary.queries_native⟩
  have htidy := Formula.tidy_of_compileWith (.inl Vocabulary.queries_native) hc hflat
    fun ref _ c' hread =>
      tidy_compileField_of_scope Vocabulary.queries_native htexts hselections hread
  exact ⟨htidy.render.casts, htidy.render.allows⟩

end Context

/-! ### A table with names of Postgres -/

namespace Sample

def foreignFields : List Field :=
  [.single "due" "due::timestamptz" .dateTime .column,
    .single "n" "numeric" .number .column,
    .ofSystem "maker" .createdBy,
    .single "label" "label" .string
      (.formula (.text "REPT(LEFT(\x7bmaker\x7d, 2), MAX(\x7bn\x7d, 3)) & '::jsonb'") false)]

/-- The names of columns, the alias of the record and the time zone are words of Postgres. -/
def foreignContext : Context :=
  ⟨.ofFields "tblA" "tasks" foreignFields,
    { dialect := .sqlite, mode := .select, timezone := "ZONE", rowAlias := some "left", now := ⟨0⟩ },
    .detached⟩

def repeatedFormula : Formula :=
  .binary
    (.call (.known (.text .rept))
      [.call (.known (.text .left)) [.field "maker", .number "2"],
        .call (.known (.numeric .max)) [.field "n", .number "3"]])
    .concat (.text "::jsonb")

def foreignFormula : Formula :=
  .call (.known (.logical .ifElse))
    [.binary (.call (.known (.text .find)) [.text "AGE", .field "label"]) .gt (.number "0"),
      .call (.known (.date .datetimeFormat)) [.field "due", .text "YYYY"],
      .field "n"]

theorem parse_repeated :
    Formula.parse "REPT(LEFT(\x7bmaker\x7d, 2), MAX(\x7bn\x7d, 3)) & '::jsonb'" =
      .ok repeatedFormula := by cbv

theorem parse_foreign :
    Formula.parse "IF(FIND('AGE', \x7blabel\x7d) > 0, DATETIME_FORMAT(\x7bdue\x7d, 'YYYY'), \x7bn\x7d)" =
      .ok foreignFormula := by cbv

theorem compileField_label : ∃ c, foreignContext.compileField "label" = .ok c := by
  have hlabel : foreignContext.expand 5 [] "label" = _ :=
    Context.expand_of_formula rfl rfl List.not_mem_nil parse_repeated
  exact ⟨_, hlabel⟩

theorem compile_foreign : ∃ c, foreignContext.compile foreignFormula = .ok c := by
  obtain ⟨label, hlabel⟩ := compileField_label
  unfold foreignFormula Context.compile
  simp only [Formula.compileWith, Formula.compileAllWith, hlabel]
  exact ⟨_, rfl⟩

end Sample

namespace Context

/-- A formula of functions that each database spells in its own way, over such names. -/
theorem native_compile_foreign :
    Sample.foreignContext.target.dialect = .sqlite ∧ Sample.foreignContext.scope = .detached ∧
    Sample.foreignContext.table.Textual ∧
    ∃ c, Sample.foreignContext.compile Sample.foreignFormula = .ok c ∧ ':' ∉ Sql.bare c.sql ∧
      ∀ word ∈ Sql.words c.sql, Sql.isPostgresWord word = false := by
  have htexts : Sample.foreignContext.table.Textual := by decide
  obtain ⟨c, hc⟩ := Sample.compile_foreign
  exact ⟨rfl, rfl, htexts, c, hc, native_compile Sample.foreignContext rfl rfl htexts _ _
    Sample.parse_foreign c hc⟩

end Context

end ComputedFields
