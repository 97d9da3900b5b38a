/-
**Compiled formulas are lexically closed.**

The names of fields, columns and tables, the strings of a formula and the selections of a query all
stand in the SQL of a formula.  None of them can end its quotation early, and none of them can leave a
parenthesis open: what is put together from them has all quotations closed, and its parentheses are
balanced.  A number stands in the SQL as it is spelled; so the formulas have to be read from texts,
which spell numbers by digits and points only.  A formula that was put in as a tree can spell them in
any way.

Main definitions:

* `ComputedFields.Field.isTextual`, `ComputedFields.Table.Textual` — formula fields that hold texts;
* `ComputedFields.Scope.Sealed` — scopes whose selections are lexically closed;
* `ComputedFields.Scope.Tidy` — scopes whose selections have allowed words only.

Main results:

* `ComputedFields.Context.tidy_plain_of_scope` — a field that is no formula is tidy;
* `ComputedFields.Context.tidy_compileField_of_scope` — so is any field, expanded through its formulas;
* `ComputedFields.Context.sealed_compile` — **and every formula that has been read**.
-/

import Mathlib
import ComputedFields.Proofs.CompiledText

set_option relaxedAutoImplicit false
set_option autoImplicit false

namespace ComputedFields

open Sql (Sealed Vocabulary)

/-! ### Formula fields that hold texts -/

/-- The field is no formula, or a formula that is given by its text. -/
def Field.isTextual (field : Field) : Bool :=
  match field.kind with
  | .formula (.tree _) _ => false
  | _ => true

/-- All formula fields of the table are given by their texts. -/
def Table.Textual (table : Table) : Prop := ∀ field ∈ table.fields, field.isTextual = true

instance (table : Table) : Decidable table.Textual :=
  inferInstanceAs (Decidable (∀ field ∈ table.fields, field.isTextual = true))

/-- A formula behind a textual field has been read. -/
theorem Table.Textual.exists_parse {table : Table} (h : table.Textual) {id : String} {f : Formula}
    (hholds : table.Holds id f) : ∃ source, Formula.parse source = .ok f := by
  obtain ⟨field, source, persisted, hfield, hkind, hformula⟩ := hholds
  have htextual := h field (mem_of_field? hfield)
  cases source with
  | text expression => exact ⟨expression, hformula⟩
  | tree root =>
      rw [Field.isTextual, hkind] at htextual
      cases htextual

/-- So it spells its numbers by digits and points. -/
theorem Table.Textual.plainNumbers {table : Table} (h : table.Textual) {id : String} {f : Formula}
    (hholds : table.Holds id f) : f.PlainNumbers := by
  obtain ⟨source, hparse⟩ := h.exists_parse hholds
  exact Formula.plainNumbers_of_parse hparse

/-! ### Fields -/

/-- All selections of the scope are lexically closed. -/
def Scope.Sealed (scope : Scope) : Prop :=
  ∀ id sql, scope.selection? id = some sql → Sql.Sealed sql

theorem Scope.sealed_detached : Scope.detached.Sealed := nofun

/-- All selections of the scope are tidy. -/
def Scope.Tidy (V : Vocabulary) (scope : Scope) : Prop :=
  ∀ id sql, scope.selection? id = some sql → Sql.Tidy V sql

theorem Scope.tidy_detached {V : Vocabulary} : Scope.detached.Tidy V := nofun

theorem Scope.Sealed.tidy_every {scope : Scope} (h : scope.Sealed) : scope.Tidy .every :=
  fun id sql hsql => (h id sql hsql).tidy_every

namespace Context

variable {V : Vocabulary} {ctx : Context} {id : String} {c : Compiled}

theorem tidy_visible (h : ctx.scope.Tidy V) : ctx.visible.Tidy V := by
  unfold visible
  split
  · exact h
  · exact Scope.tidy_detached

section

variable [V.Speaks ctx.target.dialect]

theorem tidy_stored (hV : V.Queries) (h : ctx.scope.Tidy V) (field : Field) :
    (ctx.stored field).Tidy V := by
  have hcolumn := Target.tidy_column (V := V) ctx.target field.column
  unfold stored
  split
  · next sql hsql => exact .verbatim (tidy_visible h _ _ hsql)
  · split
    · exact .column _ _
    · split
      · exact .verbatim (Dialect.tidy_userLookup _ hV ctx.target.userTable hcolumn.render)
      · exact hcolumn

/-- **A field that is no formula is tidy**, whatever its column, its table and the table of users are
called. -/
theorem tidy_plain_of_scope (hV : V.Queries) (h : ctx.scope.Tidy V) (field : Field) :
    (ctx.plain field).fragment.expr.Tidy V := by
  have hstored := tidy_stored hV h field
  have htitle : ∀ multi, (Sql.Expr.verbatim
      (ctx.target.dialect.linkTitle (ctx.stored field).render multi)).Tidy V := fun multi =>
    .verbatim (Dialect.tidy_linkTitle _ hV multi hstored.render)
  unfold plain typed
  split
  · exact htitle _
  · split
    · exact htitle _
    · split
      · exact hstored
      · exact hstored

/-- **A field is tidy**, expanded through its formulas. -/
theorem tidy_compileField_of_scope (hV : V.Queries) (htexts : ctx.table.Textual)
    (hscope : ctx.scope.Tidy V) (hc : ctx.compileField id = .ok c) : c.fragment.expr.Tidy V :=
  tidy_of_expand (.inl hV) hc (fun field _ _ => tidy_plain_of_scope hV hscope field)
    fun _ _ _ hholds => ⟨htexts.plainNumbers hholds, .inl hV⟩

end

theorem tidy_compileField (htexts : ctx.table.Textual) (hscope : ctx.scope.Sealed)
    (hc : ctx.compileField id = .ok c) : c.fragment.expr.Tidy .every :=
  tidy_compileField_of_scope (fun _ => trivial) htexts hscope.tidy_every hc

/-! ### Formulas -/

/-- **Compiled formulas are lexically closed.**  A formula that has been read, over a table whose
formula fields hold texts, compiles to SQL in which every quotation is closed, and the parentheses
outside of quotations are balanced; no string and no name breaks out of its quotation. -/
theorem sealed_compile (ctx : Context) (htexts : ctx.table.Textual) (hscope : ctx.scope.Sealed)
    (source : String) (f : Formula) (hparse : Formula.parse source = .ok f) (c : Compiled)
    (hc : ctx.compile f = .ok c) : Sql.Sealed c.sql := by
  have hflat : f.Flat .every ctx.target ctx.compileField :=
    ⟨Formula.plainNumbers_of_parse hparse, .inl fun _ => trivial⟩
  have htidy := Formula.tidy_of_compileWith (.inl fun _ => trivial) hc hflat
    fun ref _ c' hread => tidy_compileField htexts hscope hread
  exact htidy.render.toSealed

end Context

/-! ### Names with marks and parentheses -/

namespace Sample

def quotedFields : List Field :=
  [.single "a'b" "x\")" .string .column,
    .single "note" "note" .string (.formula (.text "\x7ba'b\x7d & 'it\\'s ('") false),
    .ofSystem "maker" .createdBy,
    .single "tag" "tag" .string .column]

/-- A field of the record has a mark and a parenthesis in the name of its column, the table of users
has one in its name, and a field is selected by SQL with one in a quotation. -/
def quotedContext : Context :=
  ⟨.ofFields "tblA" "notes" quotedFields, { userTable := "(users", now := ⟨0⟩ },
    { layers := [[("tag", "(\"c)\".\"x\")")]] }⟩

def noteFormula : Formula := .binary (.field "a'b") .concat (.text "it's (")

def quotedFormula : Formula :=
  .call (.known (.text .concatenate)) [.field "note", .field "maker", .field "tag", .text "')"]

theorem parse_note : Formula.parse "\x7ba'b\x7d & 'it\\'s ('" = .ok noteFormula := by cbv

theorem parse_quoted :
    Formula.parse "CONCATENATE(\x7bnote\x7d, \x7bmaker\x7d, \x7btag\x7d, \"')\")" =
      .ok quotedFormula := by cbv

theorem sealed_quotedScope : quotedContext.scope.Sealed := by
  intro id sql h
  obtain ⟨layer, hlayer, hget⟩ := List.exists_of_findSome?_eq_some h
  cases List.mem_singleton.1 hlayer
  obtain ⟨entry, hentry, rfl⟩ := Option.map_eq_some_iff.1 hget
  cases List.mem_singleton.1 (Keyed.mem_of_get? hentry)
  show Sealed "(\"c)\".\"x\")"
  exact .const (by decide)

theorem compileField_note : ∃ c, quotedContext.compileField "note" = .ok c := by
  have hnote : quotedContext.expand 5 [] "note" = _ :=
    Context.expand_of_formula rfl rfl List.not_mem_nil parse_note
  exact ⟨_, hnote⟩

theorem compile_quoted : ∃ c, quotedContext.compile quotedFormula = .ok c := by
  obtain ⟨note, hnote⟩ := compileField_note
  unfold quotedFormula Context.compile
  simp only [Formula.compileWith, Formula.compileAllWith, hnote]
  exact ⟨_, rfl⟩

end Sample

namespace Context

/-- A formula of such names, which also reads a formula field and a user. -/
theorem sealed_compile_quoted :
    Sample.quotedContext.table.Textual ∧ Sample.quotedContext.scope.Sealed ∧
    Formula.parse "CONCATENATE(\x7bnote\x7d, \x7bmaker\x7d, \x7btag\x7d, \"')\")" =
      .ok Sample.quotedFormula ∧
    ∃ c, Sample.quotedContext.compile Sample.quotedFormula = .ok c ∧ Sql.Sealed c.sql := by
  have htexts : Sample.quotedContext.table.Textual := by decide
  obtain ⟨c, hc⟩ := Sample.compile_quoted
  exact ⟨htexts, Sample.sealed_quotedScope, Sample.parse_quoted, c, hc,
    sealed_compile Sample.quotedContext htexts Sample.sealed_quotedScope _ _ Sample.parse_quoted c hc⟩

end Context

end ComputedFields
