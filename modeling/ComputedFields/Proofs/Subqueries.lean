/-
**Subqueries in generated columns.**

A generated column may hold no subquery, so functions that need one are refused for it.  One way to a
subquery is left open: a rounding function compiles, for the database without powers, to a recursive
query when its precision is no literal.  Here it is shown that there is no other way: the SQL of a
formula that passes the check has the keyword of a query outside of its quotations only if such a call
is in it, or in a formula field behind it; and such a call always has it.

Main results:

* `ComputedFields.Formula.compileWith_tidy`, `ComputedFields.Context.expand_tidy` — formulas and fields
  compile to tidy texts;
* `ComputedFields.Formula.hasSelect_of_roundsByValue` — a call that rounds by a value is a subquery;
* `ComputedFields.Context.hasSelect_generated` — **where subqueries in generated columns come from**.
-/

import Mathlib
import ComputedFields.Proofs.CompiledText
import ComputedFields.Proofs.GeneratedColumns

set_option relaxedAutoImplicit false
set_option autoImplicit false

namespace ComputedFields

open Sql (Expr Vocabulary)

/-! ### Formulas -/

namespace Formula

variable {V : Vocabulary} {t : Target} {read : String → Except CompileError Compiled} {f : Formula}

/-- A formula of a generated column compiles to a tidy text, if its fields do. -/
theorem compileWith_tidy (hmode : t.mode = .generated) {c : Compiled}
    (h : f.compileWith t read = .ok c) (hflat : f.Flat V t read)
    (hread : ∀ ref ∈ f.references, ∀ c, read ref = .ok c → c.fragment.expr.Tidy V) :
    c.fragment.expr.Tidy V :=
  tidy_of_compileWith (.inr hmode) h hflat hread

/-- **A call that rounds by a value is a subquery**, in the database that has no powers. -/
theorem hasSelect_of_roundsByValue (hmode : t.mode = .generated) (hd : t.dialect = .sqlite)
    {c : Compiled} (hc : f.compileWith t read = .ok c) (hrounds : f.RoundsByValue t read)
    (hnumbers : f.PlainNumbers)
    (hread : ∀ ref ∈ f.references, ∀ c, read ref = .ok c → c.fragment.expr.Tidy .every) :
    Sql.hasSelect c.sql = true := by
  obtain ⟨g, value, precision, p, hg, rfl, hp, hliteral⟩ := hrounds
  have hflat : Flat .every t read (.call (.known (.numeric g)) [value, precision]) :=
    ⟨hnumbers, .inl fun _ => trivial⟩
  obtain ⟨-, -, parts, fragment, hparts, hfragment, rfl⟩ := compileWith_call_eq_ok_iff.1 hc
  have htidy : ∀ c ∈ parts, c.fragment.expr.Tidy .every :=
    tidy_of_compileAllWith (.inr hmode) hparts (fun g hg => hflat.sub (.call hg .self))
      fun g hg ref href => hread ref (mem_references_call.2 ⟨g, hg, href⟩)
  obtain ⟨first, hfirst, hparts⟩ := exists_of_bind_eq_ok hparts
  obtain ⟨others, hothers, hparts⟩ := exists_of_bind_eq_ok hparts
  obtain ⟨second, hsecond, hothers⟩ := exists_of_bind_eq_ok hothers
  cases hothers
  cases hparts
  cases hp.symm.trans hsecond
  have hvalue := Target.tidy_numeric t (htidy first (by simp))
  have hfactor : (t.scaleFactor (some p.fragment)).Tidy .every :=
    Target.tidy_scaleFactor (by simpa using htidy p (by simp)) (.inl fun _ => trivial)
  have hselect : Sql.hasSelect (t.scaleFactor (some p.fragment)).render = true := by
    simp only [Target.scaleFactor, hliteral, Target.computedPower, hd]
    exact Target.hasSelect_iteratedPower _ _
  rcases hg with rfl | rfl
  · cases hfragment
    exact NumericFunction.hasSelect_roundedAt (fun _ => Target.tidy_ceil t) hvalue hfactor hselect
  · cases hfragment
    exact NumericFunction.hasSelect_roundedAt (fun _ => Target.tidy_floor t) hvalue hfactor hselect

end Formula

/-! ### Fields -/

namespace Context

variable {V : Vocabulary} {ctx : Context} {depth : Nat} {path : List String} {id : String}
  {c : Compiled} {f : Formula}

/-- A field in a column of the record is that column. -/
theorem tidy_plain {field : Field} (hmode : ctx.target.mode = .generated)
    (hfield : ctx.table.field? id = some field) (hstores : ctx.table.Stores id) :
    (ctx.plain field).fragment.expr.Tidy V := by
  obtain ⟨field', hfield', hkind⟩ := hstores
  cases hfield.symm.trans hfield'
  have huser : field.kind.isUser = false := by
    rcases hkind with hkind | ⟨s, hkind, hs⟩
    · rw [hkind]
      rfl
    · rw [hkind]
      exact hs
  have hlink : field.kind.isLink = false := by
    rcases hkind with hkind | ⟨s, hkind, -⟩ <;> rw [hkind] <;> rfl
  have hselection : ctx.visible.selection? field.id = none := by
    rw [visible, hmode]
    rfl
  have hcte : ctx.visible.cteName? field.id = none := by
    rw [visible, hmode]
    rfl
  have hstored : (ctx.stored field).Tidy V := by
    simp only [stored, hselection, hcte, huser]
    exact Target.tidy_column _ _
  simp only [plain, typed, hlink, huser, Bool.false_eq_true, if_false]
  split <;> exact hstored

/-- A field of a generated column compiles to a tidy text, if it reads columns of the record only and
the formulas behind it are flat. -/
theorem expand_tidy (hmode : ctx.target.mode = .generated) (hc : ctx.expand depth path id = .ok c)
    (hreads : ∀ x ∈ c.reads, ctx.table.Stores x)
    (hflat : ∀ id' g, Relation.ReflTransGen ctx.table.Leads id id' → ctx.table.Holds id' g →
      g.Flat V ctx.target ctx.compileField) : c.fragment.expr.Tidy V :=
  tidy_of_expand (.inr hmode) hc (fun field hfield hmem =>
    tidy_plain hmode (Table.field?_of_mem hfield) (hreads field.id hmem)) hflat

/-! ### Where subqueries come from -/

/-- **Where subqueries in generated columns come from.**  A formula that has been read, over formula
fields that have been read, passes the check and compiles.  If its SQL has the keyword of a query
outside of quotations, then the database has no powers, and the formula or one behind it rounds by a
precision that is no literal.  A formula that is such a call does have the keyword. -/
theorem hasSelect_generated (ctx : Context) (hmode : ctx.target.mode = .generated) (f : Formula)
    (hparsed : ∀ g, ctx.table.Expanded f g → ∃ source, Formula.parse source = .ok g)
    (hgenerates : ctx.table.generates ctx.target.dialect (some f) = true) (c : Compiled)
    (hc : ctx.compileTree (some f) = .ok c) :
    (Sql.hasSelect c.sql = true → ctx.target.dialect = .sqlite ∧
      ∃ g call, ctx.table.Expanded f g ∧ Formula.Part call g ∧
        call.RoundsByValue ctx.target ctx.compileField) ∧
    (ctx.target.dialect = .sqlite → f.RoundsByValue ctx.target ctx.compileField →
      Sql.hasSelect c.sql = true) := by
  have hnumbers : ∀ g, ctx.table.Expanded f g → g.PlainNumbers := by
    intro g hg
    obtain ⟨source, hsource⟩ := hparsed g hg
    exact Formula.plainNumbers_of_parse hsource
  -- all fields that are read are columns of the record, so that every field compiles to a tidy text
  have hread : ∀ V : Vocabulary, (∀ g, ctx.table.Expanded f g → g.Flat V ctx.target ctx.compileField) →
      ∀ ref ∈ f.references, ∀ c, ctx.compileField ref = .ok c → c.fragment.expr.Tidy V := by
    intro V hflat ref href c' hread
    refine expand_tidy hmode hread ?_ fun id g hway hholds =>
      hflat g (.inr ⟨id, .of_leads href hway, hholds⟩)
    exact stores_of_mem_reads (fun _ => Iff.rfl) (Formula.field_of_generatesWith hgenerates ref href)
      hread
  refine ⟨fun hselect => ?_, fun hd hrounds => ?_⟩
  · by_contra hnone
    have hflat : ∀ g, ctx.table.Expanded f g → g.Flat .flat ctx.target ctx.compileField :=
      fun g hg => ⟨hnumbers g hg, .inr fun hd call hcall hrounds =>
        hnone ⟨hd, g, call, hg, hcall, hrounds⟩⟩
    have htidy := Formula.compileWith_tidy hmode hc (hflat f (.inl rfl)) (hread .flat hflat)
    rw [Compiled.sql, Fragment.sql, Sql.hasSelect_eq_false htidy.render] at hselect
    cases hselect
  · exact Formula.hasSelect_of_roundsByValue hmode hd hc hrounds (hnumbers f (.inl rfl))
      (hread .every fun g hg => ⟨hnumbers g hg, .inl fun _ => trivial⟩)

end Context

/-! ### Tables of prices -/

namespace Sample

/-- A number and a precision. -/
def pairFields : List Field :=
  [.single "n" "n" .number .column, .single "p" "p" .number .column]

def pairContext : Context :=
  ⟨.ofFields "tblA" "prices" pairFields, { dialect := .sqlite, mode := .generated, now := ⟨0⟩ },
    .detached⟩

def pairFormula : Formula := .call (.known (.numeric .roundUp)) [.field "n", .field "p"]

def cutFormula : Formula := .call (.known (.numeric .roundDown)) [.field "n", .number "2"]

def roundedFormula : Formula := .call (.known (.numeric .roundUp)) [.field "cut", .field "p"]

/-- The number cut off at a literal precision, in a field of its own. -/
def pricesFields : List Field :=
  pairFields ++ [.single "cut" "cut" .number (.formula (.tree (some cutFormula)) false)]

def prices : Table := .ofFields "tblA" "prices" pricesFields

def pricesContext : Context :=
  ⟨prices, { dialect := .sqlite, mode := .generated, now := ⟨0⟩ }, .detached⟩

theorem parse_cut : Formula.parse "ROUNDDOWN(\x7bn\x7d, 2)" = .ok cutFormula := by cbv

theorem parse_rounded : Formula.parse "ROUNDUP(\x7bcut\x7d, \x7bp\x7d)" = .ok roundedFormula := by cbv

theorem parse_pair : Formula.parse "ROUNDUP(\x7bn\x7d, \x7bp\x7d)" = .ok pairFormula := by cbv

theorem prices_holds {id : String} {g : Formula} (h : prices.Holds id g) : g = cutFormula := by
  obtain ⟨field, source, persisted, hfield, hkind, hformula⟩ := h
  have hmem : field ∈ pricesFields := Table.mem_of_field? hfield
  simp only [pricesFields, pairFields, List.cons_append, List.nil_append, List.mem_cons,
    List.not_mem_nil, or_false] at hmem
  rcases hmem with rfl | rfl | rfl
  · cases hkind
  · cases hkind
  · cases hkind
    cases hformula
    rfl

theorem roundsByValue_rounded :
    roundedFormula.RoundsByValue pricesContext.target pricesContext.compileField :=
  ⟨.roundUp, .field "cut", .field "p", _, .inl rfl, rfl, rfl, rfl⟩

theorem roundsByValue_pair :
    pairFormula.RoundsByValue pairContext.target pairContext.compileField :=
  ⟨.roundUp, .field "n", .field "p", _, .inl rfl, rfl, rfl, rfl⟩

end Sample

namespace Context

/-- A number that a formula field has cut off is rounded up by another field: this passes the check,
and there is a subquery because of the second rounding. -/
theorem hasSelect_generated_prices :
    Sample.pricesContext.target.mode = .generated ∧
    (∀ g, Sample.prices.Expanded Sample.roundedFormula g → ∃ source, Formula.parse source = .ok g) ∧
    Sample.prices.generates .sqlite (some Sample.roundedFormula) = true ∧
    Sample.roundedFormula.RoundsByValue Sample.pricesContext.target
      Sample.pricesContext.compileField ∧
    ∃ c, Sample.pricesContext.compileTree (some Sample.roundedFormula) = .ok c ∧
      Sql.hasSelect c.sql = true ∧
      ∃ g call, Sample.prices.Expanded Sample.roundedFormula g ∧ Formula.Part call g ∧
        call.RoundsByValue Sample.pricesContext.target Sample.pricesContext.compileField := by
  have hparsed : ∀ g, Sample.prices.Expanded Sample.roundedFormula g →
      ∃ source, Formula.parse source = .ok g := by
    rintro g (rfl | ⟨id, -, hholds⟩)
    · exact ⟨_, Sample.parse_rounded⟩
    · exact ⟨_, Sample.prices_holds hholds ▸ Sample.parse_cut⟩
  have hgenerates : Sample.prices.generates .sqlite (some Sample.roundedFormula) = true := by decide
  obtain ⟨c, hc⟩ : ∃ c, Sample.pricesContext.compileTree (some Sample.roundedFormula) = .ok c :=
    ⟨_, rfl⟩
  obtain ⟨honly, hif⟩ := hasSelect_generated Sample.pricesContext rfl Sample.roundedFormula hparsed
    hgenerates c hc
  have hselect := hif rfl Sample.roundsByValue_rounded
  exact ⟨rfl, hparsed, hgenerates, Sample.roundsByValue_rounded, c, hc, hselect, (honly hselect).2⟩

/-- A formula that has been read and passes the check compiles to a subquery. -/
theorem generates_subquery :
    Formula.parse "ROUNDUP(\x7bn\x7d, \x7bp\x7d)" = .ok Sample.pairFormula ∧
    Sample.pairContext.target.mode = .generated ∧
    Sample.pairContext.table.generates .sqlite (some Sample.pairFormula) = true ∧
    ∃ c, Sample.pairContext.compileTree (some Sample.pairFormula) = .ok c ∧
      Sql.hasSelect c.sql = true := by
  obtain ⟨c, hc⟩ : ∃ c, Sample.pairContext.compileTree (some Sample.pairFormula) = .ok c := ⟨_, rfl⟩
  have hn : Sample.pairContext.compileField "n" = .ok ⟨.number (.column none "n"), ["n"]⟩ := rfl
  have hp : Sample.pairContext.compileField "p" = .ok ⟨.number (.column none "p"), ["p"]⟩ := rfl
  refine ⟨Sample.parse_pair, rfl, by decide, c, hc, ?_⟩
  refine Formula.hasSelect_of_roundsByValue rfl rfl hc Sample.roundsByValue_pair
    (Formula.plainNumbers_of_parse Sample.parse_pair) fun ref href c hread => ?_
  have href : ref = "n" ∨ ref = "p" := by
    simpa [Sample.pairFormula, Formula.references, Formula.addReferences,
      Formula.addAllReferences] using href
  rcases href with rfl | rfl
  · cases hn.symm.trans hread
    exact .column none "n"
  · cases hp.symm.trans hread
    exact .column none "p"

end Context

end ComputedFields
