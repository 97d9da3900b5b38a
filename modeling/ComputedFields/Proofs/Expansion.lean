/-
**How formula fields are expanded.**

A formula field stands for its formula, whose references may be formula fields again.  The compiler
follows them with a path of the fields that are being expanded and with a bound on the depth.  Here
it is shown that neither of the two matters to a value: the bound is never reached, because a path
passes no field twice, and a field that can be expanded at all has the same value wherever it is
reached, because it lies on no circle.

Main definitions:

* `ComputedFields.Formula.Part` — a formula inside another;
* `ComputedFields.Table.Holds`, `ComputedFields.Table.Leads` — the formula of a field, and the fields
  that it refers to;
* `ComputedFields.Table.Reaches`, `ComputedFields.Table.Expanded` — the fields and the formulas that a
  formula leads to;
* `ComputedFields.Table.Trail` — the way on which an expansion reaches a field.

Main results:

* `ComputedFields.Table.Trail.length_le` — **the depth suffices**;
* `ComputedFields.Context.not_onCircle_of_expand` — what can be expanded lies on no circle;
* `ComputedFields.Context.expand_of_trail` — **a value does not depend on the way to it**.
-/

import Mathlib.Data.List.Nodup
import Mathlib.Data.List.Perm.Subperm
import Mathlib.Logic.Relation
import ComputedFields.Proofs.FormulaReads

set_option relaxedAutoImplicit false
set_option autoImplicit false

namespace ComputedFields

open Relation (ReflTransGen TransGen)

/-! ### Parts of a formula -/

/-- A formula is another one, or occurs inside it. -/
inductive Formula.Part (part : Formula) : Formula → Prop where
  | self : Part part part
  | call {callee : Callee} {args : List Formula} {arg : Formula} :
      arg ∈ args → Part part arg → Part part (.call callee args)
  | left {left right : Formula} {op : BinaryOp} : Part part left → Part part (.binary left op right)
  | right {left right : Formula} {op : BinaryOp} :
      Part part right → Part part (.binary left op right)
  | operand {op : UnaryOp} {operand : Formula} : Part part operand → Part part (.unary op operand)
  | chain {op : BinaryOp} {operands : List Formula} {operand : Formula} :
      operand ∈ operands → Part part operand → Part part (.chain op operands)

theorem Formula.Part.trans {f g h : Formula} (hf : Part f g) (hg : Part g h) : Part f h := by
  induction hg with
  | self => exact hf
  | call hmem _ ih => exact .call hmem ih
  | left _ ih => exact .left ih
  | right _ ih => exact .right ih
  | operand _ ih => exact .operand ih
  | chain hmem _ ih => exact .chain hmem ih

namespace Table

/-- The field is a formula field and stands for the formula. -/
def Holds (table : Table) (id : String) (f : Formula) : Prop :=
  ∃ field source persisted, table.field? id = some field ∧
    field.kind = .formula source persisted ∧ source.formula = .ok f

/-- The field is a formula field whose formula mentions the other one. -/
def Leads (table : Table) (id ref : String) : Prop := ∃ f, table.Holds id f ∧ ref ∈ f.mentions

/-- The field is a formula field that leads back to itself. -/
def OnCircle (table : Table) (id : String) : Prop := TransGen table.Leads id id

/-- The formula mentions the field, or a formula field that leads to it. -/
def Reaches (table : Table) (f : Formula) (id : String) : Prop :=
  ∃ ref ∈ f.mentions, ReflTransGen table.Leads ref id

/-- The second formula is compiled whenever the first one is: it is the first one, or the formula of a
field that the first one reaches. -/
def Expanded (table : Table) (root f : Formula) : Prop :=
  f = root ∨ ∃ id, table.Reaches root id ∧ table.Holds id f

/-- The way on which an expansion reaches a field: no formula field is passed twice, and each of them
leads to the field. -/
structure Trail (table : Table) (path : List String) (id : String) : Prop where
  nodup : path.Nodup
  leads : ∀ x ∈ path, TransGen table.Leads x id

variable {table : Table} {id ref : String} {f g : Formula} {path : List String}

theorem Holds.unique (hf : table.Holds id f) (hg : table.Holds id g) : f = g := by
  obtain ⟨field, source, persisted, hfield, hkind, hformula⟩ := hf
  obtain ⟨field', source', persisted', hfield', hkind', hformula'⟩ := hg
  cases hfield.symm.trans hfield'
  cases hkind.symm.trans hkind'
  exact Except.ok.inj (hformula.symm.trans hformula')

theorem Holds.mem_fieldIds (h : table.Holds id f) : id ∈ table.fieldIds := by
  obtain ⟨field, _, _, hfield, _⟩ := h
  exact id_of_field? hfield ▸ List.mem_map_of_mem (mem_of_field? hfield)

theorem Holds.leads (h : table.Holds id f) (href : ref ∈ f.references) : table.Leads id ref :=
  ⟨f, h, Formula.mem_references.1 href⟩

theorem leads_iff : table.Leads id ref ↔ ∃ f, table.Holds id f ∧ ref ∈ f.references := by
  simp only [Leads, Formula.mem_references]

theorem Reaches.of_mem (h : id ∈ f.references) : table.Reaches f id :=
  ⟨id, Formula.mem_references.1 h, .refl⟩

/-- Whatever a reference of the formula leads to, the formula reaches. -/
theorem Reaches.of_leads (href : ref ∈ f.references) (hway : ReflTransGen table.Leads ref id) :
    table.Reaches f id :=
  ⟨ref, Formula.mem_references.1 href, hway⟩

theorem Reaches.of_holds (h : table.Reaches f id) (hg : table.Holds id g)
    (href : ref ∈ g.references) : table.Reaches f ref := by
  obtain ⟨first, hfirst, hway⟩ := h
  exact ⟨first, hfirst, hway.tail (hg.leads href)⟩

/-- There is no circle where every reference goes to a field of lower rank. -/
theorem not_onCircle_of_rank (rank : String → Nat)
    (h : ∀ id ref, table.Leads id ref → rank ref < rank id) : ¬ table.OnCircle id := by
  have hway : ∀ {ref}, TransGen table.Leads id ref → rank ref < rank id := by
    intro ref hway
    induction hway with
    | single hlead => exact h _ _ hlead
    | tail _ hlead ih => exact Nat.lt_trans (h _ _ hlead) ih
  exact fun hcircle => Nat.lt_irrefl _ (hway hcircle)

theorem Trail.nil : table.Trail [] id := ⟨List.nodup_nil, fun _ hx => absurd hx List.not_mem_nil⟩

theorem Trail.step (h : table.Trail path id) (hid : id ∉ path) (hlead : table.Leads id ref) :
    table.Trail (path ++ [id]) ref := by
  refine ⟨?_, fun x hx => ?_⟩
  · rw [List.nodup_append]
    refine ⟨h.nodup, List.nodup_singleton id, fun x hx y hy => ?_⟩
    rw [List.mem_singleton.1 hy]
    exact fun heq => hid (heq ▸ hx)
  · rcases List.mem_append.1 hx with hx | hx
    · exact (h.leads x hx).tail hlead
    · exact List.mem_singleton.1 hx ▸ .single hlead

/-- **The depth suffices**: a trail passes fields of the table, each of them once. -/
theorem Trail.length_le (h : table.Trail path id) : path.length ≤ table.fields.length := by
  have hsub : path ⊆ table.fieldIds := by
    intro x hx
    obtain ⟨_, ⟨_, hholds, _⟩, _⟩ := TransGen.head'_iff.1 (h.leads x hx)
    exact hholds.mem_fieldIds
  have hle : path.length ≤ table.fieldIds.length := (h.nodup.subperm hsub).length_le
  rwa [fieldIds, List.length_map] at hle

/-- A depth that the fields of the table do not use up on a trail allows one more step. -/
theorem Trail.exists_succ {depth : Nat} (h : table.Trail path id)
    (hdepth : table.fields.length < depth + path.length) : ∃ rest, depth = rest + 1 := by
  have hle := h.length_le
  exact ⟨depth - 1, by omega⟩

/-- What a step adds to the path it takes from the depth. -/
theorem depth_step {depth : Nat} (hdepth : table.fields.length < depth + 1 + path.length) :
    table.fields.length < depth + (path ++ [id]).length := by
  rw [List.length_append, List.length_singleton]
  omega

/-- A field that lies on no circle is not on its own trail. -/
theorem Trail.notMem (h : table.Trail path id) (hcircle : ¬ table.OnCircle id) : id ∉ path :=
  fun hmem => hcircle (h.leads id hmem)

end Table

/-! ### One step of an expansion -/

namespace Context

variable {ctx : Context} {depth depth' : Nat} {path path' : List String} {id ref : String}
  {field : Field} {f : Formula} {c : Compiled}

theorem expand_of_none (h : ctx.table.field? id = none) :
    ctx.expand (depth + 1) path id = .error (.fieldNotFound id) := by
  unfold expand
  rw [h]

theorem expand_of_isFormula (h : ctx.table.field? id = some field)
    (hkind : field.kind.isFormula = false) :
    ctx.expand (depth + 1) path id = .ok (ctx.plain field) := by
  unfold expand
  rw [h]
  cases hk : field.kind with
  | formula source persisted =>
      rw [hk] at hkind
      cases hkind
  | _ => simp only [hk]

theorem expand_of_formula {source : FormulaSource} {persisted : Bool}
    (h : ctx.table.field? id = some field) (hkind : field.kind = .formula source persisted)
    (hpath : id ∉ path) (hf : source.formula = .ok f) :
    ctx.expand (depth + 1) path id =
      (f.compileWith ctx.target (ctx.expand depth (path ++ [id])) >>= fun c =>
        .ok (asField field c)) := by
  unfold expand
  simp only [h, hkind, hpath, if_false, hf]

/-- An expanded formula field comes from its compiled formula. -/
theorem exists_compileWith_of_holds (h : ctx.expand depth path id = .ok c)
    (hholds : ctx.table.Holds id f) :
    ∃ depth' field c', depth = depth' + 1 ∧
      f.compileWith ctx.target (ctx.expand depth' (path ++ [id])) = .ok c' ∧ c = asField field c' := by
  have hholds' := hholds
  obtain ⟨field, source, persisted, hfield, hkind, hformula⟩ := hholds'
  obtain ⟨field', hfield', ⟨hleaf, -⟩ | ⟨depth', source', persisted', g, c', rfl, hkind', -, hformula',
    hcompile, rfl⟩⟩ := expand_cases h
  · cases hfield.symm.trans hfield'
    rw [hkind] at hleaf
    cases hleaf
  · obtain rfl : f = g := hholds.unique ⟨field', source', persisted', hfield', hkind', hformula'⟩
    exact ⟨depth', field', c', rfl, hcompile, rfl⟩

/-- Whatever an expanded field refers to can be expanded inside it. -/
theorem exists_expand_of_leads (h : ctx.expand depth path id = .ok c)
    (hlead : ctx.table.Leads id ref) :
    ∃ depth' < depth, ∃ path' c', ctx.expand depth' path' ref = .ok c' := by
  obtain ⟨f, hholds, href⟩ := Table.leads_iff.1 hlead
  obtain ⟨depth', field, c', rfl, hcompile, -⟩ := exists_compileWith_of_holds h hholds
  obtain ⟨c'', hread⟩ := (Formula.compileWith_gathers hcompile).total ref href
  exact ⟨depth', Nat.lt_succ_self depth', path ++ [id], c'', hread⟩

theorem exists_expand_of_transGen (h : ctx.expand depth path id = .ok c)
    (hway : TransGen ctx.table.Leads id ref) :
    ∃ depth' < depth, ∃ path' c', ctx.expand depth' path' ref = .ok c' := by
  induction hway with
  | single hlead => exact exists_expand_of_leads h hlead
  | tail _ hlead ih =>
      obtain ⟨depth₁, hlt₁, path₁, c₁, h₁⟩ := ih
      obtain ⟨depth₂, hlt₂, path₂, c₂, h₂⟩ := exists_expand_of_leads h₁ hlead
      exact ⟨depth₂, Nat.lt_trans hlt₂ hlt₁, path₂, c₂, h₂⟩

/-! ### Circles and trails -/

/-- **What can be expanded lies on no circle**: on a circle the depth would decrease without end. -/
theorem not_onCircle_of_expand (h : ctx.expand depth path id = .ok c) :
    ¬ ctx.table.OnCircle id := by
  intro hcircle
  induction depth using Nat.strongRecOn generalizing path c with
  | ind depth ih =>
      obtain ⟨depth', hlt, path', c', h'⟩ := exists_expand_of_transGen h hcircle
      exact ih depth' hlt h'

/-- **A value does not depend on the way to it.**  A field that has been expanded has the same value on
every trail. -/
theorem expand_of_trail (h : ctx.expand depth path id = .ok c) (htrail : ctx.table.Trail path' id)
    (hdepth : ctx.table.fields.length < depth' + path'.length) :
    ctx.expand depth' path' id = .ok c := by
  -- induction on the depth of the expansion that is known to succeed
  induction depth generalizing path id c depth' path' with
  | zero => cases h
  | succ depth ih =>
      obtain ⟨rest, rfl⟩ := htrail.exists_succ hdepth
      have hcircle := not_onCircle_of_expand h
      obtain ⟨field, hfield, ⟨hleaf, rfl⟩ | ⟨depth'', source, persisted, f, c', heq, hkind, -,
        hformula, hcompile, rfl⟩⟩ := expand_cases h
      · exact expand_of_isFormula hfield hleaf
      · cases heq
        have hid : id ∉ path' := htrail.notMem hcircle
        have hread : ∀ ref ∈ f.references,
            ctx.expand rest (path' ++ [id]) ref = ctx.expand depth (path ++ [id]) ref := by
          intro ref href
          obtain ⟨c'', hc''⟩ := (Formula.compileWith_gathers hcompile).total ref href
          have hholds : ctx.table.Holds id f := ⟨field, source, persisted, hfield, hkind, hformula⟩
          rw [hc'']
          exact ih hc'' (htrail.step hid (hholds.leads href)) (Table.depth_step hdepth)
        rw [expand_of_formula hfield hkind hid hformula, Formula.compileWith_congr hread, hcompile]
        rfl

/-- A field that has been expanded on some way has that value on its own. -/
theorem compileField_of_expand (h : ctx.expand depth path id = .ok c) :
    ctx.compileField id = .ok c :=
  expand_of_trail h .nil (Nat.lt_succ_self _)

/-- A formula that has been compiled on some way compiles to the same on its own. -/
theorem compile_of_compileWith (h : f.compileWith ctx.target (ctx.expand depth path) = .ok c) :
    ctx.compile f = .ok c := by
  rw [← h]
  refine Formula.compileWith_congr fun ref href => ?_
  obtain ⟨c', hread⟩ := (Formula.compileWith_gathers h).total ref href
  rw [hread]
  exact compileField_of_expand hread

theorem compile_binary {l r : Formula} {op : BinaryOp} {cl cr : Compiled} (hl : ctx.compile l = .ok cl)
    (hr : ctx.compile r = .ok cr) :
    ctx.compile (.binary l op r) = .ok (cl.binary ctx.target op cr) := by
  unfold compile at *
  rw [Formula.compileWith, hl]
  simp only [bind, Except.bind, hr, pure, Except.pure]

end Context

/-! ### A table of formulas -/

namespace Sample

def doubleFormula : Formula := .binary (.field "n1") .mul (.number "2")

def quadFormula : Formula := .binary (.field "double") .add (.field "double")

def labelFormula : Formula := .binary (.field "quad") .concat (.field "s")

def totalsFields : List Field :=
  [.single "n1" "n1" .number .column, .single "s" "s" .string .column,
   .single "double" "double" .number (.formula (.tree (some doubleFormula)) false),
   .single "quad" "quad" .number (.formula (.tree (some quadFormula)) false),
   .single "label" "label" .string (.formula (.tree (some labelFormula)) false)]

/-- Formulas that use each other, one of them twice. -/
def totals : Table := .ofFields "tblA" "table_a" totalsFields

def totalsContext : Context :=
  ⟨totals, { dialect := .sqlite, mode := .generated, now := ⟨0⟩ }, .detached⟩

def summary : Formula := .binary (.field "label") .concat (.field "double")

theorem totals_holds {id : String} {g : Formula} (h : totals.Holds id g) :
    (id = "double" ∧ g = doubleFormula) ∨ (id = "quad" ∧ g = quadFormula) ∨
      (id = "label" ∧ g = labelFormula) := by
  obtain ⟨field, source, persisted, hfield, hkind, hformula⟩ := h
  have hid := Table.id_of_field? hfield
  have hmem : field ∈ totalsFields := Table.mem_of_field? hfield
  simp only [totalsFields, List.mem_cons, List.not_mem_nil, or_false] at hmem
  rcases hmem with rfl | rfl | rfl | rfl | rfl
  · cases hkind
  · cases hkind
  · cases hkind
    cases hformula
    exact .inl ⟨hid.symm, rfl⟩
  · cases hkind
    cases hformula
    exact .inr (.inl ⟨hid.symm, rfl⟩)
  · cases hkind
    cases hformula
    exact .inr (.inr ⟨hid.symm, rfl⟩)

end Sample

end ComputedFields
