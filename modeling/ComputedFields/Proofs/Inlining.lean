/-
**Expanding a formula field is inlining its formula.**

The compiler expands formula fields in place: it compiles the formula of a field on its own and goes
on with the result.  Inlining is simpler.  Every reference to a formula field is replaced, again and
again, by the formula of the field, and the tree that comes out refers to no formula field any more.
Both ways give the same SQL, the same type and the same reads in the same order, or the same error,
provided that the formulas can be inlined at all and that no field has to lend its type to a formula
of unknown type.

Main definitions:

* `ComputedFields.Formula.substitute` — formulas in the place of references;
* `ComputedFields.Table.inlineField`, `ComputedFields.Table.inline` — the tree that a field, or a
  formula, is short for;
* `ComputedFields.Context.Inlinable` — the formulas behind a formula can be inlined and have types.

Main results:

* `ComputedFields.Formula.compileWith_substitute` — substitution before compilation is a way of
  reading references;
* `ComputedFields.Table.inline_field` — inlining goes all the way down;
* `ComputedFields.Context.compileWith_inlineField` — a field compiles as its tree does;
* `ComputedFields.Context.compileTree_inline` — **expansion is inlining**.
-/

import ComputedFields.Proofs.SessionAnswers

set_option relaxedAutoImplicit false
set_option autoImplicit false

namespace ComputedFields

/-! ### Substitution -/

namespace Formula

mutual

/-- The formula with `σ id` in the place of every reference to `id`. -/
def substitute (σ : String → Formula) : Formula → Formula
  | .bool value => .bool value
  | .number spelling => .number spelling
  | .text value => .text value
  | .null => .null
  | .field id => σ id
  | .call callee args => .call callee (substituteAll σ args)
  | .binary left op right => .binary (substitute σ left) op (substitute σ right)
  | .unary op operand => .unary op (substitute σ operand)
  | .chain op operands => .chain op (substituteAll σ operands)

/-- The formulas with `σ id` in the place of every reference to `id`. -/
def substituteAll (σ : String → Formula) : List Formula → List Formula
  | [] => []
  | f :: rest => substitute σ f :: substituteAll σ rest

end

theorem substituteAll_eq_map (σ : String → Formula) (fs : List Formula) :
    substituteAll σ fs = fs.map (substitute σ) := by
  induction fs with
  | nil => rfl
  | cons f rest ih => rw [substituteAll, ih, List.map_cons]

variable {σ σ' : String → Formula} {ref : String}

mutual

theorem mem_references_substitute :
    ∀ {f : Formula}, ref ∈ (f.substitute σ).references ↔ ∃ id ∈ f.references, ref ∈ (σ id).references
  | .bool _ => by simp [substitute, references, addReferences]
  | .number _ => by simp [substitute, references, addReferences]
  | .text _ => by simp [substitute, references, addReferences]
  | .null => by simp [substitute, references, addReferences]
  | .field id => by simp [substitute, references, addReferences, insertNew]
  | .unary op operand => @mem_references_substitute operand
  | .binary left op right => by
      simp only [substitute, mem_references_binary, @mem_references_substitute left,
        @mem_references_substitute right, or_and_right, exists_or]
  | .chain op operands => by
      simp only [substitute, mem_references_chain]
      exact mem_references_substituteAll
  | .call callee args => by
      simp only [substitute, mem_references_call]
      exact mem_references_substituteAll

theorem mem_references_substituteAll :
    ∀ {fs : List Formula}, (∃ g ∈ substituteAll σ fs, ref ∈ g.references) ↔
      ∃ id, (∃ f ∈ fs, id ∈ f.references) ∧ ref ∈ (σ id).references
  | [] => by simp [substituteAll]
  | f :: rest => by
      simp only [substituteAll, List.mem_cons, or_and_right, exists_or, exists_eq_left,
        @mem_references_substitute f, @mem_references_substituteAll rest]

end

mutual

theorem substitute_congr :
    ∀ {f : Formula}, (∀ id ∈ f.references, σ id = σ' id) → f.substitute σ = f.substitute σ'
  | .bool _, _ => rfl
  | .number _, _ => rfl
  | .text _, _ => rfl
  | .null, _ => rfl
  | .field id, h => h id (List.mem_singleton_self id)
  | .unary op operand, h => congrArg (unary op) (@substitute_congr operand h)
  | .binary left op right, h => by
      rw [substitute, substitute,
        substitute_congr fun id hid => h id (mem_references_binary.2 (.inl hid)),
        substitute_congr fun id hid => h id (mem_references_binary.2 (.inr hid))]
  | .chain op operands, h =>
      congrArg (chain op)
        (substituteAll_congr fun f hf id hid => h id (mem_references_chain.2 ⟨f, hf, hid⟩))
  | .call callee args, h =>
      congrArg (call callee)
        (substituteAll_congr fun f hf id hid => h id (mem_references_call.2 ⟨f, hf, hid⟩))

theorem substituteAll_congr :
    ∀ {fs : List Formula}, (∀ f ∈ fs, ∀ id ∈ f.references, σ id = σ' id) →
      substituteAll σ fs = substituteAll σ' fs
  | [], _ => rfl
  | f :: rest, h => by
      rw [substituteAll, substituteAll, substitute_congr (h f List.mem_cons_self),
        substituteAll_congr fun f' hf' => h f' (List.mem_cons_of_mem _ hf')]

end

variable {t : Target} {read : String → Except CompileError Compiled}

mutual

/-- To compile after a substitution is to read every reference as what is put in its place. -/
theorem compileWith_substitute :
    ∀ {f : Formula}, (f.substitute σ).compileWith t read =
      f.compileWith t fun id => (σ id).compileWith t read
  | .bool _ => rfl
  | .number _ => rfl
  | .text _ => rfl
  | .null => rfl
  | .field id => rfl
  | .unary op operand => by
      unfold substitute compileWith
      rw [compileWith_substitute]
  | .binary left op right => by
      unfold substitute compileWith
      rw [compileWith_substitute, compileWith_substitute]
  | .chain op operands => by
      unfold substitute compileWith
      rw [compileAllWith_substitute]
  | .call (.unknown name) args => rfl
  | .call (.known f) args => by
      unfold substitute compileWith
      rw [compileAllWith_substitute, substituteAll_eq_map, List.length_map]

theorem compileAllWith_substitute :
    ∀ {fs : List Formula}, compileAllWith t read (substituteAll σ fs) =
      compileAllWith t (fun id => (σ id).compileWith t read) fs
  | [] => rfl
  | f :: rest => by
      unfold substituteAll compileAllWith
      rw [compileWith_substitute, compileAllWith_substitute]

end

end Formula

/-! ### Inlining -/

namespace Table

/-- The tree that a field is short for; the number bounds the depth of the inlining.  A field that
stands for no formula stays a reference. -/
def inlineField (table : Table) : Nat → String → Formula
  | 0, id => .field id
  | depth + 1, id =>
      match table.field? id with
      | none => .field id
      | some field =>
          match field.kind with
          | .formula source _ =>
              match source.formula with
              | .ok f => f.substitute (table.inlineField depth)
              | .error _ => .field id
          | _ => .field id

/-- The formula with every reference to a formula field replaced, all the way down. -/
def inline (table : Table) (f : Formula) : Formula :=
  f.substitute (table.inlineField (table.fields.length + 1))

/-- The formula can be inlined: behind it every formula field has a formula, and none leads back to
itself. -/
structure Unfolds (table : Table) (f : Formula) : Prop where
  holds : ∀ id field, table.Reaches f id → table.field? id = some field →
    field.kind.isFormula = true → ∃ g, table.Holds id g
  acyclic : ∀ id, table.Reaches f id → ¬ table.OnCircle id

variable {table : Table} {f g : Formula} {id ref : String} {depth depth' : Nat} {path : List String}

theorem inlineField_of_holds (h : table.Holds id g) :
    table.inlineField (depth + 1) id = g.substitute (table.inlineField depth) := by
  obtain ⟨field, source, persisted, hfield, hkind, hformula⟩ := h
  unfold inlineField
  simp only [hfield, hkind, hformula]

theorem inlineField_of_none (h : table.field? id = none) :
    table.inlineField (depth + 1) id = .field id := by
  unfold inlineField
  simp only [h]

theorem inlineField_of_isFormula {field : Field} (h : table.field? id = some field)
    (hkind : field.kind.isFormula = false) : table.inlineField (depth + 1) id = .field id := by
  unfold inlineField
  simp only [h]
  cases hk : field.kind with
  | formula source persisted =>
      rw [hk] at hkind
      cases hkind
  | _ => simp only

/-- What a field behind an inlinable formula can be. -/
theorem Unfolds.cases (h : table.Unfolds f) (hreach : table.Reaches f id) :
    table.field? id = none ∨
      (∃ field, table.field? id = some field ∧ field.kind.isFormula = false) ∨
      ∃ g, table.Holds id g := by
  cases hfield : table.field? id with
  | none => exact .inl rfl
  | some field =>
      cases hkind : field.kind.isFormula with
      | false => exact .inr (.inl ⟨field, rfl, hkind⟩)
      | true => exact .inr (.inr (h.holds id field hreach hfield hkind))

/-- The depth of an inlining does not matter once it suffices. -/
theorem inlineField_eq_of_trail (h : table.Unfolds f) (hreach : table.Reaches f id)
    (htrail : table.Trail path id) (hdepth : table.fields.length < depth + path.length)
    (hdepth' : table.fields.length < depth' + path.length) :
    table.inlineField depth id = table.inlineField depth' id := by
  induction depth generalizing id path depth' with
  | zero =>
      obtain ⟨rest, hrest⟩ := htrail.exists_succ hdepth
      cases hrest
  | succ depth ih =>
      obtain ⟨rest, rfl⟩ := htrail.exists_succ hdepth'
      rcases h.cases hreach with hnone | ⟨field, hfield, hkind⟩ | ⟨g, hholds⟩
      · rw [inlineField_of_none hnone, inlineField_of_none hnone]
      · rw [inlineField_of_isFormula hfield hkind, inlineField_of_isFormula hfield hkind]
      · rw [inlineField_of_holds hholds, inlineField_of_holds hholds]
        refine Formula.substitute_congr fun ref href => ?_
        have hnext := htrail.step (htrail.notMem (h.acyclic id hreach)) (hholds.leads href)
        exact ih (hreach.of_holds hholds href) hnext (depth_step hdepth) (depth_step hdepth')

/-- **Inlining goes all the way down**: a reference to a formula field becomes the tree of its
formula, inlined again. -/
theorem inline_field (h : table.Unfolds f) (hreach : table.Reaches f id) (hholds : table.Holds id g) :
    table.inline (.field id) = table.inline g := by
  change table.inlineField (table.fields.length + 1) id = _
  rw [inlineField_of_holds hholds]
  refine Formula.substitute_congr fun ref href => ?_
  have hnext := Trail.nil.step List.not_mem_nil (hholds.leads href)
  refine inlineField_eq_of_trail h (hreach.of_holds hholds href) hnext ?_ ?_
  · exact Nat.lt_succ_self _
  · exact Nat.lt_succ_of_lt (Nat.lt_succ_self _)

/-- The tree of a field refers to no formula field. -/
theorem notFormula_of_mem_inlineField (h : table.Unfolds f) (hreach : table.Reaches f id)
    (htrail : table.Trail path id) (hdepth : table.fields.length < depth + path.length)
    (href : ref ∈ (table.inlineField depth id).references) :
    ∀ field, table.field? ref = some field → field.kind.isFormula = false := by
  induction depth generalizing id path with
  | zero =>
      obtain ⟨rest, hrest⟩ := htrail.exists_succ hdepth
      cases hrest
  | succ depth ih =>
      rcases h.cases hreach with hnone | ⟨field, hfield, hkind⟩ | ⟨g, hholds⟩
      · rw [inlineField_of_none hnone] at href
        cases List.mem_singleton.1 href
        intro field hfield
        cases hnone.symm.trans hfield
      · rw [inlineField_of_isFormula hfield hkind] at href
        cases List.mem_singleton.1 href
        intro field' hfield'
        cases hfield.symm.trans hfield'
        exact hkind
      · rw [inlineField_of_holds hholds, Formula.mem_references_substitute] at href
        obtain ⟨id', hid', href⟩ := href
        have hnext := htrail.step (htrail.notMem (h.acyclic id hreach)) (hholds.leads hid')
        exact ih (hreach.of_holds hholds hid') hnext (depth_step hdepth) href

end Table

/-! ### Compilation -/

namespace Context

/-- The formula can be inlined, and no formula field behind it has a formula of unknown type. -/
structure Inlinable (ctx : Context) (f : Formula) : Prop extends ctx.table.Unfolds f where
  typed : ∀ id g c, ctx.table.Reaches f id → ctx.table.Holds id g → ctx.compile g = .ok c →
    c.fragment.type ≠ .unknown

variable {ctx : Context} {f g : Formula} {id : String} {depth : Nat} {path : List String}
  {c : Compiled}

theorem asField_of_ne {field : Field} (h : c.fragment.type ≠ .unknown) : asField field c = c :=
  if_neg h

/-- A field compiles as the tree that it is short for. -/
theorem compileWith_inlineField (h : ctx.Inlinable f) (hreach : ctx.table.Reaches f id)
    (htrail : ctx.table.Trail path id)
    (hdepth : ctx.table.fields.length < depth + path.length) :
    (ctx.table.inlineField depth id).compileWith ctx.target ctx.compileField =
      ctx.expand depth path id := by
  induction depth generalizing id path with
  | zero =>
      obtain ⟨rest, hrest⟩ := htrail.exists_succ hdepth
      cases hrest
  | succ depth ih =>
      rcases h.cases hreach with hnone | ⟨field, hfield, hkind⟩ | ⟨g, hholds⟩
      · rw [Table.inlineField_of_none hnone, expand_of_none hnone]
        exact expand_of_none hnone
      · rw [Table.inlineField_of_isFormula hfield hkind, expand_of_isFormula hfield hkind]
        exact expand_of_isFormula hfield hkind
      · rw [Table.inlineField_of_holds hholds, Formula.compileWith_substitute]
        have hid : id ∉ path := htrail.notMem (h.acyclic id hreach)
        have hread : ∀ ref ∈ g.references,
            (ctx.table.inlineField depth ref).compileWith ctx.target ctx.compileField =
              ctx.expand depth (path ++ [id]) ref := by
          intro ref href
          exact ih (hreach.of_holds hholds href) (htrail.step hid (hholds.leads href))
            (Table.depth_step hdepth)
        rw [Formula.compileWith_congr hread]
        have hholds' := hholds
        obtain ⟨field, source, persisted, hfield, hkind, hformula⟩ := hholds'
        rw [expand_of_formula hfield hkind hid hformula]
        cases hc : g.compileWith ctx.target (ctx.expand depth (path ++ [id])) with
        | error e => rfl
        | ok c =>
            have htype := h.typed id g c hreach hholds (compile_of_compileWith hc)
            exact congrArg Except.ok (asField_of_ne htype).symm

theorem compile_inline (h : ctx.Inlinable f) : ctx.compile (ctx.table.inline f) = ctx.compile f := by
  unfold compile Table.inline
  rw [Formula.compileWith_substitute]
  refine Formula.compileWith_congr fun ref href => ?_
  exact compileWith_inlineField h (.of_mem href) .nil (Nat.lt_succ_self _)

/-- **Expansion is inlining.**  A tree compiles as the tree in which every reference to a formula field
is replaced by the formula of the field, on its own and in any two sessions.  That tree refers to no
formula field, and what stands in the place of a reference is the formula of the field, inlined in the
same way. -/
theorem compileTree_inline (ctx : Context) (root : Option Formula)
    (h : ∀ f, root = some f → ctx.Inlinable f) :
    ctx.compileTree (root.map ctx.table.inline) = ctx.compileTree root ∧
    (∀ before before' : List Request,
      ((ctx.ask (.tree (root.map ctx.table.inline))).answer (ctx.session {} before).2).1 =
        ((ctx.ask (.tree root)).answer (ctx.session {} before').2).1) ∧
    ∀ f, root = some f →
      (∀ ref field, ref ∈ (ctx.table.inline f).references → ctx.table.field? ref = some field →
        field.kind.isFormula = false) ∧
      ∀ id g, ctx.table.Reaches f id → ctx.table.Holds id g →
        ctx.table.inline (.field id) = ctx.table.inline g := by
  have hcompile : ctx.compileTree (root.map ctx.table.inline) = ctx.compileTree root := by
    cases root with
    | none => rfl
    | some f => exact compile_inline (h f rfl)
  refine ⟨hcompile, fun before before' => ?_, fun f hroot => ⟨?_, ?_⟩⟩
  · rw [ask_after_session, ask_after_session]
    exact hcompile
  · intro ref field href hfield
    obtain ⟨id, hid, href⟩ := Formula.mem_references_substitute.1 href
    exact Table.notFormula_of_mem_inlineField (h f hroot).toUnfolds (.of_mem hid) .nil
      (Nat.lt_succ_self _) href field hfield
  · exact fun id g hreach hholds => Table.inline_field (h f hroot).toUnfolds hreach hholds

end Context

/-! ### A field that is used twice -/

namespace Sample

/-- The formula with all of its fields inlined; the product stands in it three times. -/
def summaryInlined : Formula :=
  .binary
    (.binary (.binary doubleFormula .add doubleFormula) .concat (.field "s")) .concat doubleFormula

/-- Every operator with two operands gives its result a type. -/
theorem type_binary_ne_unknown {ctx : Context} {left right : Formula} {op : BinaryOp} {c : Compiled}
    (h : ctx.compile (.binary left op right) = .ok c) : c.fragment.type ≠ .unknown := by
  obtain ⟨l, -, h⟩ := exists_of_bind_eq_ok h
  obtain ⟨r, -, hc⟩ := exists_of_bind_eq_ok h
  cases hc
  cases op with
  | add =>
      simp only [Compiled.binary, Target.binary]
      split
      · exact ValueType.noConfusion
      · exact ValueType.noConfusion
  | _ => exact ValueType.noConfusion

def rank : String → Nat
  | "label" => 3
  | "quad" => 2
  | "double" => 1
  | _ => 0

theorem rank_lt_of_leads (id ref : String) (h : totals.Leads id ref) : rank ref < rank id := by
  obtain ⟨g, hholds, href⟩ := Table.leads_iff.1 h
  rcases totals_holds hholds with ⟨rfl, rfl⟩ | ⟨rfl, rfl⟩ | ⟨rfl, rfl⟩
  · exact (by decide : ∀ ref ∈ doubleFormula.references, rank ref < rank "double") ref href
  · exact (by decide : ∀ ref ∈ quadFormula.references, rank ref < rank "quad") ref href
  · exact (by decide : ∀ ref ∈ labelFormula.references, rank ref < rank "label") ref href

theorem inlinable_summary : totalsContext.Inlinable summary where
  holds := by
    intro id field _ hfield hformula
    have hmem : field ∈ totalsFields := Table.mem_of_field? hfield
    simp only [totalsFields, List.mem_cons, List.not_mem_nil, or_false] at hmem
    rcases hmem with rfl | rfl | rfl | rfl | rfl
    · cases hformula
    · cases hformula
    · exact ⟨doubleFormula, _, _, _, hfield, rfl, rfl⟩
    · exact ⟨quadFormula, _, _, _, hfield, rfl, rfl⟩
    · exact ⟨labelFormula, _, _, _, hfield, rfl, rfl⟩
  acyclic := fun _ _ => Table.not_onCircle_of_rank rank rank_lt_of_leads
  typed := by
    intro id g c _ hholds hc
    rcases totals_holds hholds with ⟨-, rfl⟩ | ⟨-, rfl⟩ | ⟨-, rfl⟩
    · exact type_binary_ne_unknown hc
    · exact type_binary_ne_unknown hc
    · exact type_binary_ne_unknown hc

theorem inline_summary : totals.inline summary = summaryInlined := rfl

end Sample

namespace Context

/-- The inlined formula is the expected one, and it compiles like the formula itself. -/
theorem compileTree_inline_summary :
    Sample.totalsContext.Inlinable Sample.summary ∧
    Sample.totals.inline Sample.summary = Sample.summaryInlined ∧
    Sample.totalsContext.compileTree (some Sample.summaryInlined) =
      Sample.totalsContext.compileTree (some Sample.summary) ∧
    (Sample.totalsContext.compileTree (some Sample.summary)).isOk = true := by
  have h := (compileTree_inline Sample.totalsContext (some Sample.summary) (by
    rintro f hf
    cases hf
    exact Sample.inlinable_summary)).1
  rw [Option.map_some, show Sample.totalsContext.table = Sample.totals from rfl,
    Sample.inline_summary] at h
  refine ⟨Sample.inlinable_summary, Sample.inline_summary, h, ?_⟩
  rw [← h]
  rfl

end Context

end ComputedFields
