/-
**Chains are short for nested operations.**

A sum or a concatenation of many operands is one node of the tree, so that long ones do not make the tree
deep.  The node means what the operations mean when they are nested to the left.  This is no matter of
course: along a chain of `+` the types change, numbers are added until the first text or date, and from
there on texts are joined; and SQL that is a chain already is continued in place.  Since every operand is
joined to all before it, one step of the chain is one operation, with the same SQL, type and reads.

The compiler works in any monad, so chains can be unfolded in a session too, and in the formulas of all
fields that a formula leads to.

Main definitions:

* `ComputedFields.Formula.nestLeft` — operands joined from the left by operations of two operands;
* `ComputedFields.Formula.unchained` — the formula with every chain unfolded;
* `ComputedFields.Table.unchained`, `ComputedFields.Context.unchained` — the same for all formula fields.

Main results:

* `ComputedFields.Formula.part_unchained` — only chains without operands are left;
* `ComputedFields.Formula.compileWith_nestLeft` — nested operations compile as their chain does;
* `ComputedFields.Formula.compileWith_unchained` — a formula compiles alike with its chains unfolded;
* `ComputedFields.Context.expand_unchained` — so do the formula fields of a table;
* `ComputedFields.Context.compileTree_unchained` — **chains mean the nested operations**.
-/

import ComputedFields.Proofs.SessionAnswers

set_option relaxedAutoImplicit false
set_option autoImplicit false

namespace ComputedFields

/-! ### Unfolded formulas -/

namespace Formula

/-- Operands joined from the left by operations of two operands.  Without operands there is nothing to
join, and the chain stays. -/
def nestLeft (op : BinaryOp) : List Formula → Formula
  | [] => .chain op []
  | first :: others => others.foldl (fun left right => .binary left op right) first

mutual

/-- The formula with every chain unfolded into operations of two operands. -/
def unchained : Formula → Formula
  | .bool value => .bool value
  | .number spelling => .number spelling
  | .text value => .text value
  | .null => .null
  | .field id => .field id
  | .call callee args => .call callee (unchainedAll args)
  | .binary left op right => .binary left.unchained op right.unchained
  | .unary op operand => .unary op operand.unchained
  | .chain op operands => nestLeft op (unchainedAll operands)

/-- The formulas with every chain unfolded. -/
def unchainedAll : List Formula → List Formula
  | [] => []
  | f :: rest => f.unchained :: unchainedAll rest

end

@[simp] theorem length_unchainedAll (fs : List Formula) : (unchainedAll fs).length = fs.length := by
  induction fs with
  | nil => rfl
  | cons f rest ih => rw [unchainedAll, List.length_cons, ih, List.length_cons]

/-- A chain inside nested operations stands in one of the operands. -/
theorem exists_part_of_foldl {op op' : BinaryOp} {operands others : List Formula} {first : Formula}
    (h : Part (.chain op operands) (others.foldl (fun left right => .binary left op' right) first)) :
    ∃ f ∈ first :: others, Part (.chain op operands) f := by
  induction others generalizing first with
  | nil => exact ⟨first, List.mem_cons_self, h⟩
  | cons next rest ih =>
      obtain ⟨f, hf, hpart⟩ := ih h
      rcases List.mem_cons.1 hf with rfl | hf
      · cases hpart with
        | left hpart => exact ⟨first, List.mem_cons_self, hpart⟩
        | right hpart => exact ⟨next, by simp, hpart⟩
      · exact ⟨f, by simp [hf], hpart⟩

mutual

/-- **Only chains without operands are left**, and only where they stood before. -/
theorem part_unchained {op : BinaryOp} {operands : List Formula} :
    ∀ {f : Formula}, Part (.chain op operands) f.unchained →
      operands = [] ∧ Part (.chain op []) f
  | .bool _, h => by cases h
  | .number _, h => by cases h
  | .text _, h => by cases h
  | .null, h => by cases h
  | .field _, h => by cases h
  | .call callee args, h => by
      rw [unchained] at h
      cases h with
      | call harg hpart =>
          obtain ⟨hempty, f, hf, hpart⟩ := part_unchainedAll harg hpart
          exact ⟨hempty, .call hf hpart⟩
  | .binary left op' right, h => by
      rw [unchained] at h
      cases h with
      | left hpart => exact (part_unchained hpart).imp_right .left
      | right hpart => exact (part_unchained hpart).imp_right .right
  | .unary op' operand, h => by
      rw [unchained] at h
      cases h with
      | operand hpart => exact (part_unchained hpart).imp_right .operand
  | .chain op' [], h => by
      rw [unchained, unchainedAll, nestLeft] at h
      cases h with
      | self => exact ⟨rfl, .self⟩
      | chain hmem _ => exact absurd hmem List.not_mem_nil
  | .chain op' (first :: others), h => by
      rw [unchained, unchainedAll, nestLeft] at h
      obtain ⟨g, hg, hpart⟩ := exists_part_of_foldl h
      obtain ⟨hempty, f, hf, hpart⟩ := @part_unchainedAll op operands (first :: others) g hg hpart
      exact ⟨hempty, .chain hf hpart⟩

theorem part_unchainedAll {op : BinaryOp} {operands : List Formula} :
    ∀ {fs : List Formula} {g : Formula}, g ∈ unchainedAll fs → Part (.chain op operands) g →
      operands = [] ∧ ∃ f ∈ fs, Part (.chain op []) f
  | [], g, hg, _ => absurd hg List.not_mem_nil
  | f :: rest, g, hg, hpart => by
      rw [unchainedAll] at hg
      rcases List.mem_cons.1 hg with rfl | hg
      · obtain ⟨hempty, hpart⟩ := part_unchained hpart
        exact ⟨hempty, f, List.mem_cons_self, hpart⟩
      · obtain ⟨hempty, f', hf', hpart⟩ := part_unchainedAll hg hpart
        exact ⟨hempty, f', List.mem_cons_of_mem _ hf', hpart⟩

end

/-! ### Compilation -/

section

variable {m : Type → Type} [Monad m] [MonadExceptOf CompileError m] {t : Target}
  {read : String → m Compiled}

/-- Operations that are nested to the left compile from the left: the first operand, the others, and
then one step for each of these. -/
theorem compileWith_foldl_binary [LawfulMonad m] (op : BinaryOp) (first : Formula) (others : List Formula) :
    (others.foldl (fun left right => binary left op right) first).compileWith t read =
      (do
        let c ← first.compileWith t read
        let cs ← compileAllWith t read others
        pure (cs.foldl (Compiled.binary t op) c)) := by
  -- induction on the operands that are still to be joined; what has been joined is the first operand
  induction others generalizing first with
  | nil => simp [compileAllWith]
  | cons next rest ih =>
      rw [List.foldl_cons, ih]
      simp [compileWith, compileAllWith]

/-- **Nested operations compile as their chain does.** -/
theorem compileWith_nestLeft [LawfulMonad m] (op : BinaryOp) (operands : List Formula) :
    (nestLeft op operands).compileWith t read = (chain op operands).compileWith t read := by
  cases operands with
  | nil => rfl
  | cons first others =>
      rw [nestLeft, compileWith_foldl_binary]
      simp [compileWith, compileAllWith]

mutual

/-- **A formula compiles alike with its chains unfolded**, however its fields are read. -/
theorem compileWith_unchained [LawfulMonad m] :
    ∀ {f : Formula}, f.unchained.compileWith t read = f.compileWith t read
  | .bool _ => rfl
  | .number _ => rfl
  | .text _ => rfl
  | .null => rfl
  | .field _ => rfl
  | .unary op operand => by
      unfold unchained compileWith
      rw [compileWith_unchained]
  | .binary left op right => by
      unfold unchained compileWith
      rw [compileWith_unchained, compileWith_unchained]
  | .chain op operands => by
      rw [unchained, compileWith_nestLeft]
      unfold compileWith
      rw [compileAllWith_unchainedAll]
  | .call (.unknown name) args => rfl
  | .call (.known f) args => by
      unfold unchained compileWith
      rw [compileAllWith_unchainedAll, length_unchainedAll]

theorem compileAllWith_unchainedAll [LawfulMonad m] :
    ∀ {fs : List Formula}, compileAllWith t read (unchainedAll fs) = compileAllWith t read fs
  | [] => rfl
  | f :: rest => by
      unfold unchainedAll compileAllWith
      rw [compileWith_unchained, compileAllWith_unchainedAll]

end

end

end Formula

/-! ### Unfolded tables -/

/-- The source with the chains of its formula unfolded; a text is read before.  One without a formula
stays as it is. -/
def FormulaSource.unchained (source : FormulaSource) : FormulaSource :=
  match source.formula with
  | .ok f => .tree (some f.unchained)
  | .error _ => source

theorem FormulaSource.formula_unchained (source : FormulaSource) :
    source.unchained.formula = source.formula.map Formula.unchained := by
  unfold unchained
  cases hsource : source.formula with
  | ok f => rfl
  | error e => exact hsource

/-- The field with the chains of its formula unfolded. -/
def Field.unchained (field : Field) : Field :=
  match field.kind with
  | .formula source persisted => { field with kind := .formula source.unchained persisted }
  | _ => field

theorem Field.unchained_of_isFormula {field : Field} (h : field.kind.isFormula = false) :
    field.unchained = field := by
  unfold unchained
  split
  · next hkind =>
      rw [hkind] at h
      cases h
  · rfl

@[simp] theorem Field.id_unchained (field : Field) : field.unchained.id = field.id := by
  unfold unchained
  split <;> rfl

/-- The table with the chains of all its formulas unfolded. -/
def Table.unchained (table : Table) : Table :=
  { table with
    fields := table.fields.map Field.unchained
    distinct := by
      rw [List.map_map, show Field.id ∘ Field.unchained = Field.id from funext Field.id_unchained]
      exact table.distinct }

theorem Table.field?_unchained (table : Table) (id : String) :
    table.unchained.field? id = (table.field? id).map Field.unchained := by
  have hget : ∀ fields : List Field, Keyed.get? Field.id id (fields.map Field.unchained) =
      (Keyed.get? Field.id id fields).map Field.unchained := by
    intro fields
    induction fields with
    | nil => rfl
    | cons field rest ih =>
        rw [List.map_cons, Keyed.get?, Keyed.get?, Field.id_unchained, ih]
        split <;> rfl
  exact hget table.fields

namespace Context

/-- The context with the chains of all formulas of the table unfolded. -/
def unchained (ctx : Context) : Context := { ctx with table := ctx.table.unchained }

variable {ctx : Context}

/-- A field that is no formula does not look at the formulas of the table. -/
theorem plain_unchained (field : Field) : ctx.unchained.plain field = ctx.plain field := rfl

/-- **The fields of a table have the same values with all chains unfolded**, on every way to them. -/
theorem expand_unchained (depth : Nat) (path : List String) (id : String) :
    ctx.unchained.expand depth path id = ctx.expand depth path id := by
  induction depth generalizing path id with
  | zero => rfl
  | succ depth ih =>
      have hread : ctx.unchained.expand depth (path ++ [id]) = ctx.expand depth (path ++ [id]) :=
        funext fun ref => ih (path ++ [id]) ref
      have htable : ctx.unchained.table.field? id = (ctx.table.field? id).map Field.unchained :=
        ctx.table.field?_unchained id
      cases hfield : ctx.table.field? id with
      | none =>
          rw [hfield] at htable
          rw [expand_of_none htable, expand_of_none hfield]
      | some field =>
          rw [hfield] at htable
          cases hkind : field.kind with
          | formula source persisted =>
              have hunchained : field.unchained =
                  { field with kind := .formula source.unchained persisted } := by
                unfold Field.unchained
                rw [hkind]
              rw [Option.map_some, hunchained] at htable
              unfold expand
              simp only [htable, hfield, hkind, source.formula_unchained]
              by_cases hpath : id ∈ path
              · rw [if_pos hpath, if_pos hpath]
              · rw [if_neg hpath, if_neg hpath]
                cases source.formula with
                | error e => rfl
                | ok f =>
                    simp only [Except.map]
                    rw [hread, Formula.compileWith_unchained]
                    rfl
          | _ =>
              have hformula : field.kind.isFormula = false := by rw [hkind]; rfl
              rw [Option.map_some, Field.unchained_of_isFormula hformula] at htable
              rw [expand_of_isFormula htable hformula, expand_of_isFormula hfield hformula,
                plain_unchained]

theorem compileField_unchained (id : String) : ctx.unchained.compileField id = ctx.compileField id := by
  have hdepth : ctx.unchained.depth = ctx.depth := by
    change (ctx.table.fields.map Field.unchained).length + 1 = ctx.table.fields.length + 1
    rw [List.length_map]
  unfold compileField
  rw [hdepth, expand_unchained]

/-- **Chains mean the nested operations.**  A tree compiles to the same SQL, with the same type and the
same reads, or fails with the same error, when each of its chains is unfolded into operations of two
operands that are nested to the left.  This is so in every step of a session too, and also when the chains
of all formulas of the table are unfolded.  In a tree that has no chain without operands, no chain is left.
-/
theorem compileTree_unchained (ctx : Context) (root : Option Formula) :
    ctx.compileTree (root.map Formula.unchained) = ctx.compileTree root ∧
    ctx.unchained.compileTree (root.map Formula.unchained) = ctx.compileTree root ∧
    ctx.ask (.tree (root.map Formula.unchained)) = ctx.ask (.tree root) ∧
    ∀ f, root = some f → (∀ op, ¬ Formula.Part (.chain op []) f) →
      ∀ op operands, ¬ Formula.Part (.chain op operands) f.unchained := by
  refine ⟨?_, ?_, ?_, ?_⟩
  · cases root with
    | none => rfl
    | some f => exact Formula.compileWith_unchained
  · cases root with
    | none => rfl
    | some f =>
        have hread : ctx.unchained.compileField = ctx.compileField := funext compileField_unchained
        change f.unchained.compileWith ctx.target ctx.unchained.compileField = _
        rw [hread]
        exact Formula.compileWith_unchained
  · cases root with
    | none => rfl
    | some f => exact congrArg SessionM.fromScratch Formula.compileWith_unchained
  · intro f _ hchains op operands hpart
    exact hchains op (Formula.part_unchained hpart).2

end Context

/-! ### A chain of numbers and texts -/

namespace Sample

/-- The sum of a number and two more, as one chain. -/
def raisedFormula : Formula := .chain .add [.field "n", .number "1", .number "2"]

def parcels : Table :=
  .ofFields "p" "parcels"
    [.single "n" "weight" .number .column, .single "s" "label" .string .column,
     .single "r" "raised" .number (.formula (.tree (some raisedFormula)) false)]

def parcelContext : Context :=
  ⟨parcels, { dialect := .postgres, mode := .generated, now := ⟨0⟩ }, .detached⟩

/-- Two numbers are added, then texts are joined; one of these is a chain itself. -/
def parcelLine : Formula :=
  .chain .add [.field "r", .field "n", .field "s", .chain .concat [.field "s", .text "!", .field "s"]]

def parcelLineNested : Formula :=
  .binary (.binary (.binary (.field "r") .add (.field "n")) .add (.field "s")) .add
    (.binary (.binary (.field "s") .concat (.text "!")) .concat (.field "s"))

theorem parcelLine_notEmpty (op : BinaryOp) : ¬ Formula.Part (.chain op []) parcelLine := by
  intro h
  cases h with
  | chain hmem h =>
      simp only [List.mem_cons, List.not_mem_nil, or_false] at hmem
      rcases hmem with rfl | rfl | rfl | rfl
      · cases h
      · cases h
      · cases h
      · cases h with
        | chain hmem h =>
            simp only [List.mem_cons, List.not_mem_nil, or_false] at hmem
            rcases hmem with rfl | rfl | rfl
            · cases h
            · cases h
            · cases h

end Sample

/-- The line of a parcel, as a chain and as nested operations, and its SQL. -/
theorem Context.compileTree_unchained_parcels :
    Sample.parcelLine.unchained = Sample.parcelLineNested ∧
    Sample.parcelContext.compileTree (some Sample.parcelLineNested) =
      Sample.parcelContext.compileTree (some Sample.parcelLine) ∧
    Sample.parcelContext.unchained.compileTree (some Sample.parcelLineNested) =
      Sample.parcelContext.compileTree (some Sample.parcelLine) ∧
    (∀ op operands, ¬ Formula.Part (.chain op operands) Sample.parcelLineNested) ∧
    (Sample.parcelContext.compileTree (some Sample.parcelLine)).toOption.map
        (fun c => (c.sql, c.reads)) =
      some ("(COALESCE(((\"weight\" + 1 + 2 + \"weight\"))::text, ''::text) || " ++
        "COALESCE(\"label\", ''::text) || " ++
        "COALESCE((COALESCE(\"label\", ''::text) || COALESCE('!'::text, ''::text) || " ++
        "COALESCE(\"label\", ''::text)), ''::text))", ["n", "s"]) := by
  have hline : Sample.parcelLine.unchained = Sample.parcelLineNested := rfl
  obtain ⟨htree, htable, -, hchains⟩ :=
    compileTree_unchained Sample.parcelContext (some Sample.parcelLine)
  rw [Option.map_some, hline] at htree htable
  refine ⟨hline, htree, htable, ?_, ?_⟩
  · rw [← hline]
    exact hchains Sample.parcelLine rfl Sample.parcelLine_notEmpty
  · rfl

end ComputedFields
