/-
**What a compiled formula reads.**

A formula refers to fields.  Those that are formulas again are expanded, so that in the end a
compiled formula reads fields that are no formulas.  Here it is shown that a compiled formula
records its reads faithfully.  They stand behind the field that was compiled, where the planner
looks for them; and nothing but them matters, that is, a compilation comes out the same however the
other fields are stored.

Main definitions:

* `ComputedFields.Formula.mentions` — the fields that a formula mentions, from left to right;
* `ComputedFields.Agree` — two computations that succeed alike or fail with the same error;
* `ComputedFields.Simulation` — a relation between the computations of two monads;
* `ComputedFields.Gathers` — reads that come from references;
* `ComputedFields.Table.Behind` — a field that others lead to.

Main results:

* `ComputedFields.Formula.compileWith_call_eq_ok_iff` — when a call compiles;
* `ComputedFields.Formula.compileWith_simulates` — a formula in two monads;
* `ComputedFields.Formula.compileWith_gathers`, `ComputedFields.Formula.compileWith_congr` — what a
  formula reads, and that it reads nothing else;
* `ComputedFields.Context.expand_congr` — **only what is read matters**;
* `ComputedFields.Context.behind_of_mem_reads`, `ComputedFields.Table.mem_leafFields_of_behind` —
  **what is read is planned for**.
-/

import Mathlib.Data.List.Forall2
import ComputedFields.Compile.Basic
import ComputedFields.Cte.Leaves

set_option relaxedAutoImplicit false
set_option autoImplicit false

namespace ComputedFields

/-- One computation after another succeeds when both do. -/
theorem exists_of_bind_eq_ok {ε α β : Type} {x : Except ε α} {f : α → Except ε β} {b : β}
    (h : (x >>= f) = .ok b) : ∃ a, x = .ok a ∧ f a = .ok b := by
  cases x with
  | error e => cases h
  | ok a => exact ⟨a, rfl, h⟩

/-- Both computations succeed with related results, or both fail with the same error. -/
inductive Agree {ε α β : Type} (R : α → β → Prop) : Except ε α → Except ε β → Prop where
  | ok {a : α} {b : β} : R a b → Agree R (.ok a) (.ok b)
  | error (e : ε) : Agree R (.error e) (.error e)

namespace Agree

variable {ε α α' β β' γ : Type} {R : α → α' → Prop} {S : β → β' → Prop}

theorem bind {x : Except ε α} {x' : Except ε α'} {f : α → Except ε β} {f' : α' → Except ε β'}
    (hx : Agree R x x') (hf : ∀ a a', R a a' → Agree S (f a) (f' a')) :
    Agree S (x >>= f) (x' >>= f') := by
  cases hx with
  | ok h => exact hf _ _ h
  | error e => exact .error e

theorem imp {R' : α → α' → Prop} {x : Except ε α} {x' : Except ε α'} (h : Agree R x x')
    (himp : ∀ a a', R a a' → R' a a') : Agree R' x x' := by
  cases h with
  | ok h => exact .ok (himp _ _ h)
  | error e => exact .error e

end Agree

/-- An error that is passed on stays the same. -/
theorem ofExcept_except {α : Type} (x : Except CompileError α) :
    (MonadExcept.ofExcept x : Except CompileError α) = x := by
  cases x <;> rfl

/-- A relation between the computations of two monads.  It relates a value to itself and a failure to
itself, and it is kept when related computations go on in related ways. -/
structure Simulation {m n : Type → Type} [Monad m] [MonadExceptOf CompileError m] [Monad n]
    [MonadExceptOf CompileError n] (R : ∀ α : Type, m α → n α → Prop) : Prop where
  pure : ∀ {α : Type} (a : α), R α (Pure.pure a) (Pure.pure a)
  throw : ∀ {α : Type} (e : CompileError), R α (throw e) (throw e)
  bind : ∀ {α β : Type} {x : m α} {y : n α} {f : α → m β} {g : α → n β}, R α x y →
    (∀ a, R β (f a) (g a)) → R β (x >>= f) (y >>= g)

theorem Simulation.ofExcept {m n : Type → Type} [Monad m] [MonadExceptOf CompileError m] [Monad n]
    [MonadExceptOf CompileError n] {R : ∀ α : Type, m α → n α → Prop} (h : Simulation R) {α : Type}
    (x : Except CompileError α) : R α (MonadExcept.ofExcept x) (MonadExcept.ofExcept x) := by
  cases x with
  | ok a => exact h.pure a
  | error e => exact h.throw e

/-- One step after another, where a step may fail and keeps its state even then. -/
theorem run_bind {ε σ α β : Type} (x : ExceptT ε (StateM σ) α) (f : α → ExceptT ε (StateM σ) β)
    (s : σ) :
    (x >>= f).run s =
      match x.run s with
      | (.ok a, after) => (f a).run after
      | (.error e, after) => (.error e, after) := by
  change ExceptT.bindCont f (x.run s).1 (x.run s).2 = _
  cases x.run s with
  | mk result after =>
      cases result with
      | ok a => rfl
      | error e => rfl

theorem exists_getElem?_of_forall₂ {α β : Type} {R : α → β → Prop} {as : List α} {bs : List β}
    (h : List.Forall₂ R as bs) {i : Nat} {a : α} (ha : as[i]? = some a) :
    ∃ b, bs[i]? = some b ∧ R a b := by
  induction h generalizing i with
  | nil => simp at ha
  | cons hab _ ih =>
      cases i with
      | zero =>
          obtain rfl : _ = a := by simpa using ha
          exact ⟨_, rfl, hab⟩
      | succ i => simpa using ih (by simpa using ha)

/-! ### References -/

theorem unionNew_append (known l l' : List String) :
    unionNew known (l ++ l') = unionNew (unionNew known l) l' :=
  List.foldl_append

namespace Formula

mutual

/-- The fields that a formula mentions, from left to right and as often as it mentions them. -/
def mentions : Formula → List String
  | .bool _ | .number _ | .text _ | .null => []
  | .field id => [id]
  | .call _ args => mentionsAll args
  | .binary left _ right => left.mentions ++ right.mentions
  | .unary _ operand => operand.mentions
  | .chain _ operands => mentionsAll operands

/-- The fields that formulas mention. -/
def mentionsAll : List Formula → List String
  | [] => []
  | f :: rest => f.mentions ++ mentionsAll rest

end

mutual

theorem addReferences_eq : ∀ (f : Formula) (known : List String),
    f.addReferences known = unionNew known f.mentions
  | .bool _, _ | .number _, _ | .text _, _ | .null, _ | .field _, _ => rfl
  | .call _ args, known => addAllReferences_eq args known
  | .binary left _ right, known => by
      rw [addReferences, addReferences_eq left, addReferences_eq right, mentions, unionNew_append]
  | .unary _ operand, known => addReferences_eq operand known
  | .chain _ operands, known => addAllReferences_eq operands known

theorem addAllReferences_eq : ∀ (fs : List Formula) (known : List String),
    addAllReferences known fs = unionNew known (mentionsAll fs)
  | [], _ => rfl
  | f :: rest, known => by
      rw [addAllReferences, addReferences_eq f, addAllReferences_eq rest, mentionsAll, unionNew_append]

end

/-- A formula refers to what it mentions. -/
theorem mem_references {id : String} {f : Formula} : id ∈ f.references ↔ id ∈ f.mentions := by
  rw [references, addReferences_eq]
  simp

theorem mem_mentionsAll {id : String} {fs : List Formula} :
    id ∈ mentionsAll fs ↔ ∃ f ∈ fs, id ∈ f.mentions := by
  induction fs with
  | nil => simp [mentionsAll]
  | cons f rest ih => simp [mentionsAll, ih]

@[simp] theorem mem_references_binary {id : String} {left right : Formula} {op : BinaryOp} :
    id ∈ (binary left op right).references ↔ id ∈ left.references ∨ id ∈ right.references := by
  simp [mem_references, mentions]

@[simp] theorem mem_references_chain {id : String} {op : BinaryOp} {operands : List Formula} :
    id ∈ (chain op operands).references ↔ ∃ f ∈ operands, id ∈ f.references := by
  simp [mem_references, mentions, mem_mentionsAll]

@[simp] theorem mem_references_call {id : String} {callee : Callee} {args : List Formula} :
    id ∈ (call callee args).references ↔ ∃ f ∈ args, id ∈ f.references := by
  simp [mem_references, mentions, mem_mentionsAll]

end Formula

/-! ### Reads of a formula -/

/-- The reads are exactly those of the references, each of which can be read. -/
structure Gathers (read : String → Except CompileError Compiled) (refs reads : String → Prop) :
    Prop where
  total : ∀ ref, refs ref → ∃ c, read ref = .ok c
  reads_iff : ∀ id, reads id ↔ ∃ ref, refs ref ∧ ∃ c, read ref = .ok c ∧ id ∈ c.reads

namespace Gathers

variable {read : String → Except CompileError Compiled} {refs refs' reads reads' : String → Prop}

theorem none (hrefs : ∀ ref, ¬ refs ref) (hreads : ∀ id, ¬ reads id) : Gathers read refs reads := by
  refine ⟨fun ref href => absurd href (hrefs ref), fun id => ⟨?_, ?_⟩⟩
  · exact fun hid => absurd hid (hreads id)
  · rintro ⟨ref, href, _⟩
    exact absurd href (hrefs ref)

theorem one {id : String} {c : Compiled} (h : read id = .ok c) :
    Gathers read (· ∈ [id]) (· ∈ c.reads) := by
  refine ⟨fun ref href => ⟨c, List.mem_singleton.1 href ▸ h⟩, fun x => ⟨?_, ?_⟩⟩
  · exact fun hx => ⟨id, List.mem_singleton_self id, c, h, hx⟩
  · rintro ⟨ref, href, c', hread, hx⟩
    rw [List.mem_singleton.1 href, h] at hread
    cases hread
    exact hx

theorem or (h : Gathers read refs reads) (h' : Gathers read refs' reads') :
    Gathers read (fun ref => refs ref ∨ refs' ref) (fun id => reads id ∨ reads' id) := by
  refine ⟨fun ref href => href.elim (h.total ref) (h'.total ref), fun id => ?_⟩
  rw [h.reads_iff, h'.reads_iff]
  simp only [or_and_right, exists_or]

theorem congr (h : Gathers read refs reads) (hrefs : ∀ ref, refs' ref ↔ refs ref)
    (hreads : ∀ id, reads' id ↔ reads id) : Gathers read refs' reads' := by
  obtain rfl : refs' = refs := funext fun ref => propext (hrefs ref)
  obtain rfl : reads' = reads := funext fun id => propext (hreads id)
  exact h

end Gathers

theorem Compiled.mem_readsOfAll {id : String} {parts : List Compiled} :
    id ∈ readsOfAll parts ↔ ∃ c ∈ parts, id ∈ c.reads := by
  have hfold : ∀ (reads : List String),
      id ∈ parts.foldl (fun reads c => unionNew reads c.reads) reads ↔
        id ∈ reads ∨ ∃ c ∈ parts, id ∈ c.reads := by
    induction parts with
    | nil => simp
    | cons c rest ih =>
        intro reads
        rw [List.foldl_cons, ih]
        simp [or_assoc]
  exact (hfold []).trans (by simp)

theorem Compiled.mem_reads_foldl_binary {t : Target} {op : BinaryOp} {id : String}
    (first : Compiled) (others : List Compiled) :
    id ∈ (others.foldl (Compiled.binary t op) first).reads ↔
      ∃ c ∈ first :: others, id ∈ c.reads := by
  induction others generalizing first with
  | nil => simp
  | cons c rest ih =>
      rw [List.foldl_cons, ih]
      simp [Compiled.binary, or_assoc]

namespace Formula

section Reads

variable {t : Target} {read : String → Except CompileError Compiled}

/-- Formulas compile when each of them does. -/
theorem compileAllWith_eq_ok_iff {fs : List Formula} {parts : List Compiled} :
    compileAllWith t read fs = .ok parts ↔
      List.Forall₂ (fun f c => f.compileWith t read = .ok c) fs parts := by
  constructor
  · intro h
    induction fs generalizing parts with
    | nil =>
        cases h
        exact .nil
    | cons f rest ih =>
        obtain ⟨first, hfirst, h⟩ := exists_of_bind_eq_ok h
        obtain ⟨others, hothers, h⟩ := exists_of_bind_eq_ok h
        cases h
        exact .cons hfirst (ih hothers)
  · intro h
    induction h with
    | nil => rfl
    | cons hfirst _ ih =>
        rw [compileAllWith, hfirst, ih]
        rfl

/-- **When a call compiles**: the function takes so many arguments and is supported, the arguments compile,
and the function applies to them. -/
theorem compileWith_call_eq_ok_iff {f : Function} {args : List Formula} {c : Compiled} :
    (Formula.call (.known f) args).compileWith t read = .ok c ↔
      f.accepts args.length = true ∧ f.supported t.dialect t.mode = true ∧
        ∃ parts fragment, compileAllWith t read args = .ok parts ∧
          f.apply t (parts.map Compiled.fragment) = .ok fragment ∧
          c = ⟨fragment, Compiled.readsOfAll parts⟩ := by
  rw [compileWith]
  constructor
  · intro h
    split at h
    · cases h
    · next haccepts =>
        split at h
        · cases h
        · next hsupported =>
            obtain ⟨parts, hparts, h⟩ := exists_of_bind_eq_ok h
            obtain ⟨fragment, hfragment, h⟩ := exists_of_bind_eq_ok h
            rw [ofExcept_except] at hfragment
            cases h
            exact ⟨by simpa using haccepts, by simpa using hsupported, parts, fragment, hparts, hfragment,
              rfl⟩
  · rintro ⟨haccepts, hsupported, parts, fragment, hparts, hfragment, rfl⟩
    simp [haccepts, hsupported, hparts, hfragment, ofExcept_except, bind, Except.bind, pure, Except.pure]

mutual

/-- A formula reads what its references read. -/
theorem compileWith_gathers :
    ∀ {f : Formula} {c : Compiled}, f.compileWith t read = .ok c →
      Gathers read (· ∈ f.references) (· ∈ c.reads)
  | .bool _, c, h => by
      cases h
      exact .none (fun _ => List.not_mem_nil) fun _ => List.not_mem_nil
  | .number _, c, h => by
      cases h
      exact .none (fun _ => List.not_mem_nil) fun _ => List.not_mem_nil
  | .text _, c, h => by
      cases h
      exact .none (fun _ => List.not_mem_nil) fun _ => List.not_mem_nil
  | .null, c, h => by
      cases h
      exact .none (fun _ => List.not_mem_nil) fun _ => List.not_mem_nil
  | .field id, c, h => .one h
  | .unary op operand, c, h => by
      obtain ⟨c', hoperand, hc⟩ := exists_of_bind_eq_ok h
      cases hc
      exact (compileWith_gathers hoperand).congr (fun _ => Iff.rfl) fun _ => Iff.rfl
  | .binary left op right, c, h => by
      obtain ⟨l, hleft, h⟩ := exists_of_bind_eq_ok h
      obtain ⟨r, hright, hc⟩ := exists_of_bind_eq_ok h
      cases hc
      refine ((compileWith_gathers hleft).or (compileWith_gathers hright)).congr ?_ ?_
      · exact fun ref => mem_references_binary
      · exact fun id => mem_unionNew
  | .chain op operands, c, h => by
      obtain ⟨parts, hparts, h⟩ := exists_of_bind_eq_ok h
      refine (compileAllWith_gathers hparts).congr (fun ref => mem_references_chain) ?_
      cases parts with
      | nil => cases h
      | cons first others =>
          cases h
          exact fun id => Compiled.mem_reads_foldl_binary first others
  | .call (.unknown name) args, c, h => by cases h
  | .call (.known f) args, c, h => by
      obtain ⟨-, -, parts, fragment, hparts, -, rfl⟩ := compileWith_call_eq_ok_iff.1 h
      refine (compileAllWith_gathers hparts).congr (fun ref => mem_references_call) ?_
      exact fun id => Compiled.mem_readsOfAll

theorem compileAllWith_gathers :
    ∀ {fs : List Formula} {parts : List Compiled}, compileAllWith t read fs = .ok parts →
      Gathers read (fun ref => ∃ f ∈ fs, ref ∈ f.references) (fun id => ∃ c ∈ parts, id ∈ c.reads)
  | [], parts, h => by
      cases h
      exact .none (by simp) (by simp)
  | f :: rest, parts, h => by
      obtain ⟨first, hfirst, h⟩ := exists_of_bind_eq_ok h
      obtain ⟨others, hothers, hparts⟩ := exists_of_bind_eq_ok h
      cases hparts
      refine ((compileWith_gathers hfirst).or (compileAllWith_gathers hothers)).congr ?_ ?_
      · simp
      · simp

end

end Reads

section Simulation

variable {m n : Type → Type} [Monad m] [MonadExceptOf CompileError m] [Monad n]
  [MonadExceptOf CompileError n] {R : ∀ α : Type, m α → n α → Prop} {t : Target}
  {read : String → m Compiled} {read' : String → n Compiled}

mutual

/-- **A formula is compiled alike in two monads**, if its references are read alike. -/
theorem compileWith_simulates (h : Simulation R) :
    ∀ {f : Formula}, (∀ ref ∈ f.references, R _ (read ref) (read' ref)) →
      R _ (f.compileWith t read) (f.compileWith t read')
  | .bool _, _ => h.pure _
  | .number _, _ => h.pure _
  | .text _, _ => h.pure _
  | .null, _ => h.pure _
  | .field id, hread => hread id (List.mem_singleton_self id)
  | .unary op operand, hread => by
      unfold compileWith
      exact h.bind (@compileWith_simulates h operand hread) fun c => h.pure _
  | .binary left op right, hread => by
      unfold compileWith
      refine h.bind (compileWith_simulates h fun ref href =>
        hread ref (mem_references_binary.2 (.inl href))) fun l => ?_
      exact h.bind (compileWith_simulates h fun ref href =>
        hread ref (mem_references_binary.2 (.inr href))) fun r => h.pure _
  | .chain op operands, hread => by
      unfold compileWith
      refine h.bind (compileAllWith_simulates h fun f hf ref href =>
        hread ref (mem_references_chain.2 ⟨f, hf, href⟩)) fun parts => ?_
      cases parts with
      | nil => exact h.throw _
      | cons first others => exact h.pure _
  | .call (.unknown name) args, _ => h.throw _
  | .call (.known f) args, hread => by
      unfold compileWith
      split
      · exact h.throw _
      · split
        · exact h.throw _
        · refine h.bind (compileAllWith_simulates h fun f hf ref href =>
            hread ref (mem_references_call.2 ⟨f, hf, href⟩)) fun parts => ?_
          exact h.bind (h.ofExcept _) fun fragment => h.pure _

theorem compileAllWith_simulates (h : Simulation R) :
    ∀ {fs : List Formula}, (∀ f ∈ fs, ∀ ref ∈ f.references, R _ (read ref) (read' ref)) →
      R _ (compileAllWith t read fs) (compileAllWith t read' fs)
  | [], _ => h.pure _
  | f :: rest, hread => by
      unfold compileAllWith
      refine h.bind (compileWith_simulates h (hread f List.mem_cons_self)) fun first => ?_
      exact h.bind (compileAllWith_simulates h fun f' hf' => hread f' (List.mem_cons_of_mem _ hf'))
        fun others => h.pure _

end

/-- A formula compiles alike when its references are read alike. -/
theorem compileWith_congr {f : Formula} {read read' : String → m Compiled}
    (h : ∀ ref ∈ f.references, read' ref = read ref) :
    f.compileWith t read' = f.compileWith t read := by
  have hequal : Simulation fun (α : Type) (x y : m α) => x = y := by
    refine ⟨fun _ => rfl, fun _ => rfl, ?_⟩
    rintro α β x _ f g rfl hfg
    rw [funext hfg]
  exact compileWith_simulates hequal h

end Simulation

end Formula

/-! ### Reads of a field -/

/-- A field that is no formula stands behind the field with the given id: it is this one, or this
one is a formula that leads to it through its references.  The way goes through fields not yet seen.
-/
inductive Table.Behind (table : Table) (seen : List String) : String → Field → Prop where
  | here {id : String} {leaf : Field} : id ∉ seen → table.field? id = some leaf →
      leaf.kind.isFormula = false → Behind table seen id leaf
  | there {id ref : String} {field leaf : Field} : id ∉ seen → table.field? id = some field →
      field.kind.isFormula = true → ref ∈ field.references → Behind table seen ref leaf →
      Behind table seen id leaf

namespace Context

variable {ctx : Context} {scope : Scope}

@[simp] theorem reads_asField (field : Field) (c : Compiled) :
    (asField field c).reads = c.reads := by
  unfold asField
  split <;> rfl

/-- What an expansion is: the field itself if it is no formula, else its formula with the references
expanded. -/
theorem expand_cases {depth : Nat} {path : List String} {id : String} {c : Compiled}
    (h : ctx.expand depth path id = .ok c) :
    ∃ field, ctx.table.field? id = some field ∧
      ((field.kind.isFormula = false ∧ c = ctx.plain field) ∨
        ∃ depth' source persisted f c', depth = depth' + 1 ∧
          field.kind = .formula source persisted ∧ id ∉ path ∧ source.formula = .ok f ∧
          f.compileWith ctx.target (ctx.expand depth' (path ++ [id])) = .ok c' ∧
          c = asField field c') := by
  cases depth with
  | zero => cases h
  | succ depth =>
      unfold expand at h
      cases hfield : ctx.table.field? id with
      | none =>
          rw [hfield] at h
          cases h
      | some field =>
          rw [hfield] at h
          refine ⟨field, rfl, ?_⟩
          dsimp only at h
          split at h
          · next source persisted hkind =>
              split at h
              · cases h
              · next hpath =>
                  split at h
                  · cases h
                  · next f hformula =>
                      obtain ⟨c', hcompile, hc⟩ := exists_of_bind_eq_ok h
                      cases hc
                      exact Or.inr ⟨depth, source, persisted, f, c', rfl, hkind, hpath, hformula,
                        hcompile, rfl⟩
          · next hkind =>
              cases h
              refine Or.inl ⟨?_, rfl⟩
              cases hk : field.kind with
              | formula source persisted => exact absurd hk (hkind source persisted)
              | _ => rfl

/-- The fields that a compiled field reads stand behind it. -/
theorem behind_of_mem_reads {depth : Nat} {path : List String} {id : String} {c : Compiled}
    (h : ctx.expand depth path id = .ok c) {x : String} (hx : x ∈ c.reads) :
    ∃ leaf, ctx.table.Behind [] id leaf ∧ leaf.id = x := by
  induction depth generalizing path id c with
  | zero => cases h
  | succ depth ih =>
      obtain ⟨field, hfield, ⟨hleaf, rfl⟩ | ⟨depth', source, persisted, f, c', heq, hkind, _,
        hformula, hcompile, rfl⟩⟩ := expand_cases h
      · exact ⟨field, .here List.not_mem_nil hfield hleaf, (List.mem_singleton.1 hx).symm⟩
      · cases heq
        rw [reads_asField] at hx
        obtain ⟨ref, href, c'', hread, hx⟩ :=
          ((Formula.compileWith_gathers hcompile).reads_iff x).1 hx
        obtain ⟨leaf, hbehind, hid⟩ := ih hread hx
        refine ⟨leaf, .there List.not_mem_nil hfield (by rw [hkind]; rfl) ?_ hbehind, hid⟩
        simpa [Field.references, hkind, FormulaSource.references, hformula] using href

/-- **Only what is read matters.**  A field compiles alike in another scope, if the fields that it
reads are stored alike there. -/
theorem expand_congr {depth : Nat} {path : List String} {id : String} {c : Compiled}
    (h : ctx.expand depth path id = .ok c)
    (hstored : ∀ field ∈ ctx.table.fields, field.id ∈ c.reads →
      { ctx with scope := scope }.stored field = ctx.stored field) :
    { ctx with scope := scope }.expand depth path id = .ok c := by
  induction depth generalizing path id c with
  | zero => cases h
  | succ depth ih =>
      obtain ⟨field, hfield, ⟨hleaf, rfl⟩ | ⟨depth', source, persisted, f, c', heq, hkind, hpath,
        hformula, hcompile, rfl⟩⟩ := expand_cases h
      · have hplain : { ctx with scope := scope }.plain field = ctx.plain field := by
          unfold plain
          rw [hstored field (ctx.table.mem_of_field? hfield) (List.mem_singleton_self _)]
          rfl
        unfold expand
        simp only [hfield]
        cases hk : field.kind with
        | formula source persisted =>
            rw [hk] at hleaf
            cases hleaf
        | _ => exact congrArg Except.ok hplain
      · cases heq
        have hgathers := Formula.compileWith_gathers hcompile
        -- every reference could be read, and reads nothing that the formula does not read
        have hread : ∀ ref ∈ f.references,
            { ctx with scope := scope }.expand depth (path ++ [id]) ref =
              ctx.expand depth (path ++ [id]) ref := by
          intro ref href
          obtain ⟨c'', hread⟩ := hgathers.total ref href
          rw [hread]
          refine ih hread fun g hg hmem => hstored g hg ?_
          rw [reads_asField]
          exact (hgathers.reads_iff _).2 ⟨ref, href, c'', hread, hmem⟩
        unfold expand
        simp only [hfield, hkind, hpath, if_false, hformula]
        rw [Formula.compileWith_congr hread, hcompile]
        rfl

end Context

/-! ### Leaves -/

namespace Table

variable {table : Table} {seen : List String}

theorem Behind.notMem {id : String} {leaf : Field} (h : table.Behind seen id leaf) : id ∉ seen := by
  cases h with
  | here hseen => exact hseen
  | there hseen => exact hseen

theorem Behind.isFormula_eq_false {id : String} {leaf : Field} (h : table.Behind seen id leaf) :
    leaf.kind.isFormula = false := by
  induction h with
  | here _ _ hleaf => exact hleaf
  | there _ _ _ _ _ ih => exact ih

/-- When a field is visited, what stood behind others still does, or else stands behind the field.
-/
theorem Behind.visit {id x : String} {field leaf : Field} (h : table.Behind seen x leaf)
    (hfield : table.field? id = some field) :
    table.Behind (id :: seen) x leaf ∨ leaf = field ∨
      ∃ ref ∈ field.references, table.Behind (id :: seen) ref leaf := by
  induction h with
  | @here x leaf hseen hx hleaf =>
      by_cases heq : x = id
      · subst heq
        exact Or.inr (Or.inl (Option.some.inj (hx.symm.trans hfield)))
      · exact Or.inl (.here (by simp [heq, hseen]) hx hleaf)
  | @there x ref field' leaf hseen hx hformula href hbehind ih =>
      -- a way that passes the visited field goes on behind it, without coming back
      rcases ih with ih | ih
      · by_cases heq : x = id
        · subst heq
          cases hx.symm.trans hfield
          exact Or.inr (Or.inr ⟨ref, href, ih⟩)
        · exact Or.inl (.there (by simp [heq, hseen]) hx hformula href ih)
      · exact Or.inr ih

/-- What stands behind a field of the work list is found. -/
theorem mem_leavesFrom_of_behind {todo : List String} {x : String} {leaf : Field} (hx : x ∈ todo)
    (h : table.Behind seen x leaf) : leaf ∈ table.leavesFrom seen todo := by
  fun_induction Table.leavesFrom table seen todo generalizing x with
  | case1 seen => exact absurd hx List.not_mem_nil
  | case2 seen id rest hseen ih =>
      rcases List.mem_cons.1 hx with rfl | hx
      · exact absurd hseen h.notMem
      · exact ih hx h
  | case3 seen id rest _ hnone ih =>
      rcases List.mem_cons.1 hx with rfl | hx
      · cases h with
        | here _ hsome => exact absurd (hnone.symm.trans hsome) (by simp)
        | there _ hsome => exact absurd (hnone.symm.trans hsome) (by simp)
      · exact ih hx h
  | case4 seen id rest _ field hfield hformula ih =>
      rcases h.visit hfield with hlater | rfl | ⟨ref, href, hlater⟩
      · have hne : x ≠ id := fun heq => hlater.notMem (heq ▸ List.mem_cons_self)
        exact ih (List.mem_append_right _ ((List.mem_cons.1 hx).resolve_left hne)) hlater
      · exact absurd (hformula.symm.trans h.isFormula_eq_false) (by simp)
      · exact ih (List.mem_append_left _ href) hlater
  | case5 seen id rest _ field hfield hformula ih =>
      rcases h.visit hfield with hlater | rfl | ⟨ref, href, _⟩
      · have hne : x ≠ id := fun heq => hlater.notMem (heq ▸ List.mem_cons_self)
        exact List.mem_cons_of_mem _ (ih ((List.mem_cons.1 hx).resolve_left hne) hlater)
      · exact List.mem_cons_self
      · rw [Field.references_of_isFormula (by simpa using hformula)] at href
        exact absurd href List.not_mem_nil

/-- **What is read is planned for**: whatever stands behind a field is one of its leaves. -/
theorem mem_leafFields_of_behind {id : String} {leaf : Field} (h : table.Behind [] id leaf) :
    leaf ∈ table.leafFields id :=
  mem_leavesFrom_of_behind (List.mem_singleton_self id) h

end Table

end ComputedFields
