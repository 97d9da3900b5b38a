/-
**Walks through an arena.**

Whoever compiles a formula, or looks for its fields, walks through an arena from its root: a place is taken
up, its expression is read, and the places that it refers to are still to be visited.  In which order this
happens is up to the walk.  A walk can go wrong in three ways.  A place or a run can lie outside of the arena,
places can lead around in a circle, and an expression can be met more than once.

An arena that has been read from a source allows none of them.  Its expressions form one tree: everything
that an expression refers to was added before it, and everything but the root, which was added last, is
referred to once.  So whatever order a walk takes, the places that it has visited and those that it is still
going to meet are all places of the arena, each once.

Main definitions:

* `ComputedFields.Arena.childrenAt` — the places that the expression at a place refers to;
* `ComputedFields.Arena.WellFormed` — the expressions form one tree;
* `ComputedFields.Arena.Walk` — the places that a walk has visited, and those that are pending.

Main results:

* `ComputedFields.Arena.Forest.perm_children` — all places but those a forest begins with are referred to in
  it, each once;
* `ComputedFields.Arena.Walk.forest` — **what is visited and what is still to be met make up the arena**;
* `ComputedFields.Arena.parse_wellFormed` — **walks through the arena of a source are safe, end, and visit
  each expression once**.
-/

import Mathlib
import ComputedFields.Proofs.ArenaParsing

set_option relaxedAutoImplicit false
set_option autoImplicit false

namespace ComputedFields

namespace Arena

variable {a : Arena} {f : Formula} {place : Nat} {places met visited pending : List Nat} {fs : List Formula}

/-! ### One tree -/

/-- The places that the expression at a place refers to. -/
def childrenAt (a : Arena) (place : Nat) : List Nat := ((a.nodes[place]?).bind a.children?).getD []

theorem childrenAt_eq {node : Node} {children : List Nat} (hnode : a.nodes[place]? = some node)
    (hchildren : a.children? node = some children) : a.childrenAt place = children := by
  rw [childrenAt, hnode, Option.bind_some, hchildren, Option.getD_some]

/-- The expressions of the arena form one tree. -/
structure WellFormed (a : Arena) : Prop where
  /-- Runs lie inside the arena, and an expression refers to earlier ones only. -/
  sound : ∀ place node, a.nodes[place]? = some node →
    ∃ children, a.children? node = some children ∧ ∀ child ∈ children, child < place
  /-- The root is the last expression. -/
  rootLast : ∃ last, a.root = some last ∧ a.nodes.size = last + 1
  /-- Every other expression is referred to by exactly one. -/
  oneParent : ∀ place, place < a.nodes.size → a.root ≠ some place → ∃! parent, place ∈ a.childrenAt parent
  /-- And that one refers to it in one place only. -/
  onePlace : ∀ parent, (a.childrenAt parent).Nodup

/-- **All places of a forest but those it begins with are referred to in it, each once.** -/
theorem Forest.perm_children (h : a.Forest places fs met) :
    met.Perm (places ++ met.flatMap a.childrenAt) := by
  induction h with
  | nil => exact .nil
  | cons hnode hchildren _ _ _ ihBelow ihRest =>
      refine List.perm_iff_count.2 fun x => ?_
      have hbelow := List.perm_iff_count.1 ihBelow x
      have hrest := List.perm_iff_count.1 ihRest x
      simp only [List.count_append, List.count_cons, List.flatMap_cons, List.flatMap_append,
        List.cons_append, childrenAt_eq hnode hchildren] at hbelow hrest ⊢
      omega

theorem Filled.perm_children (h : a.Filled f) :
    ∃ last, a.root = some last ∧ a.nodes.size = last + 1 ∧
      ((List.range a.nodes.size).flatMap a.childrenAt).Perm (List.range last) := by
  obtain ⟨last, met, hroot, hforest, hsize, hmet⟩ := h.root
  refine ⟨last, hroot, hsize, ?_⟩
  have hparts := (hmet.symm.trans hforest.perm_children).trans
    ((hmet.flatMap_right a.childrenAt).append_left [last])
  rw [hsize, List.range_succ] at hparts ⊢
  exact ((List.perm_append_singleton _ _).symm.trans hparts).cons_inv.symm

theorem childrenAt_of_size_le (h : a.nodes.size ≤ place) : a.childrenAt place = [] := by
  rw [childrenAt, Array.getElem?_eq_none h, Option.bind_none, Option.getD_none]

theorem Filled.wellFormed (h : a.Filled f) : a.WellFormed := by
  obtain ⟨last, hroot, hsize, hperm⟩ := h.perm_children
  obtain ⟨hnodup, hdisjoint⟩ := List.nodup_flatMap.1 (hperm.nodup_iff.2 List.nodup_range)
  have hinside : ∀ {place parent}, place ∈ a.childrenAt parent → parent ∈ List.range a.nodes.size := by
    intro place parent hplace
    by_contra hparent
    rw [childrenAt_of_size_le (by simpa using hparent)] at hplace
    cases hplace
  refine ⟨h.sound, ⟨last, hroot, hsize⟩, fun place hplace hne => ?_, fun parent => ?_⟩
  · have hlast : place ≠ last := by
      rintro rfl
      exact hne hroot
    obtain ⟨parent, -, hparent⟩ :=
      List.mem_flatMap.1 (hperm.mem_iff.2 (List.mem_range.2 (show place < last by omega)))
    refine ⟨parent, hparent, fun other hother => ?_⟩
    by_contra hdiff
    have : Std.Symm (Function.onFun List.Disjoint a.childrenAt) := ⟨fun _ _ h _ hx hy => h hy hx⟩
    exact hdisjoint.forall (hinside hother) (hinside hparent) hdiff hother hparent
  · by_cases hparent : parent < a.nodes.size
    · exact hnodup parent (List.mem_range.2 hparent)
    · rw [childrenAt_of_size_le (by omega)]
      exact List.nodup_nil

/-! ### Walks -/

/-- A walk from the root: the places it has visited, and those that are pending.  The next place may be any
of the pending ones, and what its expression refers to may be put anywhere among the others. -/
inductive Walk (a : Arena) : List Nat → List Nat → Prop where
  | start {root : Nat} : a.root = some root → Walk a [] [root]
  | visit {visited pending rest next children : List Nat} {place : Nat} {node : Node} :
      Walk a visited pending → pending.Perm (place :: rest) → a.nodes[place]? = some node →
      a.children? node = some children → next.Perm (children ++ rest) → Walk a (visited ++ [place]) next

/-- A forest may begin with its places in any order. -/
theorem Forest.perm {others : List Nat} (h : a.Forest places fs met) (hperm : places.Perm others) :
    ∃ gs met', a.Forest others gs met' ∧ met'.Perm met := by
  induction hperm generalizing fs met with
  | nil => exact ⟨fs, met, h, .refl _⟩
  | cons place _ ih =>
      cases h with
      | cons hnode hchildren hbelow hformula hrest =>
          obtain ⟨gs, met', hgs, hmet'⟩ := ih hrest
          exact ⟨_, _, .cons hnode hchildren hbelow hformula hgs, (hmet'.append_left _).cons place⟩
  | swap =>
      cases h with
      | cons hnode hchildren hbelow hformula hrest =>
          cases hrest with
          | cons hnode' hchildren' hbelow' hformula' hrest' =>
              refine ⟨_, _, .cons hnode' hchildren' hbelow' hformula'
                (.cons hnode hchildren hbelow hformula hrest'), List.perm_iff_count.2 fun x => ?_⟩
              simp only [List.count_append, List.count_cons]
              omega
  | trans _ _ ih₁ ih₂ =>
      obtain ⟨gs, met', hgs, hmet'⟩ := ih₁ h
      obtain ⟨gs', met'', hgs', hmet''⟩ := ih₂ hgs
      exact ⟨gs', met'', hgs', hmet''.trans hmet'⟩

/-- **What is visited and what is still to be met make up the arena.** -/
theorem Walk.forest (h : a.Walk visited pending) (hfilled : a.Filled f) :
    ∃ fs met, a.Forest pending fs met ∧ (visited ++ met).Perm (List.range a.nodes.size) := by
  induction h with
  | start hroot =>
      obtain ⟨last, met, hlast, hforest, -, hmet⟩ := hfilled.root
      cases hroot.symm.trans hlast
      exact ⟨[f], met, hforest, hmet⟩
  | visit _ hpending hnode hchildren hnext ih =>
      obtain ⟨fs, met, hforest, hmet⟩ := ih
      obtain ⟨gs, met', hgs, hmet'⟩ := hforest.perm hpending
      cases hgs with
      | cons hnode' hchildren' hbelow _ hrest =>
          cases hnode.symm.trans hnode'
          cases hchildren.symm.trans hchildren'
          obtain ⟨gs', met'', hgs', hmet''⟩ := (hbelow.append hrest).perm hnext.symm
          refine ⟨gs', met'', hgs', ?_⟩
          rw [List.append_assoc]
          exact ((hmet''.cons _).append_left _).trans ((hmet'.append_left _).trans hmet)

/-- Whatever is still to be met can be read. -/
theorem Walk.exists_node (h : a.Walk visited pending) (hfilled : a.Filled f) (hplace : place ∈ pending) :
    ∃ node children, a.nodes[place]? = some node ∧ a.children? node = some children := by
  obtain ⟨fs, met, hforest, hperm⟩ := h.forest hfilled
  have hlt : place < a.nodes.size :=
    List.mem_range.1 (hperm.mem_iff.1 (List.mem_append_right _ (hforest.mem_of_mem hplace)))
  obtain ⟨children, hchildren, -⟩ := hfilled.sound place _ (Array.getElem?_eq_getElem hlt)
  exact ⟨_, children, Array.getElem?_eq_getElem hlt, hchildren⟩

/-- Places that are visited are not pending any more, so a walk has at most one step for each place. -/
theorem Walk.length_le (h : a.Walk visited pending) (hfilled : a.Filled f) :
    visited.length + pending.length ≤ a.nodes.size := by
  obtain ⟨fs, met, hforest, hperm⟩ := h.forest hfilled
  have hall := hperm.length_eq
  have hmet := hforest.perm_children.length_eq
  rw [List.length_append, List.length_range] at hall
  rw [List.length_append] at hmet
  omega

theorem Walk.nodup (h : a.Walk visited pending) (hfilled : a.Filled f) : visited.Nodup := by
  obtain ⟨fs, met, -, hperm⟩ := h.forest hfilled
  exact (List.nodup_append.1 (hperm.nodup_iff.2 List.nodup_range)).1

theorem Walk.perm_range (h : a.Walk visited []) (hfilled : a.Filled f) :
    visited.Perm (List.range a.nodes.size) := by
  obtain ⟨fs, met, hforest, hperm⟩ := h.forest hfilled
  cases hforest
  rwa [List.append_nil] at hperm

/-- **Walks through the arena of a source are safe, end, and visit each expression once.**  A source that can
be read as a formula can be read into an arena, and the other way round; the arena holds the formula and is
well formed.  On whatever way through it from the root, all that is pending can be read, nothing is visited
twice, there are no more steps than expressions, and when nothing is pending all of them are visited. -/
theorem parse_wellFormed (source : String) :
    Agree (fun a f => a.Holds (some f) ∧ a.WellFormed ∧
      ∀ visited pending, a.Walk visited pending →
        (∀ place ∈ pending, ∃ node children,
          a.nodes[place]? = some node ∧ a.children? node = some children) ∧
        visited.Nodup ∧ visited.length + pending.length ≤ a.nodes.size ∧
        (pending = [] → visited.Perm (List.range a.nodes.size)))
      (Arena.parse source) (Formula.parse source) := by
  refine (parse_agrees source).imp fun a f hfilled => ?_
  obtain ⟨last, met, hroot, hforest, -, -⟩ := hfilled.root
  refine ⟨⟨last, met, hroot, hforest⟩, hfilled.wellFormed, fun visited pending hwalk => ?_⟩
  refine ⟨fun place => hwalk.exists_node hfilled, hwalk.nodup hfilled, hwalk.length_le hfilled, ?_⟩
  rintro rfl
  exact hwalk.perm_range hfilled

end Arena

namespace Sample

/-- `SUM({a}) & -{b} & 'x'`, a chain with a call and a negation among its operands. -/
def chainedArena : Arena where
  nodes :=
    #[.field "a", .call (.known (.numeric .sum)) ⟨0, 1⟩, .field "b", .unary .neg 2, .text "x",
      .chain .concat ⟨1, 3⟩]
  args := #[0, 1, 3, 4]
  root := some 5

/-- The formula that it holds. -/
def chainedFormula : Formula :=
  .chain .concat
    [.call (.known (.numeric .sum)) [.field "a"], .unary .neg (.field "b"), .text "x"]

theorem parse_chainedFormula :
    Formula.parse "SUM(\x7ba\x7d) & -\x7bb\x7d & 'x'" = .ok chainedFormula := by cbv

theorem parse_chainedArena : Arena.parse "SUM(\x7ba\x7d) & -\x7bb\x7d & 'x'" = .ok chainedArena := by cbv

/-- A walk that takes the operands of the chain from the right. -/
theorem walk_chainedArena : chainedArena.Walk [5, 4, 3] [2, 1] := by
  have hroot : chainedArena.Walk [5] [4, 3, 1] :=
    .visit (.start rfl) (.refl _) rfl rfl (List.reverse_perm [1, 3, 4])
  have hlast : chainedArena.Walk [5, 4] [3, 1] := .visit hroot (.refl _) rfl rfl (.refl _)
  exact .visit hlast (.refl _) rfl rfl (.refl _)

theorem chainedArena_wellFormed :
    Arena.parse "SUM(\x7ba\x7d) & -\x7bb\x7d & 'x'" = .ok chainedArena ∧
      chainedArena.Holds (some chainedFormula) ∧ chainedArena.WellFormed ∧
      chainedArena.Walk [5, 4, 3] [2, 1] ∧
      ∀ place ∈ [2, 1], ∃ node children,
        chainedArena.nodes[place]? = some node ∧ chainedArena.children? node = some children := by
  have hagree := Arena.parse_wellFormed "SUM(\x7ba\x7d) & -\x7bb\x7d & 'x'"
  rw [parse_chainedArena, parse_chainedFormula] at hagree
  cases hagree with
  | ok h =>
      obtain ⟨hholds, hwellFormed, hwalks⟩ := h
      exact ⟨parse_chainedArena, hholds, hwellFormed, walk_chainedArena, (hwalks _ _ walk_chainedArena).1⟩

end Sample

end ComputedFields
