/-
**The formula that an arena holds.**

An arena is a table of expressions, and a formula is a tree.  Which tree stands at a place is found by
following the places, and there is one exactly when this comes to an end without an error.  Nothing else is
asked of the arena: expressions may stand in any order, and one expression may be the operand of several.

The fields of a formula are searched for without recursion, with a stack of places that are still to be
visited.  What lies on the stack is a row of trees, a forest, and the search adds the fields of all its trees
from left to right.  This is the invariant that takes the place of the recursion: to visit the forest on top
is to go on with what lies below it and with the fields of the forest known.

Main definitions:

* `ComputedFields.Node.formula?` — the formula of an expression, given those of its operands;
* `ComputedFields.Arena.Forest` — the formulas at several places, and the places that belong to them;
* `ComputedFields.Arena.Holds` — the formula that an arena holds.

Main results:

* `ComputedFields.Arena.Forest.referencesFrom_append` — **the stack is a forest**;
* `ComputedFields.Arena.references_exact` — **the search finds every field at its first mention**.
-/

import Mathlib.Data.List.Induction
import ComputedFields.Formula.Arena
import ComputedFields.Proofs.FormulaReads

set_option relaxedAutoImplicit false
set_option autoImplicit false

namespace ComputedFields

/-! ### Trees in an arena -/

/-- The formula of an expression whose operands, or arguments, stand for the given formulas. -/
def Node.formula? : Node → List Formula → Option Formula
  | .bool value, [] => some (.bool value)
  | .number spelling, [] => some (.number spelling)
  | .text value, [] => some (.text value)
  | .null, [] => some .null
  | .field id, [] => some (.field id)
  | .call callee _, args => some (.call callee args)
  | .binary _ op _, [left, right] => some (.binary left op right)
  | .unary op _, [operand] => some (.unary op operand)
  | .chain op _, operands => some (.chain op operands)
  | _, _ => none

namespace Arena

/-- The formulas that stand at places of the arena.  The last list has all places that belong to them, in
the order in which they are met from left to right, an expression before its operands. -/
inductive Forest (a : Arena) : List Nat → List Formula → List Nat → Prop where
  | nil : Forest a [] [] []
  | cons {place : Nat} {node : Node} {children places below met : List Nat} {parts rest : List Formula}
      {f : Formula} :
      a.nodes[place]? = some node → a.children? node = some children → Forest a children parts below →
      node.formula? parts = some f → Forest a places rest met →
      Forest a (place :: places) (f :: rest) (place :: (below ++ met))

/-- The arena holds the formula, or nothing. -/
def Holds (a : Arena) : Option Formula → Prop
  | none => a.root = none
  | some f => ∃ root met, a.root = some root ∧ a.Forest [root] [f] met

end Arena

/-! ### Mentions -/

/-- Elements that are entered one after the other are kept at their first place. -/
theorem unionNew_nil_eq_eraseDups (l : List String) : unionNew [] l = l.eraseDups := by
  induction l using List.reverseRecOn with
  | nil => rfl
  | append_singleton l id ih =>
      rw [unionNew_append, ih, List.eraseDups_append]
      by_cases hid : id ∈ l
      · simp [unionNew, insertNew, List.removeAll, hid]
      · simp [unionNew, insertNew, List.removeAll, List.eraseDups_cons, hid]

namespace Formula

theorem references_eq (f : Formula) : f.references = f.mentions.eraseDups := by
  rw [references, addReferences_eq, unionNew_nil_eq_eraseDups]

end Formula

/-! ### The stack is a forest -/

/-- An expression mentions what it refers to itself, and what its operands mention. -/
theorem Node.unionNew_mentions {node : Node} {parts : List Formula} {f : Formula}
    (h : node.formula? parts = some f) (known : List String) :
    unionNew known f.mentions = unionNew (Arena.note known node) (Formula.mentionsAll parts) := by
  unfold Node.formula? at h
  split at h <;> cases h <;> simp [Formula.mentions, Formula.mentionsAll, Arena.note, unionNew]

namespace Arena

variable {a : Arena}

theorem pushAll_eq (places stack : List Nat) : pushAll places stack = places ++ stack := by
  rw [pushAll, List.foldl_reverse]
  induction places with
  | nil => rfl
  | cons place places ih => exact congrArg (place :: ·) ih

theorem referencesFrom_nil (known : List String) : a.referencesFrom known [] = some known := by
  rw [referencesFrom]

/-- One step of the search. -/
theorem referencesFrom_cons {place : Nat} {node : Node} {children : List Nat}
    (hnode : a.nodes[place]? = some node) (hchildren : a.children? node = some children)
    (known : List String) (stack : List Nat) :
    a.referencesFrom known (place :: stack) = a.referencesFrom (note known node) (children ++ stack) := by
  rw [referencesFrom, hnode]
  simp only [Option.bind_eq_bind, Option.bind_some, hchildren, pushAll_eq]

/-- **The stack is a forest**: a forest on top of the stack is visited tree by tree, and only then what
lies below it. -/
theorem Forest.referencesFrom_append {places met : List Nat} {fs : List Formula}
    (h : a.Forest places fs met) (known : List String) (stack : List Nat) :
    a.referencesFrom known (places ++ stack) =
      a.referencesFrom (unionNew known (Formula.mentionsAll fs)) stack := by
  induction h generalizing known stack with
  | nil => rfl
  | cons hnode hchildren _ hformula _ ihBelow ihRest =>
      rw [List.cons_append, referencesFrom_cons hnode hchildren, ihBelow, ihRest, Formula.mentionsAll,
        unionNew_append, Node.unionNew_mentions hformula]

/-- **The search finds every field at its first mention.** -/
theorem references_exact (a : Arena) (tree : Option Formula) (h : a.Holds tree) :
    a.references = some ((tree.map Formula.mentions).getD []).eraseDups ∧
      (tree.map Formula.references).getD [] = ((tree.map Formula.mentions).getD []).eraseDups := by
  cases tree with
  | none =>
      have hroot : a.root = none := h
      refine ⟨?_, rfl⟩
      rw [references, hroot]
      exact referencesFrom_nil []
  | some f =>
      obtain ⟨root, met, hroot, hforest⟩ := h
      refine ⟨?_, f.references_eq⟩
      have hsearch := hforest.referencesFrom_append [] []
      rw [List.append_nil, referencesFrom_nil, Formula.mentionsAll, Formula.mentionsAll, List.append_nil,
        unionNew_nil_eq_eraseDups] at hsearch
      rw [references, hroot]
      exact hsearch

end Arena

namespace Sample

/-- `SUM({b}, -{a}) & {b}`, with one expression for both mentions of `b`. -/
def sharedField : Arena where
  nodes :=
    #[.field "b", .field "a", .unary .neg 1, .call (.known (.numeric .sum)) ⟨0, 2⟩, .binary 3 .concat 0]
  args := #[0, 2]
  root := some 4

/-- The formula that it holds. -/
def sharedFormula : Formula :=
  .binary (.call (.known (.numeric .sum)) [.field "b", .unary .neg (.field "a")]) .concat (.field "b")

theorem sharedField_holds : sharedField.Holds (some sharedFormula) := by
  have hb : ∀ {places rest met}, sharedField.Forest places rest met →
      sharedField.Forest (0 :: places) (.field "b" :: rest) (0 :: ([] ++ met)) :=
    fun hrest => .cons rfl rfl .nil rfl hrest
  have ha : sharedField.Forest [1] [.field "a"] [1] := .cons rfl rfl .nil rfl .nil
  have hsum : sharedField.Forest [0, 2] [.field "b", .unary .neg (.field "a")] [0, 2, 1] :=
    hb (.cons rfl rfl ha rfl .nil)
  exact ⟨4, [4, 3, 0, 2, 1, 0], rfl, .cons rfl rfl (.cons rfl rfl hsum rfl (hb .nil)) rfl .nil⟩

theorem references_sharedField :
    sharedField.Holds (some sharedFormula) ∧ sharedField.references = some ["b", "a"] ∧
      sharedFormula.references = ["b", "a"] :=
  ⟨sharedField_holds, Arena.references_exact sharedField (some sharedFormula) sharedField_holds⟩

end Sample

end ComputedFields
