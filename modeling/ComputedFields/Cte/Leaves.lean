/-
**The stored fields behind a field.**

A formula field reads other fields, and these may be formulas again.  Behind it stand the fields that
are no formulas.  Formulas that cannot be read contribute nothing, and a field is visited once, so
circles do no harm.

Main definitions:

* `ComputedFields.Table.leavesFrom` — the fields behind those of a work list;
* `ComputedFields.Table.leafFields` — the fields behind a field.
-/

import ComputedFields.Schema.Table

set_option relaxedAutoImplicit false
set_option autoImplicit false

namespace ComputedFields

/-- The fields of a table that have not been visited. -/
def Table.unseen (table : Table) (seen : List String) : Nat :=
  table.fieldIds.countP (· ∉ seen)

/-- Visiting a field of the table leaves fewer to be visited. -/
theorem Table.unseen_cons_lt {table : Table} {seen : List String} {id : String}
    (hmem : id ∈ table.fieldIds) (hnew : id ∉ seen) :
    table.unseen (id :: seen) < table.unseen seen :=
  countP_notMem_lt (fun _ h => List.mem_cons_of_mem _ h) hmem hnew List.mem_cons_self

theorem Table.mem_fieldIds_of_field? {table : Table} {id : String} {field : Field}
    (h : table.field? id = some field) : id ∈ table.fieldIds :=
  List.mem_map.2 ⟨field, table.mem_of_field? h, table.id_of_field? h⟩

theorem Table.notMem_fieldIds_of_field? {table : Table} {id : String} (h : table.field? id = none) :
    id ∉ table.fieldIds := by
  intro hid
  obtain ⟨field, hmem, rfl⟩ := List.mem_map.1 hid
  cases h.symm.trans (Table.field?_of_mem hmem)

/-- The fields that are no formulas behind those of the work list, in the order in which they are met.
The references of a formula are visited before what comes after it. -/
def Table.leavesFrom (table : Table) (seen todo : List String) : List Field :=
  match todo with
  | [] => []
  | id :: rest =>
      if _hseen : id ∈ seen then table.leavesFrom seen rest
      else
        match _hfield : table.field? id with
        | none => table.leavesFrom seen rest
        | some field =>
            if field.kind.isFormula then
              table.leavesFrom (id :: seen) (field.references ++ rest)
            else field :: table.leavesFrom (id :: seen) rest
termination_by (table.unseen seen, todo.length)
decreasing_by
  · exact Prod.Lex.right _ (by simp)
  · exact Prod.Lex.right _ (by simp)
  · exact Prod.Lex.left _ _ (Table.unseen_cons_lt (Table.mem_fieldIds_of_field? _hfield) _hseen)
  · exact Prod.Lex.left _ _ (Table.unseen_cons_lt (Table.mem_fieldIds_of_field? _hfield) _hseen)

/-- The fields behind others are fields of the table, and no formulas. -/
theorem Table.mem_fields_of_mem_leavesFrom {table : Table} {seen todo : List String} {leaf : Field}
    (h : leaf ∈ table.leavesFrom seen todo) : leaf ∈ table.fields ∧ leaf.kind.isFormula = false := by
  fun_induction Table.leavesFrom table seen todo with
  | case1 seen => simp at h
  | case2 seen id rest _ ih => exact ih h
  | case3 seen id rest _ _ ih => exact ih h
  | case4 seen id rest _ field _ _ ih => exact ih h
  | case5 seen id rest _ field hfield hformula ih =>
      rcases List.mem_cons.1 h with rfl | h
      · exact ⟨table.mem_of_field? hfield, by simpa using hformula⟩
      · exact ih h

/-- The fields that are no formulas behind a field. -/
def Table.leafFields (table : Table) (id : String) : List Field := table.leavesFrom [] [id]

theorem Table.mem_fields_of_mem_leafFields {table : Table} {id : String} {leaf : Field}
    (h : leaf ∈ table.leafFields id) : leaf ∈ table.fields :=
  (Table.mem_fields_of_mem_leavesFrom h).1

end ComputedFields
