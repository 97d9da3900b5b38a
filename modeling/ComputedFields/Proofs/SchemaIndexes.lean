/-
**The indexes of tables and catalogs.**

A table finds fields by their names and a catalog finds fields by their ids, each through an index that
is written when something is entered and never cleaned up.  After any sequence of entries an index
remembers what was entered last under a key, also when that has been replaced since.  So a name leads to
the field that was entered last under it, and this field has the name unless it was entered again under
another one.  A field id leads to the table that was entered last with such a field, and to nothing when
that table was replaced, even if another table of the catalog has the field.

Main definitions:

* `ComputedFields.LastIn` — the last element of a list with a property, and what follows it.

Main results:

* `ComputedFields.eq_some_iff_of_overwrites` — what is overwritten again and again holds the last value;
* `ComputedFields.LastIn.or_later` — an element that is last of one kind is last of another, or overtaken;
* `ComputedFields.Table.fieldByName_ofFields` — **what a name leads to**, and when it has the name;
* `ComputedFields.Catalog.field_ofTables` — **what a field id leads to**, and when it is found.
-/

import Mathlib.Data.List.Induction
import ComputedFields.Cte.Leaves

set_option relaxedAutoImplicit false
set_option autoImplicit false

namespace ComputedFields

/-! ### The last element with a property -/

section LastIn

universe u v

variable {α : Type u} {β : Type v} {p q : α → Prop} {l : List α} {a b : α} {after rest : List α}

/-- `a` is the last element of the list with the property, and `after` is what follows it. -/
def LastIn (p : α → Prop) (l : List α) (a : α) (after : List α) : Prop :=
  ∃ before, l = before ++ a :: after ∧ p a ∧ ∀ b ∈ after, ¬p b

theorem not_lastIn_nil : ¬LastIn p [] a after := by
  rintro ⟨before, hl, -⟩
  simp at hl

/-- The last element of a longer list is the new one or, if that does not have the property, the last
one of before. -/
theorem lastIn_concat {x : α} : LastIn p (l ++ [x]) a after ↔
    (p x ∧ a = x ∧ after = []) ∨ ¬p x ∧ ∃ rest, after = rest ++ [x] ∧ LastIn p l a rest := by
  constructor
  · rintro ⟨before, hl, ha, hafter⟩
    rcases after.eq_nil_or_concat with rfl | ⟨rest, y, rfl⟩
    · obtain ⟨-, hx⟩ := List.append_inj' hl rfl
      obtain rfl : x = a := List.singleton_inj.1 hx
      exact Or.inl ⟨ha, rfl, rfl⟩
    · rw [List.concat_eq_append] at hl hafter ⊢
      rw [← List.cons_append, ← List.append_assoc] at hl
      obtain ⟨hinit, hx⟩ := List.append_inj' hl rfl
      obtain rfl : x = y := List.singleton_inj.1 hx
      refine Or.inr ⟨hafter x (by simp), rest, rfl, before, hinit, ha, ?_⟩
      exact fun b hb => hafter b (List.mem_append_left _ hb)
  · rintro (⟨hx, rfl, rfl⟩ | ⟨hx, rest, rfl, before, rfl, ha, hrest⟩)
    · exact ⟨l, rfl, hx, by simp⟩
    · refine ⟨before, by simp, ha, fun b hb => ?_⟩
      rcases List.mem_append.1 hb with hb | hb
      · exact hrest b hb
      · rwa [List.mem_singleton.1 hb]

theorem LastIn.mem (h : LastIn p l a after) : a ∈ l := by
  obtain ⟨before, rfl, -⟩ := h
  simp

theorem LastIn.holds (h : LastIn p l a after) : p a := by
  obtain ⟨-, -, ha, -⟩ := h
  exact ha

theorem LastIn.not_after (h : LastIn p l a after) (hb : b ∈ after) : ¬p b := by
  obtain ⟨-, -, -, hafter⟩ := h
  exact hafter b hb

theorem LastIn.append_left (h : LastIn p l a after) (before : List α) :
    LastIn p (before ++ l) a after := by
  obtain ⟨before', rfl, ha, hafter⟩ := h
  exact ⟨before ++ before', by simp, ha, hafter⟩

theorem exists_lastIn (ha : a ∈ l) (hp : p a) : ∃ b after, LastIn p l b after := by
  induction l using List.reverseRecOn with
  | nil => simp at ha
  | append_singleton l x ih =>
      by_cases hx : p x
      · exact ⟨x, [], lastIn_concat.2 (Or.inl ⟨hx, rfl, rfl⟩)⟩
      · have hne : a ≠ x := fun heq => hx (heq ▸ hp)
        have hl : a ∈ l := by simpa [hne] using ha
        obtain ⟨b, after, hb⟩ := ih hl
        exact ⟨b, after ++ [x], lastIn_concat.2 (Or.inr ⟨hx, after, rfl, hb⟩)⟩

/-- An element that is the last of one kind is also the last of another kind that it has, unless a later
element has this kind too.  Then one of the later elements is the last. -/
theorem LastIn.or_later (h : LastIn p l a after) (hq : q a) :
    (∀ b ∈ after, ¬q b) ∧ LastIn q l a after ∨ ∃ b ∈ after, ∃ rest, LastIn q l b rest := by
  obtain ⟨before, rfl, -, -⟩ := h
  by_cases hlater : ∃ b ∈ after, q b
  · obtain ⟨b, hb, hqb⟩ := hlater
    obtain ⟨c, rest, hc⟩ := exists_lastIn hb hqb
    refine Or.inr ⟨c, hc.mem, rest, ?_⟩
    simpa using hc.append_left (before ++ [a])
  · have hnone : ∀ b ∈ after, ¬q b := fun b hb hqb => hlater ⟨b, hb, hqb⟩
    exact Or.inl ⟨hnone, before, rfl, hq, hnone⟩

/-- **What is overwritten again and again holds the last value.**  Here `read` is what is read after a
list of entries, those with the property write and the others change nothing. -/
theorem eq_some_iff_of_overwrites (p : α → Prop) (read : List α → Option β) (value : α → β)
    (hnil : read [] = none) (hwrite : ∀ l x, p x → read (l ++ [x]) = some (value x))
    (hkeep : ∀ l x, ¬p x → read (l ++ [x]) = read l) (l : List α) (b : β) :
    read l = some b ↔ ∃ a after, LastIn p l a after ∧ value a = b := by
  induction l using List.reverseRecOn with
  | nil => simp [hnil, not_lastIn_nil]
  | append_singleton l x ih =>
      by_cases hx : p x
      · simp [hwrite l x hx, lastIn_concat, hx]
      · simp [hkeep l x hx, ih, lastIn_concat, hx]

end LastIn

/-! ### Fields under their names -/

namespace Table

variable {id name : String}

theorem ofFields_concat (fields : List Field) (field : Field) :
    ofFields id name (fields ++ [field]) = (ofFields id name fields).push field := by
  simp [ofFields]

/-- The field with an id is the one that was entered last with it. -/
theorem field?_ofFields {fields : List Field} {k : String} {field : Field} :
    (ofFields id name fields).field? k = some field ↔
      ∃ after, LastIn (fun f => f.id = k) fields field after := by
  have h := eq_some_iff_of_overwrites (fun f => f.id = k)
    (fun fields => (ofFields id name fields).field? k) (fun f => f) rfl
    (fun fields f hf => by
      rw [ofFields_concat, ← hf]
      exact Keyed.get?_insert_self Field.id f _)
    (fun fields f hf => by
      rw [ofFields_concat]
      exact Keyed.get?_insert_of_ne Field.id hf _)
    fields field
  simpa using h

/-- A name stands in the index with the id that was entered last under it. -/
theorem names_ofFields {fields : List Field} {n k : String} :
    (ofFields id name fields).names.get? n = some k ↔
      ∃ f after, LastIn (fun f => f.name = n) fields f after ∧ f.id = k :=
  eq_some_iff_of_overwrites (fun f => f.name = n)
    (fun fields => (ofFields id name fields).names.get? n) (fun f => f.id) rfl
    (fun fields f hf => by
      rw [ofFields_concat, ← hf]
      exact Entries.get?_insert_self ..)
    (fun fields f hf => by
      rw [ofFields_concat]
      exact Entries.get?_insert_of_ne _ _ hf)
    fields k

/-- What was entered last under a name leads to the field that now has its id.  That field has the name
exactly when the id has not been entered again. -/
theorem exists_field?_of_lastIn (id name : String) {fields after : List Field} {n : String}
    {f : Field} (h : LastIn (fun f => f.name = n) fields f after) :
    ∃ g, (ofFields id name fields).field? f.id = some g ∧
      (g.name = n ↔ ∀ later ∈ after, later.id ≠ f.id) := by
  rcases h.or_later (q := fun other => other.id = f.id) rfl with ⟨hnone, hlast⟩ | ⟨g, hg, rest, hlast⟩
  · exact ⟨f, field?_ofFields.2 ⟨after, hlast⟩, fun _ => hnone, fun _ => h.holds⟩
  · refine ⟨g, field?_ofFields.2 ⟨rest, hlast⟩, fun hname => ?_, fun hnone => ?_⟩
    · exact absurd hname (h.not_after hg)
    · exact absurd hlast.holds (hnone g hg)

/-- **What a name leads to.**  After any sequence of entries a name leads to a field exactly when a field
was once entered under it, so every name of a field does.  It is the field that now has the id which was
entered last under the name, and it has the name exactly when that id has not been entered again. -/
theorem fieldByName_ofFields (id name : String) (fields : List Field) (n : String) :
    ((∃ g, (ofFields id name fields).fieldByName? n = some g) ↔ ∃ f ∈ fields, f.name = n) ∧
      ((∃ f ∈ (ofFields id name fields).fields, f.name = n) →
        ∃ g, (ofFields id name fields).fieldByName? n = some g) ∧
      ∀ g, (ofFields id name fields).fieldByName? n = some g →
        g ∈ (ofFields id name fields).fields ∧
          ∃ f after, LastIn (fun f => f.name = n) fields f after ∧ g.id = f.id ∧
            (g.name = n ↔ ∀ later ∈ after, later.id ≠ f.id) := by
  have hfound : (∃ g, (ofFields id name fields).fieldByName? n = some g) ↔
      ∃ f ∈ fields, f.name = n := by
    constructor
    · rintro ⟨g, hg⟩
      obtain ⟨k, hk, -⟩ := Option.bind_eq_some_iff.1 hg
      obtain ⟨f, after, hlast, -⟩ := names_ofFields.1 hk
      exact ⟨f, hlast.mem, hlast.holds⟩
    · rintro ⟨f, hf, hname⟩
      obtain ⟨last, after, hlast⟩ := exists_lastIn (p := fun f => f.name = n) hf hname
      obtain ⟨g, hg, -⟩ := exists_field?_of_lastIn id name hlast
      exact ⟨g, Option.bind_eq_some_iff.2 ⟨_, names_ofFields.2 ⟨last, after, hlast, rfl⟩, hg⟩⟩
  refine ⟨hfound, ?_, ?_⟩
  · rintro ⟨f, hf, hname⟩
    obtain ⟨after, hlast⟩ := field?_ofFields.1 (field?_of_mem hf)
    exact hfound.2 ⟨f, hlast.mem, hname⟩
  · intro g hg
    obtain ⟨k, hk, hfield⟩ := Option.bind_eq_some_iff.1 hg
    obtain ⟨f, after, hlast, rfl⟩ := names_ofFields.1 hk
    obtain ⟨g', hg', hiff⟩ := exists_field?_of_lastIn id name hlast
    obtain rfl := Option.some.inj (hfield.symm.trans hg')
    exact ⟨mem_of_field? hfield, f, after, hlast, id_of_field? hfield, hiff⟩

end Table

namespace Sample

/-- A column under a name of its own. -/
def columnCalled (id name : String) : Field :=
  { Field.single id id .string .column with name }

/-- A table with a single field, which was entered under one name and then under another. -/
def renamed : Table := .ofFields "t" "t" [columnCalled "a" "x", columnCalled "a" "y"]

end Sample

/-- The former name of a field still leads to it. -/
theorem Table.fieldByName_renamed :
    Sample.renamed.fields.map Field.name = ["y"] ∧
      (Sample.renamed.fieldByName? "x").map Field.name = some "y" ∧
      ¬∀ n g, Sample.renamed.fieldByName? n = some g → g.name = n := by
  refine ⟨rfl, rfl, fun h => ?_⟩
  have hname : "y" = "x" := h "x" (Sample.columnCalled "a" "y") rfl
  exact absurd hname (by decide)

/-! ### Fields under their ids -/

namespace Catalog

theorem ofTables_concat (tables : List Table) (table : Table) :
    ofTables (tables ++ [table]) = (ofTables tables).add table := by
  simp [ofTables]

/-- The table with an id is the one that was entered last with it. -/
theorem table?_ofTables {tables : List Table} {k : String} {table : Table} :
    (ofTables tables).table? k = some table ↔
      ∃ after, LastIn (fun t => t.id = k) tables table after := by
  have h := eq_some_iff_of_overwrites (fun t => t.id = k)
    (fun tables => (ofTables tables).table? k) (fun t => t) rfl
    (fun tables t ht => by
      rw [ofTables_concat, ← ht]
      exact Keyed.get?_insert_self Table.id t _)
    (fun tables t ht => by
      rw [ofTables_concat]
      exact Keyed.get?_insert_of_ne Table.id ht _)
    tables table
  simpa using h

theorem get?_foldl_insert_of_mem {ids : List String} {id : String} (owner : String)
    (entries : Entries String) (h : id ∈ ids) :
    (ids.foldl (fun owners id => owners.insert id owner) entries).get? id = some owner := by
  induction ids using List.reverseRecOn with
  | nil => simp at h
  | append_singleton ids last ih =>
      rw [List.foldl_append, List.foldl_cons, List.foldl_nil]
      by_cases heq : last = id
      · rw [heq, Entries.get?_insert_self]
      · have hids : id ∈ ids := by simpa [Ne.symm heq] using h
        rw [Entries.get?_insert_of_ne _ _ heq, ih hids]

theorem get?_foldl_insert_of_notMem {ids : List String} {id : String} (owner : String)
    (entries : Entries String) (h : id ∉ ids) :
    (ids.foldl (fun owners id => owners.insert id owner) entries).get? id = entries.get? id := by
  induction ids generalizing entries with
  | nil => rfl
  | cons first ids ih =>
      rw [List.mem_cons, not_or] at h
      rw [List.foldl_cons, ih _ h.2, Entries.get?_insert_of_ne _ _ (Ne.symm h.1)]

/-- A field id stands in the index with the table that was entered last with such a field. -/
theorem owners_ofTables {tables : List Table} {id k : String} :
    (ofTables tables).owners.get? id = some k ↔
      ∃ t after, LastIn (fun t => id ∈ t.fieldIds) tables t after ∧ t.id = k :=
  eq_some_iff_of_overwrites (fun t => id ∈ t.fieldIds)
    (fun tables => (ofTables tables).owners.get? id) (fun t => t.id) rfl
    (fun tables t ht => by
      rw [ofTables_concat]
      exact get?_foldl_insert_of_mem t.id _ ht)
    (fun tables t ht => by
      rw [ofTables_concat]
      exact get?_foldl_insert_of_notMem t.id _ ht)
    tables k

theorem field?_eq_some_iff {catalog : Catalog} {id : String} {table : Table} {field : Field} :
    catalog.field? id = some (table, field) ↔
      ∃ owner, catalog.owners.get? id = some owner ∧ catalog.table? owner = some table ∧
        table.field? id = some field := by
  simp only [field?, Option.bind_eq_bind, Option.bind_eq_some_iff, Option.some.injEq, Prod.mk.injEq]
  constructor
  · rintro ⟨owner, howner, t, ht, f, hf, rfl, rfl⟩
    exact ⟨owner, howner, ht, hf⟩
  · rintro ⟨owner, howner, ht, hf⟩
    exact ⟨owner, howner, table, ht, field, hf, rfl, rfl⟩

/-- A field is found exactly when the table that was entered last with it has not been replaced. -/
theorem exists_field?_iff_of_lastIn {tables after : List Table} {id : String} {t : Table}
    (h : LastIn (fun t => id ∈ t.fieldIds) tables t after) :
    (∃ found, (ofTables tables).field? id = some found) ↔ ∀ later ∈ after, later.id ≠ t.id := by
  have howner : (ofTables tables).owners.get? id = some t.id :=
    owners_ofTables.2 ⟨t, after, h, rfl⟩
  rcases h.or_later (q := fun other => other.id = t.id) rfl with ⟨hnone, hlast⟩ | ⟨t', ht', rest, hlast⟩
  · refine ⟨fun _ => hnone, fun _ => ?_⟩
    obtain ⟨field, hfield, hid⟩ := List.mem_map.1 h.holds
    exact ⟨(t, field), field?_eq_some_iff.2
      ⟨t.id, howner, table?_ofTables.2 ⟨after, hlast⟩, hid ▸ Table.field?_of_mem hfield⟩⟩
  · constructor
    · -- the table in its place does not have the field
      rintro ⟨⟨table, field⟩, hfound⟩
      obtain ⟨owner, howner', htable, hfield⟩ := field?_eq_some_iff.1 hfound
      obtain rfl := Option.some.inj (howner.symm.trans howner')
      obtain rfl := Option.some.inj (htable.symm.trans (table?_ofTables.2 ⟨rest, hlast⟩))
      exact absurd (table.mem_fieldIds_of_field? hfield) (h.not_after ht')
    · exact fun hnone => absurd hlast.holds (hnone t' ht')

/-- **What a field id leads to.**  After any sequence of entries, what a field id leads to is a table of
the catalog with its own field of that id.  It leads somewhere exactly when a table with such a field was
entered and the last one of these has not been replaced.  So it finds the fields that are there, and only
these, unless the last table with the field was replaced while another one of the catalog has it. -/
theorem field_ofTables (tables : List Table) (id : String) :
    (∀ table field, (ofTables tables).field? id = some (table, field) →
        table ∈ (ofTables tables).tables ∧ table.field? id = some field) ∧
      ((∃ found, (ofTables tables).field? id = some found) ↔
        ∃ t after, LastIn (fun t => id ∈ t.fieldIds) tables t after ∧
          ∀ later ∈ after, later.id ≠ t.id) ∧
      (((∃ found, (ofTables tables).field? id = some found) ↔
          ∃ table ∈ (ofTables tables).tables, id ∈ table.fieldIds) ↔
        ¬∃ t after, LastIn (fun t => id ∈ t.fieldIds) tables t after ∧
          (∃ later ∈ after, later.id = t.id) ∧
          ∃ table ∈ (ofTables tables).tables, id ∈ table.fieldIds) := by
  have hown : ∀ table field, (ofTables tables).field? id = some (table, field) →
      table ∈ (ofTables tables).tables ∧ table.field? id = some field := by
    intro table field hfound
    obtain ⟨owner, -, htable, hfield⟩ := field?_eq_some_iff.1 hfound
    exact ⟨mem_of_table? htable, hfield⟩
  have hthere : (∃ found, (ofTables tables).field? id = some found) →
      ∃ table ∈ (ofTables tables).tables, id ∈ table.fieldIds := by
    rintro ⟨⟨table, field⟩, hfound⟩
    obtain ⟨htable, hfield⟩ := hown table field hfound
    exact ⟨table, htable, table.mem_fieldIds_of_field? hfield⟩
  refine ⟨hown, ⟨?_, ?_⟩, ?_, ?_⟩
  · rintro ⟨⟨table, field⟩, hfound⟩
    obtain ⟨owner, howner, -⟩ := field?_eq_some_iff.1 hfound
    obtain ⟨t, after, hlast, -⟩ := owners_ofTables.1 howner
    exact ⟨t, after, hlast, (exists_field?_iff_of_lastIn hlast).1 ⟨_, hfound⟩⟩
  · rintro ⟨t, after, hlast, hnone⟩
    exact (exists_field?_iff_of_lastIn hlast).2 hnone
  · rintro hiff ⟨t, after, hlast, ⟨later, hlater, heq⟩, htable⟩
    exact (exists_field?_iff_of_lastIn hlast).1 (hiff.2 htable) later hlater heq
  · intro hkept
    refine ⟨hthere, fun htable => ?_⟩
    obtain ⟨table, hmem, hid⟩ := htable
    obtain ⟨_, hentered⟩ := table?_ofTables.1 (table?_of_mem hmem)
    obtain ⟨t, after, hlast⟩ :=
      exists_lastIn (p := fun t : Table => id ∈ t.fieldIds) hentered.mem hid
    refine (exists_field?_iff_of_lastIn hlast).2 fun later hlater heq => ?_
    exact hkept ⟨t, after, hlast, ⟨later, hlater, heq⟩, table, hmem, hid⟩

end Catalog

namespace Sample

/-- Two tables with a field of the same id, the second of which was then replaced by one without it. -/
def emptied : Catalog :=
  .ofTables [.ofFields "t" "t" [columnCalled "a" "a"], .ofFields "u" "u" [columnCalled "a" "a"],
    .ofFields "u" "u" []]

end Sample

/-- A field is not found, although a table of the catalog has it. -/
theorem Catalog.field_emptied :
    (Sample.emptied.field? "a").isSome = false ∧
      (∃ table ∈ Sample.emptied.tables, "a" ∈ table.fieldIds) ∧
      ¬((∃ found, Sample.emptied.field? "a" = some found) ↔
        ∃ table ∈ Sample.emptied.tables, "a" ∈ table.fieldIds) := by
  have hnone : Sample.emptied.field? "a" = none := rfl
  have hthere : ∃ table ∈ Sample.emptied.tables, "a" ∈ table.fieldIds :=
    ⟨_, mem_of_table? (by rfl : Sample.emptied.table? "t" = some _), by decide⟩
  refine ⟨by rw [hnone]; rfl, hthere, fun hiff => ?_⟩
  obtain ⟨found, hfound⟩ := hiff.2 hthere
  cases hnone.symm.trans hfound

end ComputedFields
