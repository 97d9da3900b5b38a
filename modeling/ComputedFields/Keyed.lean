/-
**Lists with keys, in the order of first insertion.**

Tables, catalogs and query states hold entries under a key.  Entering a key again replaces the entry
where it stands; a new key goes to the end.  So the order of the keys is that of their first
insertion.

Main definitions:

* `ComputedFields.Keyed.insert` — enters an element under its key;
* `ComputedFields.Keyed.get?` — the element under a key;
* `ComputedFields.Entries` — keys with values, entered by `ComputedFields.Entries.insert` and read by
  `ComputedFields.Entries.get?`;
* `ComputedFields.insertNew`, `ComputedFields.unionNew` — sets as lists without repetition.

Main results:

* `ComputedFields.Keyed.keys_insert` — the keys after an insertion;
* `ComputedFields.Keyed.nodup_insert` — no key is there twice;
* `ComputedFields.Keyed.get?_insert_self`, `ComputedFields.Keyed.get?_insert_of_ne` — what is read
  after an insertion;
* `ComputedFields.countP_notMem_lt` — a list has fewer elements that are not known, once one of them
  is known.
-/

set_option relaxedAutoImplicit false
set_option autoImplicit false

namespace ComputedFields

universe u

namespace Keyed

variable {α : Type u}

/-- Enters `a` under its key: in the place of the entry with that key, or at the end. -/
def insert (key : α → String) (a : α) : List α → List α
  | [] => [a]
  | b :: rest => if key b = key a then a :: rest else b :: insert key a rest

/-- The first element with the given key. -/
def get? (key : α → String) (k : String) : List α → Option α
  | [] => none
  | b :: rest => if key b = k then some b else get? key k rest

/-! ### Keys after an insertion -/

/-- The keys after an insertion: the same when the key is known, else one more at the end. -/
theorem keys_insert (key : α → String) (a : α) (l : List α) :
    (insert key a l).map key =
      if key a ∈ l.map key then l.map key else l.map key ++ [key a] := by
  induction l with
  | nil => simp [insert]
  | cons b rest ih =>
      by_cases h : key b = key a
      · simp [insert, h]
      · have hne : key a ≠ key b := fun h' => h h'.symm
        simp only [insert, h, if_false, List.map_cons, ih, List.mem_cons, hne, false_or]
        split <;> simp

/-- An insertion keeps the keys distinct. -/
theorem nodup_insert (key : α → String) (a : α) {l : List α} (h : (l.map key).Nodup) :
    ((insert key a l).map key).Nodup := by
  rw [keys_insert]
  split
  · exact h
  · next hnew =>
      rw [List.nodup_append]
      refine ⟨h, by simp, ?_⟩
      intro k hk k' hk'
      rw [List.mem_singleton.1 hk']
      exact fun heq => hnew (heq ▸ hk)

/-- An element with a new key goes to the end. -/
theorem insert_of_notMem {key : α → String} {a : α} {l : List α} (h : key a ∉ l.map key) :
    insert key a l = l ++ [a] := by
  induction l with
  | nil => rfl
  | cons b rest ih =>
      rw [List.map_cons, List.mem_cons, not_or] at h
      rw [insert, if_neg (Ne.symm h.1), ih h.2, List.cons_append]

/-- An insertion brings nothing but the new element. -/
theorem mem_of_mem_insert {key : α → String} {a x : α} {l : List α} (h : x ∈ insert key a l) :
    x ∈ l ∨ x = a := by
  induction l with
  | nil => exact Or.inr (List.mem_singleton.1 h)
  | cons b rest ih =>
      unfold insert at h
      split at h
      · rcases List.mem_cons.1 h with rfl | h
        · exact Or.inr rfl
        · exact Or.inl (List.mem_cons_of_mem _ h)
      · rcases List.mem_cons.1 h with rfl | h
        · exact Or.inl List.mem_cons_self
        · exact (ih h).imp_left (List.mem_cons_of_mem _)

/-! ### Reading after an insertion -/

theorem get?_insert_self (key : α → String) (a : α) (l : List α) :
    get? key (key a) (insert key a l) = some a := by
  induction l with
  | nil => simp [insert, get?]
  | cons b rest ih =>
      by_cases h : key b = key a
      · simp [insert, get?, h]
      · simp [insert, get?, h, ih]

theorem get?_insert_of_ne (key : α → String) {a : α} {k : String} (h : key a ≠ k) (l : List α) :
    get? key k (insert key a l) = get? key k l := by
  induction l with
  | nil => simp [insert, get?, h]
  | cons b rest ih =>
      by_cases hb : key b = key a
      · simp [insert, get?, hb, h]
      · simp [insert, get?, hb, ih]

/-- What is read under a key has that key. -/
theorem key_of_get? {key : α → String} {k : String} {l : List α} {a : α}
    (h : get? key k l = some a) : key a = k := by
  induction l with
  | nil => simp [get?] at h
  | cons b rest ih =>
      by_cases hb : key b = k
      · simp only [get?, hb, if_true, Option.some.injEq] at h
        exact h ▸ hb
      · simp only [get?, hb, if_false] at h
        exact ih h

/-- What is read under a key is an element. -/
theorem mem_of_get? {key : α → String} {k : String} {l : List α} {a : α}
    (h : get? key k l = some a) : a ∈ l := by
  induction l with
  | nil => simp [get?] at h
  | cons b rest ih =>
      by_cases hb : key b = k
      · simp only [get?, hb, if_true, Option.some.injEq] at h
        exact h ▸ List.mem_cons_self
      · simp only [get?, hb, if_false] at h
        exact List.mem_cons_of_mem _ (ih h)

/-- An element can be read under its key, when no other has that key. -/
theorem get?_of_mem {key : α → String} {l : List α} (h : (l.map key).Nodup) {a : α} (ha : a ∈ l) :
    get? key (key a) l = some a := by
  induction l with
  | nil => simp at ha
  | cons b rest ih =>
      rw [List.map_cons, List.nodup_cons] at h
      rcases List.mem_cons.1 ha with rfl | ha
      · simp [get?]
      · have hne : key b ≠ key a := fun heq => h.1 (heq ▸ List.mem_map_of_mem ha)
        simp only [get?, hne, if_false]
        exact ih h.2 ha

end Keyed

/-! ### Entries -/

/-- Values under keys, in the order in which the keys were first entered. -/
abbrev Entries (α : Type u) := List (String × α)

namespace Entries

variable {α : Type u}

/-- Enters a value under a key. -/
def insert (entries : Entries α) (key : String) (value : α) : Entries α :=
  Keyed.insert Prod.fst (key, value) entries

/-- The value under a key. -/
def get? (entries : Entries α) (key : String) : Option α :=
  (Keyed.get? Prod.fst key entries).map Prod.snd

@[simp] theorem get?_nil (key : String) : get? ([] : Entries α) key = none := rfl

@[simp] theorem get?_insert_self (entries : Entries α) (key : String) (value : α) :
    (entries.insert key value).get? key = some value := by
  have h := Keyed.get?_insert_self Prod.fst (key, value) entries
  simp only [get?, insert]
  rw [show (key, value).1 = key from rfl] at h
  simp [h]

theorem get?_insert_of_ne (entries : Entries α) {key key' : String} (value : α) (h : key ≠ key') :
    (entries.insert key value).get? key' = entries.get? key' := by
  simp only [get?, insert]
  rw [Keyed.get?_insert_of_ne Prod.fst (show ((key, value) : String × α).1 ≠ key' from h)]

end Entries

/-! ### Sets in the order of first insertion -/

variable {α : Type u} [DecidableEq α]

/-- Adds an element at the end unless it is there. -/
def insertNew (l : List α) (a : α) : List α := if a ∈ l then l else l ++ [a]

/-- Adds the elements of the second list, in order, that are not there yet. -/
def unionNew (l l' : List α) : List α := l'.foldl insertNew l

@[simp] theorem mem_insertNew {l : List α} {a b : α} : b ∈ insertNew l a ↔ b ∈ l ∨ b = a := by
  unfold insertNew
  split
  · next h => exact ⟨Or.inl, fun hb => hb.elim id fun heq => heq ▸ h⟩
  · simp

theorem Entries.keys_insert {β : Type u} (entries : Entries β) (key : String) (value : β) :
    (entries.insert key value).map Prod.fst = insertNew (entries.map Prod.fst) key :=
  Keyed.keys_insert Prod.fst (key, value) entries

theorem insertNew_of_notMem {l : List α} {a : α} (h : a ∉ l) : insertNew l a = l ++ [a] := if_neg h

theorem nodup_insertNew {l : List α} (h : l.Nodup) (a : α) : (insertNew l a).Nodup := by
  unfold insertNew
  split
  · exact h
  · next hnew =>
      rw [List.nodup_append]
      exact ⟨h, by simp, fun x hx y hy => by
        rw [List.mem_singleton.1 hy]
        exact fun heq => hnew (heq ▸ hx)⟩

@[simp] theorem mem_unionNew {l l' : List α} {b : α} : b ∈ unionNew l l' ↔ b ∈ l ∨ b ∈ l' := by
  induction l' generalizing l with
  | nil => simp [unionNew]
  | cons a rest ih =>
      rw [show unionNew l (a :: rest) = unionNew (insertNew l a) rest from rfl, ih]
      simp [or_assoc]

theorem nodup_unionNew {l l' : List α} (h : l.Nodup) : (unionNew l l').Nodup := by
  induction l' generalizing l with
  | nil => exact h
  | cons a rest ih => exact ih (nodup_insertNew h a)

theorem unionNew_of_subset {l l' : List α} (h : ∀ a ∈ l', a ∈ l) : unionNew l l' = l := by
  induction l' with
  | nil => rfl
  | cons a rest ih =>
      have ha : insertNew l a = l := if_pos (h a List.mem_cons_self)
      rw [show unionNew l (a :: rest) = unionNew (insertNew l a) rest from rfl, ha]
      exact ih fun b hb => h b (List.mem_cons_of_mem _ hb)

theorem unionNew_insertNew (l l' : List α) (a : α) :
    unionNew l (insertNew l' a) = insertNew (unionNew l l') a := by
  by_cases h : a ∈ l'
  · have ha : a ∈ unionNew l l' := mem_unionNew.2 (Or.inr h)
    simp [insertNew, h, ha]
  · rw [insertNew_of_notMem h]
    simp [unionNew]

theorem unionNew_assoc (l l' l'' : List α) :
    unionNew (unionNew l l') l'' = unionNew l (unionNew l' l'') := by
  induction l'' generalizing l' with
  | nil => rfl
  | cons a rest ih =>
      calc unionNew (unionNew l l') (a :: rest)
          = unionNew (insertNew (unionNew l l') a) rest := rfl
        _ = unionNew (unionNew l (insertNew l' a)) rest := by rw [unionNew_insertNew]
        _ = unionNew l (unionNew l' (a :: rest)) := ih (insertNew l' a)

/-- Elements that are new, and different from each other, are all added. -/
theorem unionNew_of_disjoint {l l' : List α} (h : (l ++ l').Nodup) : unionNew l l' = l ++ l' := by
  induction l' generalizing l with
  | nil => simp [unionNew]
  | cons a rest ih =>
      have ha : a ∉ l := fun hmem =>
        (List.nodup_append.1 h).2.2 a hmem a List.mem_cons_self rfl
      have hrest : (l ++ [a] ++ rest).Nodup := by simpa using h
      calc unionNew l (a :: rest)
          = unionNew (insertNew l a) rest := rfl
        _ = unionNew (l ++ [a]) rest := by rw [insertNew_of_notMem ha]
        _ = l ++ [a] ++ rest := ih hrest
        _ = l ++ a :: rest := by simp

theorem unionNew_nil {l : List α} (h : l.Nodup) : unionNew [] l = l := unionNew_of_disjoint h

/-! ### What is not known yet -/

/-- A list has fewer elements that are not known, once one of them is known.  Searches that know more
with every step end for this reason. -/
theorem countP_notMem_lt {l known known' : List α} {a : α} (hsub : ∀ x ∈ known, x ∈ known')
    (hmem : a ∈ l) (hnew : a ∉ known) (hknown : a ∈ known') :
    l.countP (fun x => decide (x ∉ known')) < l.countP (fun x => decide (x ∉ known)) := by
  have hle (l : List α) :
      l.countP (fun x => decide (x ∉ known')) ≤ l.countP (fun x => decide (x ∉ known)) :=
    List.countP_mono_left fun x _ hx => by
      simp only [decide_eq_true_eq] at hx ⊢
      exact fun hin => hx (hsub x hin)
  obtain ⟨before, after, rfl⟩ := List.append_of_mem hmem
  have hbefore := hle before
  have hafter := hle after
  rw [List.countP_append, List.countP_append, List.countP_cons_of_neg (by simp [hknown]),
    List.countP_cons_of_pos (by simp [hnew])]
  omega

end ComputedFields
