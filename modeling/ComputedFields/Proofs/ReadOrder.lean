/-
**The order in which a compiled field reads.**

The planner looks behind a formula field with a work list and a record of the fields it has visited.
The compiler expands the field instead, as often as it is mentioned, and joins what the parts read.
Here it is shown that both find the same fields in the same order, namely by first mention.

Two things keep the searches together.  A formula field that was visited once and is met again adds
nothing to either of them, since whatever it leads to has been met before.  And the formula fields
whose visit is still going on are not met again, since a field that compiles lies on no circle.

Main definitions:

* `ComputedFields.gather` — what references read, joined in order;
* `ComputedFields.Table.Visited` — a record of visits, with the leaves among them;
* `ComputedFields.Table.Closed` — a record that holds all that its fields lead to.

Main results:

* `ComputedFields.Formula.compileWith_collects` — a formula reads what its references read, in order;
* `ComputedFields.Context.visits_expand` — **a visit adds what the compiled field reads**;
* `ComputedFields.Context.reads_eq_leafFields` — **a compiled field reads its leaves in order**.
-/

import ComputedFields.Proofs.Expansion

set_option relaxedAutoImplicit false
set_option autoImplicit false

namespace ComputedFields

open Relation (ReflTransGen TransGen)

/-! ### Reads of a formula in order -/

/-- The fields that are read through a reference; none if it cannot be read. -/
def readsThrough (read : String → Except CompileError Compiled) (ref : String) : List String :=
  match read ref with
  | .ok c => c.reads
  | .error _ => []

/-- What the references read, added to what is known. -/
def gather (read : String → Except CompileError Compiled) (known refs : List String) : List String :=
  refs.foldl (fun known ref => unionNew known (readsThrough read ref)) known

section gather

variable {read : String → Except CompileError Compiled} {known refs : List String} {ref x : String}
  {c : Compiled}

theorem readsThrough_of_ok (h : read ref = .ok c) : readsThrough read ref = c.reads := by
  unfold readsThrough
  rw [h]

theorem gather_cons :
    gather read known (ref :: refs) = gather read (unionNew known (readsThrough read ref)) refs := rfl

theorem mem_gather :
    x ∈ gather read known refs ↔ x ∈ known ∨ ∃ ref ∈ refs, x ∈ readsThrough read ref := by
  induction refs generalizing known with
  | nil => simp [gather]
  | cons ref rest ih =>
      rw [gather_cons, ih]
      simp [or_assoc]

/-- A reference that is mentioned again reads nothing new. -/
theorem gather_insertNew :
    gather read known (insertNew refs ref) =
      unionNew (gather read known refs) (readsThrough read ref) := by
  by_cases h : ref ∈ refs
  · have hsub : ∀ x ∈ readsThrough read ref, x ∈ gather read known refs :=
      fun x hx => mem_gather.2 (Or.inr ⟨ref, h, hx⟩)
    rw [unionNew_of_subset hsub, insertNew, if_pos h]
  · rw [insertNew_of_notMem h, gather, List.foldl_append]
    rfl

end gather

namespace Compiled

/-- Reads that are joined to others are joined as a whole. -/
theorem foldl_reads (parts : List Compiled) (known : List String) :
    parts.foldl (fun reads c => unionNew reads c.reads) known = unionNew known (readsOfAll parts) := by
  induction parts generalizing known with
  | nil => rfl
  | cons c rest ih =>
      rw [readsOfAll, List.foldl_cons, List.foldl_cons, ih, ih (unionNew [] c.reads),
        ← unionNew_assoc, ← unionNew_assoc]
      rfl

theorem readsOfAll_cons {first : Compiled} (h : first.reads.Nodup) (others : List Compiled) :
    readsOfAll (first :: others) = unionNew first.reads (readsOfAll others) := by
  rw [readsOfAll, List.foldl_cons, foldl_reads, unionNew_nil h]

/-- A chain of one operator reads what its operands read. -/
theorem reads_foldl_binary (t : Target) (op : BinaryOp) (first : Compiled) (others : List Compiled) :
    (others.foldl (Compiled.binary t op) first).reads =
      unionNew first.reads (readsOfAll others) := by
  rw [← foldl_reads]
  induction others generalizing first with
  | nil => rfl
  | cons c rest ih => exact ih (first.binary t op c)

end Compiled

/-- What is read has no repetition, and is what the references read.  The references come as a
function that adds them to others, which is how a formula lists them. -/
structure Collects (read : String → Except CompileError Compiled)
    (add : List String → List String) (reads : List String) : Prop where
  nodup : reads.Nodup
  gather_add : ∀ known refs, gather read known (add refs) = unionNew (gather read known refs) reads

namespace Collects

variable {read : String → Except CompileError Compiled} {add add' : List String → List String}
  {reads reads' : List String}

theorem none : Collects read id [] := ⟨List.nodup_nil, fun _ _ => rfl⟩

theorem one {id : String} {c : Compiled} (h : read id = .ok c) (hnodup : c.reads.Nodup) :
    Collects read (insertNew · id) c.reads := by
  refine ⟨hnodup, fun known refs => ?_⟩
  rw [gather_insertNew, readsThrough_of_ok h]

theorem append (h : Collects read add reads) (h' : Collects read add' reads') :
    Collects read (fun refs => add' (add refs)) (unionNew reads reads') := by
  refine ⟨nodup_unionNew h.nodup, fun known refs => ?_⟩
  rw [h'.gather_add, h.gather_add, unionNew_assoc]

end Collects

namespace Formula

variable {t : Target} {read : String → Except CompileError Compiled}

mutual

/-- A formula reads what its references read, in the order of first mention. -/
theorem compileWith_collects (hread : ∀ ref c, read ref = .ok c → c.reads.Nodup) :
    ∀ {f : Formula} {c : Compiled}, f.compileWith t read = .ok c →
      Collects read (fun refs => addReferences refs f) c.reads
  | .bool _, c, h => by
      cases h
      exact .none
  | .number _, c, h => by
      cases h
      exact .none
  | .text _, c, h => by
      cases h
      exact .none
  | .null, c, h => by
      cases h
      exact .none
  | .field id, c, h => .one h (hread id c h)
  | .unary op operand, c, h => by
      obtain ⟨c', hoperand, hc⟩ := exists_of_bind_eq_ok h
      cases hc
      have hcollects := compileWith_collects hread hoperand
      exact ⟨hcollects.nodup, hcollects.gather_add⟩
  | .binary left op right, c, h => by
      obtain ⟨l, hleft, h⟩ := exists_of_bind_eq_ok h
      obtain ⟨r, hright, hc⟩ := exists_of_bind_eq_ok h
      cases hc
      exact (compileWith_collects hread hleft).append (compileWith_collects hread hright)
  | .chain op operands, c, h => by
      obtain ⟨parts, hparts, h⟩ := exists_of_bind_eq_ok h
      obtain ⟨hnodup, hall⟩ := compileAllWith_collects hread hparts
      cases parts with
      | nil => cases h
      | cons first others =>
          cases h
          rw [Compiled.reads_foldl_binary,
            ← Compiled.readsOfAll_cons (hnodup first List.mem_cons_self)]
          exact hall
  | .call (.unknown name) args, c, h => by cases h
  | .call (.known f) args, c, h => by
      obtain ⟨-, -, parts, fragment, hparts, -, rfl⟩ := compileWith_call_eq_ok_iff.1 h
      exact (compileAllWith_collects hread hparts).2

theorem compileAllWith_collects (hread : ∀ ref c, read ref = .ok c → c.reads.Nodup) :
    ∀ {fs : List Formula} {parts : List Compiled}, compileAllWith t read fs = .ok parts →
      (∀ c ∈ parts, c.reads.Nodup) ∧
        Collects read (fun refs => addAllReferences refs fs) (Compiled.readsOfAll parts)
  | [], parts, h => by
      cases h
      exact ⟨fun _ hc => absurd hc List.not_mem_nil, .none⟩
  | f :: rest, parts, h => by
      obtain ⟨first, hfirst, h⟩ := exists_of_bind_eq_ok h
      obtain ⟨others, hothers, hparts⟩ := exists_of_bind_eq_ok h
      cases hparts
      have hf := compileWith_collects hread hfirst
      obtain ⟨hnodup, hall⟩ := compileAllWith_collects hread hothers
      refine ⟨List.forall_mem_cons.2 ⟨hf.nodup, hnodup⟩, ?_⟩
      rw [Compiled.readsOfAll_cons hf.nodup]
      exact hf.append hall

end

end Formula

/-! ### Records of visits -/

namespace Table

/-- The leaves among the visited fields are those that are known. -/
def Visited (table : Table) (seen known : List String) : Prop :=
  ∀ x leaf, table.field? x = some leaf → leaf.kind.isFormula = false → (x ∈ seen ↔ x ∈ known)

/-- Of the fields that a field leads to, those that were visited have been visited with all that they
lead to. -/
def Closed (table : Table) (seen : List String) (id : String) : Prop :=
  ∀ x ∈ seen, ReflTransGen table.Leads id x → ∀ y, ReflTransGen table.Leads x y → y ∈ seen

/-- Fields at the head of the work list are visited with all that they lead to, and the leaves that are
found are added to those that are known. -/
def Visits (table : Table) (seen known ids known' : List String) : Prop :=
  ∃ seen', (∀ x, x ∈ seen' ↔ x ∈ seen ∨ ∃ id ∈ ids, ReflTransGen table.Leads id x) ∧
    ∀ rest, known ++ (table.leavesFrom seen (ids ++ rest)).map Field.id =
      known' ++ (table.leavesFrom seen' rest).map Field.id

variable {table : Table} {seen seen' known : List String} {id ref x : String} {leaf : Field}

theorem Closed.step (h : table.Closed seen id) (hlead : table.Leads id ref)
    (hcircle : ¬ table.OnCircle id) : table.Closed (id :: seen) ref := by
  intro x hx hway y hway'
  rcases List.mem_cons.1 hx with rfl | hx
  · exact absurd (TransGen.head' hlead hway) hcircle
  · exact List.mem_cons_of_mem _ (h x hx (hway.head hlead) y hway')

/-- What one field leads to does not get in the way of another. -/
theorem Closed.visit (h : table.Closed seen id)
    (hseen : ∀ x, x ∈ seen' ↔ x ∈ seen ∨ ∃ id ∈ [ref], ReflTransGen table.Leads id x) :
    table.Closed seen' id := by
  intro x hx hway y hway'
  rcases (hseen x).1 hx with hx | ⟨ref, href, hx⟩
  · exact (hseen y).2 (Or.inl (h x hx hway y hway'))
  · exact (hseen y).2 (Or.inr ⟨ref, href, hx.trans hway'⟩)

/-- A formula field leads to itself, and to what its references lead to. -/
theorem Holds.leads_iff {f : Formula} (h : table.Holds id f) :
    ReflTransGen table.Leads id x ↔ x = id ∨ ∃ ref ∈ f.references, ReflTransGen table.Leads ref x := by
  rw [ReflTransGen.cases_head_iff]
  refine or_congr eq_comm ⟨?_, ?_⟩
  · rintro ⟨ref, ⟨g, hg, href⟩, hway⟩
    cases h.unique hg
    exact ⟨ref, Formula.mem_references.2 href, hway⟩
  · rintro ⟨ref, href, hway⟩
    exact ⟨ref, h.leads href, hway⟩

theorem not_leads_of_leaf (hx : table.field? x = some leaf) (hleaf : leaf.kind.isFormula = false) :
    ¬ table.Leads x ref := by
  rintro ⟨f, ⟨field, source, persisted, hfield, hkind, _⟩, _⟩
  cases hx.symm.trans hfield
  rw [hkind] at hleaf
  cases hleaf

/-- A leaf leads to nothing but itself. -/
theorem eq_of_leads_leaf (hx : table.field? x = some leaf) (hleaf : leaf.kind.isFormula = false)
    (hway : ReflTransGen table.Leads x ref) : ref = x := by
  rcases ReflTransGen.cases_head hway with heq | ⟨_, hlead, _⟩
  · exact heq.symm
  · exact absurd hlead (not_leads_of_leaf hx hleaf)

/-- A formula field is no leaf. -/
theorem Visited.of_holds {f : Formula} (h : table.Visited seen known) (hholds : table.Holds id f) :
    table.Visited (id :: seen) known := by
  intro x leaf hx hleaf
  have hne : x ≠ id := by
    rintro rfl
    obtain ⟨field, source, persisted, hfield, hkind, -⟩ := hholds
    cases hx.symm.trans hfield
    rw [hkind] at hleaf
    cases hleaf
  rw [List.mem_cons, or_iff_right hne]
  exact h x leaf hx hleaf

/-- A field leads to the references of its formula, if it can be read. -/
theorem leads_iff_references :
    table.Leads id ref ↔ ∃ field, table.field? id = some field ∧ field.kind.isFormula = true ∧
      ref ∈ field.references := by
  rw [leads_iff]
  constructor
  · rintro ⟨f, ⟨field, source, persisted, hfield, hkind, hf⟩, href⟩
    refine ⟨field, hfield, by rw [hkind]; rfl, ?_⟩
    simpa [Field.references, hkind, FormulaSource.references, hf] using href
  · rintro ⟨field, hfield, hformula, href⟩
    cases hkind : field.kind with
    | formula source persisted =>
        unfold Field.references at href
        simp only [hkind, FormulaSource.references] at href
        cases hf : source.formula with
        | ok f => exact ⟨f, ⟨field, source, persisted, hfield, hkind, hf⟩, by simpa [hf] using href⟩
        | error e => simp [hf] at href
    | _ =>
        rw [hkind] at hformula
        cases hformula

/-- What stands behind a field is a leaf that it leads to. -/
theorem Behind.leads (h : table.Behind [] id leaf) :
    table.field? leaf.id = some leaf ∧ ReflTransGen table.Leads id leaf.id := by
  induction h with
  | here _ hfield _ =>
      cases id_of_field? hfield
      exact ⟨hfield, .refl⟩
  | @there id ref field leaf _ hfield hformula href _ ih =>
      exact ⟨ih.1, ih.2.head (leads_iff_references.2 ⟨field, hfield, hformula, href⟩)⟩

end Table

/-! ### One step of the work list -/

namespace Table

variable {table : Table} {seen rest : List String} {id : String} {field : Field}

theorem leavesFrom_nil : table.leavesFrom seen [] = [] := by
  rw [leavesFrom]

theorem leavesFrom_of_mem (h : id ∈ seen) :
    table.leavesFrom seen (id :: rest) = table.leavesFrom seen rest := by
  rw [leavesFrom, dif_pos h]

theorem leavesFrom_of_leaf (h : id ∉ seen) (hfield : table.field? id = some field)
    (hleaf : field.kind.isFormula = false) :
    table.leavesFrom seen (id :: rest) = field :: table.leavesFrom (id :: seen) rest := by
  rw [leavesFrom, dif_neg h]
  split
  · next hnone => cases hnone.symm.trans hfield
  · next other hother =>
      cases hother.symm.trans hfield
      rw [if_neg (by simp [hleaf])]

theorem leavesFrom_of_formula (h : id ∉ seen) (hfield : table.field? id = some field)
    (hformula : field.kind.isFormula = true) :
    table.leavesFrom seen (id :: rest) = table.leavesFrom (id :: seen) (field.references ++ rest) := by
  rw [leavesFrom, dif_neg h]
  split
  · next hnone => cases hnone.symm.trans hfield
  · next other hother =>
      cases hother.symm.trans hfield
      rw [if_pos hformula]

theorem leavesFrom_of_missing (hfield : table.field? id = none) :
    table.leavesFrom seen (id :: rest) = table.leavesFrom seen rest := by
  rw [leavesFrom]
  split
  · rfl
  · split
    · rfl
    · next hsome => cases hfield.symm.trans hsome

theorem leavesFrom_of_holds {f : Formula} (h : id ∉ seen) (hholds : table.Holds id f) :
    table.leavesFrom seen (id :: rest) = table.leavesFrom (id :: seen) (f.references ++ rest) := by
  obtain ⟨field, source, persisted, hfield, hkind, hformula⟩ := hholds
  rw [leavesFrom_of_formula h hfield (by rw [hkind]; rfl)]
  simp [hkind, Field.references, FormulaSource.references, hformula]

/-- The visit of a leaf adds the leaf. -/
theorem visits_leaf {known : List String} (h : id ∉ seen) (hfield : table.field? id = some field)
    (hleaf : field.kind.isFormula = false) :
    table.Visits seen known [id] (known ++ [id]) := by
  refine ⟨id :: seen, fun x => ?_, fun rest => ?_⟩
  · have hself : ReflTransGen table.Leads id x ↔ x = id :=
      ⟨eq_of_leads_leaf hfield hleaf, fun heq => heq ▸ .refl⟩
    simp [hself, or_comm]
  · rw [List.singleton_append, leavesFrom_of_leaf h hfield hleaf, List.map_cons,
      id_of_field? hfield, List.append_cons]

/-- The visit of a formula field is that of its references. -/
theorem Visits.of_holds {known known' : List String} {f : Formula} (h : id ∉ seen)
    (hholds : table.Holds id f) (hrefs : table.Visits (id :: seen) known f.references known') :
    table.Visits seen known [id] known' := by
  obtain ⟨seen', hseen', hrefs⟩ := hrefs
  refine ⟨seen', fun x => ?_, fun rest => ?_⟩
  · rw [hseen', List.mem_cons, or_comm (a := x = id), or_assoc, ← hholds.leads_iff]
    simp
  · rw [List.singleton_append, leavesFrom_of_holds h hholds, hrefs]

end Table

/-! ### Visits and expansions -/

namespace Context

variable {ctx : Context} {depth : Nat} {path seen known : List String} {id x : String} {leaf : Field}
  {c : Compiled}

theorem nodup_reads_of_expand (h : ctx.expand depth path id = .ok c) : c.reads.Nodup := by
  induction depth generalizing path id c with
  | zero => cases h
  | succ depth ih =>
      obtain ⟨field, _, ⟨_, rfl⟩ | ⟨_, _, _, f, c', heq, _, _, _, hcompile, rfl⟩⟩ := expand_cases h
      · exact List.nodup_singleton _
      · cases heq
        rw [reads_asField]
        exact (Formula.compileWith_collects (fun _ _ => ih) hcompile).nodup

/-- An expanded field reads the leaves that it leads to. -/
theorem mem_reads_iff (h : ctx.expand depth path id = .ok c) (hx : ctx.table.field? x = some leaf)
    (hleaf : leaf.kind.isFormula = false) :
    x ∈ c.reads ↔ ReflTransGen ctx.table.Leads id x := by
  constructor
  · intro hmem
    obtain ⟨leaf', hbehind, rfl⟩ := behind_of_mem_reads h hmem
    exact hbehind.leads.2
  · intro hway
    induction hway using ReflTransGen.head_induction_on generalizing depth path c with
    | refl =>
        obtain ⟨field, hfield, ⟨_, rfl⟩ | ⟨_, _, _, _, _, _, hkind, _⟩⟩ := expand_cases h
        · cases Table.id_of_field? hfield
          exact List.mem_singleton_self _
        · cases hx.symm.trans hfield
          rw [hkind] at hleaf
          cases hleaf
    | head hlead _ ih =>
        obtain ⟨f, hholds, href⟩ := Table.leads_iff.1 hlead
        obtain ⟨depth', field, c', -, hcompile, rfl⟩ := exists_compileWith_of_holds h hholds
        have hgathers := Formula.compileWith_gathers hcompile
        obtain ⟨c'', hread⟩ := hgathers.total _ href
        rw [reads_asField]
        exact (hgathers.reads_iff x).2 ⟨_, href, c'', hread, ih hread⟩

/-- What an expanded field reads is a leaf that it leads to. -/
theorem leaf_of_mem_reads (h : ctx.expand depth path id = .ok c) (hx : x ∈ c.reads) :
    ∃ leaf, ctx.table.field? x = some leaf ∧ leaf.kind.isFormula = false ∧
      ReflTransGen ctx.table.Leads id x := by
  obtain ⟨leaf, hbehind, rfl⟩ := behind_of_mem_reads h hx
  exact ⟨leaf, hbehind.leads.1, hbehind.isFormula_eq_false, hbehind.leads.2⟩

/-- After the visit of a field, the leaves that are known are those of before and those that the
field reads. -/
theorem visited_unionNew {seen' : List String} (h : ctx.expand depth path id = .ok c)
    (hvisited : ctx.table.Visited seen known)
    (hseen : ∀ x, x ∈ seen' ↔ x ∈ seen ∨ ∃ ref ∈ [id], ReflTransGen ctx.table.Leads ref x) :
    ctx.table.Visited seen' (unionNew known c.reads) := by
  intro x leaf hx hleaf
  rw [hseen, mem_unionNew, hvisited x leaf hx hleaf, mem_reads_iff h hx hleaf]
  simp

/-- When the visit of a field adds what it reads, so do visits one after another. -/
theorem visits_gather {refs : List String}
    (hvisit : ∀ {id : String} {seen known : List String} {c : Compiled},
      ctx.expand depth path id = .ok c → ctx.table.Visited seen known → ctx.table.Closed seen id →
      ctx.table.Visits seen known [id] (unionNew known c.reads))
    (hrefs : ∀ ref ∈ refs, ∃ c, ctx.expand depth path ref = .ok c)
    (hvisited : ctx.table.Visited seen known) (hclosed : ∀ ref ∈ refs, ctx.table.Closed seen ref) :
    ctx.table.Visits seen known refs (gather (ctx.expand depth path) known refs) := by
  induction refs generalizing seen known with
  | nil => exact ⟨seen, by simp, fun rest => rfl⟩
  | cons ref refs ih =>
      obtain ⟨c, hc⟩ := hrefs ref List.mem_cons_self
      obtain ⟨seen₁, hseen₁, hfirst⟩ := hvisit hc hvisited (hclosed ref List.mem_cons_self)
      obtain ⟨seen₂, hseen₂, hothers⟩ := ih (fun r hr => hrefs r (List.mem_cons_of_mem _ hr))
        (visited_unionNew hc hvisited hseen₁)
        (fun r hr => (hclosed r (List.mem_cons_of_mem _ hr)).visit hseen₁)
      refine ⟨seen₂, fun x => ?_, fun rest => ?_⟩
      · rw [hseen₂, hseen₁]
        simp [or_assoc]
      · rw [gather_cons, readsThrough_of_ok hc, ← hothers]
        exact hfirst (refs ++ rest)

/-- The visit of a field that was visited before adds nothing: whatever it leads to is known. -/
theorem visits_of_mem (h : ctx.expand depth path id = .ok c) (hid : id ∈ seen)
    (hvisited : ctx.table.Visited seen known) (hclosed : ctx.table.Closed seen id) :
    ctx.table.Visits seen known [id] (unionNew known c.reads) := by
  have hall := hclosed id hid .refl
  have hknown : ∀ x ∈ c.reads, x ∈ known := by
    intro x hx
    obtain ⟨leaf, hfield, hleaf, hway⟩ := leaf_of_mem_reads h hx
    exact (hvisited x leaf hfield hleaf).1 (hall x hway)
  refine ⟨seen, fun x => ?_, fun rest => ?_⟩
  · simpa using hall x
  · rw [unionNew_of_subset hknown, List.singleton_append, Table.leavesFrom_of_mem hid]

/-- **A visit adds what the compiled field reads.**  A field that is met on the work list is visited
with all that it leads to, and its leaves come next unless they are known. -/
theorem visits_expand (h : ctx.expand depth path id = .ok c)
    (hvisited : ctx.table.Visited seen known) (hclosed : ctx.table.Closed seen id) :
    ctx.table.Visits seen known [id] (unionNew known c.reads) := by
  -- induction on the depth of the expansion; the work list is what is generalized
  induction depth generalizing path id seen known c with
  | zero => cases h
  | succ depth ih =>
      by_cases hid : id ∈ seen
      · exact visits_of_mem h hid hvisited hclosed
      · have hcircle := not_onCircle_of_expand h
        obtain ⟨field, hfield, ⟨hleaf, rfl⟩ | ⟨depth', source, persisted, f, c', heq, hkind, -,
          hformula, hcompile, rfl⟩⟩ := expand_cases h
        · have hnew : id ∉ known := fun hknown => hid ((hvisited id field hfield hleaf).2 hknown)
          have hreads : unionNew known (ctx.plain field).reads = known ++ [id] := by
            cases Table.id_of_field? hfield
            exact insertNew_of_notMem hnew
          rw [hreads]
          exact Table.visits_leaf hid hfield hleaf
        · cases heq
          have hholds : ctx.table.Holds id f := ⟨field, source, persisted, hfield, hkind, hformula⟩
          -- the field itself counts as visited now, but no reference leads back to it
          have hclosed' : ∀ ref ∈ f.references, ctx.table.Closed (id :: seen) ref :=
            fun ref href => hclosed.step (hholds.leads href) hcircle
          have hreads : gather (ctx.expand depth (path ++ [id])) known f.references =
              unionNew known (asField field c').reads := by
            rw [reads_asField]
            exact (Formula.compileWith_collects (fun _ _ => nodup_reads_of_expand)
              hcompile).gather_add known []
          rw [← hreads]
          exact .of_holds hid hholds (visits_gather ih (Formula.compileWith_gathers hcompile).total
            (hvisited.of_holds hholds) hclosed')

/-- **A compiled field reads its leaves in order.**  What a compiled field reports to have read are the
fields that the planner finds behind it, each of them once and by first mention. -/
theorem reads_eq_leafFields (h : ctx.compileField id = .ok c) :
    c.reads = (ctx.table.leafFields id).map Field.id ∧ c.reads.Nodup := by
  have hnodup := nodup_reads_of_expand h
  have hvisited : ctx.table.Visited [] [] := fun _ _ _ _ => Iff.rfl
  have hclosed : ctx.table.Closed [] id := fun _ hx => absurd hx List.not_mem_nil
  obtain ⟨seen, -, hrest⟩ := visits_expand h hvisited hclosed
  have hleaves := hrest []
  rw [unionNew_nil hnodup, Table.leavesFrom_nil] at hleaves
  simp only [List.append_nil, List.nil_append, List.map_nil] at hleaves
  exact ⟨hleaves.symm, hnodup⟩

end Context

namespace Sample

/-- The label reads the number through a formula that is used twice, and then the text. -/
theorem reads_eq_leafFields_label :
    ∃ c, totalsContext.compileField "label" = .ok c ∧ c.reads = ["n1", "s"] ∧
      c.reads = (totals.leafFields "label").map Field.id ∧ c.reads.Nodup := by
  refine ⟨_, rfl, rfl, ?_⟩
  exact @Context.reads_eq_leafFields totalsContext "label" _ rfl

end Sample

end ComputedFields
