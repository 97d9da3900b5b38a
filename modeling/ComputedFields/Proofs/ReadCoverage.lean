/-
**The requirements of a unit cover what its body reads.**

Two pieces of the library have to agree.  `ComputedFields.Catalog.requirements` foretells which
units a unit reads, from the fields that its links, lookups and filters name.  The bodies then
perform the reads, through titles, targets, filters on either record, orders, keys and formulas.  A
read that is not foretold would be missing in the finished query for some orders of the units only.

Bodies are built by computations that record their reads.  `ComputedFields.BodyM.Meets` says of such
a computation which reads it may record, also when it fails, and what it returns; there is one rule
for each way to compose computations, and one lemma for each function that builds a part of a body.

Main definitions:

* `ComputedFields.BodyM.Meets` — what a computation may record and return;
* `ComputedFields.NestedRead.Behind` — a read that the value of a field needs;
* `ComputedFields.UnitReads.Covers` — a read that is foretold;
* `ComputedFields.Body.Carries` — a body has a column for each of some fields, under its name.

Main results:

* `ComputedFields.BodyContext.value_meets` — what the value of a field reads;
* `ComputedFields.BodyContext.linkBody_meets`, `ComputedFields.BodyContext.conditionalBody_meets` —
  what the bodies read, and which fields they carry;
* `ComputedFields.CteUnit.bodyM_meets` — **every read of a body is foretold**;
* `ComputedFields.CteUnit.foresees_of_mem_trace` — what is foretold is a requirement.
-/

import ComputedFields.Cte.Build
import ComputedFields.Proofs.FormulaReads

set_option relaxedAutoImplicit false
set_option autoImplicit false

namespace ComputedFields

open Sql (ident mainRecordId)

/-! ### Computations that record their reads -/

/-- One step after another succeeds when both do. -/
theorem exists_of_run_bind {ε σ α β : Type} {x : ExceptT ε (StateM σ) α}
    {f : α → ExceptT ε (StateM σ) β} {s after : σ} {b : β}
    (h : (x >>= f).run s = (.ok b, after)) :
    ∃ a mid, x.run s = (.ok a, mid) ∧ (f a).run mid = (.ok b, after) := by
  rw [run_bind] at h
  split at h
  · next a mid hx => exact ⟨a, mid, hx, h⟩
  · cases h

namespace BodyM

variable {α β : Type}

/-- The computation adds reads that satisfy `P` to those recorded before, also when it fails; what
it returns satisfies `Q`. -/
def Meets (P : NestedRead → Prop) (Q : α → Prop) (x : BodyM α) : Prop :=
  ∀ reads, ∃ more, (x.answer reads).2 = reads ++ more ∧ (∀ read ∈ more, P read) ∧
    ∀ a, (x.answer reads).1 = .ok a → Q a

variable {P P' : NestedRead → Prop} {Q Q' : α → Prop}

theorem meets_pure {a : α} (h : Q a) : (pure a : BodyM α).Meets P Q := by
  intro reads
  refine ⟨[], (List.append_nil reads).symm, by simp, ?_⟩
  intro b hb
  cases hb
  exact h

theorem meets_throw (e : CompileError) : (throw e : BodyM α).Meets P Q := by
  intro reads
  refine ⟨[], (List.append_nil reads).symm, by simp, ?_⟩
  intro b hb
  cases hb

theorem meets_get : (get : BodyM (List NestedRead)).Meets P fun _ => True := by
  intro reads
  exact ⟨[], (List.append_nil reads).symm, by simp, fun _ _ => trivial⟩

/-- One computation after the other. -/
theorem Meets.bind {R : β → Prop} {x : BodyM α} {f : α → BodyM β} (hx : x.Meets P Q)
    (hf : ∀ a, Q a → (f a).Meets P R) : (x >>= f).Meets P R := by
  intro reads
  obtain ⟨first, hfirst, hP, hQ⟩ := hx reads
  unfold BodyM.answer at hfirst hQ ⊢
  rw [run_bind]
  cases hanswer : x.run reads with
  | mk result after =>
      rw [hanswer] at hfirst hQ
      cases result with
      | error e =>
          refine ⟨first, hfirst, hP, ?_⟩
          intro b hb
          cases hb
      | ok a =>
          obtain ⟨second, hsecond, hP', hR⟩ := hf a (hQ a rfl) after
          refine ⟨first ++ second, ?_, ?_, hR⟩
          · calc ((f a).run after).2 = after ++ second := hsecond
              _ = (reads ++ first) ++ second := congrArg (· ++ second) hfirst
              _ = reads ++ (first ++ second) := List.append_assoc ..
          · intro read hread
            exact (List.mem_append.1 hread).elim (hP read) (hP' read)

theorem Meets.mono {x : BodyM α} (h : x.Meets P Q) (hP : ∀ read, P read → P' read)
    (hQ : ∀ a, Q a → Q' a) : x.Meets P' Q' := by
  intro reads
  obtain ⟨more, hmore, hread, hresult⟩ := h reads
  exact ⟨more, hmore, fun read hmem => hP read (hread read hmem),
    fun a ha => hQ a (hresult a ha)⟩

end BodyM

/-! ### Fields -/

/-- The read of a field that is carried elsewhere, made for the value of a field of the row. -/
structure NestedRead.Behind (ctx : BodyContext) (row : Row) (id : String) (read : NestedRead) :
    Prop where
  row_eq : read.row = row
  cte_eq : read.cte = ctx.cteOf? row.table read.field
  leaf : read.field ∈ row.table.leafFields id
  isVirtual : read.field.isVirtual = true

namespace BodyContext

variable {ctx : BodyContext} {P : NestedRead → Prop}

theorem nested_meets {row : Row} {field : Field}
    (h : P ⟨row, field, ctx.cteOf? row.table field⟩) :
    (ctx.nested row field).Meets P fun _ => True := by
  intro reads
  exact ⟨[⟨row, field, ctx.cteOf? row.table field⟩], rfl, by simpa using h, fun _ _ => trivial⟩

theorem selectCarried_meets {row : Row} {fields : List Field} (scope : Scope)
    (h : ∀ leaf ∈ fields, leaf.isVirtual = true → P ⟨row, leaf, ctx.cteOf? row.table leaf⟩) :
    (ctx.selectCarried row scope fields).Meets P fun _ => True := by
  induction fields generalizing scope with
  | nil => exact BodyM.meets_pure trivial
  | cons leaf rest ih =>
      have hrest : ∀ leaf ∈ rest, leaf.isVirtual = true →
          P ⟨row, leaf, ctx.cteOf? row.table leaf⟩ :=
        fun other hother => h other (List.mem_cons_of_mem _ hother)
      unfold selectCarried
      split
      · next hvirtual =>
          exact (nested_meets (h leaf List.mem_cons_self hvirtual)).bind fun _ _ => ih _ hrest
      · exact ih _ hrest

theorem formulaValue_meets {row : Row} {field : Field} :
    (ctx.formulaValue row field).Meets (NestedRead.Behind ctx row field.id) fun _ => True := by
  unfold formulaValue
  refine (selectCarried_meets _ ?_).bind fun scope _ => ?_
  · exact fun leaf hleaf hvirtual => ⟨rfl, rfl, hleaf, hvirtual⟩
  · dsimp only
    split
    · exact BodyM.meets_pure trivial
    · exact BodyM.meets_pure trivial
    · exact BodyM.meets_throw _

/-- The value of a field reads nothing but fields behind it. -/
theorem value_meets (row : Row) (id : String) :
    (ctx.value row id).Meets (NestedRead.Behind ctx row id) fun _ => True := by
  unfold value
  cases hfield : row.table.field? id with
  | none => exact BodyM.meets_pure trivial
  | some field =>
      have hid : field.id = id := row.table.id_of_field? hfield
      have hnested (hvirtual : field.isVirtual = true) :
          (ctx.nested row field).Meets (NestedRead.Behind ctx row id) fun _ => True := by
        have hbehind : row.table.Behind [] id field :=
          .here List.not_mem_nil hfield (FieldKind.isFormula_of_isVirtual hvirtual)
        exact nested_meets ⟨rfl, rfl, Table.mem_leafFields_of_behind hbehind, hvirtual⟩
      simp only
      split
      · exact BodyM.meets_pure trivial
      · exact BodyM.meets_pure trivial
      · rw [← hid]
        exact formulaValue_meets.bind fun _ _ => BodyM.meets_pure trivial
      · next hcolumn hsystem hformula =>
          refine (hnested ?_).bind fun _ _ => BodyM.meets_pure trivial
          unfold Field.isVirtual FieldKind.isVirtual
          split <;> simp_all

/-! ### Filters -/

theorem values_meets {row : Row} {ids : List String}
    (h : ∀ id ∈ ids, ∀ read, NestedRead.Behind ctx row id read → P read) :
    (ctx.values row ids).Meets P fun _ => True := by
  induction ids with
  | nil => exact BodyM.meets_pure trivial
  | cons id rest ih =>
      refine ((value_meets row id).mono (h id List.mem_cons_self) fun _ h => h).bind fun _ _ => ?_
      refine (ih fun other hother => h other (List.mem_cons_of_mem _ hother)).bind fun _ _ => ?_
      exact BodyM.meets_pure trivial

/-- A filter reads the fields that it compares on one row, and those it compares with on the other.
-/
theorem filterSql_meets {foreign other : Row} {filter : Filter}
    (hfields : ∀ id ∈ filter.fieldIds, ∀ read, NestedRead.Behind ctx foreign id read → P read)
    (hvalues : ∀ id ∈ filter.valueFieldIds, ∀ read, NestedRead.Behind ctx other id read → P read) :
    (ctx.filterSql foreign other filter).Meets P fun _ => True := by
  unfold filterSql
  refine (values_meets hfields).bind fun left _ => ?_
  refine (values_meets hvalues).bind fun right _ => ?_
  dsimp only
  split
  · exact BodyM.meets_pure trivial
  · exact BodyM.meets_throw _

theorem filterSql?_meets {foreign other : Row} {filter : Option Filter}
    (hfields : ∀ f, filter = some f → ∀ id ∈ f.fieldIds,
      ∀ read, NestedRead.Behind ctx foreign id read → P read)
    (hvalues : ∀ f, filter = some f → ∀ id ∈ f.valueFieldIds,
      ∀ read, NestedRead.Behind ctx other id read → P read) :
    (ctx.filterSql? foreign other filter).Meets P fun _ => True := by
  cases filter with
  | none => exact BodyM.meets_pure trivial
  | some f =>
      refine (filterSql_meets (hfields f rfl) (hvalues f rfl)).bind fun _ _ => ?_
      exact BodyM.meets_pure trivial

end BodyContext

/-! ### Bodies -/

/-- The body carries the fields: it selects from the host table the id of the record and then, in order,
a value for each of the fields, and names it after the column of the field. -/
def Body.Carries (body : Body) (host : Table) (fields : List Field) : Prop :=
  body.fields = fields.map Field.id ∧
    ∃ columns : List (String × Field), columns.map Prod.snd = fields ∧ ∃ tail,
      body.sql = "SELECT " ++ hostId ++ " AS " ++ ident mainRecordId ++
        String.join (columns.map fun column => ", " ++ column.1 ++ " AS " ++ ident column.2.column) ++
        " FROM " ++ aliased host.name Alias.host ++ tail

theorem Body.carries_bodyHead (host : Table) {columns : List String} {fields : List Field}
    (h : columns.length = fields.length) :
    Body.Carries ⟨bodyHead host columns fields, fields.map Field.id⟩ host fields := by
  refine ⟨rfl, columns.zip fields, List.map_snd_zip (Nat.le_of_eq h.symm), "", ?_⟩
  rw [String.append_empty, List.map_zip_eq_zipWith]
  rfl

/-- What follows the columns does not matter. -/
theorem Body.Carries.append {sql : String} {ids : List String} {host : Table} {fields : List Field}
    (h : Body.Carries ⟨sql, ids⟩ host fields) (more : String) :
    Body.Carries ⟨sql ++ more, ids⟩ host fields := by
  obtain ⟨hids, columns, hfields, tail, hsql⟩ := h
  refine ⟨hids, columns, hfields, tail ++ more, ?_⟩
  rw [← String.append_assoc]
  exact congrArg (· ++ more) hsql

theorem BodyContext.carries_degraded (ctx : BodyContext) (host : Table) (fields : List Field) :
    (ctx.degraded host fields).Carries host fields :=
  Body.carries_bodyHead host (List.length_map _)

theorem carries_groupedBody (d : Dialect) (host : Table) (field : Field) (c : Condensation)
    (rows : Rows) (hostKeys : List String) :
    (groupedBody d host field c rows hostKeys).Carries host [field] :=
  (((((Body.carries_bodyHead host rfl).append _).append _).append _).append _).append _ |>.append _

theorem carries_subqueryBody (d : Dialect) (host : Table) (field : Field) (c : Condensation)
    (rows : Rows) : (subqueryBody d host field c rows).Carries host [field] :=
  Body.carries_bodyHead host rfl

/-- The body of a link has a column for the link and one for each of its members. -/
theorem Link.carries_body (link : Link) (d : Dialect) (host foreign : Table) (joins object : String)
    {members : List Member} {fields : List Field} (h : fields.length = members.length + 1) :
    Body.Carries ⟨link.body d host foreign joins object members fields, fields.map Field.id⟩ host
      fields := by
  have hlength (first : String) (make : Member → String) :
      (first :: members.map make).length = fields.length := by
    simp [h]
  unfold Link.body
  split
  · exact ((Body.carries_bodyHead host (hlength _ _)).append _).append _
  · split
    · exact ((((Body.carries_bodyHead host (hlength _ _)).append _).append _).append _).append _
    · exact Body.carries_bodyHead host (hlength _ _)

/-! ### What is foretold -/

/-- The read is among the fields that a unit reads: of the foreign table, or of the host. -/
def UnitReads.Covers (reads : UnitReads) (ctx : BodyContext) (host : Table) (read : NestedRead) :
    Prop :=
  (∃ foreign, ctx.catalog.table? reads.foreignTable = some foreign ∧
      ∃ id ∈ reads.foreign, NestedRead.Behind ctx ⟨.foreign, foreign⟩ id read) ∨
    ∃ id ∈ reads.host, NestedRead.Behind ctx ⟨.host, host⟩ id read

theorem mem_mentions {filter : Option Filter} {id : String} :
    id ∈ Filter.mentions filter ↔
      ∃ f, filter = some f ∧ (id ∈ f.fieldIds ∨ id ∈ f.valueFieldIds) := by
  cases filter <;> simp [Filter.mentions]

/-! ### Links -/

namespace BodyContext

variable {ctx : BodyContext} {P : NestedRead → Prop}

theorem memberOf_meets {row : Row} {field : Field} {related : Related}
    {rollup : Option RollupFunction}
    (h : ∀ id ∈ related.target :: Filter.mentions related.filter,
      ∀ read, NestedRead.Behind ctx row id read → P read) :
    (ctx.memberOf row field related rollup).Meets P fun _ => True := by
  have hmentions : ∀ f, related.filter = some f → ∀ id, id ∈ f.fieldIds ∨ id ∈ f.valueFieldIds →
      ∀ read, NestedRead.Behind ctx row id read → P read :=
    fun f hf id hid => h id (List.mem_cons_of_mem _ (mem_mentions.2 ⟨f, hf, hid⟩))
  unfold memberOf
  refine ((value_meets row related.target).mono (h _ List.mem_cons_self) fun _ h => h).bind
    fun read _ => ?_
  refine (filterSql?_meets ?_ ?_).bind fun filter _ => BodyM.meets_pure trivial
  · exact fun f hf id hid => hmentions f hf id (Or.inl hid)
  · exact fun f hf id hid => hmentions f hf id (Or.inr hid)

theorem member?_meets {row : Row} {field : Field} {link : String}
    (hmember : field.isMemberOf link = true)
    (h : ∀ id ∈ field.memberReads, ∀ read, NestedRead.Behind ctx row id read → P read) :
    (ctx.member? row field).Meets P fun m => m.isSome = true := by
  unfold member?
  unfold Field.memberReads at h
  unfold Field.isMemberOf at hmember
  split
  · next hkind =>
      rw [hkind] at h
      exact (memberOf_meets h).bind fun _ _ => BodyM.meets_pure rfl
  · next hkind =>
      rw [hkind] at h
      split
      · exact BodyM.meets_throw _
      · exact (memberOf_meets h).bind fun _ _ => BodyM.meets_pure rfl
  · next hlookup hrollup =>
      split at hmember
      · next hkind => exact absurd hkind (hlookup _ _)
      · next hkind => exact absurd hkind (hrollup _ _ _)
      · cases hmember

/-- Each field makes one member. -/
theorem members_meets {row : Row} {fields : List Field} {link : String}
    (hmembers : ∀ field ∈ fields, field.isMemberOf link = true)
    (h : ∀ id ∈ fields.flatMap Field.memberReads,
      ∀ read, NestedRead.Behind ctx row id read → P read) :
    (ctx.members row fields).Meets P fun ms => ms.length = fields.length := by
  induction fields with
  | nil => exact BodyM.meets_pure rfl
  | cons field rest ih =>
      have hfirst : ∀ id ∈ field.memberReads, ∀ read, NestedRead.Behind ctx row id read → P read :=
        fun id hid => h id (List.mem_flatMap.2 ⟨field, List.mem_cons_self, hid⟩)
      have hrest : ∀ id ∈ rest.flatMap Field.memberReads,
          ∀ read, NestedRead.Behind ctx row id read → P read := by
        intro id hid
        exact h id (by simp [List.flatMap_cons, hid])
      refine (member?_meets (hmembers field List.mem_cons_self) hfirst).bind fun first hfirst => ?_
      refine (ih (fun other hother => hmembers other (List.mem_cons_of_mem _ hother)) hrest).bind
        fun others hothers => BodyM.meets_pure ?_
      obtain ⟨m, rfl⟩ := Option.isSome_iff_exists.1 hfirst
      simp [hothers]

/-- The body of a link reads its title and what its members read, and carries all of them. -/
theorem linkBody_meets {host : Table} {field : Field} :
    (ctx.linkBody host field).Meets
      (fun read => ∃ link, field.kind = .link link ∧
        (link.reads (host.linkMembers field.id)).Covers ctx host read)
      (fun body => body.Carries host (field :: host.linkMembers field.id)) := by
  unfold linkBody
  split
  · next link hkind =>
      cases hforeign : ctx.catalog.table? link.foreignTable with
      | none => exact BodyM.meets_pure (ctx.carries_degraded host _)
      | some foreign =>
          have hcovers : ∀ id ∈ (link.reads (host.linkMembers field.id)).foreign,
              ∀ read, NestedRead.Behind ctx ⟨.foreign, foreign⟩ id read →
                ∃ l, field.kind = .link l ∧
                  (l.reads (host.linkMembers field.id)).Covers ctx host read :=
            fun id hid read hread => ⟨link, hkind, Or.inl ⟨foreign, hforeign, id, hid, hread⟩⟩
          refine ((value_meets _ link.titleField).mono
            (hcovers _ List.mem_cons_self) fun _ h => h).bind fun read _ => ?_
          refine (members_meets (fun f hf => (List.mem_filter.1 hf).2)
            (fun id hid => hcovers id (List.mem_cons_of_mem _ hid))).bind fun members hmembers => ?_
          refine BodyM.meets_get.bind fun reads _ => BodyM.meets_pure ?_
          exact link.carries_body _ _ _ _ _ (congrArg (· + 1) hmembers.symm)
  · exact BodyM.meets_throw _

end BodyContext

/-! ### Single fields -/

mutual

/-- A filter that asks for equal fields has a condition for each pair of them. -/
theorem Filter.conditions_of_equalities? : ∀ (f : Filter) {pairs : List (String × String)},
    f.equalities? = some pairs → f.conditions = pairs.map fun p => ⟨p.1, .is, .field p.2⟩
  | .condition ⟨field, op, operand⟩, pairs, h => by
      cases op <;> cases operand <;> simp [Filter.equalities?] at h
      subst h
      rfl
  | .all children, pairs, h => Filter.conditionsOfAll_of_equalities? children h
  | .any children, pairs, h => by simp [Filter.equalities?] at h

theorem Filter.conditionsOfAll_of_equalities? : ∀ (fs : List Filter)
    {pairs : List (String × String)}, Filter.equalitiesOfAll? fs = some pairs →
      Filter.conditionsOfAll fs = pairs.map fun p => ⟨p.1, .is, .field p.2⟩
  | [], pairs, h => by
      cases h
      rfl
  | f :: rest, pairs, h => by
      unfold Filter.equalitiesOfAll? at h
      split at h
      · next first others hfirst hothers =>
          cases h
          rw [Filter.conditionsOfAll, List.map_append, Filter.conditions_of_equalities? f hfirst,
            Filter.conditionsOfAll_of_equalities? rest hothers]
      · cases h

end

/-- The fields of the pairs are those that the filter mentions. -/
theorem Filter.mem_of_equalityPairs? {f : Filter} {pairs : List (String × String)}
    (h : f.equalityPairs? = some pairs) {pair : String × String} (hpair : pair ∈ pairs) :
    pair.1 ∈ f.fieldIds ∧ pair.2 ∈ f.valueFieldIds := by
  have hpairs : f.equalities? = some pairs := (Option.filter_eq_some_iff.1 h).1
  have hmem : ⟨pair.1, .is, .field pair.2⟩ ∈ f.conditions := by
    rw [Filter.conditions_of_equalities? f hpairs]
    exact List.mem_map.2 ⟨pair, hpair, rfl⟩
  constructor
  · exact mem_unionNew.2 (Or.inr (List.mem_map.2 ⟨_, hmem, rfl⟩))
  · exact mem_unionNew.2 (Or.inr (List.mem_filterMap.2 ⟨_, hmem, rfl⟩))

namespace RowChoice

variable {choice : RowChoice} {f : Filter} {id : String}

@[simp] theorem foreignTable_reads (choice : RowChoice) :
    choice.reads.foreignTable = choice.related.foreignTable := by
  unfold RowChoice.reads
  dsimp only
  split <;> rfl

theorem target_mem_reads (choice : RowChoice) : choice.related.target ∈ choice.reads.foreign := by
  unfold RowChoice.reads
  dsimp only
  split <;> exact List.mem_cons_self

theorem sort_mem_reads {key : SortKey} (h : choice.related.sort = some key) :
    key.field ∈ choice.reads.foreign := by
  unfold RowChoice.reads
  dsimp only
  split <;> simp [h]

theorem fieldIds_mem_reads (h : choice.related.filter = some f) (hid : id ∈ f.fieldIds) :
    id ∈ choice.reads.foreign := by
  unfold RowChoice.reads
  dsimp only
  split <;> simp [h, hid, Filter.mentions]

theorem valueFieldIds_mem_host (hhost : choice.hostValues = true)
    (h : choice.related.filter = some f) (hid : id ∈ f.valueFieldIds) : id ∈ choice.reads.host := by
  simp [RowChoice.reads, hhost, h, hid]

theorem valueFieldIds_mem_foreign (hhost : choice.hostValues = false)
    (h : choice.related.filter = some f) (hid : id ∈ f.valueFieldIds) :
    id ∈ choice.reads.foreign := by
  simp [RowChoice.reads, hhost, h, hid, Filter.mentions]

/-- Rows are grouped by pairs of the filter only, and only if these compare with the host. -/
theorem of_groupPairs? {pairs : List (String × String)} (h : choice.groupPairs? = some pairs) :
    choice.hostValues = true ∧
      ∃ f, choice.related.filter = some f ∧ f.equalityPairs? = some pairs := by
  unfold RowChoice.groupPairs? at h
  split at h
  · next hguard =>
      simp only [Bool.and_eq_true] at hguard
      exact ⟨hguard.2, Option.bind_eq_some_iff.1 h⟩
  · cases h

end RowChoice

namespace BodyContext

variable {ctx : BodyContext} {P : NestedRead → Prop}

theorem keyPairs_meets {foreign host : Row} {pairs : List (String × String)}
    (h : ∀ pair ∈ pairs, (∀ read, NestedRead.Behind ctx foreign pair.1 read → P read) ∧
      ∀ read, NestedRead.Behind ctx host pair.2 read → P read) :
    (ctx.keyPairs foreign host pairs).Meets P fun _ => True := by
  induction pairs with
  | nil => exact BodyM.meets_pure trivial
  | cons pair rest ih =>
      obtain ⟨hleft, hright⟩ := h pair List.mem_cons_self
      refine ((value_meets foreign pair.1).mono hleft fun _ h => h).bind fun left _ => ?_
      refine ((value_meets host pair.2).mono hright fun _ h => h).bind fun right _ => ?_
      split
      · refine (ih fun other hother => h other (List.mem_cons_of_mem _ hother)).bind fun _ _ => ?_
        exact BodyM.meets_pure trivial
      · exact BodyM.meets_pure trivial

theorem rowOrder_meets {row : Row} {sort : Option SortKey} {link : Option Link}
    (h : ∀ key, sort = some key → ∀ read, NestedRead.Behind ctx row key.field read → P read) :
    (ctx.rowOrder row sort link).Meets P fun _ => True := by
  unfold rowOrder
  dsimp only
  cases sort with
  | none => exact BodyM.meets_pure trivial
  | some key =>
      refine ((value_meets row key.field).mono (h key rfl) fun _ h => h).bind fun _ _ => ?_
      exact BodyM.meets_pure trivial

section Conditional

variable {host foreign : Table} {field : Field} {choice : RowChoice}
  (hforeign : ∀ id ∈ choice.reads.foreign,
    ∀ read, NestedRead.Behind ctx ⟨.foreign, foreign⟩ id read → P read)
  (hhost : ∀ id ∈ choice.reads.host, ∀ read, NestedRead.Behind ctx ⟨.host, host⟩ id read → P read)

include hforeign hhost

theorem condensedBody_meets {link : Option Link} {c : Condensation} {value order : String} :
    (ctx.condensedBody host foreign field choice link c value order).Meets P
      fun body => body.Carries host [field] := by
  unfold condensedBody
  dsimp only
  cases hpairs : choice.groupPairs? with
  | some pairs =>
      obtain ⟨hvalues, f, hf, hequal⟩ := RowChoice.of_groupPairs? hpairs
      -- the left sides of the pairs are fields of the foreign record, the right sides of the host
      refine (keyPairs_meets fun pair hpair => ?_).bind fun keys _ => ?_
      · obtain ⟨hleft, hright⟩ := Filter.mem_of_equalityPairs? hequal hpair
        exact ⟨hforeign _ (RowChoice.fieldIds_mem_reads hf hleft),
          hhost _ (RowChoice.valueFieldIds_mem_host hvalues hf hright)⟩
      · cases keys with
        | none => exact BodyM.meets_pure (ctx.carries_degraded host _)
        | some keys =>
            refine BodyM.meets_get.bind fun reads _ => BodyM.meets_pure ?_
            exact carries_groupedBody ..
  | none =>
      refine (filterSql?_meets ?_ ?_).bind fun filter _ => ?_
      · exact fun f hf id hid => hforeign id (RowChoice.fieldIds_mem_reads hf hid)
      · -- a filter of a lookup through a link compares fields of one record
        intro f hf id hid
        cases hvalues : choice.hostValues with
        | true => exact hhost id (RowChoice.valueFieldIds_mem_host hvalues hf hid)
        | false => exact hforeign id (RowChoice.valueFieldIds_mem_foreign hvalues hf hid)
      · refine BodyM.meets_get.bind fun reads _ => BodyM.meets_pure ?_
        exact carries_subqueryBody ..

end Conditional

/-- The body of a single field reads its target, the fields of its filter, and the one that orders
its rows; it carries the field alone. -/
theorem conditionalBody_meets {host : Table} {field : Field} :
    (ctx.conditionalBody host field).Meets
      (fun read => ∃ choice, field.rowChoice? = some choice ∧ choice.reads.Covers ctx host read)
      (fun body => body.Carries host [field]) := by
  unfold conditionalBody
  cases hchoice : field.rowChoice? with
  | none => exact BodyM.meets_throw _
  | some choice =>
      dsimp only
      split
      · exact BodyM.meets_throw _
      · split
        · next foreign link htable hlink =>
            have hforeign : ∀ id ∈ choice.reads.foreign,
                ∀ read, NestedRead.Behind ctx ⟨.foreign, foreign⟩ id read →
                  ∃ c, some choice = some c ∧ c.reads.Covers ctx host read :=
              fun id hid read hread =>
                ⟨choice, rfl, Or.inl ⟨foreign, by simpa using htable, id, hid, hread⟩⟩
            have hhost : ∀ id ∈ choice.reads.host,
                ∀ read, NestedRead.Behind ctx ⟨.host, host⟩ id read →
                  ∃ c, some choice = some c ∧ c.reads.Covers ctx host read :=
              fun id hid read hread => ⟨choice, rfl, Or.inr ⟨id, hid, hread⟩⟩
            refine ((value_meets _ choice.related.target).mono
              (hforeign _ choice.target_mem_reads) fun _ h => h).bind fun read _ => ?_
            split
            · exact BodyM.meets_pure (ctx.carries_degraded host _)
            · refine (rowOrder_meets ?_).bind fun order _ => ?_
              · exact fun key hkey => hforeign _ (RowChoice.sort_mem_reads hkey)
              · exact condensedBody_meets hforeign hhost
        · exact BodyM.meets_pure (ctx.carries_degraded host _)

end BodyContext

/-! ### Units -/

namespace CteUnit

variable {ctx : BodyContext} {unit : CteUnit}

/-- The fields that the body of a unit carries. -/
def carried (unit : CteUnit) (host : Table) (field : Field) : List Field :=
  match unit with
  | .link .. => field :: host.linkMembers field.id
  | .conditional .. => [field]

/-- Every read of a body is foretold, and the body carries its fields. -/
theorem bodyM_meets {host : Table} {field : Field} :
    (unit.bodyM ctx host field).Meets
      (fun read => ∃ reads, unit.reads? host field = some reads ∧ reads.Covers ctx host read)
      (fun body => body.Carries host (unit.carried host field)) := by
  cases unit with
  | link table id =>
      refine BodyContext.linkBody_meets.mono ?_ fun _ h => h
      rintro read ⟨link, hkind, hread⟩
      refine ⟨_, ?_, hread⟩
      simp only [reads?, hkind]
  | conditional table id =>
      refine BodyContext.conditionalBody_meets.mono ?_ fun _ h => h
      rintro read ⟨choice, hchoice, hread⟩
      refine ⟨_, ?_, hread⟩
      simp only [reads?, hchoice, Option.map_some]

/-- Exactly the fields that come from another table are carried by a unit. -/
theorem isSome_of? (table : Table) (field : Field) :
    (of? table field).isSome = field.isVirtual := by
  unfold of? Field.isVirtual
  cases field.kind with
  | lookup linkField related =>
      dsimp only
      split <;> rfl
  | rollup linkField related expression =>
      dsimp only
      split <;> rfl
  | _ => rfl

/-- A unit carries the field it is named after, or a member of its link. -/
theorem of?_cases {table : Table} {field : Field} {carrier : CteUnit}
    (h : of? table field = some carrier) :
    carrier.table = table.id ∧
      (carrier.field = field.id ∨ ∃ l, carrier = .link table.id l ∧ field.isMemberOf l = true) := by
  have hrelated (linkField : String) (related : Related)
      (h : (if related.isOrdered then some (conditional table.id field.id)
        else some (link table.id linkField)) = some carrier)
      (hmember : field.isMemberOf linkField = !related.isOrdered) :
      carrier.table = table.id ∧
        (carrier.field = field.id ∨
          ∃ l, carrier = .link table.id l ∧ field.isMemberOf l = true) := by
    split at h
    · cases h
      exact ⟨rfl, Or.inl rfl⟩
    · next hordered =>
        cases h
        exact ⟨rfl, Or.inr ⟨linkField, rfl, by simpa [hmember] using hordered⟩⟩
  unfold of? at h
  split at h
  · cases h
    exact ⟨rfl, Or.inl rfl⟩
  · next linkField related hkind => exact hrelated _ _ h (by simp [Field.isMemberOf, hkind])
  · next linkField related _ hkind => exact hrelated _ _ h (by simp [Field.isMemberOf, hkind])
  · cases h
    exact ⟨rfl, Or.inl rfl⟩
  · cases h
    exact ⟨rfl, Or.inl rfl⟩
  · cases h
  · cases h
  · cases h

/-- A unit that carries a field of its table has a column for it. -/
theorem mem_carried {host : Table} {field leaf : Field} {carrier : CteUnit}
    (hcarrier : of? host leaf = some carrier) (hleaf : leaf ∈ host.fields)
    (hfield : host.field? carrier.field = some field) : leaf ∈ carrier.carried host field := by
  rcases (of?_cases hcarrier).2 with hid | ⟨l, rfl, hmember⟩
  · obtain rfl : leaf = field := by
      refine Table.eq_of_id_eq hleaf (host.mem_of_field? hfield) ?_
      rw [host.id_of_field? hfield, hid]
    cases carrier with
    | link table id => exact List.mem_cons_self
    | conditional table id => exact List.mem_cons_self
  · have hid : field.id = l := host.id_of_field? hfield
    refine List.mem_cons_of_mem _ (List.mem_filter.2 ⟨hleaf, ?_⟩)
    rw [hid]
    exact hmember

/-! ### Traces -/

/-- A unit whose table or field is missing has no body and makes no reads; else its body is built.
-/
theorem trace_cases (ctx : BodyContext) (unit : CteUnit) :
    (unit.trace ctx = (.ok none, []) ∧
        ∀ host, ctx.catalog.table? unit.table = some host → host.field? unit.field = none) ∨
      ∃ host field, ctx.catalog.table? unit.table = some host ∧
        host.field? unit.field = some field ∧
        unit.trace ctx = (((unit.bodyM ctx host field).answer []).1.map some,
          ((unit.bodyM ctx host field).answer []).2) := by
  unfold trace
  cases hhost : ctx.catalog.table? unit.table with
  | none =>
      refine Or.inl ⟨rfl, ?_⟩
      intro host h
      cases h
  | some host =>
      dsimp only
      cases hfield : host.field? unit.field with
      | none =>
          refine Or.inl ⟨rfl, ?_⟩
          intro host' h
          cases h
          exact hfield
      | some field => exact Or.inr ⟨host, field, rfl, hfield, rfl⟩

/-- A read of a body that was foretold: it is made on a table of the catalog, and the unit that
carries the field is one of the requirements. -/
structure Foresees (ctx : BodyContext) (unit : CteUnit) (read : NestedRead) (carrier : CteUnit) :
    Prop where
  table_eq : ctx.catalog.table? read.row.table.id = some read.row.table
  field_mem : read.field ∈ read.row.table.fields
  cte_eq : read.cte = ctx.cteOf? read.row.table read.field
  carrier_eq : of? read.row.table read.field = some carrier
  required : carrier ∈ ctx.catalog.requirements unit

/-- A read behind a field that the unit is known to read is foretold. -/
theorem foresees_of_behind {row : Row} {ids : List String} {id : String} {read : NestedRead}
    (hrow : ctx.catalog.table? row.table.id = some row.table)
    (hneeded : ∀ carrier ∈ row.table.unitsNeeded ids, carrier ∈ ctx.catalog.requirements unit)
    (hid : id ∈ ids) (h : NestedRead.Behind ctx row id read) :
    ∃ carrier, Foresees ctx unit read carrier := by
  obtain ⟨rfl, hcte, hleaf, hvirtual⟩ := h
  obtain ⟨carrier, hcarrier⟩ := Option.isSome_iff_exists.1
    ((isSome_of? read.row.table read.field).trans hvirtual)
  exact ⟨carrier, hrow, Table.mem_fields_of_mem_leafFields hleaf, hcte, hcarrier,
    hneeded carrier (Table.mem_unitsNeeded.2 ⟨id, hid, read.field, hleaf, hcarrier⟩)⟩

/-- **Requirements cover the reads of a body**, also of one that could not be finished. -/
theorem foresees_of_mem_trace {read : NestedRead} (h : read ∈ (unit.trace ctx).2) :
    ∃ carrier, Foresees ctx unit read carrier := by
  obtain ⟨htrace, _⟩ | ⟨host, field, hhost, hfield, htrace⟩ := trace_cases ctx unit
  · rw [htrace] at h
    exact absurd h List.not_mem_nil
  · obtain ⟨more, hmore, hforetold, _⟩ := @bodyM_meets ctx unit host field []
    rw [htrace, hmore, List.nil_append] at h
    obtain ⟨reads, hreads, hcovers⟩ := hforetold read h
    have hrequired : ∀ carrier ∈ ctx.catalog.unitsRead host reads,
        carrier ∈ ctx.catalog.requirements unit := fun carrier hcarrier =>
      Catalog.mem_requirements.2 ⟨host, field, reads, hhost, hfield, hreads, hcarrier⟩
    rcases hcovers with ⟨foreign, hforeign, id, hid, hbehind⟩ | ⟨id, hid, hbehind⟩
    · refine foresees_of_behind ?_ (fun carrier hcarrier => hrequired carrier ?_) hid hbehind
      · exact Catalog.table?_of_mem (Catalog.mem_of_table? hforeign)
      · exact Catalog.mem_unitsRead.2 (Or.inr ⟨foreign, hforeign, hcarrier⟩)
    · refine foresees_of_behind ?_ (fun carrier hcarrier => hrequired carrier ?_) hid hbehind
      · exact Catalog.table?_of_mem (Catalog.mem_of_table? hhost)
      · exact Catalog.mem_unitsRead.2 (Or.inl hcarrier)

/-- The body of a unit carries the fields of the unit. -/
theorem carries_of_body? {body : Body} (h : unit.body? ctx = .ok (some body)) :
    ∃ host field, ctx.catalog.table? unit.table = some host ∧
      host.field? unit.field = some field ∧ body.Carries host (unit.carried host field) := by
  unfold body? at h
  obtain ⟨htrace, _⟩ | ⟨host, field, hhost, hfield, htrace⟩ := trace_cases ctx unit
  · rw [htrace] at h
    cases h
  · obtain ⟨_, _, _, hcarries⟩ := @bodyM_meets ctx unit host field []
    refine ⟨host, field, hhost, hfield, hcarries body ?_⟩
    rw [htrace] at h
    cases hresult : ((unit.bodyM ctx host field).answer []).1 with
    | error e =>
        rw [hresult] at h
        cases h
    | ok made =>
        rw [hresult] at h
        cases h
        rfl

/-- A unit has no body only when its table or its field is missing. -/
theorem field?_eq_none_of_body? (h : unit.body? ctx = .ok none) {host : Table}
    (hhost : ctx.catalog.table? unit.table = some host) : host.field? unit.field = none := by
  unfold body? at h
  obtain ⟨_, hmissing⟩ | ⟨found, field, _, _, htrace⟩ := trace_cases ctx unit
  · exact hmissing host hhost
  · rw [htrace] at h
    cases hresult : ((unit.bodyM ctx found field).answer []).1 with
    | error e =>
        rw [hresult] at h
        cases h
    | ok made =>
        rw [hresult] at h
        cases h

end CteUnit

end ComputedFields
