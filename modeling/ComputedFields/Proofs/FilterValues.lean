/-
**Which values a filter needs.**

A filter is compiled with the values of the fields that it mentions.  Each condition looks up the value of
its own field, and then that of the field it compares with, if it compares with one; also the conditions
that do nothing with what they compare with.  So a filter compiles exactly when every field that it mentions
has a value, and else it fails with the first one that has none.

The body of a common table expression enters a value for all of them, if only a missing one.  Hence its
filter can fail because a field cannot be read, but never because of the filter.

Main definitions:

* `ComputedFields.Filter.mentioned` — the fields that a filter mentions, from left to right;
* `ComputedFields.Entries.missing?` — the first of several ids that has no entry;
* `ComputedFields.LooksUp` — a computation that looks up ids, one after the other.

Main results:

* `ComputedFields.LooksUp.bind` — one computation after another looks up the ids of both;
* `ComputedFields.Filter.compile_looksUp` — **a filter looks up what it mentions**;
* `ComputedFields.BodyContext.value_failsWith` — no field fails because another one does not exist;
* `ComputedFields.Filter.compile_exact` — **when a filter compiles, and how it fails**.
-/

import ComputedFields.Proofs.FilterSides
import ComputedFields.Proofs.GeneratedColumns

set_option relaxedAutoImplicit false
set_option autoImplicit false

namespace ComputedFields

/-! ### Mentioned fields -/

/-- The fields that a condition mentions: its own, and the one it compares with. -/
def Condition.mentioned (c : Condition) : List String := c.field :: c.valueField?.toList

/-- The fields that a filter mentions, condition by condition. -/
def Filter.mentioned (f : Filter) : List String := f.conditions.flatMap Condition.mentioned

theorem Filter.mem_mentioned {f : Filter} {id : String} :
    id ∈ f.mentioned ↔ id ∈ f.fieldIds ∨ id ∈ f.valueFieldIds := by
  simp only [mentioned, Condition.mentioned, fieldIds, valueFieldIds, List.mem_flatMap, List.mem_cons,
    Option.mem_toList, mem_unionNew, List.not_mem_nil, false_or, List.mem_map, List.mem_filterMap]
  constructor
  · rintro ⟨c, hc, rfl | hid⟩
    · exact .inl ⟨c, hc, rfl⟩
    · exact .inr ⟨c, hc, hid⟩
  · rintro (⟨c, hc, rfl⟩ | ⟨c, hc, hid⟩)
    · exact ⟨c, hc, .inl rfl⟩
    · exact ⟨c, hc, .inr hid⟩

/-! ### Looking up values -/

/-- The first of several ids that has no entry. -/
def Entries.missing? (values : Entries String) (ids : List String) : Option String :=
  ids.find? fun id => (values.get? id).isNone

namespace Entries

variable {values : Entries String} {ids ids' : List String} {id : String}

theorem missing?_append (values : Entries String) (ids ids' : List String) :
    values.missing? (ids ++ ids') = (values.missing? ids).or (values.missing? ids') :=
  List.find?_append

theorem missing?_eq_none_iff :
    values.missing? ids = none ↔ ∀ id ∈ ids, (values.get? id).isSome = true := by
  simp [missing?, Option.isSome_iff_ne_none]

end Entries

/-- The computation looks up the ids, one after the other: it succeeds when all of them have an entry, and
else it fails with the first one that has none. -/
def LooksUp {α : Type} (values : Entries String) (ids : List String) (x : Except CompileError α) : Prop :=
  match values.missing? ids with
  | none => ∃ a, x = .ok a
  | some id => x = .error (.fieldNotFound id)

namespace LooksUp

variable {α β : Type} {values : Entries String} {ids ids' : List String} {x : Except CompileError α}

theorem ok (a : α) : LooksUp values [] (.ok a) := ⟨a, rfl⟩

theorem fieldSql (values : Entries String) (id : String) :
    LooksUp values [id] (fieldSql values id) := by
  unfold LooksUp ComputedFields.fieldSql
  cases hget : values.get? id with
  | none =>
      have hmissing : values.missing? [id] = some id := by simp [Entries.missing?, hget]
      rw [hmissing]
  | some sql =>
      have hmissing : values.missing? [id] = none := by simp [Entries.missing?, hget]
      rw [hmissing]
      exact ⟨sql, rfl⟩

/-- One computation after another looks up the ids of both. -/
theorem bind {g : α → Except CompileError β} (hx : LooksUp values ids x)
    (hg : ∀ a, LooksUp values ids' (g a)) : LooksUp values (ids ++ ids') (x >>= g) := by
  unfold LooksUp at hx
  cases hmissing : values.missing? ids with
  | some id =>
      rw [hmissing] at hx
      have hall : values.missing? (ids ++ ids') = some id := by
        rw [Entries.missing?_append, hmissing, Option.some_or]
      unfold LooksUp
      rw [hall, hx]
      rfl
  | none =>
      rw [hmissing] at hx
      obtain ⟨a, rfl⟩ := hx
      have hall : values.missing? (ids ++ ids') = values.missing? ids' := by
        rw [Entries.missing?_append, hmissing, Option.none_or]
      unfold LooksUp
      rw [hall]
      exact hg a

/-- What is done with the result looks up nothing more. -/
theorem map {f : α → Except CompileError β} (hx : LooksUp values ids x) (hf : ∀ a, ∃ b, f a = .ok b) :
    LooksUp values ids (x >>= f) := by
  rw [← List.append_nil ids]
  exact hx.bind hf

theorem exists_ok_iff (hx : LooksUp values ids x) :
    (∃ a, x = .ok a) ↔ ∀ id ∈ ids, (values.get? id).isSome = true := by
  rw [← Entries.missing?_eq_none_iff]
  unfold LooksUp at hx
  cases hmissing : values.missing? ids with
  | none =>
      rw [hmissing] at hx
      exact iff_of_true hx rfl
  | some id =>
      rw [hmissing] at hx
      rw [hx]
      simp

theorem eq_error_iff (hx : LooksUp values ids x) (e : CompileError) :
    x = .error e ↔ ∃ id, values.missing? ids = some id ∧ e = .fieldNotFound id := by
  unfold LooksUp at hx
  cases hmissing : values.missing? ids with
  | none =>
      rw [hmissing] at hx
      obtain ⟨a, rfl⟩ := hx
      simp
  | some id =>
      rw [hmissing] at hx
      rw [hx]
      simp [eq_comm]

end LooksUp

section

variable {d : Dialect} {fields : List Field} {values : Entries String}

theorem Condition.compile_looksUp (c : Condition) :
    LooksUp values c.mentioned (c.compile d fields values) := by
  have hright : LooksUp values c.valueField?.toList (c.operand.compile values) := by
    unfold Condition.valueField? Operand.compile
    cases c.operand with
    | absent => exact .ok none
    | literal value => cases value <;> exact .ok _
    | field id => exact (LooksUp.fieldSql values id).map fun sql => ⟨some sql, rfl⟩
  exact (LooksUp.fieldSql values c.field).bind fun value => hright.map fun right => ⟨_, rfl⟩

namespace Filter

mutual

/-- **A filter looks up what it mentions.** -/
theorem compile_looksUp : ∀ f : Filter, LooksUp values f.mentioned (f.compile d fields values)
  | .condition c => by
      rw [compile, mentioned, conditions, List.flatMap_cons, List.flatMap_nil, List.append_nil]
      exact c.compile_looksUp
  | .all children => by
      rw [compile, mentioned, conditions]
      exact (compileAll_looksUp children).map fun parts => ⟨_, rfl⟩
  | .any children => by
      rw [compile, mentioned, conditions]
      exact (compileAll_looksUp children).map fun parts => ⟨_, rfl⟩

theorem compileAll_looksUp : ∀ fs : List Filter,
    LooksUp values ((conditionsOfAll fs).flatMap Condition.mentioned) (compileAll d fields values fs)
  | [] => .ok []
  | f :: rest => by
      rw [compileAll, conditionsOfAll, List.flatMap_append]
      exact (compile_looksUp f).bind fun first =>
        (compileAll_looksUp rest).map fun others => ⟨_, rfl⟩

end

end Filter

end

/-! ### Filters in a body -/

namespace BodyM

variable {α β : Type} {P : CompileError → Prop} {x : BodyM α} {f : α → BodyM β}

/-- Every error of the computation satisfies `P`, whatever has been read before. -/
def FailsWith (P : CompileError → Prop) (x : BodyM α) : Prop := ∀ reads, FailsOnly P (x.answer reads).1

theorem failsWith_pure (a : α) : (pure a : BodyM α).FailsWith P := fun _ => .ok a

theorem failsWith_throw {e : CompileError} (h : P e) : (throw e : BodyM α).FailsWith P :=
  fun _ => .error h

theorem FailsWith.bind (hx : x.FailsWith P) (hf : ∀ a, (f a).FailsWith P) : (x >>= f).FailsWith P := by
  intro reads
  have hfirst := hx reads
  unfold answer at hfirst ⊢
  rw [run_bind]
  rcases hanswer : x.run reads with ⟨result, after⟩
  rw [hanswer] at hfirst
  cases result with
  | error e => exact .error (hfirst e rfl)
  | ok a => exact hf a after

end BodyM

/-- The error is about something else than a field that does not exist. -/
def CompileError.Elsewhere (e : CompileError) : Prop := ∀ id, e ≠ .fieldNotFound id

namespace BodyContext

variable {ctx : BodyContext} {row : Row} {e : CompileError}

theorem nested_failsWith (row : Row) (field : Field) :
    (ctx.nested row field).FailsWith CompileError.Elsewhere := fun _ => .ok _

theorem selectCarried_failsWith (row : Row) (scope : Scope) (fields : List Field) :
    (ctx.selectCarried row scope fields).FailsWith CompileError.Elsewhere := by
  induction fields generalizing scope with
  | nil => exact BodyM.failsWith_pure scope
  | cons leaf rest ih =>
      unfold selectCarried
      split
      · exact (nested_failsWith row leaf).bind fun sql => ih _
      · exact ih scope

/-- A formula that refers to a field that does not exist has a missing value, and all its other errors
are passed on. -/
theorem formulaValue_failsWith (row : Row) (field : Field) :
    (ctx.formulaValue row field).FailsWith CompileError.Elsewhere := by
  refine (selectCarried_failsWith row _ _).bind fun scope => ?_
  dsimp only
  split
  · exact BodyM.failsWith_pure _
  · exact BodyM.failsWith_pure _
  · next e hother _ => exact BodyM.failsWith_throw fun id heq => hother id heq

/-- No field fails because another one does not exist. -/
theorem value_failsWith (row : Row) (id : String) :
    (ctx.value row id).FailsWith CompileError.Elsewhere := by
  unfold value
  cases row.table.field? id with
  | none => exact BodyM.failsWith_pure none
  | some field =>
      dsimp only
      split
      · exact BodyM.failsWith_pure _
      · exact BodyM.failsWith_pure _
      · exact (formulaValue_failsWith row field).bind fun sql => BodyM.failsWith_pure _
      · exact (nested_failsWith row field).bind fun sql => BodyM.failsWith_pure _

/-- Several fields fail with the error of one of them. -/
theorem exists_read_of_values {ids : List String} (h : (ctx.values row ids).Settled (.error e)) :
    ∃ id ∈ ids, ctx.read row id = .error e := by
  induction ids with
  | nil => cases h []
  | cons id rest ih =>
      have hfirst : (ctx.value row id).Settled (ctx.read row id) := value_settled row id
      cases hread : ctx.read row id with
      | error e' =>
          rw [hread] at hfirst
          have hall : (ctx.values row (id :: rest)).Settled (.error e') := hfirst.bind_error
          cases (hall []).symm.trans (h [])
          exact ⟨id, List.mem_cons_self, hread⟩
      | ok v =>
          rw [hread] at hfirst
          by_cases hrest : ∀ id ∈ rest, ctx.Readable row id
          · have hall : (ctx.values row (id :: rest)).Settled
                (.ok ((id, v) :: rest.map fun id => (id, ctx.found row id))) :=
              hfirst.bind ((values_settled hrest).bind (BodyM.settled_pure _))
            cases (hall []).symm.trans (h [])
          · obtain ⟨e', he'⟩ := values_settled_error hrest
            have hall : (ctx.values row (id :: rest)).Settled (.error e') := hfirst.bind he'.bind_error
            cases (hall []).symm.trans (h [])
            obtain ⟨id', hid', hread'⟩ := ih he'
            exact ⟨id', List.mem_cons_of_mem _ hid', hread'⟩

/-- **A filter in a body fails with the error of a field that it reads**: once all are read, each of them
has an entry. -/
theorem exists_read_of_filterSql {foreign host : Row} {filter : Filter} {reads : List NestedRead}
    (h : ((ctx.filterSql foreign host filter).answer reads).1 = .error e) :
    (∃ id ∈ filter.fieldIds, ctx.read foreign id = .error e) ∨
      ∃ id ∈ filter.valueFieldIds, ctx.read host id = .error e := by
  by_cases hleft : ∀ id ∈ filter.fieldIds, ctx.Readable foreign id
  · by_cases hright : ∀ id ∈ filter.valueFieldIds, ctx.Readable host id
    · rw [filterSql_settled hleft hright reads] at h
      cases h
    · obtain ⟨e', he'⟩ := values_settled_error hright
      have hfails : (ctx.filterSql foreign host filter).Settled (.error e') :=
        (values_settled hleft).bind he'.bind_error
      cases (hfails reads).symm.trans h
      exact .inr (exists_read_of_values he')
  · obtain ⟨e', he'⟩ := values_settled_error hleft
    have hfails : (ctx.filterSql foreign host filter).Settled (.error e') := he'.bind_error
    cases (hfails reads).symm.trans h
    exact .inl (exists_read_of_values he')

end BodyContext

/-- **When a filter compiles, and how it fails.**  It compiles exactly when every field that it is about and
every field that it compares with has a value.  Else the error names the first field without one: the
conditions are looked at from left to right, and the field that a condition is about comes before the one it
compares with.  In the body of an expression all of them have one: there a filter fails only with the error
of a field that it reads, and this is never that a field does not exist. -/
theorem Filter.compile_exact (d : Dialect) (fields : List Field) (values : Entries String) (f : Filter) :
    ((∃ sql, f.compile d fields values = .ok sql) ↔
      ∀ id, id ∈ f.fieldIds ∨ id ∈ f.valueFieldIds → (values.get? id).isSome = true) ∧
    (∀ e, f.compile d fields values = .error e ↔
      ∃ id, values.missing? f.mentioned = some id ∧ e = .fieldNotFound id) ∧
    ∀ (ctx : BodyContext) (foreign host : Row) (reads : List NestedRead) (e : CompileError),
      ((ctx.filterSql foreign host f).answer reads).1 = .error e →
        ((∃ id ∈ f.fieldIds, ctx.read foreign id = .error e) ∨
          ∃ id ∈ f.valueFieldIds, ctx.read host id = .error e) ∧
        ∀ id, e ≠ .fieldNotFound id := by
  refine ⟨?_, f.compile_looksUp.eq_error_iff, ?_⟩
  · rw [f.compile_looksUp.exists_ok_iff]
    exact forall_congr' fun id => by rw [mem_mentioned]
  · intro ctx foreign host reads e h
    have hread := BodyContext.exists_read_of_filterSql h
    refine ⟨hread, ?_⟩
    rcases hread with ⟨id, -, hread⟩ | ⟨id, -, hread⟩
    · exact BodyContext.value_failsWith foreign id [] e hread
    · exact BodyContext.value_failsWith host id [] e hread

namespace Sample

/-- Orders with a column, a formula that is empty, and another column. -/
def orders : Table :=
  .ofFields "o" "orders"
    [.single "a" "amount" .number .column, .single "b" "bonus" .number (.formula (.tree none) false),
     .single "c" "code" .string .column]

def orderContext : BodyContext :=
  { catalog := .ofTables [orders], options := { now := ⟨0⟩ }, filterDialect := .postgres }

/-- The first condition does nothing with the field that it compares with. -/
def unpaid : Filter :=
  .all [.condition ⟨"a", .isEmpty, .field "b"⟩, .any [.condition ⟨"c", .is, .field "d"⟩, .all []]]

theorem read_bonus : orderContext.read ⟨.host, orders⟩ "b" = .error (.parse .emptyInput) := by
  have hleaves : orders.leafFields "b" = [] := by
    unfold Table.leafFields Table.leavesFrom
    change orders.leavesFrom ["b"] [] = []
    unfold Table.leavesFrom
    rfl
  change ((orderContext.formulaValue _ _ >>= _).answer []).1 = _
  unfold BodyContext.formulaValue
  dsimp only [Field.single]
  rw [hleaves]
  rfl

theorem filterSql_unpaid : ((orderContext.filterSql ⟨.foreign, orders⟩ ⟨.host, orders⟩
    unpaid).answer []).1 = .error (.parse .emptyInput) := by
  have hleft : ∀ id ∈ unpaid.fieldIds, orderContext.Readable ⟨.foreign, orders⟩ id := by
    intro id hid
    rcases List.mem_pair.1 (show id ∈ ["a", "c"] from hid) with rfl | rfl
    · exact ⟨_, rfl⟩
    · exact ⟨_, rfl⟩
  have hbonus := @BodyContext.value_settled orderContext ⟨.host, orders⟩ "b"
  rw [read_bonus] at hbonus
  exact (BodyContext.values_settled hleft).bind hbonus.bind_error.bind_error []

end Sample

/-- The filter needs four values, and the second one is looked up although it is not used; on orders it
fails with the error of the formula that it reads. -/
theorem Filter.compile_exact_unpaid :
    Sample.unpaid.mentioned = ["a", "b", "c", "d"] ∧
    Sample.unpaid.compile .postgres [] [("a", "x"), ("c", "y")] = .error (.fieldNotFound "b") ∧
    (∃ sql, Sample.unpaid.compile .postgres [] [("d", "v"), ("b", "z"), ("a", "x"), ("c", "y")] =
      .ok sql) ∧
    ((Sample.orderContext.filterSql ⟨.foreign, Sample.orders⟩ ⟨.host, Sample.orders⟩
      Sample.unpaid).answer []).1 = .error (.parse .emptyInput) ∧
    ((∃ id ∈ Sample.unpaid.fieldIds,
        Sample.orderContext.read ⟨.foreign, Sample.orders⟩ id = .error (.parse .emptyInput)) ∨
      ∃ id ∈ Sample.unpaid.valueFieldIds,
        Sample.orderContext.read ⟨.host, Sample.orders⟩ id = .error (.parse .emptyInput)) := by
  obtain ⟨-, herror, -⟩ := Filter.compile_exact .postgres [] [("a", "x"), ("c", "y")] Sample.unpaid
  obtain ⟨hok, -, hbody⟩ := Filter.compile_exact .postgres []
    [("d", "v"), ("b", "z"), ("a", "x"), ("c", "y")] Sample.unpaid
  have hvalues : ∀ id ∈ Sample.unpaid.fieldIds ++ Sample.unpaid.valueFieldIds,
      (Entries.get? [("d", "v"), ("b", "z"), ("a", "x"), ("c", "y")] id).isSome = true := by decide
  refine ⟨rfl, (herror _).2 ⟨"b", rfl, rfl⟩, hok.2 ?_, Sample.filterSql_unpaid, ?_⟩
  · exact fun id hid => hvalues id (List.mem_append.2 hid)
  · exact (hbody _ _ _ _ _ Sample.filterSql_unpaid).1

end ComputedFields
