/-
**On which record a filter reads its fields.**

The filter of a conditional field compares fields of a foreign record with literals and with fields of the
host record.  Both are read first, and their SQL is entered under the id of the field; then the filter is
compiled with these entries.  The two records share the entries.  So a field that some condition of the
filter compares with is read on the host record wherever the filter mentions it, also where a condition is
about the foreign record.  All other fields are read on the side they belong to.

What a filter is compiled to is stated here with one reading for each side, without entries.  A computation
that only reads gives the same answer whatever has been read before, so that a reading is a function of the
record and the id.

Main definitions:

* `ComputedFields.BodyM.Settled` — a computation with its answer, whatever has been read before;
* `ComputedFields.BodyContext.read`, `ComputedFields.BodyContext.sqlOn`,
  `ComputedFields.BodyContext.fieldOn` — a field on a record;
* `ComputedFields.Condition.sqlBy`, `ComputedFields.Filter.sqlBy` — the SQL of a filter, given a reading
  for each side.

Main results:

* `ComputedFields.BodyContext.value_settled` — a field has one reading on a record;
* `ComputedFields.Filter.compile_eq_sqlBy` — a filter is compiled by the readings that its entries hold;
* `ComputedFields.BodyContext.filterSql_eq_ok_iff` — **the sides of a filter**.
-/

import ComputedFields.Proofs.ReadCoverage

set_option relaxedAutoImplicit false
set_option autoImplicit false

namespace ComputedFields

/-! ### Computations that only read -/

namespace BodyM

variable {α β : Type} {x : BodyM α} {f : α → BodyM β}

/-- The computation ends in the result, whatever has been read before. -/
def Settled (x : BodyM α) (r : Except CompileError α) : Prop := ∀ reads, (x.answer reads).1 = r

theorem settled_pure (a : α) : (pure a : BodyM α).Settled (.ok a) := fun _ => rfl

theorem settled_throw (e : CompileError) : (throw e : BodyM α).Settled (.error e) := fun _ => rfl

theorem Settled.bind {a : α} {r : Except CompileError β} (hx : x.Settled (.ok a))
    (hf : (f a).Settled r) : (x >>= f).Settled r := by
  intro reads
  have hfirst : (x.run reads).1 = .ok a := hx reads
  unfold answer
  rw [run_bind]
  rcases hanswer : x.run reads with ⟨result, after⟩
  rw [hanswer] at hfirst
  cases hfirst
  exact hf after

theorem Settled.bind_error {e : CompileError} (hx : x.Settled (.error e)) :
    (x >>= f).Settled (.error e) := by
  intro reads
  have hfirst : (x.run reads).1 = .error e := hx reads
  unfold answer
  rw [run_bind]
  rcases hanswer : x.run reads with ⟨result, after⟩
  rw [hanswer] at hfirst
  cases hfirst
  rfl

/-- One computation after another is settled when each is, whatever the first one gives. -/
theorem exists_settled_bind (hx : ∃ r, x.Settled r) (hf : ∀ a, ∃ r, (f a).Settled r) :
    ∃ r, (x >>= f).Settled r := by
  obtain ⟨r, hr⟩ := hx
  cases r with
  | error e => exact ⟨.error e, hr.bind_error⟩
  | ok a =>
      obtain ⟨r, hf⟩ := hf a
      exact ⟨r, hr.bind hf⟩

end BodyM

/-! ### Readings -/

namespace BodyContext

variable {ctx : BodyContext} {row foreign host : Row} {id : String} {filter : Filter}

theorem nested_settled (row : Row) (field : Field) :
    (ctx.nested row field).Settled
      (.ok ((ctx.cteOf? row.table field).map fun name => row.fromCte name field)) :=
  fun _ => rfl

theorem exists_selectCarried_settled (row : Row) (scope : Scope) (fields : List Field) :
    ∃ r, (ctx.selectCarried row scope fields).Settled r := by
  induction fields generalizing scope with
  | nil => exact ⟨_, BodyM.settled_pure scope⟩
  | cons leaf rest ih =>
      unfold selectCarried
      split
      · exact BodyM.exists_settled_bind ⟨_, nested_settled row leaf⟩ fun sql => ih _
      · exact ih scope

theorem exists_formulaValue_settled (row : Row) (field : Field) :
    ∃ r, (ctx.formulaValue row field).Settled r := by
  refine BodyM.exists_settled_bind (exists_selectCarried_settled row _ _) fun scope => ?_
  dsimp only
  split
  · exact ⟨_, BodyM.settled_pure _⟩
  · exact ⟨_, BodyM.settled_pure _⟩
  · exact ⟨_, BodyM.settled_throw _⟩

/-- A field of a record: its SQL, if it exists there, or the error of its formula. -/
def read (ctx : BodyContext) (row : Row) (id : String) :
    Except CompileError (Option (String × Field)) :=
  ((ctx.value row id).answer []).1

/-- Reading the field does not fail. -/
def Readable (ctx : BodyContext) (row : Row) (id : String) : Prop := ∃ v, ctx.read row id = .ok v

/-- What is found of a field on a record. -/
def found (ctx : BodyContext) (row : Row) (id : String) : Option (String × Field) :=
  match ctx.read row id with
  | .ok v => v
  | .error _ => none

/-- The SQL of a field on a record; one that is not there is missing. -/
def sqlOn (ctx : BodyContext) (row : Row) (id : String) : String :=
  ((ctx.found row id).map Prod.fst).getD "NULL"

/-- The field that is found on a record. -/
def fieldOn (ctx : BodyContext) (row : Row) (id : String) : Option Field :=
  (ctx.found row id).map Prod.snd

/-- **A field has one reading on a record**, whatever has been read before. -/
theorem value_settled (row : Row) (id : String) :
    (ctx.value row id).Settled (ctx.read row id) := by
  suffices h : ∃ r, (ctx.value row id).Settled r by
    obtain ⟨r, hr⟩ := h
    exact fun reads => (hr reads).trans (hr []).symm
  unfold value
  cases row.table.field? id with
  | none => exact ⟨_, BodyM.settled_pure none⟩
  | some field =>
      dsimp only
      split
      · exact ⟨_, BodyM.settled_pure _⟩
      · exact ⟨_, BodyM.settled_pure _⟩
      · exact BodyM.exists_settled_bind (exists_formulaValue_settled row field) fun sql =>
          ⟨_, BodyM.settled_pure _⟩
      · exact BodyM.exists_settled_bind ⟨_, nested_settled row field⟩ fun sql =>
          ⟨_, BodyM.settled_pure _⟩

theorem Readable.read_eq (h : ctx.Readable row id) : ctx.read row id = .ok (ctx.found row id) := by
  obtain ⟨v, hv⟩ := h
  rw [found, hv]

theorem read_of_found {v : String × Field} (h : ctx.found row id = some v) :
    ctx.read row id = .ok (some v) := by
  unfold found at h
  split at h
  · next hread => rw [hread, h]
  · cases h

/-- What is found under an id is the field of that id. -/
theorem value_meets_field? (ctx : BodyContext) (row : Row) (id : String) :
    (ctx.value row id).Meets (fun _ => True) fun v => ∀ p ∈ v, row.table.field? id = some p.2 := by
  unfold value
  cases hfield : row.table.field? id with
  | none => exact BodyM.meets_pure (by simp)
  | some field =>
      dsimp only
      split
      · exact BodyM.meets_pure (by simp)
      · exact BodyM.meets_pure (by simp)
      · refine (formulaValue_meets.mono (fun _ _ => trivial) fun _ h => h).bind fun sql _ => ?_
        exact BodyM.meets_pure (by simp)
      · refine (nested_meets trivial).bind fun sql _ => BodyM.meets_pure ?_
        simp

theorem id_of_fieldOn {field : Field} (h : ctx.fieldOn row id = some field) : field.id = id := by
  obtain ⟨v, hv, rfl⟩ := Option.map_eq_some_iff.1 h
  obtain ⟨-, -, -, hfield⟩ := ctx.value_meets_field? row id []
  exact row.table.id_of_field? (hfield _ (read_of_found hv) v rfl)

theorem values_settled {ids : List String} (h : ∀ id ∈ ids, ctx.Readable row id) :
    (ctx.values row ids).Settled (.ok (ids.map fun id => (id, ctx.found row id))) := by
  induction ids with
  | nil => exact BodyM.settled_pure []
  | cons id rest ih =>
      rw [List.forall_mem_cons] at h
      have hfirst : (ctx.value row id).Settled (ctx.read row id) := value_settled row id
      rw [h.1.read_eq] at hfirst
      exact hfirst.bind ((ih h.2).bind (BodyM.settled_pure _))

theorem values_settled_error {ids : List String} (h : ¬ ∀ id ∈ ids, ctx.Readable row id) :
    ∃ e, (ctx.values row ids).Settled (.error e) := by
  induction ids with
  | nil => exact absurd (fun id hid => absurd hid List.not_mem_nil) h
  | cons id rest ih =>
      have hfirst : (ctx.value row id).Settled (ctx.read row id) := value_settled row id
      cases hread : ctx.read row id with
      | error e =>
          rw [hread] at hfirst
          exact ⟨e, hfirst.bind_error⟩
      | ok v =>
          rw [hread] at hfirst
          have hrest : ¬ ∀ id ∈ rest, ctx.Readable row id := fun hrest =>
            h (List.forall_mem_cons.2 ⟨⟨v, hread⟩, hrest⟩)
          obtain ⟨e, he⟩ := ih hrest
          exact ⟨e, hfirst.bind he.bind_error⟩

end BodyContext

/-! ### Filters with a reading for each side -/

/-- The SQL of what a condition compares with, given the SQL of fields; nothing for null. -/
def Operand.sqlBy (right : String → String) : Operand → Option String
  | .literal .null | .absent => none
  | .literal value => some value.toSql
  | .field id => some (right id)

/-- What stands on the left of a comparison: the value of the field, and of a link the title. -/
def Dialect.compared (d : Dialect) (field : Option Field) (value : String) : String :=
  if field.any fun f => f.kind.isLink then d.linkTitle value (field.any Field.multi) else value

/-- The SQL of a condition, given the fields and their SQL on the left, and the SQL of fields on the
right. -/
def Condition.sqlBy (d : Dialect) (field : String → Option Field) (left right : String → String)
    (c : Condition) : String :=
  c.sql d ((field c.field).any fun f => f.kind.isLink) (left c.field)
    (d.compared (field c.field) (left c.field)) (c.operand.sqlBy right)

namespace Filter

mutual

/-- The SQL of a filter, given the fields and their SQL on the left, and the SQL of fields on the right.
-/
def sqlBy (d : Dialect) (field : String → Option Field) (left right : String → String) :
    Filter → String
  | .condition c => c.sqlBy d field left right
  | .all children => joined "AND" (sqlsBy d field left right children)
  | .any children => joined "OR" (sqlsBy d field left right children)

/-- The SQL of filters. -/
def sqlsBy (d : Dialect) (field : String → Option Field) (left right : String → String) :
    List Filter → List String
  | [] => []
  | f :: rest => f.sqlBy d field left right :: sqlsBy d field left right rest

end

end Filter

/-- The entries hold the readings that the condition needs. -/
structure Condition.ReadsFrom (fields : List Field) (values : Entries String)
    (field : String → Option Field) (left right : String → String) (c : Condition) : Prop where
  left_eq : values.get? c.field = some (left c.field)
  right_eq : ∀ id ∈ c.valueField?, values.get? id = some (right id)
  field_eq : Keyed.get? Field.id c.field fields = field c.field

section

variable {d : Dialect} {fields : List Field} {values : Entries String}
  {field : String → Option Field} {left right : String → String}

theorem Condition.compile_eq_sqlBy {c : Condition} (h : c.ReadsFrom fields values field left right) :
    c.compile d fields values = .ok (c.sqlBy d field left right) := by
  have hright : c.operand.compile values = .ok (c.operand.sqlBy right) := by
    have hvalue := h.right_eq
    unfold Condition.valueField? at hvalue
    cases hoperand : c.operand with
    | absent => rfl
    | literal value => cases value <;> rfl
    | field id =>
        rw [hoperand] at hvalue
        simp only [Operand.compile, fieldSql, hvalue id rfl]
        rfl
  unfold Condition.compile
  simp only [fieldSql, h.left_eq, h.field_eq, hright]
  rfl

namespace Filter

mutual

/-- **A filter is compiled by the readings that its entries hold.** -/
theorem compile_eq_sqlBy : ∀ {f : Filter},
    (∀ c ∈ f.conditions, c.ReadsFrom fields values field left right) →
      f.compile d fields values = .ok (f.sqlBy d field left right)
  | .condition c, h => by
      rw [compile, sqlBy]
      exact Condition.compile_eq_sqlBy (h c (by simp [conditions]))
  | .all children, h => by
      rw [compile, sqlBy, compileAll_eq_sqlsBy h]
      rfl
  | .any children, h => by
      rw [compile, sqlBy, compileAll_eq_sqlsBy h]
      rfl

theorem compileAll_eq_sqlsBy : ∀ {fs : List Filter},
    (∀ c ∈ conditionsOfAll fs, c.ReadsFrom fields values field left right) →
      compileAll d fields values fs = .ok (sqlsBy d field left right fs)
  | [], _ => rfl
  | f :: rest, h => by
      rw [conditionsOfAll, List.forall_mem_append] at h
      rw [compileAll, sqlsBy, compile_eq_sqlBy h.1, compileAll_eq_sqlsBy h.2]
      rfl

end

end Filter

end

/-! ### The sides of a filter -/

/-- What is entered of several fields: each of them has its value. -/
theorem Entries.get?_foldl_insert {α : Type} (value : String → α) (ids : List String)
    (entries : Entries α) (id : String) :
    (ids.foldl (fun entries id => entries.insert id (value id)) entries).get? id =
      if id ∈ ids then some (value id) else entries.get? id := by
  induction ids generalizing entries with
  | nil => simp
  | cons first rest ih =>
      rw [List.foldl_cons, ih]
      by_cases hrest : id ∈ rest
      · simp [hrest]
      · by_cases hid : id = first
        · subst hid
          simp [hrest]
        · simp [hrest, hid, Entries.get?_insert_of_ne entries _ (Ne.symm hid)]

namespace BodyContext

variable {ctx : BodyContext} {row foreign host : Row} {id : String} {filter : Filter}

/-- A field that is read with others is found among them. -/
theorem get?_filterMap_fieldOn {ids : List String} (hid : id ∈ ids) :
    Keyed.get? Field.id id (ids.filterMap (ctx.fieldOn row)) = ctx.fieldOn row id := by
  -- fields that are read twice are found at the first place, where they are the same
  have hall : ∀ ids : List String, Keyed.get? Field.id id (ids.filterMap (ctx.fieldOn row)) =
      if id ∈ ids then ctx.fieldOn row id else none := by
    intro ids
    induction ids with
    | nil => rfl
    | cons first rest ih =>
        cases hfirst : ctx.fieldOn row first with
        | none =>
            rw [List.filterMap_cons_none hfirst, ih]
            by_cases heq : id = first
            · subst heq
              simp [hfirst]
            · simp [heq]
        | some field =>
            rw [List.filterMap_cons_some hfirst, Keyed.get?, id_of_fieldOn hfirst, ih]
            by_cases heq : id = first
            · subst heq
              simp [hfirst]
            · simp [heq, Ne.symm heq]
  rw [hall, if_pos hid]

/-- The left side of a filter as it is compiled.  Fields that the filter compares with anywhere are read
on the host record. -/
def leftSql (ctx : BodyContext) (foreign host : Row) (filter : Filter) (id : String) : String :=
  if id ∈ filter.valueFieldIds then ctx.sqlOn host id else ctx.sqlOn foreign id

/-- The entries that a filter is compiled with.  What is read on the host record is entered last, and takes
the place of what is read on the foreign one. -/
def filterEntries (ctx : BodyContext) (foreign host : Row) (filter : Filter) : Entries String :=
  filter.valueFieldIds.foldl (fun entries id => entries.insert id (ctx.sqlOn host id))
    (filter.fieldIds.foldl (fun entries id => entries.insert id (ctx.sqlOn foreign id)) [])

theorem readsFrom_filterEntries {c : Condition} (hc : c ∈ filter.conditions) :
    c.ReadsFrom (filter.fieldIds.filterMap (ctx.fieldOn foreign))
      (ctx.filterEntries foreign host filter) (ctx.fieldOn foreign)
      (ctx.leftSql foreign host filter) (ctx.sqlOn host) := by
  have hfield : c.field ∈ filter.fieldIds := by simpa [Filter.fieldIds] using ⟨c, hc, rfl⟩
  refine ⟨?_, ?_, get?_filterMap_fieldOn hfield⟩
  · rw [filterEntries, Entries.get?_foldl_insert, Entries.get?_foldl_insert, if_pos hfield, leftSql]
    split <;> rfl
  · intro id hid
    have hvalue : id ∈ filter.valueFieldIds := by simpa [Filter.valueFieldIds] using ⟨c, hc, hid⟩
    rw [filterEntries, Entries.get?_foldl_insert, if_pos hvalue]

theorem filterSql_settled (hleft : ∀ id ∈ filter.fieldIds, ctx.Readable foreign id)
    (hright : ∀ id ∈ filter.valueFieldIds, ctx.Readable host id) :
    (ctx.filterSql foreign host filter).Settled
      (.ok (filter.sqlBy ctx.filterDialect (ctx.fieldOn foreign) (ctx.leftSql foreign host filter)
        (ctx.sqlOn host))) := by
  have hentries : ((filter.fieldIds.map fun id => (id, ctx.found foreign id)) ++
      filter.valueFieldIds.map fun id => (id, ctx.found host id)).foldl (fun entries v =>
        Entries.insert entries v.1 ((v.2.map Prod.fst).getD "NULL")) [] =
      ctx.filterEntries foreign host filter := by
    rw [List.foldl_append, List.foldl_map, List.foldl_map]
    rfl
  have hfields : ((filter.fieldIds.map fun id => (id, ctx.found foreign id)).filterMap fun v =>
      v.2.map Prod.snd) = filter.fieldIds.filterMap (ctx.fieldOn foreign) := by
    rw [List.filterMap_map]
    rfl
  refine (values_settled hleft).bind ((values_settled hright).bind ?_)
  dsimp only
  rw [hentries, hfields, Filter.compile_eq_sqlBy fun c hc => readsFrom_filterEntries hc]
  exact BodyM.settled_pure _

/-- **The sides of a filter.**  A filter has SQL exactly when its fields can be read on the foreign record
and those it compares with on the host record.  Then every condition compares the field of the foreign
record with the field of the host record, but a field that the filter compares with anywhere stands on the
left with its value on the host record too. -/
theorem filterSql_eq_ok_iff (ctx : BodyContext) (foreign host : Row) (filter : Filter)
    (reads : List NestedRead) (sql : String) :
    ((ctx.filterSql foreign host filter).answer reads).1 = .ok sql ↔
      (∀ id ∈ filter.fieldIds, ctx.Readable foreign id) ∧
      (∀ id ∈ filter.valueFieldIds, ctx.Readable host id) ∧
      sql = filter.sqlBy ctx.filterDialect (ctx.fieldOn foreign) (ctx.leftSql foreign host filter)
        (ctx.sqlOn host) := by
  by_cases hleft : ∀ id ∈ filter.fieldIds, ctx.Readable foreign id
  · by_cases hright : ∀ id ∈ filter.valueFieldIds, ctx.Readable host id
    · rw [filterSql_settled hleft hright reads]
      constructor
      · intro h
        cases h
        exact ⟨hleft, hright, rfl⟩
      · rintro ⟨-, -, rfl⟩
        rfl
    · obtain ⟨e, he⟩ := values_settled_error hright
      have hfails : (ctx.filterSql foreign host filter).Settled (.error e) :=
        (values_settled hleft).bind he.bind_error
      rw [hfails reads]
      constructor
      · intro h
        cases h
      · rintro ⟨-, h, -⟩
        exact absurd h hright
  · obtain ⟨e, he⟩ := values_settled_error hleft
    have hfails : (ctx.filterSql foreign host filter).Settled (.error e) := he.bind_error
    rw [hfails reads]
    constructor
    · intro h
      cases h
    · rintro ⟨h, -⟩
      exact absurd h hleft

end BodyContext

namespace Sample

/-- People, who are foreign and host records at once. -/
def elders : Table :=
  .ofFields "p" "people" [.single "a" "age" .number .column, .single "n" "name" .string .column]

def elderContext : BodyContext :=
  { catalog := .ofTables [elders], options := { now := ⟨0⟩ }, filterDialect := .postgres }

/-- The filter asks for people who are older than the host. -/
def older : Filter := .condition ⟨"a", .isGreater, .field "a"⟩

end Sample

/-- The age of the host is compared with itself, where the two sides would be different columns. -/
theorem BodyContext.filterSql_older :
    ((Sample.elderContext.filterSql ⟨.foreign, Sample.elders⟩ ⟨.host, Sample.elders⟩
      Sample.older).answer []).1 = .ok "(\"m\".\"age\" > \"m\".\"age\")" ∧
    Sample.older.sqlBy .postgres (Sample.elderContext.fieldOn ⟨.foreign, Sample.elders⟩)
      (Sample.elderContext.sqlOn ⟨.foreign, Sample.elders⟩)
      (Sample.elderContext.sqlOn ⟨.host, Sample.elders⟩) =
        "(\"f\".\"age\" > \"m\".\"age\")" := by
  constructor
  · rfl
  · rfl

end ComputedFields
