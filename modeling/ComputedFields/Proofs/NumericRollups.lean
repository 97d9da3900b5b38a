/-
**What numeric rollups read.**

A sum, an average or a count is about numbers.  Where the target of such a rollup holds something else, a
rollup over many records reads of each value what looks like a number.  The rows may be grouped, or read in a
subquery where the database cannot order inside an aggregate: both do so.  A rollup over at most one record
has nothing to aggregate and takes the value of that record as it is, also where it is no number.

A body is built field by field, and the columns of its text stand in the order of the fields that it carries.
So what a rollup reads is said of the column at its place.

Main definitions:

* `ComputedFields.Link.memberColumn` — the column of a lookup or rollup of a link;
* `ComputedFields.Link.rollupColumn` — the column of a rollup that reads a given value;
* `ComputedFields.BodyContext.Rolls` — a member with what its field reads.

Main results:

* `ComputedFields.Link.exists_body_columns` — the columns of the body of a link;
* `ComputedFields.Link.memberColumn_numeric` — what a numeric rollup reads;
* `ComputedFields.BodyContext.linkBody_numericRollup` — **over many records a numeric rollup reads numbers,
  over at most one the value as it is**.
-/

import ComputedFields.Proofs.DanglingReferences
import ComputedFields.Proofs.FilterSides

set_option relaxedAutoImplicit false
set_option autoImplicit false

namespace ComputedFields

open Sql

/-! ### Columns of a link -/

namespace Link

/-- The column of a member, in the form that the link and the database ask for. -/
def memberColumn (link : Link) (d : Dialect) (foreign : Table) (joins : String) : Member → String :=
  if !link.relationship.isMulti then Member.single d
  else if d.ordersAggregates then Member.grouped d link.order
  else
    Member.correlated d
      (linkedRows ((link.correlated foreign).1 ++ joins) (link.correlated foreign).2 link.order)

/-- **The columns of a body**: one for the link itself, and then one for each member. -/
theorem exists_body_columns (link : Link) (d : Dialect) (host foreign : Table) (joins object : String)
    (members : List Member) (fields : List Field) :
    ∃ first tail, link.body d host foreign joins object members fields =
      bodyHead host (first :: members.map (Member.column d (link.memberColumn d foreign joins))) fields ++
        tail := by
  unfold body memberColumn
  split
  · exact ⟨_, link.hostJoins foreign ++ joins, String.append_assoc ..⟩
  · split
    · refine ⟨d.jsonAggregate object (some link.order) (some (foreignId ++ " IS NOT NULL")),
        link.hostJoins foreign ++ (joins ++ (" GROUP BY " ++ hostId)), ?_⟩
      simp only [String.append_assoc]
    · exact ⟨_, "", String.append_empty.symm⟩

/-- The column of a rollup that reads the given value of each record, where the target is no array. -/
def rollupColumn (link : Link) (d : Dialect) (foreign : Table) (joins : String) (f : RollupFunction)
    (field target : Field) (filter : Option String) (value : String) : String :=
  if !link.relationship.isMulti then
    { value, rowId := foreignId, filter : Aggregate }.overOne d f
  else if d.ordersAggregates then
    let input : Aggregate := { value, rowId := foreignId, order := some link.order, filter }
    f.orIdentity d (input.overRows d f) field.storage
  else
    let rows := linkedRows ((link.correlated foreign).1 ++ joins) (link.correlated foreign).2 link.order
      value filter
    let input : Aggregate :=
      { value := rows.outerValue d (target.storage = .json), rowId := qualified Alias.rows "r" }
    rows.subquery (f.orIdentity d (input.overRows d f) field.storage)

/-- **What a numeric rollup reads** of a value that is no number: over many records what looks like a
number, over at most one the value as it is. -/
theorem memberColumn_numeric {link : Link} {d : Dialect} {foreign : Table} {joins : String} {m : Member}
    {f : RollupFunction} {target : Field} (hrollup : m.rollup = some f) (hnumeric : f.isNumeric = true)
    (htarget : m.target = some target) (hmulti : target.multi = false) (hvalue : target.value ≠ .number) :
    Member.column d (link.memberColumn d foreign joins) m =
      link.rollupColumn d foreign joins f m.field target m.filter
        (if link.relationship.isMulti then d.coerceNumeric m.value else m.value) := by
  have hinput : f.input d m.target m.value = d.coerceNumeric m.value := by
    simp [RollupFunction.input, hnumeric, htarget, hmulti, hvalue]
  have hmany : m.targetMulti = false := by simp [Member.targetMulti, htarget, hmulti]
  have hjson : m.targetJson = decide (target.storage = .json) := by simp [Member.targetJson, htarget]
  have hsome : ¬ m.target.isNone = true := by simp [htarget]
  unfold Member.column memberColumn rollupColumn
  rw [if_neg hsome]
  cases hrelationship : link.relationship.isMulti with
  | false => simp [Member.single, hrollup, hmany]
  | true =>
      cases d.ordersAggregates with
      | true => simp [Member.grouped, hrollup, hmany, hinput]
      | false => simp [Member.correlated, hrollup, hmany, hjson, hinput]

end Link

/-! ### Members -/

namespace BodyM

variable {α : Type} {P : NestedRead → Prop} {Q : α → Prop} {x : BodyM α}

/-- A settled computation returns what it is settled to. -/
theorem Meets.settled {r : Except CompileError α} (h : x.Meets P Q) (hsettled : x.Settled r) :
    x.Meets (fun _ => True) fun a => x.Settled (.ok a) := by
  intro reads
  obtain ⟨more, hmore, -, -⟩ := h reads
  refine ⟨more, hmore, fun _ _ => trivial, fun a ha => ?_⟩
  obtain rfl : r = .ok a := (hsettled reads).symm.trans ha
  exact hsettled

end BodyM

namespace BodyContext

variable {ctx : BodyContext} {row other : Row}

theorem exists_values_settled (row : Row) (ids : List String) : ∃ r, (ctx.values row ids).Settled r := by
  by_cases h : ∀ id ∈ ids, ctx.Readable row id
  · exact ⟨_, values_settled h⟩
  · obtain ⟨e, he⟩ := values_settled_error h
    exact ⟨_, he⟩

theorem exists_filterSql?_settled (filter : Option Filter) :
    ∃ r, (ctx.filterSql? row other filter).Settled r := by
  cases filter with
  | none => exact ⟨_, BodyM.settled_pure none⟩
  | some filter =>
      refine BodyM.exists_settled_bind ?_ fun sql => ⟨_, BodyM.settled_pure _⟩
      refine BodyM.exists_settled_bind (exists_values_settled row _) fun left =>
        BodyM.exists_settled_bind (exists_values_settled other _) fun right => ?_
      dsimp only
      split
      · exact ⟨_, BodyM.settled_pure _⟩
      · exact ⟨_, BodyM.settled_throw _⟩

theorem value_meets_found (row : Row) (id : String) :
    (ctx.value row id).Meets (fun _ => True) fun v => v = ctx.found row id := by
  refine ((value_meets row id).settled (value_settled row id)).mono (fun _ _ => trivial) fun v hv => ?_
  have hread : ctx.read row id = .ok v := hv []
  rw [found, hread]

theorem filterSql?_meets_settled (row other : Row) (filter : Option Filter) :
    (ctx.filterSql? row other filter).Meets (fun _ => True) fun sql =>
      (ctx.filterSql? row other filter).Settled (.ok sql) := by
  obtain ⟨r, hr⟩ : ∃ r, (ctx.filterSql? row other filter).Settled r := exists_filterSql?_settled filter
  have hmeets : (ctx.filterSql? row other filter).Meets (fun _ => True) fun _ => True :=
    filterSql?_meets (fun _ _ _ _ _ _ => trivial) fun _ _ _ _ _ _ => trivial
  exact hmeets.settled hr

/-- The member with what is found of its target. -/
def memberWith (ctx : BodyContext) (row : Row) (field : Field) (related : Related)
    (rollup : Option RollupFunction) (filter : Option String) : Member where
  field := field
  value := ((ctx.found row related.target).map Prod.fst).getD (ctx.dialect.typedNull field.storage)
  target := (ctx.found row related.target).map Prod.snd
  filter := filter
  rollup := rollup

theorem memberOf_meets_with (row : Row) (field : Field) (related : Related)
    (rollup : Option RollupFunction) :
    (ctx.memberOf row field related rollup).Meets (fun _ => True) fun m =>
      ∃ filter, (ctx.filterSql? row row related.filter).Settled (.ok filter) ∧
        m = ctx.memberWith row field related rollup filter := by
  refine (value_meets_found row related.target).bind fun read hread => ?_
  refine (filterSql?_meets_settled row row related.filter).bind fun filter hfilter => ?_
  refine BodyM.meets_pure ⟨filter, hfilter, ?_⟩
  rw [hread]
  rfl

/-- The member is that of the field: a rollup has its function, its target and its filter. -/
def Rolls (ctx : BodyContext) (row : Row) (field : Field) (m : Member) : Prop :=
  ∀ link related expression, field.kind = .rollup link related expression →
    ∃ f filter, RollupFunction.parse expression = .ok f ∧
      (ctx.filterSql? row row related.filter).Settled (.ok filter) ∧
      m = ctx.memberWith row field related (some f) filter

theorem member?_meets_rolls {field : Field} {link : String} (hmember : field.isMemberOf link = true) :
    (ctx.member? row field).Meets (fun _ => True) fun m => ∃ x, m = some x ∧ ctx.Rolls row field x := by
  unfold member?
  unfold Field.isMemberOf at hmember
  split
  · next hkind =>
      refine (memberOf_meets_with row field _ none).bind fun m _ => BodyM.meets_pure ⟨m, rfl, ?_⟩
      intro l related expression hrollup
      cases hkind.symm.trans hrollup
  · next hkind =>
      split
      · exact BodyM.meets_throw _
      · next f hparse =>
          refine (memberOf_meets_with row field _ (some f)).bind fun m hm =>
            BodyM.meets_pure ⟨m, rfl, ?_⟩
          obtain ⟨filter, hfilter, hm⟩ := hm
          intro l related expression hrollup
          cases hkind.symm.trans hrollup
          exact ⟨f, filter, hparse, hfilter, hm⟩
  · next hlookup hrollup =>
      split at hmember
      · next hkind => exact absurd hkind (hlookup _ _)
      · next hkind => exact absurd hkind (hrollup _ _ _)
      · cases hmember

/-- **Each field makes its own member**, in the order of the fields. -/
theorem members_meets_rolls {fields : List Field} {link : String}
    (hmembers : ∀ field ∈ fields, field.isMemberOf link = true) :
    (ctx.members row fields).Meets (fun _ => True) fun ms => List.Forall₂ (ctx.Rolls row) fields ms := by
  induction fields with
  | nil => exact BodyM.meets_pure .nil
  | cons field rest ih =>
      refine (member?_meets_rolls (hmembers field List.mem_cons_self)).bind fun first hfirst => ?_
      refine (ih fun other hother => hmembers other (List.mem_cons_of_mem _ hother)).bind
        fun others hothers => BodyM.meets_pure ?_
      obtain ⟨m, rfl, hm⟩ := hfirst
      exact .cons hm hothers

/-! ### Bodies of links -/

variable {host foreign : Table} {field : Field} {link : Link} {reads after : List NestedRead} {body : Body}

/-- The body of a link to a table that exists is made from the members of its fields. -/
theorem exists_members_of_linkBody (hkind : field.kind = .link link)
    (hforeign : ctx.catalog.table? link.foreignTable = some foreign)
    (h : (ctx.linkBody host field).answer reads = (.ok body, after)) :
    ∃ object members,
      List.Forall₂ (ctx.Rolls ⟨.foreign, foreign⟩) (host.linkMembers field.id) members ∧
      body.sql = link.body ctx.dialect host foreign (NestedRead.joinClause after) object members
        (field :: host.linkMembers field.id) := by
  unfold BodyM.answer linkBody at h
  simp only [hkind, hforeign] at h
  obtain ⟨title, afterTitle, -, h⟩ := exists_of_run_bind h
  obtain ⟨members, afterMembers, hrun, h⟩ := exists_of_run_bind h
  obtain ⟨_, _, hget, h⟩ := exists_of_run_bind h
  cases hget
  cases h
  have hmember : ∀ f ∈ host.linkMembers field.id, f.isMemberOf field.id = true :=
    fun f hf => (List.mem_filter.1 hf).2
  have hmeets : (ctx.members ⟨.foreign, foreign⟩ (host.linkMembers field.id)).Meets (fun _ => True)
      fun ms => List.Forall₂ (ctx.Rolls ⟨.foreign, foreign⟩) (host.linkMembers field.id) ms :=
    members_meets_rolls hmember
  obtain ⟨-, -, -, hrolls⟩ := hmeets afterTitle
  exact ⟨_, members, hrolls members (congrArg Prod.fst hrun), rfl⟩

/-- **The columns of rollups** in the body of a link to a table that exists.  Each field that the body
carries has a column there, and that of a rollup is made from what the field reads. -/
theorem exists_columns_of_linkBody (hkind : field.kind = .link link)
    (hforeign : ctx.catalog.table? link.foreignTable = some foreign)
    (h : (ctx.linkBody host field).answer reads = (.ok body, after)) :
    ∃ columns tail, body.sql = bodyHead host columns (field :: host.linkMembers field.id) ++ tail ∧
      columns.length = (field :: host.linkMembers field.id).length ∧
      ∀ (i : Nat) rollup through related expression,
        (field :: host.linkMembers field.id)[i]? = some rollup →
        rollup.kind = .rollup through related expression →
        ∃ f filter, RollupFunction.parse expression = .ok f ∧
          (ctx.filterSql? ⟨.foreign, foreign⟩ ⟨.foreign, foreign⟩ related.filter).Settled (.ok filter) ∧
          columns[i]? = some (Member.column ctx.dialect
            (link.memberColumn ctx.dialect foreign (NestedRead.joinClause after))
            (ctx.memberWith ⟨.foreign, foreign⟩ rollup related (some f) filter)) := by
  obtain ⟨object, members, hrolls, hsql⟩ := exists_members_of_linkBody hkind hforeign h
  obtain ⟨first, tail, hcolumns⟩ := link.exists_body_columns ctx.dialect host foreign
    (NestedRead.joinClause after) object members (field :: host.linkMembers field.id)
  refine ⟨_, tail, hsql.trans hcolumns, ?_, ?_⟩
  · simp [hrolls.length_eq]
  intro i rollup through related expression hi hrollup
  cases i with
  | zero =>
      -- the first column is that of the link itself, which is no rollup
      obtain rfl : field = rollup := by simpa using hi
      cases hkind.symm.trans hrollup
  | succ i =>
      obtain ⟨m, hm, hrolled⟩ := exists_getElem?_of_forall₂ hrolls (by simpa using hi)
      obtain ⟨f, filter, hparse, hfilter, rfl⟩ := hrolled through related expression hrollup
      exact ⟨f, filter, hparse, hfilter, by simp [hm]⟩

/-- **What numeric rollups read**, in the body of a link to a table that exists.  The column of a sum, an
average or a count over a target that is no number and no array is made from what looks like a number in the
target if the link leads to many records, and from the target as it is if it leads to at most one. -/
theorem linkBody_numericRollup (hkind : field.kind = .link link)
    (hforeign : ctx.catalog.table? link.foreignTable = some foreign)
    (h : (ctx.linkBody host field).answer reads = (.ok body, after)) :
    ∃ columns tail, body.sql = bodyHead host columns (field :: host.linkMembers field.id) ++ tail ∧
      columns.length = (field :: host.linkMembers field.id).length ∧
      ∀ (i : Nat) rollup through related expression f sql target,
        (field :: host.linkMembers field.id)[i]? = some rollup →
        rollup.kind = .rollup through related expression →
        RollupFunction.parse expression = .ok f → f.isNumeric = true →
        ctx.found ⟨.foreign, foreign⟩ related.target = some (sql, target) →
        target.multi = false → target.value ≠ .number →
        ∃ filter,
          (ctx.filterSql? ⟨.foreign, foreign⟩ ⟨.foreign, foreign⟩ related.filter).Settled (.ok filter) ∧
          columns[i]? = some (link.rollupColumn ctx.dialect foreign (NestedRead.joinClause after) f rollup
            target filter (if link.relationship.isMulti then ctx.dialect.coerceNumeric sql else sql)) := by
  obtain ⟨columns, tail, hsql, hlength, hcolumns⟩ := exists_columns_of_linkBody hkind hforeign h
  refine ⟨columns, tail, hsql, hlength, ?_⟩
  intro i rollup through related expression f sql target hi hrollup hparse hnumeric hfound hmulti hvalue
  obtain ⟨f', filter, hparse', hfilter, hcolumn⟩ :=
    hcolumns i rollup through related expression hi hrollup
  obtain rfl : f' = f := Except.ok.inj (hparse'.symm.trans hparse)
  refine ⟨filter, hfilter, ?_⟩
  have htarget : (ctx.memberWith ⟨.foreign, foreign⟩ rollup related (some f') filter).target =
      some target := by
    simp [memberWith, hfound]
  have hread : (ctx.memberWith ⟨.foreign, foreign⟩ rollup related (some f') filter).value = sql := by
    simp [memberWith, hfound]
  rw [hcolumn, Link.memberColumn_numeric rfl hnumeric htarget hmulti hvalue, hread]
  rfl

end BodyContext

/-! ### Names that are added up -/

namespace Sample

/-- The total of the names of the linked records: a sum over texts. -/
def nameTotal : Field :=
  .single "s" "total" .number (.rollup "k" { foreignTable := "d", target := "n" } "sum(values)")

def kin (relationship : Relationship) : Field :=
  .ofLink "k" "kin" { relationship, foreignTable := "d", titleField := "n", foreignKey := "kin_id" }

def drafts (relationship : Relationship) : Table :=
  .ofFields "d" "drafts" [.single "n" "name" .string .column, kin relationship, nameTotal]

def draftContext (relationship : Relationship) : BodyContext :=
  { catalog := .ofTables [drafts relationship], options := { now := ⟨0⟩ }, filterDialect := .postgres }

theorem parse_sum : RollupFunction.parse "sum(values)" = .ok .sum := by cbv

theorem drafts_plain (relationship : Relationship) : (draftContext relationship).catalog.Plain := by
  have htables : (draftContext relationship).catalog.tables = [drafts relationship] := rfl
  have hfields : (drafts relationship).fields =
      [.single "n" "name" .string .column, kin relationship, nameTotal] := by
    cases relationship <;> rfl
  have htotal : nameTotal.rollup? = .ok (some .sum) := by
    simp [Field.rollup?, nameTotal, Field.single, parse_sum]
  intro table htable
  obtain rfl : table = drafts relationship := by simpa [htables] using htable
  constructor
  · simp [hfields, kin, nameTotal, Field.single, Field.ofLink, FieldKind.isFormula]
  · intro field hfield
    rw [hfields] at hfield
    simp only [List.mem_cons, List.not_mem_nil, or_false] at hfield
    rcases hfield with rfl | rfl | rfl
    · rfl
    · rfl
    · exact congrArg Except.isOk htotal

theorem exists_linkBody_drafts (relationship : Relationship) : ∃ body after,
    ((draftContext relationship).linkBody (drafts relationship) (kin relationship)).answer [] =
      (.ok body, after) := by
  have hplain := drafts_plain relationship
  have hhost : (drafts relationship).Plain := hplain _ List.mem_cons_self
  have hlink : (kin relationship).kind.isLink = true := rfl
  obtain ⟨body, after, hrun, -⟩ := BodyContext.linkBody_returns hplain hhost hlink []
  exact ⟨body, after, hrun⟩

end Sample

namespace BodyContext

/-- The names of many records are read as numbers. -/
theorem linkBody_numericRollup_oneToMany :
    ∃ body after columns tail,
      ((Sample.draftContext .oneToMany).linkBody (Sample.drafts .oneToMany) (Sample.kin .oneToMany)).answer
        [] = (.ok body, after) ∧
      body.sql = bodyHead (Sample.drafts .oneToMany) columns [Sample.kin .oneToMany, Sample.nameTotal] ++
        tail ∧
      columns[1]? = some ("COALESCE(SUM(" ++ Dialect.postgres.coerceNumeric "\"f\".\"name\"" ++
        "), 0)") := by
  obtain ⟨body, after, hbody⟩ := Sample.exists_linkBody_drafts .oneToMany
  have hforeign : (Sample.draftContext .oneToMany).catalog.table? "d" = some (Sample.drafts .oneToMany) :=
    rfl
  have hfound : (Sample.draftContext .oneToMany).found ⟨.foreign, Sample.drafts .oneToMany⟩ "n" =
      some ("\"f\".\"name\"", .single "n" "name" .string .column) := rfl
  obtain ⟨columns, tail, hsql, -, hcolumns⟩ := linkBody_numericRollup rfl hforeign hbody
  obtain ⟨filter, hfilter, hcolumn⟩ := hcolumns 1 Sample.nameTotal _ _ _ _ _ _ rfl rfl Sample.parse_sum rfl
    hfound rfl (by decide)
  obtain rfl : none = filter := Except.ok.inj (hfilter [])
  exact ⟨body, after, columns, tail, hbody, hsql, hcolumn⟩

/-- The name of one record is read as it is. -/
theorem linkBody_manyToOne_rawSum :
    ∃ body after columns tail,
      ((Sample.draftContext .manyToOne).linkBody (Sample.drafts .manyToOne) (Sample.kin .manyToOne)).answer
        [] = (.ok body, after) ∧
      body.sql = bodyHead (Sample.drafts .manyToOne) columns [Sample.kin .manyToOne, Sample.nameTotal] ++
        tail ∧
      columns[1]? = some "COALESCE(\"f\".\"name\", 0)" := by
  obtain ⟨body, after, hbody⟩ := Sample.exists_linkBody_drafts .manyToOne
  have hforeign : (Sample.draftContext .manyToOne).catalog.table? "d" = some (Sample.drafts .manyToOne) :=
    rfl
  obtain ⟨columns, tail, hsql, -, hcolumns⟩ := exists_columns_of_linkBody rfl hforeign hbody
  obtain ⟨f, filter, hparse, hfilter, hcolumn⟩ := hcolumns 1 Sample.nameTotal _ _ _ rfl rfl
  obtain rfl : .sum = f := Except.ok.inj (Sample.parse_sum.symm.trans hparse)
  obtain rfl : none = filter := Except.ok.inj (hfilter [])
  exact ⟨body, after, columns, tail, hbody, hsql, hcolumn⟩

end BodyContext

end ComputedFields
