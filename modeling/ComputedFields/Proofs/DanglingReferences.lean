/-
**What becomes of a query when references lead nowhere.**

A field names other things by their ids: a link its foreign table and the field that gives the titles, a
lookup its link and its target, a filter and an order the fields they look at.  Nothing keeps these ids
from being wrong.  A body in which something is missing reads a missing value there, and a unit whose
table or field does not exist is left out, so that in a catalog without formulas hardly anything can go
wrong while a query is built.

One thing can.  A lookup or rollup without an order and a limit belongs to the unit of its link, and
this unit is named after the link only by the id.  If there is a field with this id and it is no link,
then the unit exists, and it cannot be built.  A field with an order or a limit has a unit to itself and does
without such a link.

Computations are followed by `ComputedFields.BodyM.Returns`: they give a result, whatever has been read
before, and it has some property.  The run over the units of a plan then fails only where a body does,
since no field is ever registered twice.

Main definitions:

* `ComputedFields.Table.Plain`, `ComputedFields.Catalog.Plain` — no formulas, and rollups of known
  functions;
* `ComputedFields.BodyM.Returns` — a computation that does not fail;
* `ComputedFields.Catalog.misdirects` — a unit of a link that is named after another field.

Main results:

* `ComputedFields.BodyContext.filterSql_returns` — a filter compiles, whichever of its fields exist;
* `ComputedFields.CteUnit.body?_answer` — what the body of a unit can fail with;
* `ComputedFields.BuildContext.addUnits_answer` — the same for a run;
* `ComputedFields.BuildContext.record_ok_unless_misdirected` — **dangling references do not fail a
  query, except for a link that is none**.
-/

import ComputedFields.Proofs.QueryClosure
import ComputedFields.Proofs.Registration

set_option relaxedAutoImplicit false
set_option autoImplicit false

namespace ComputedFields

open Sql

/-! ### Computations that do not fail -/

namespace BodyM

variable {α β : Type} {Q : α → Prop}

/-- The computation gives a result with the property, whatever has been read before. -/
def Returns (Q : α → Prop) (x : BodyM α) : Prop :=
  ∀ reads, ∃ a after, x.run reads = (.ok a, after) ∧ Q a

theorem returns_pure {a : α} (h : Q a) : (pure a : BodyM α).Returns Q :=
  fun reads => ⟨a, reads, rfl, h⟩

theorem returns_get : (get : BodyM (List NestedRead)).Returns fun _ => True :=
  fun reads => ⟨reads, reads, rfl, trivial⟩

/-- One computation after the other. -/
theorem Returns.bind {R : β → Prop} {x : BodyM α} {f : α → BodyM β} (hx : x.Returns Q)
    (hf : ∀ a, Q a → (f a).Returns R) : (x >>= f).Returns R := by
  intro reads
  obtain ⟨a, mid, hfirst, ha⟩ := hx reads
  obtain ⟨b, after, hsecond, hb⟩ := hf a ha mid
  refine ⟨b, after, ?_, hb⟩
  rw [run_bind, hfirst]
  exact hsecond

end BodyM

/-! ### Plain catalogs -/

/-- No field of the table is a formula, and its rollups are of known functions. -/
structure Table.Plain (table : Table) : Prop where
  formula : ∀ field ∈ table.fields, field.kind.isFormula = false
  rollup : ∀ field ∈ table.fields, field.rollup?.isOk = true

instance (table : Table) : Decidable table.Plain :=
  decidable_of_iff ((∀ field ∈ table.fields, field.kind.isFormula = false) ∧
      ∀ field ∈ table.fields, field.rollup?.isOk = true)
    ⟨fun h => ⟨h.1, h.2⟩, fun h => ⟨h.formula, h.rollup⟩⟩

theorem Table.Plain.exists_rollup {table : Table} (h : table.Plain) {field : Field}
    (hfield : field ∈ table.fields) : ∃ f, field.rollup? = .ok f := by
  have hok := h.rollup field hfield
  cases hrollup : field.rollup? with
  | ok f => exact ⟨f, rfl⟩
  | error e =>
      rw [hrollup] at hok
      cases hok

/-- All tables of the catalog are plain. -/
def Catalog.Plain (catalog : Catalog) : Prop := ∀ table ∈ catalog.tables, table.Plain

instance (catalog : Catalog) : Decidable catalog.Plain :=
  inferInstanceAs (Decidable (∀ table ∈ catalog.tables, table.Plain))

/-! ### Filters -/

/-- Values that are entered one after the other are all there. -/
theorem isSome_get?_filterValues {reads : List (String × Option (String × Field))}
    {entries : Entries String} {id : String}
    (h : id ∈ reads.map Prod.fst ∨ (entries.get? id).isSome = true) :
    ((reads.foldl (fun entries v =>
      Entries.insert entries v.1 ((v.2.map Prod.fst).getD "NULL")) entries).get? id).isSome = true := by
  induction reads generalizing entries with
  | nil => simpa using h
  | cons read rest ih =>
      refine ih ?_
      by_cases hid : read.1 = id
      · subst hid
        exact Or.inr (by rw [Entries.get?_insert_self]; rfl)
      · rw [Entries.get?_insert_of_ne _ _ hid]
        refine h.imp_left fun hmem => ?_
        exact (List.mem_cons.1 hmem).resolve_left (Ne.symm hid)

/-! ### Bodies -/

namespace BodyContext

variable {ctx : BodyContext} {row foreign other : Row}

theorem nested_returns (row : Row) (field : Field) : (ctx.nested row field).Returns fun _ => True :=
  fun _ => ⟨_, _, rfl, trivial⟩

/-- A field has a value or none, but reading it does not fail. -/
theorem value_returns (h : row.table.Plain) (id : String) :
    (ctx.value row id).Returns fun _ => True := by
  unfold value
  cases hfield : row.table.field? id with
  | none => exact BodyM.returns_pure trivial
  | some field =>
      have hformula := h.formula field (row.table.mem_of_field? hfield)
      have hnested : (do
          let sql ← ctx.nested row field
          pure (sql.map fun s => (s, field)) : BodyM (Option (String × Field))).Returns
            fun _ => True :=
        (nested_returns row field).bind fun _ _ => BodyM.returns_pure trivial
      dsimp only
      cases hkind : field.kind with
      | column => exact BodyM.returns_pure trivial
      | system s => exact BodyM.returns_pure trivial
      | formula source persisted =>
          rw [hkind] at hformula
          cases hformula
      | link l => exact hnested
      | lookup linkField related => exact hnested
      | rollup linkField related expression => exact hnested
      | conditionalLookup linkField related => exact hnested
      | conditionalRollup linkField related expression => exact hnested

theorem values_returns (h : row.table.Plain) (ids : List String) :
    (ctx.values row ids).Returns fun reads => reads.map Prod.fst = ids := by
  induction ids with
  | nil => exact BodyM.returns_pure rfl
  | cons id rest ih =>
      unfold values
      refine (value_returns h id).bind fun first _ => ih.bind fun others hothers => ?_
      exact BodyM.returns_pure (by rw [List.map_cons, hothers])

/-- **A filter compiles**, whichever of its fields exist. -/
theorem filterSql_returns (hforeign : foreign.table.Plain) (hother : other.table.Plain)
    (filter : Filter) : (ctx.filterSql foreign other filter).Returns fun _ => True := by
  unfold filterSql
  refine (values_returns hforeign _).bind fun left hleft => ?_
  refine (values_returns hother _).bind fun right hright => ?_
  -- there is an entry for each field, if only a missing value
  have hids : ∀ id ∈ filter.fieldIds ++ filter.valueFieldIds, id ∈ (left ++ right).map Prod.fst := by
    intro id hid
    rwa [List.map_append, hleft, hright]
  have hvalues : ∀ id ∈ filter.mentioned, (((left ++ right).foldl (fun entries v =>
      Entries.insert entries v.1 ((v.2.map Prod.fst).getD "NULL")) []).get? id).isSome = true :=
    fun id hid => isSome_get?_filterValues
      (Or.inl (hids id (List.mem_append.2 (Filter.mem_mentioned.1 hid))))
  obtain ⟨sql, hsql⟩ := (@Filter.compile_looksUp ctx.filterDialect
    (left.filterMap fun v => v.2.map Prod.snd) _ filter).exists_ok_iff.2 hvalues
  dsimp only
  rw [hsql]
  exact BodyM.returns_pure trivial

theorem filterSql?_returns (hforeign : foreign.table.Plain) (hother : other.table.Plain)
    (filter : Option Filter) : (ctx.filterSql? foreign other filter).Returns fun _ => True := by
  cases filter with
  | none => exact BodyM.returns_pure trivial
  | some f => exact (filterSql_returns hforeign hother f).bind fun _ _ => BodyM.returns_pure trivial

theorem memberOf_returns (h : row.table.Plain) (field : Field) (related : Related)
    (rollup : Option RollupFunction) :
    (ctx.memberOf row field related rollup).Returns fun _ => True :=
  (value_returns h related.target).bind fun _ _ =>
    (filterSql?_returns h h related.filter).bind fun _ _ => BodyM.returns_pure trivial

theorem member?_returns (h : row.table.Plain) {field : Field} (hrollup : ∃ f, field.rollup? = .ok f) :
    (ctx.member? row field).Returns fun _ => True := by
  unfold member?
  split
  · exact (memberOf_returns h _ _ _).bind fun _ _ => BodyM.returns_pure trivial
  · next expression hkind =>
      obtain ⟨f, hf⟩ := hrollup
      simp only [Field.rollup?, hkind] at hf
      split
      · next hparse =>
          rw [hparse] at hf
          cases hf
      · exact (memberOf_returns h _ _ _).bind fun _ _ => BodyM.returns_pure trivial
  · exact BodyM.returns_pure trivial

theorem members_returns (h : row.table.Plain) {fields : List Field}
    (hfields : ∀ field ∈ fields, ∃ f, field.rollup? = .ok f) :
    (ctx.members row fields).Returns fun _ => True := by
  induction fields with
  | nil => exact BodyM.returns_pure trivial
  | cons field rest ih =>
      rw [List.forall_mem_cons] at hfields
      unfold members
      exact (member?_returns h hfields.1).bind fun _ _ => (ih hfields.2).bind fun _ _ =>
        BodyM.returns_pure trivial

/-- **The body of a link is made**, whatever is missing. -/
theorem linkBody_returns (hcatalog : ctx.catalog.Plain) {host : Table} (hhost : host.Plain)
    {field : Field} (hlink : field.kind.isLink = true) :
    (ctx.linkBody host field).Returns fun _ => True := by
  unfold linkBody
  cases hkind : field.kind with
  | link link =>
      dsimp only
      split
      · exact BodyM.returns_pure trivial
      · next foreign hforeign =>
          have hplain : foreign.Plain := hcatalog foreign (Catalog.mem_of_table? hforeign)
          refine (value_returns hplain link.titleField).bind fun _ _ => ?_
          refine (members_returns hplain ?_).bind fun _ _ => ?_
          · exact fun member hmember => hhost.exists_rollup (List.mem_filter.1 hmember).1
          · exact BodyM.returns_get.bind fun _ _ => BodyM.returns_pure trivial
  | _ =>
      rw [hkind] at hlink
      cases hlink

/-- The body of a field that is no link is not made. -/
theorem linkBody_of_not_isLink {host : Table} {field : Field} (h : field.kind.isLink = false) :
    ctx.linkBody host field = throw (.notALink field.id) := by
  unfold linkBody
  cases hkind : field.kind with
  | link l =>
      rw [hkind] at h
      cases h
  | _ => rfl

theorem keyPairs_returns (hforeign : foreign.table.Plain) (hother : other.table.Plain)
    (pairs : List (String × String)) : (ctx.keyPairs foreign other pairs).Returns fun _ => True := by
  induction pairs with
  | nil => exact BodyM.returns_pure trivial
  | cons pair rest ih =>
      unfold keyPairs
      refine (value_returns hforeign pair.1).bind fun left _ => ?_
      refine (value_returns hother pair.2).bind fun right _ => ?_
      split
      · exact ih.bind fun _ _ => BodyM.returns_pure trivial
      · exact BodyM.returns_pure trivial

theorem rowOrder_returns (h : row.table.Plain) (sort : Option SortKey) (link : Option Link) :
    (ctx.rowOrder row sort link).Returns fun _ => True := by
  unfold rowOrder
  cases sort with
  | none => exact BodyM.returns_pure trivial
  | some key => exact (value_returns h key.field).bind fun _ _ => BodyM.returns_pure trivial

theorem condensedBody_returns {host foreign : Table} (hhost : host.Plain) (hforeign : foreign.Plain)
    (field : Field) (choice : RowChoice) (link : Option Link) (c : Condensation)
    (value order : String) :
    (ctx.condensedBody host foreign field choice link c value order).Returns fun _ => True := by
  unfold condensedBody
  dsimp only
  split
  · refine (keyPairs_returns hforeign hhost _).bind fun keys _ => ?_
    split
    · exact BodyM.returns_pure trivial
    · exact BodyM.returns_get.bind fun _ _ => BodyM.returns_pure trivial
  · have hother : (if choice.hostValues then (⟨.host, host⟩ : Row)
        else ⟨.foreign, foreign⟩).table.Plain := by
      split
      · exact hhost
      · exact hforeign
    refine (filterSql?_returns hforeign hother _).bind fun _ _ => ?_
    exact BodyM.returns_get.bind fun _ _ => BodyM.returns_pure trivial

/-- **The body of a single field is made**, whatever is missing. -/
theorem conditionalBody_returns (hcatalog : ctx.catalog.Plain) {host : Table} (hhost : host.Plain)
    {field : Field} (hfield : field ∈ host.fields) (hchoice : field.rowChoice?.isSome = true) :
    (ctx.conditionalBody host field).Returns fun _ => True := by
  obtain ⟨choice, hchoice⟩ := Option.isSome_iff_exists.1 hchoice
  obtain ⟨rollup, hrollup⟩ := hhost.exists_rollup hfield
  unfold conditionalBody
  rw [hchoice, hrollup]
  dsimp only
  split
  · next foreign link hforeign _ =>
      have hplain : foreign.Plain := hcatalog foreign (Catalog.mem_of_table? hforeign)
      refine (value_returns hplain choice.related.target).bind fun read _ => ?_
      split
      · exact BodyM.returns_pure trivial
      · exact (rowOrder_returns hplain _ _).bind fun _ _ => 
          condensedBody_returns hhost hplain _ _ _ _ _ _
  · exact BodyM.returns_pure trivial

end BodyContext

/-! ### Units -/

/-- The unit of a link that is named after a field of its table which is no link. -/
def Catalog.misdirects (catalog : Catalog) : CteUnit → Bool
  | .link table id => ((catalog.table? table).bind (Table.field? · id)).any fun f => !f.kind.isLink
  | .conditional .. => false

theorem Catalog.misdirects_of_field? {catalog : Catalog} {table id : String} {host : Table}
    {field : Field} (hhost : catalog.table? table = some host) (hfield : host.field? id = some field) :
    catalog.misdirects (.link table id) = !field.kind.isLink := by
  simp [Catalog.misdirects, hhost, hfield]

theorem Catalog.misdirects_link {catalog : Catalog} {table id : String} :
    catalog.misdirects (.link table id) = true ↔
      ∃ host field, catalog.table? table = some host ∧ host.field? id = some field ∧
        field.kind.isLink = false := by
  constructor
  · intro h
    obtain ⟨field, hfound, hlink⟩ := (Option.any_eq_true _ _).1 h
    obtain ⟨host, hhost, hfield⟩ := Option.bind_eq_some_iff.1 hfound
    exact ⟨host, field, hhost, hfield, by simpa using hlink⟩
  · rintro ⟨host, field, hhost, hfield, hlink⟩
    rw [Catalog.misdirects_of_field? hhost hfield, hlink]
    rfl

namespace CteUnit

/-- A unit to itself is named after a field that chooses rows. -/
theorem isSome_rowChoice? {catalog : Catalog} {table id : String}
    (hunit : conditional table id ∈ catalog.units) {host : Table} {field : Field}
    (hhost : catalog.table? table = some host) (hfield : host.field? id = some field) :
    field.rowChoice?.isSome = true := by
  have hof := of?_of_conditional hunit hhost hfield
  unfold of? at hof
  unfold Field.rowChoice?
  cases hkind : field.kind <;> simp [hkind] at hof ⊢

/-- **What the body of a unit can fail with**: only a link that is none. -/
theorem body?_answer {ctx : BodyContext} (hcatalog : ctx.catalog.Plain) {unit : CteUnit}
    (hunit : unit ∈ ctx.catalog.units) :
    (ctx.catalog.misdirects unit = true ∧ unit.body? ctx = .error (.notALink unit.field)) ∨
      (ctx.catalog.misdirects unit = false ∧ ∃ body, unit.body? ctx = .ok body) := by
  unfold body?
  obtain ⟨htrace, hmissing⟩ | ⟨host, field, hhost, hfield, htrace⟩ := trace_cases ctx unit
  · refine Or.inr ⟨?_, none, by rw [htrace]⟩
    rw [Bool.eq_false_iff]
    intro hmisdirects
    cases unit with
    | link table id =>
        obtain ⟨host, field, hhost, hfield, _⟩ := Catalog.misdirects_link.1 hmisdirects
        cases (hmissing host hhost).symm.trans hfield
    | conditional table id => cases hmisdirects
  · have hplain : host.Plain := hcatalog host (Catalog.mem_of_table? hhost)
    rw [htrace]
    cases unit with
    | link table id =>
        have hmisdirects : ctx.catalog.misdirects (link table id) = !field.kind.isLink :=
          Catalog.misdirects_of_field? hhost hfield
        cases hlink : field.kind.isLink with
        | true =>
            obtain ⟨body, after, hbody, _⟩ := ctx.linkBody_returns hcatalog hplain hlink []
            refine Or.inr ⟨by rw [hmisdirects, hlink]; rfl, some body, ?_⟩
            exact congrArg (fun made => made.1.map some) hbody
        | false =>
            refine Or.inl ⟨by rw [hmisdirects, hlink]; rfl, ?_⟩
            have hid : field.id = id := host.id_of_field? hfield
            rw [bodyM, ctx.linkBody_of_not_isLink hlink, hid]
            rfl
    | conditional table id =>
        have hchoice := isSome_rowChoice? hunit hhost hfield
        obtain ⟨body, after, hbody, _⟩ :=
          ctx.conditionalBody_returns hcatalog hplain (host.mem_of_field? hfield) hchoice []
        exact Or.inr ⟨rfl, some body, congrArg (fun made => made.1.map some) hbody⟩

end CteUnit

/-! ### Runs -/

namespace BuildContext

variable {ctx : BuildContext} {table : Table} {unit : CteUnit} {b : Build}

/-- **A step fails only at a link that is none.** -/
theorem addUnit_answer (hcatalog : ctx.catalog.Plain) (htable : table ∈ ctx.catalog.tables)
    (hunit : unit ∈ ctx.catalog.units) (hb : b.Registers table) :
    (∃ b', (ctx.addUnit table.id unit).run b = (.ok (), b')) ∨
      (ctx.catalog.misdirects unit = true ∧
        (ctx.addUnit table.id unit).run b = (.error (.notALink unit.field), b)) := by
  rcases addUnit_answer_of_registers htable hunit hb with hstep | ⟨e, hbody, hstep⟩
  · exact Or.inl hstep
  · have hplain : (ctx.bodyContext b.built).catalog.Plain := hcatalog
    rcases CteUnit.body?_answer hplain hunit with ⟨hmisdirects, hfails⟩ | ⟨_, body, hmade⟩
    · cases hbody.symm.trans hfails
      exact Or.inr ⟨hmisdirects, hstep⟩
    · cases hbody.symm.trans hmade

/-- **A run fails only at a link that is none.** -/
theorem addUnits_answer (hcatalog : ctx.catalog.Plain) (htable : table ∈ ctx.catalog.tables)
    {units : List CteUnit} (hunits : ∀ unit ∈ units, unit ∈ ctx.catalog.units)
    (hb : b.Registers table) :
    (∃ b', (ctx.addUnits table.id units).run b = (.ok (), b')) ∨
      ∃ unit ∈ units, ctx.catalog.misdirects unit = true ∧
        ∃ b', (ctx.addUnits table.id units).run b = (.error (.notALink unit.field), b') := by
  induction units generalizing b with
  | nil => exact Or.inl ⟨b, rfl⟩
  | cons unit rest ih =>
      rw [List.forall_mem_cons] at hunits
      rw [addUnits, run_bind]
      rcases addUnit_answer hcatalog htable hunits.1 hb with ⟨mid, hstep⟩ | ⟨hmisdirects, hstep⟩
      · rw [hstep]
        refine (ih hunits.2 (registers_of_addUnit htable hunits.1 hb hstep)).imp_right ?_
        rintro ⟨other, hother, hrest⟩
        exact ⟨other, List.mem_cons_of_mem _ hother, hrest⟩
      · rw [hstep]
        exact Or.inr ⟨unit, List.mem_cons_self, hmisdirects, b, rfl⟩

/-! ### Queries -/

theorem exists_project {projection : List String} (h : ∀ id ∈ projection, id ∈ table.fieldIds) :
    ∃ fields, table.project projection = .ok fields := by
  cases hproject : table.project projection with
  | ok fields => exact ⟨fields, rfl⟩
  | error e =>
      obtain ⟨id, hid, -⟩ := Table.project_eq_error_iff.1 hproject
      obtain ⟨field, hfield, rfl⟩ := List.mem_map.1 (h id (List.mem_of_find?_eq_some hid))
      have hmissing := List.find?_some hid
      rw [Table.field?_of_mem hfield] at hmissing
      cases hmissing

/-- A run that gets to its end in a table without formulas ends in a query. -/
theorem exists_record_of_addCtes (hplain : table.Plain) {projection : List String}
    (hprojection : ∀ id ∈ projection, id ∈ table.fieldIds)
    (h : (ctx.addCtes table projection).run { query := .ofTable table.name ctx.options.rowAlias } =
      (.ok (), b)) :
    ∃ query state, ctx.record table projection = .ok (query, state) := by
  obtain ⟨fields, hfields⟩ := exists_project hprojection
  have hformulas : fields.filter (fun f => f.kind.isFormula) = [] := by
    rw [List.filter_eq_nil_iff]
    intro field hfield
    rw [hplain.formula field ((Table.project_ok hfields).2 field hfield)]
    exact Bool.false_ne_true
  exact @exists_record ctx table projection b fields [] h hfields (by rw [hformulas]; rfl)

/-- Where a query is finished, no unit of its plan was misdirected: its expression was made, which only
that of a link can be. -/
theorem misdirects_eq_false_of_record (hnames : ctx.catalog.DistinctNames)
    (htable : table ∈ ctx.catalog.tables) {projection : List String} {query : Query}
    {state : QueryState} (h : ctx.record table projection = .ok (query, state))
    (hplanned : unit ∈ (ctx.catalog.plan table projection).order) :
    ctx.catalog.misdirects unit = false := by
  rw [Bool.eq_false_iff]
  intro hmisdirects
  cases unit with
  | conditional t id => cases hmisdirects
  | link t id =>
      obtain ⟨host, field, hhost, hfield, hlink⟩ := Catalog.misdirects_link.1 hmisdirects
      obtain ⟨b, b', -, hrun, -⟩ := record_ok h
      rcases exists_made_of_mem_order hnames htable hrun hplanned with ⟨m, hm, hunit⟩ | ⟨built, hbody⟩
      · obtain ⟨built, hbody⟩ := body?_of_mem_made hm
        rw [hunit] at hbody
        rw [CteUnit.isLink_of_body? hbody hhost hfield] at hlink
        cases hlink
      · cases (CteUnit.field?_eq_none_of_body? hbody hhost).symm.trans hfield

/-- **Dangling references do not fail a query, except for a link that is none.**  In a catalog without
formulas and with rollups of known functions, the query of fields that exist is made, whatever is
missing, unless a unit of its plan is the one of a link and is named after a field that is no link.  The
error names such a field; and when units are told apart by their names, the query does fail then. -/
theorem record_ok_unless_misdirected (hcatalog : ctx.catalog.Plain)
    (htable : table ∈ ctx.catalog.tables) {projection : List String}
    (hprojection : ∀ id ∈ projection, id ∈ table.fieldIds) :
    ((∀ unit ∈ (ctx.catalog.plan table projection).order, ctx.catalog.misdirects unit = false) →
        ∃ query state, ctx.record table projection = .ok (query, state)) ∧
      (∀ e, ctx.record table projection = .error e →
        ∃ unit ∈ (ctx.catalog.plan table projection).order,
          ctx.catalog.misdirects unit = true ∧ e = .notALink unit.field) ∧
      (ctx.catalog.DistinctNames →
        (∃ unit ∈ (ctx.catalog.plan table projection).order, ctx.catalog.misdirects unit = true) →
        ∃ e, ctx.record table projection = .error e) := by
  have hunits : ∀ unit ∈ (ctx.catalog.plan table projection).order, unit ∈ ctx.catalog.units :=
    fun unit hunit => Catalog.mem_units_of_mem_order htable hunit
  have hstart : Build.Registers table { query := .ofTable table.name ctx.options.rowAlias } := by
    intro entry hentry
    cases hentry
  -- the run ends, and then the query is made, or it stops at a misdirected unit
  have hanswer : (∃ query state, ctx.record table projection = .ok (query, state)) ∨
      ∃ unit ∈ (ctx.catalog.plan table projection).order, ctx.catalog.misdirects unit = true ∧
        ctx.record table projection = .error (.notALink unit.field) := by
    rcases addUnits_answer hcatalog htable hunits hstart with
      ⟨b, hrun⟩ | ⟨unit, hunit, hmisdirects, b, hrun⟩
    · exact Or.inl (exists_record_of_addCtes (hcatalog table htable) hprojection hrun)
    · refine Or.inr ⟨unit, hunit, hmisdirects, ?_⟩
      unfold record step addCtes
      simp only [run_bind, hrun]
  refine ⟨fun hdirected => ?_, fun e he => ?_, fun hnames hmisdirected => ?_⟩
  · rcases hanswer with hmade | ⟨unit, hunit, hmisdirects, _⟩
    · exact hmade
    · rw [hdirected unit hunit] at hmisdirects
      cases hmisdirects
  · rcases hanswer with ⟨query, state, hmade⟩ | ⟨unit, hunit, hmisdirects, hfailed⟩
    · cases hmade.symm.trans he
    · exact ⟨unit, hunit, hmisdirects, Except.error.inj (he.symm.trans hfailed)⟩
  · rcases hanswer with ⟨query, state, hmade⟩ | ⟨unit, _, _, hfailed⟩
    · obtain ⟨unit, hunit, hmisdirects⟩ := hmisdirected
      rw [misdirects_eq_false_of_record hnames htable hmade hunit] at hmisdirects
      cases hmisdirects
    · exact ⟨_, hfailed⟩

end BuildContext

/-! ### A table of loose ends -/

namespace Sample

/-- A link to a table that is missing and one whose title is, lookups whose link or target is, a
conditional lookup with a filter and an order on missing fields, and two lookups that go through a
column: the first has a limit. -/
def looseEnds : Table :=
  .ofFields "ends" "ends"
    [linkTo "away" "nowhere" "name", lookupOf "beyond" "away" "nowhere" "name",
     linkTo "near" "ends" "nameless", lookupOf "blank" "near" "ends" "nothing",
     lookupOf "unlinked" "ghost" "ends" "nothing",
     .ofConditionalLookup "picked" "picked" .string none
       { foreignTable := "ends", target := "beyond", sort := some ⟨"never", true⟩
         filter := some (.condition ⟨"nobody", .is, .field "noone"⟩) },
     .single "note" "note" .string .column,
     .ofLookup "first" "first" .string false "note"
       { foreignTable := "ends", target := "note", limit := some 1 },
     lookupOf "every" "note" "ends" "note"]

def looseContext : BuildContext := ⟨.ofTables [looseEnds], { now := ⟨0⟩ }, .postgres⟩

theorem looseEnds_mem : looseEnds ∈ looseContext.catalog.tables :=
  Catalog.mem_of_table? (by rfl : looseContext.catalog.table? "ends" = some looseEnds)

theorem looseEnds_plain : looseContext.catalog.Plain := by decide

end Sample

namespace BuildContext

/-- Of the loose ends one fails a query: the lookup without a limit whose link is a column. -/
theorem record_ok_unless_misdirected_looseEnds :
    (∃ query state, Sample.looseContext.record Sample.looseEnds
        ["beyond", "blank", "unlinked", "picked", "first"] = .ok (query, state)) ∧
      ∃ e, Sample.looseContext.record Sample.looseEnds ["every"] = .error e := by
  have hloose : Sample.looseContext.catalog.plan Sample.looseEnds
      ["beyond", "blank", "unlinked", "picked", "first"] =
        ⟨[.link "ends" "away", .link "ends" "near", .link "ends" "ghost", .conditional "ends" "picked",
          .conditional "ends" "first"], false⟩ := by cbv
  have hevery : Sample.looseContext.catalog.plan Sample.looseEnds ["every"] =
      ⟨[.link "ends" "note"], false⟩ := by cbv
  constructor
  · have hids : ∀ id ∈ ["beyond", "blank", "unlinked", "picked", "first"],
        id ∈ Sample.looseEnds.fieldIds := by decide
    refine (record_ok_unless_misdirected Sample.looseEnds_plain Sample.looseEnds_mem hids).1 ?_
    rw [hloose]
    decide
  · have hids : ∀ id ∈ ["every"], id ∈ Sample.looseEnds.fieldIds := by decide
    obtain ⟨-, -, hfails⟩ :=
      record_ok_unless_misdirected Sample.looseEnds_plain Sample.looseEnds_mem hids
    refine hfails (by decide) ?_
    rw [hevery]
    exact ⟨.link "ends" "note", List.mem_cons_self, by decide⟩

/-- A link that is a column fails a query, in a catalog without formulas and rollups. -/
theorem record_notALink :
    Sample.looseContext.catalog.Plain ∧ Sample.looseEnds ∈ Sample.looseContext.catalog.tables ∧
      (∀ id ∈ ["every"], id ∈ Sample.looseEnds.fieldIds) ∧
      Sample.looseContext.record Sample.looseEnds ["every"] = .error (.notALink "note") := by
  refine ⟨Sample.looseEnds_plain, Sample.looseEnds_mem, by decide, ?_⟩
  have hplan : Sample.looseContext.catalog.plan Sample.looseEnds ["every"] =
      ⟨[.link "ends" "note"], false⟩ := by cbv
  unfold record addCtes
  rw [hplan]
  rfl

end BuildContext

end ComputedFields
