/-
**Queries of records are lexically closed.**

Ids, names of columns and tables, keys of links, literals of filters, currency symbols and the formulas
of fields all stand in the text of a query.  Here the whole run that builds the query is followed: every
value that a body reads is lexically closed, hence every body, hence every selection, hence the query.
So none of those names and literals can break out of its quotation, and none can open a parenthesis that
stays open.

Main definitions:

* `ComputedFields.Catalog.Textual` — all formula fields of the catalog hold texts;
* `ComputedFields.BodyM.Gives` — what a computation returns.

Main results:

* `ComputedFields.BodyContext.value_gives`, `ComputedFields.BodyContext.filterSql_gives` — the value of a
  field and the condition of a filter are lexically closed;
* `ComputedFields.CteUnit.sealed_of_body?` — so is every body;
* `ComputedFields.BuildContext.sealed_of_select` — and every selection;
* `ComputedFields.BuildContext.record_sealed` — **and the query of every projection**.
-/

import ComputedFields.Proofs.BodyText
import ComputedFields.Proofs.CteScope
import ComputedFields.Proofs.LexicalClosure

set_option relaxedAutoImplicit false
set_option autoImplicit false

namespace ComputedFields

open Sql (Sealed Query)

variable {x : String}

/-! ### Scopes -/

theorem Scope.Sealed.setSelection {scope : Scope} (h : scope.Sealed) (id : String)
    (hx : Sql.Sealed x) : (scope.setSelection id x).Sealed := by
  intro id' sql hsql
  by_cases heq : id = id'
  · rw [← heq, Scope.selection?_setSelection_self] at hsql
    cases hsql
    exact hx
  · exact h id' sql ((Scope.selection?_setSelection_of_ne scope x heq).symm.trans hsql)

/-! ### Values -/

/-- All formula fields of the catalog are given by their texts. -/
def Catalog.Textual (catalog : Catalog) : Prop := ∀ table ∈ catalog.tables, table.Textual

instance (catalog : Catalog) : Decidable catalog.Textual :=
  inferInstanceAs (Decidable (∀ table ∈ catalog.tables, table.Textual))

/-- What the computation returns satisfies `Q`, whatever it records. -/
abbrev BodyM.Gives {α : Type} (Q : α → Prop) (x : BodyM α) : Prop := x.Meets (fun _ => True) Q

namespace BodyContext

variable {ctx : BodyContext} {row foreign other : Row}

theorem nested_gives (row : Row) (field : Field) :
    (ctx.nested row field).Gives fun sql => ∀ s ∈ sql, Sealed s := by
  intro reads
  refine ⟨[_], rfl, by simp, ?_⟩
  intro sql hsql s hs
  cases hsql
  obtain ⟨name, -, rfl⟩ := Option.map_eq_some_iff.1 hs
  exact row.sealed_fromCte name field

theorem selectCarried_gives {scope : Scope} (h : scope.Sealed) (fields : List Field) :
    (ctx.selectCarried row scope fields).Gives Scope.Sealed := by
  induction fields generalizing scope with
  | nil => exact BodyM.meets_pure h
  | cons leaf rest ih =>
      unfold selectCarried
      split
      · refine (nested_gives row leaf).bind fun sql hsql => ih (h.setSelection leaf.id ?_)
        -- a field that no expression carries yet is missing
        cases sql with
        | none => exact Dialect.sealed_typedNull _ _
        | some sql => exact hsql sql rfl
      · exact ih h

theorem formulaValue_gives (htexts : row.table.Textual) (field : Field) :
    (ctx.formulaValue row field).Gives Sealed := by
  unfold formulaValue
  refine (selectCarried_gives Scope.sealed_detached _).bind fun scope hscope => ?_
  dsimp only
  split
  · next c hc => exact BodyM.meets_pure (Context.tidy_compileField htexts hscope hc).render.toSealed
  · exact BodyM.meets_pure (Dialect.sealed_typedNull _ _)
  · exact BodyM.meets_throw _

/-- **The value of a field is lexically closed.** -/
theorem value_gives (htexts : row.table.Textual) (id : String) :
    (ctx.value row id).Gives fun read => ∀ v ∈ read, Sealed v.1 := by
  unfold value
  split
  · exact BodyM.meets_pure (by simp)
  · next field _ =>
      have hcolumn := row.sealed_column field
      split
      · exact BodyM.meets_pure (by simpa using hcolumn)
      · refine BodyM.meets_pure ?_
        simp only [Option.mem_def, Option.some.injEq, forall_eq']
        split
        · exact Dialect.sealed_userLookup _ _ hcolumn
        · exact hcolumn
      · exact (formulaValue_gives htexts field).bind fun sql hsql =>
          BodyM.meets_pure (by simpa using hsql)
      · refine (nested_gives row field).bind fun sql hsql => BodyM.meets_pure fun v hv => ?_
        obtain ⟨s, hs, rfl⟩ := Option.map_eq_some_iff.1 hv
        exact hsql s hs

/-! ### Filters -/

theorem values_gives (htexts : row.table.Textual) (ids : List String) :
    (ctx.values row ids).Gives fun reads => ∀ read ∈ reads, ∀ v ∈ read.2, Sealed v.1 := by
  induction ids with
  | nil => exact BodyM.meets_pure (by simp)
  | cons id rest ih =>
      refine (value_gives htexts id).bind fun first hfirst => ih.bind fun others hothers => ?_
      exact BodyM.meets_pure (List.forall_mem_cons.2 ⟨hfirst, hothers⟩)

/-- The values of a filter: a field that is missing compares as nothing. -/
theorem sealed_filterValues {reads : List (String × Option (String × Field))}
    (h : ∀ read ∈ reads, ∀ v ∈ read.2, Sealed v.1) {entries : Entries String}
    (hentries : entries.Sealed) :
    Entries.Sealed (reads.foldl (fun entries v =>
      Entries.insert entries v.1 ((v.2.map Prod.fst).getD "NULL")) entries) := by
  induction reads generalizing entries with
  | nil => exact hentries
  | cons read rest ih =>
      rw [List.forall_mem_cons] at h
      refine ih h.2 (hentries.insert read.1 ?_)
      cases hread : read.2 with
      | none => exact .const (by decide)
      | some v => exact h.1 v hread

/-- **The condition of a filter is lexically closed.** -/
theorem filterSql_gives (hforeign : foreign.table.Textual) (hother : other.table.Textual)
    (filter : Filter) : (ctx.filterSql foreign other filter).Gives Sealed := by
  unfold filterSql
  refine (values_gives hforeign _).bind fun left hleft => ?_
  refine (values_gives hother _).bind fun right hright => ?_
  -- both sides of the comparisons are looked up in one list of values
  have hvalues := sealed_filterValues (List.forall_mem_append.2 ⟨hleft, hright⟩) Entries.sealed_nil
  dsimp only
  split
  · next sql hsql => exact BodyM.meets_pure (Filter.sealed_of_compile hvalues hsql)
  · exact BodyM.meets_throw _

theorem filterSql?_gives (hforeign : foreign.table.Textual) (hother : other.table.Textual)
    (filter : Option Filter) :
    (ctx.filterSql? foreign other filter).Gives fun sql => ∀ s ∈ sql, Sealed s := by
  cases filter with
  | none => exact BodyM.meets_pure (by simp)
  | some f =>
      refine (filterSql_gives hforeign hother f).bind fun sql hsql => ?_
      exact BodyM.meets_pure (by simpa using hsql)

/-! ### Links -/

theorem memberOf_gives (htexts : row.table.Textual) (field : Field) (related : Related)
    (rollup : Option RollupFunction) :
    (ctx.memberOf row field related rollup).Gives Member.Sealed := by
  unfold memberOf
  refine (value_gives htexts related.target).bind fun read hread => ?_
  refine (filterSql?_gives htexts htexts related.filter).bind fun filter hfilter => ?_
  refine BodyM.meets_pure ⟨?_, hfilter⟩
  cases read with
  | none => exact Dialect.sealed_typedNull _ _
  | some v => exact hread v rfl

theorem member?_gives (htexts : row.table.Textual) (field : Field) :
    (ctx.member? row field).Gives fun member => ∀ m ∈ member, m.Sealed := by
  unfold member?
  split
  · exact (memberOf_gives htexts field _ _).bind fun m hm => BodyM.meets_pure (by simpa using hm)
  · split
    · exact BodyM.meets_throw _
    · exact (memberOf_gives htexts field _ _).bind fun m hm => BodyM.meets_pure (by simpa using hm)
  · exact BodyM.meets_pure (by simp)

theorem members_gives (htexts : row.table.Textual) (fields : List Field) :
    (ctx.members row fields).Gives fun members => ∀ m ∈ members, m.Sealed := by
  induction fields with
  | nil => exact BodyM.meets_pure (by simp)
  | cons field rest ih =>
      refine (member?_gives htexts field).bind fun first hfirst => ih.bind fun others hothers => ?_
      refine BodyM.meets_pure (List.forall_mem_append.2 ⟨fun m hm => ?_, hothers⟩)
      exact hfirst m (Option.mem_toList.1 hm)

theorem linkBody_gives (htexts : ctx.catalog.Textual) (host : Table) (field : Field) :
    (ctx.linkBody host field).Gives fun body => Sealed body.sql := by
  unfold linkBody
  split
  · next link _ =>
      dsimp only
      split
      · exact BodyM.meets_pure (ctx.sealed_degraded host _)
      · next foreign hforeign =>
          have htexts : foreign.Textual := htexts foreign (Catalog.mem_of_table? hforeign)
          refine (value_gives htexts link.titleField).bind fun read hread => ?_
          refine (members_gives htexts _).bind fun members hmembers => ?_
          refine BodyM.meets_get.bind fun reads _ => BodyM.meets_pure ?_
          refine link.sealed_body _ host foreign (NestedRead.sealed_joinClause reads) ?_ hmembers _
          refine Dialect.sealed_linkObject _ sealed_foreignId ?_
          cases read with
          | none => exact Dialect.sealed_typedNull _ _
          | some v => exact sealed_titleText _ _ (hread v rfl)
  · exact BodyM.meets_throw _

/-! ### Single fields -/

theorem keyPairs_gives (hforeign : foreign.table.Textual) (hother : other.table.Textual)
    (pairs : List (String × String)) :
    (ctx.keyPairs foreign other pairs).Gives fun keys =>
      ∀ ks ∈ keys, ∀ k ∈ ks, Sealed k.1 ∧ Sealed k.2 := by
  induction pairs with
  | nil => exact BodyM.meets_pure (by simp)
  | cons pair rest ih =>
      refine (value_gives hforeign pair.1).bind fun left hleft => ?_
      refine (value_gives hother pair.2).bind fun right hright => ?_
      split
      · next l r =>
          refine ih.bind fun others hothers => BodyM.meets_pure fun ks hks => ?_
          obtain ⟨pairs, hpairs, rfl⟩ := Option.map_eq_some_iff.1 hks
          exact List.forall_mem_cons.2 ⟨⟨hleft l rfl, hright r rfl⟩, hothers pairs hpairs⟩
      · exact BodyM.meets_pure (by simp)

theorem rowOrder_gives (htexts : row.table.Textual) (sort : Option SortKey) (link : Option Link) :
    (ctx.rowOrder row sort link).Gives Sealed := by
  have hdefault : Sealed ((link.map Link.order).getD (foreignId ++ " ASC")) := by
    cases link with
    | none => exact .template [.hole, .text _] [_] (by decide) (by simp)
    | some link => exact link.sealed_order
  unfold rowOrder
  dsimp only
  split
  · exact BodyM.meets_pure hdefault
  · next key =>
      refine (value_gives htexts key.field).bind fun read hread => BodyM.meets_pure ?_
      cases read with
      | none => exact hdefault
      | some v =>
          have hdirection : Sealed (if key.descending then "DESC" else "ASC") := by
            split <;> exact .const (by decide)
          exact .template [.hole, .text _, .hole, .text _, .hole, .text _] [_, _, _] (by decide)
            (by simpa using ⟨hread v rfl, hdirection⟩)

theorem condensedBody_gives {host foreign : Table} (hhost : host.Textual) (hforeign : foreign.Textual)
    (field : Field) (choice : RowChoice) (link : Option Link) (c : Condensation)
    {value order : String} (hvalue : Sealed value) (horder : Sealed order) :
    (ctx.condensedBody host foreign field choice link c value order).Gives
      fun body => Sealed body.sql := by
  unfold condensedBody
  dsimp only
  split
  · refine (keyPairs_gives hforeign hhost _).bind fun keys hkeys => ?_
    split
    · exact BodyM.meets_pure (ctx.sealed_degraded host _)
    · next keys =>
        have hkeys := hkeys keys rfl
        refine BodyM.meets_get.bind fun reads _ => BodyM.meets_pure ?_
        refine sealed_groupedBody _ host field c ⟨hvalue, ?_, by simp, horder, ?_⟩ ?_
        · exact (sealed_aliased _ _).append (NestedRead.sealed_joinClause reads)
        · exact List.forall_mem_map.2 fun k hk => (hkeys k hk).1
        · exact List.forall_mem_map.2 fun k hk => (hkeys k hk).2
  · -- the filter compares with values of the host, or with others of the foreign record
    have hother : ∀ hostValues : Bool, Row.table (if hostValues then (⟨.host, host⟩ : Row)
        else ⟨.foreign, foreign⟩) |>.Textual := by
      rintro (_ | _)
      · exact hforeign
      · exact hhost
    refine (filterSql?_gives hforeign (hother _) _).bind fun filter hfilter => ?_
    refine BodyM.meets_get.bind fun reads _ => BodyM.meets_pure ?_
    refine sealed_subqueryBody _ host field c ⟨hvalue, ?_, ?_, horder, by simp⟩
    · refine Sealed.append ?_ (NestedRead.sealed_joinClause reads)
      cases link with
      | none => exact sealed_aliased _ _
      | some link => exact (link.sealed_correlated foreign).1
    · refine List.forall_mem_append.2 ⟨?_, sealed_parenthesized hfilter⟩
      cases link with
      | none => simp
      | some link => simpa using (link.sealed_correlated foreign).2

theorem conditionalBody_gives (htexts : ctx.catalog.Textual) {host : Table} (hhost : host.Textual)
    (field : Field) : (ctx.conditionalBody host field).Gives fun body => Sealed body.sql := by
  unfold conditionalBody
  split
  · exact BodyM.meets_throw _
  · next choice _ =>
      split
      · exact BodyM.meets_throw _
      · split
        · next foreign link hforeign _ =>
            have hforeign : foreign.Textual := htexts foreign (Catalog.mem_of_table? hforeign)
            refine (value_gives hforeign choice.related.target).bind fun read hread => ?_
            split
            · exact BodyM.meets_pure (ctx.sealed_degraded host _)
            · next sql target =>
                have hsql : Sealed sql := hread (sql, target) rfl
                refine (rowOrder_gives hforeign _ _).bind fun order horder => ?_
                refine condensedBody_gives hhost hforeign field choice link _ ?_ horder
                split
                · next f _ => exact f.sealed_input _ _ hsql
                · exact hsql
        · exact BodyM.meets_pure (ctx.sealed_degraded host _)

end BodyContext

/-! ### Units -/

/-- **Every body is lexically closed.** -/
theorem CteUnit.sealed_of_body? {ctx : BodyContext} (htexts : ctx.catalog.Textual) {unit : CteUnit}
    {body : Body} (h : unit.body? ctx = .ok (some body)) : Sealed body.sql := by
  unfold body? trace at h
  split at h
  · cases h
  · next host hfound =>
      split at h
      · cases h
      · next field _ =>
          have hhost : host.Textual := htexts host (Catalog.mem_of_table? hfound)
          have hgives : (unit.bodyM ctx host field).Gives fun body => Sealed body.sql := by
            cases unit with
            | link table id => exact BodyContext.linkBody_gives htexts host field
            | conditional table id => exact BodyContext.conditionalBody_gives htexts hhost field
          obtain ⟨more, -, -, hanswer⟩ := hgives []
          dsimp only at h
          cases hmade : ((unit.bodyM ctx host field).answer []).1 with
          | error e =>
              rw [hmade] at h
              cases h
          | ok made =>
              rw [hmade] at h
              cases h
              exact hanswer body hmade

namespace BuildContext

variable {ctx : BuildContext} {table : Table}

/-! ### Selections -/

theorem sealed_plainSelection (ctx : BuildContext) (state : QueryState) (field : Field) :
    Sealed (ctx.plainSelection state field) := by
  unfold plainSelection
  dsimp only
  split
  · exact Dialect.sealed_userLookup _ _ (.qualified _ _)
  · split
    · split
      · exact .qualified _ _
      · exact Dialect.sealed_typedNull _ _
    · exact .qualified _ _

theorem sealed_setSelections {state : QueryState} (h : Entries.Sealed state.selections)
    {selections : List (String × String)} (hselections : ∀ s ∈ selections, Sealed s.2) :
    Entries.Sealed (state.setSelections selections).selections := by
  induction selections generalizing state with
  | nil => exact h
  | cons selection rest ih =>
      rw [List.forall_mem_cons] at hselections
      exact ih (h.insert selection.1 hselections.1) hselections.2

theorem sealed_scope {state : QueryState} (h : Entries.Sealed state.selections) :
    state.scope.Sealed := by
  intro id sql hsql
  rw [QueryState.selection?_scope] at hsql
  exact h id sql hsql

/-- **Every selection of a projection is lexically closed**, and with it every column; the expressions
are not changed. -/
theorem sealed_of_select (hmain : table.Textual) {projection : List String} {b b' : Build}
    (hstate : Entries.Sealed b.state.selections)
    (h : (ctx.select table projection).run b = (.ok (), b')) :
    b'.query.ctes = b.query.ctes ∧
      ∀ column ∈ b'.query.columns, column ∈ b.query.columns ∨ Sealed column.sql := by
  obtain ⟨fields, selections, -, hselections, hafter, hquery⟩ := select_ok h
  -- the fields that are no formulas come first, and the formulas see their selections
  have hplain : Entries.Sealed
      (ctx.selectPlain b.state (fields.filter fun f => !f.kind.isFormula)).selections := by
    rw [selectPlain_eq]
    exact sealed_setSelections hstate
      (List.forall_mem_map.2 fun field _ => ctx.sealed_plainSelection b.state field)
  have hall : Entries.Sealed b'.state.selections := by
    rw [hafter]
    refine sealed_setSelections hplain fun selection hselection => ?_
    obtain ⟨c, hc, hsql⟩ := (formulaSelections_ok hselections).2 selection hselection
    rw [hsql]
    exact (Context.tidy_compileField hmain (sealed_scope hplain) hc).render.toSealed
  obtain ⟨hctes, -, hcolumns⟩ := selectColumns_keeps b'.state fields b.query
  rw [hquery]
  refine ⟨hctes, fun column hcolumn => (hcolumns column hcolumn).imp_right ?_⟩
  rintro ⟨field, -, -, hsql⟩
  exact hall field.id column.sql hsql

/-! ### Queries -/

/-- **Queries of records are lexically closed.**  The formula fields of the catalog and of the main table
hold texts; all else may be called and compared as it likes. -/
theorem record_sealed (ctx : BuildContext) (htexts : ctx.catalog.Textual) (table : Table)
    (hmain : table.Textual) (projection : List String) (query : Query) (state : QueryState)
    (h : ctx.record table projection = .ok (query, state)) : Sealed query.render := by
  obtain ⟨b, b', hextends, -, hselect, rfl, -⟩ := record_ok h
  have hknown : Build.Known { query := .ofTable table.name ctx.options.rowAlias } :=
    fun name hname => absurd hname List.not_mem_nil
  have hstate : Entries.Sealed b.state.selections := by
    rw [hextends.selections_eq]
    exact Entries.sealed_nil
  obtain ⟨hctes, hcolumns⟩ := sealed_of_select hmain hstate hselect
  refine Sql.Query.sealed_render (fun cte hcte => ?_) fun column hcolumn => ?_
  · -- every expression was made for a unit of the plan
    rw [hctes, hextends.ctes_eq hknown] at hcte
    obtain ⟨m, hm, rfl⟩ := List.mem_map.1 ((List.mem_append.1 hcte).resolve_left List.not_mem_nil)
    obtain ⟨built, hbody⟩ := body?_of_mem_made hm
    exact CteUnit.sealed_of_body? htexts hbody
  · refine (hcolumns column hcolumn).resolve_left ?_
    rw [hextends.columns_eq]
    exact List.not_mem_nil

/-- A query is made when its expressions are and the formulas of the projection compile. -/
theorem exists_record {projection : List String} {b : Build} {fields : List Field}
    {selections : List (String × String)}
    (hctes : (ctx.addCtes table projection).run
      { query := .ofTable table.name ctx.options.rowAlias } = (.ok (), b))
    (hfields : table.project projection = .ok fields)
    (hselections : ctx.formulaSelections table
      (ctx.selectPlain b.state (fields.filter fun f => !f.kind.isFormula))
      (fields.filter fun f => f.kind.isFormula) = .ok selections) :
    ∃ query state, ctx.record table projection = .ok (query, state) := by
  have hget : (get : BuildM Build).run b = (.ok b, b) := rfl
  have hset (b' : Build) : (set b' : BuildM PUnit).run b = (.ok (), b') := rfl
  unfold record step select
  simp only [run_bind, hctes, hfields, hget, hset, hselections]
  exact ⟨_, _, rfl⟩

end BuildContext

/-! ### A query of such names -/

namespace Sample

def members : Table :=
  .ofFields "members" "mem\"bers)"
    [.single "name" "na'me(" .string .column,
     { Field.single "budget" "budget" .number .column with format := some (.currency "('$" 2) }]

def quietMembers : Filter :=
  .all [.condition ⟨"name", .isNot, .literal (.text "it's (")⟩,
    .condition ⟨"budget", .isGreater, .literal (.whole (-3))⟩]

def staffLink : Link where
  relationship := .manyToMany
  foreignTable := "members"
  titleField := "budget"
  junction := some "j(\""
  orderColumn := some "or)der"

/-- The teams of those members: their staff in the order of a column, the names of some of it, the best
paid of all members, and a label. -/
def teams : Table :=
  .ofFields "teams" "te'ams"
    [.ofLink "staff" "staff\"" staffLink,
     .ofLookup "names" "names" .string true "staff"
       ⟨"members", "name", some quietMembers, none, none⟩,
     .ofConditionalLookup "top" "top" .string none
       ⟨"members", "name", some quietMembers, some ⟨"budget", true⟩, some 3⟩,
     .single "label" "la\"bel" .string (.formula (.text "\x7bstaff\x7d&\"('\"") false)]

def teamContext : BuildContext :=
  ⟨.ofTables [members, teams], { dialect := .sqlite, rowAlias := "t\"", now := ⟨0⟩ }, .sqlite⟩

def teamProjection : List String := ["staff", "names", "top", "label"]

theorem parse_label : Formula.parse "\x7bstaff\x7d&\"('\"" =
    .ok (.binary (.field "staff") .concat (.text "('")) := by cbv

theorem plan_teams : teamContext.catalog.plan teams teamProjection =
    ⟨[.link "teams" "staff", .conditional "teams" "top"], false⟩ := by cbv

theorem addCtes_teams : ∃ b, (teamContext.addCtes teams teamProjection).run
    { query := .ofTable teams.name teamContext.options.rowAlias } = (.ok (), b) := by
  unfold BuildContext.addCtes
  rw [plan_teams]
  exact ⟨_, rfl⟩

theorem formulaSelections_teams (state : QueryState) :
    ∃ selections, teamContext.formulaSelections teams state
      (teams.fields.filter fun f => f.kind.isFormula) = .ok selections := by
  have hexpand : (teamContext.formulas teams state).expand 5 [] "label" = _ :=
    Context.expand_of_formula rfl rfl List.not_mem_nil parse_label
  have hlabel : ∃ c, (teamContext.formulas teams state).compileField "label" = .ok c := ⟨_, hexpand⟩
  obtain ⟨c, hc⟩ := hlabel
  refine ⟨[("label", c.sql)], ?_⟩
  show ((teamContext.formulas teams state).compileField "label" >>= fun c => _) = _
  rw [hc]
  rfl

theorem record_teams :
    ∃ query state, teamContext.record teams teamProjection = .ok (query, state) := by
  obtain ⟨b, hctes⟩ := addCtes_teams
  obtain ⟨selections, hselections⟩ := formulaSelections_teams _
  exact BuildContext.exists_record hctes rfl hselections

end Sample

namespace BuildContext

/-- Marks and parentheses in the names of tables, columns and aliases, in a currency, in a filter and in
a formula. -/
theorem record_sealed_teams :
    Sample.teamContext.catalog.Textual ∧ Sample.teams.Textual ∧
    ∃ query state, Sample.teamContext.record Sample.teams Sample.teamProjection =
      .ok (query, state) ∧ Sealed query.render := by
  have htexts : Sample.teamContext.catalog.Textual := by decide
  have hmain : Sample.teams.Textual := by decide
  obtain ⟨query, state, h⟩ := Sample.record_teams
  exact ⟨htexts, hmain, query, state, h,
    record_sealed Sample.teamContext htexts Sample.teams hmain _ query state h⟩

end BuildContext

end ComputedFields
