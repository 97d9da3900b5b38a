/-
**What the body of a common table expression depends on.**

A body is built when some expressions exist and others do not.  This is looked at in one place only,
where a field that is carried elsewhere is read, and every such read is recorded.  So two computations of
one body, made when different expressions exist, run in lockstep: they take the same steps until a
field is found in one and is missing in the other.  If there is no such field among those recorded, they
give the same body.  What is recorded is foretold by the requirements of the unit; hence a body depends on
nothing but which of its requirements exist.

Whoever goes through the steps also sees how they can fail.  No step knows which fields are registered, so
none fails because of a field that is registered twice.

Main definition:

* `ComputedFields.BodyM.Lockstep` — two computations that differ in what is found elsewhere only.

Main results:

* `ComputedFields.BodyM.Lockstep.answer_eq` — **they agree when they find the same**;
* `ComputedFields.BodyM.Lockstep.failsOnly_isConflict` — they do not fail with a conflict;
* `ComputedFields.CteUnit.bodyM_lockstep` — the body of a unit, when different expressions exist;
* `ComputedFields.CteUnit.trace_congr` — **a body depends on which of its requirements exist**.
-/

import ComputedFields.Proofs.Faults
import ComputedFields.Proofs.FilterValues

set_option relaxedAutoImplicit false
set_option autoImplicit false

namespace ComputedFields

/-! ### Two computations at once -/

namespace BodyM

/-- Two computations that take the same steps, the second one when other expressions exist. -/
inductive Lockstep (ctx : BodyContext) (built : List String) :
    ∀ {α : Type}, BodyM α → BodyM α → Prop where
  | pure {α : Type} (a : α) : Lockstep ctx built (pure a) (pure a)
  | throw {α : Type} {e : CompileError} : e.isConflict = false →
      Lockstep ctx built (throw e : BodyM α) (throw e)
  | get : Lockstep ctx built get get
  | nested (row : Row) (field : Field) :
      Lockstep ctx built (ctx.nested row field) ({ ctx with built }.nested row field)
  | bind {α β : Type} {x x' : BodyM α} {f f' : α → BodyM β} : Lockstep ctx built x x' →
      (∀ a, Lockstep ctx built (f a) (f' a)) → Lockstep ctx built (x >>= f) (x' >>= f')

/-- The field that is read is found in the same expression when the others exist. -/
def FoundAlike (ctx : BodyContext) (built : List String) (read : NestedRead) : Prop :=
  { ctx with built }.cteOf? read.row.table read.field = ctx.cteOf? read.row.table read.field

namespace Lockstep

variable {ctx : BodyContext} {built : List String} {α : Type} {x x' : BodyM α}

/-- **They agree when they find the same**: if whatever the first one adds to the recorded reads is found
alike by the second one, both give the same answer. -/
theorem answer_eq (h : Lockstep ctx built x x') (reads : List NestedRead) :
    ∃ more, (x.answer reads).2 = reads ++ more ∧
      ((∀ read ∈ more, FoundAlike ctx built read) → x'.answer reads = x.answer reads) := by
  induction h generalizing reads with
  | pure a => exact ⟨[], (List.append_nil reads).symm, fun _ => rfl⟩
  | throw _ => exact ⟨[], (List.append_nil reads).symm, fun _ => rfl⟩
  | get => exact ⟨[], (List.append_nil reads).symm, fun _ => rfl⟩
  | nested row field =>
      refine ⟨[⟨row, field, ctx.cteOf? row.table field⟩], rfl, fun hfound => ?_⟩
      have hfield : { ctx with built }.cteOf? row.table field = ctx.cteOf? row.table field :=
        hfound _ (List.mem_singleton_self _)
      unfold BodyContext.nested
      rw [hfield]
  | @bind α β x x' f f' _ _ ihx ihf =>
      obtain ⟨first, hfirst, hx⟩ := ihx reads
      unfold BodyM.answer at hfirst hx ⊢
      rw [run_bind, run_bind]
      rcases hanswer : x.run reads with ⟨result, after⟩
      rw [hanswer] at hfirst hx
      cases result with
      | error e =>
          refine ⟨first, hfirst, fun hfound => ?_⟩
          rw [hx hfound]
      | ok a =>
          -- what the second part records comes after what the first part does
          obtain ⟨second, hsecond, hf⟩ := ihf a after
          refine ⟨first ++ second, ?_, fun hfound => ?_⟩
          · have hfirst : after = reads ++ first := hfirst
            rw [← List.append_assoc, ← hfirst]
            exact hsecond
          · rw [List.forall_mem_append] at hfound
            rw [hx hfound.1]
            exact hf hfound.2

/-- No step knows which fields are registered. -/
theorem failsOnly_isConflict (h : Lockstep ctx built x x') (reads : List NestedRead) :
    FailsOnly (fun e => e.isConflict = false) (x.answer reads).1 := by
  induction h generalizing reads with
  | pure a => exact .ok a
  | throw he => exact .error he
  | get => exact .ok reads
  | nested row field => exact .ok _
  | @bind α β x x' f f' _ _ ihx ihf =>
      have hfirst := ihx reads
      unfold BodyM.answer at hfirst ⊢
      rw [run_bind]
      rcases hanswer : x.run reads with ⟨result, after⟩
      rw [hanswer] at hfirst
      cases result with
      | error e => exact .error (hfirst e rfl)
      | ok a => exact ihf a after

end Lockstep

end BodyM

/-! ### Errors -/

theorem FailsOnly.map {α β : Type} {P : CompileError → Prop} {x : Except CompileError α}
    (hx : FailsOnly P x) (f : α → β) : FailsOnly P (x.map f) := by
  cases x with
  | ok a => exact .ok _
  | error e => exact .error (hx e rfl)

theorem RollupFunction.parse_failsOnly (expression : String) :
    FailsOnly (fun e => e.isConflict = false) (RollupFunction.parse expression) := by
  unfold RollupFunction.parse
  split
  · exact .ok _
  · exact .error rfl

theorem Field.rollup?_failsOnly (field : Field) :
    FailsOnly (fun e => e.isConflict = false) field.rollup? := by
  unfold Field.rollup?
  split
  · next expression _ =>
      cases hparse : RollupFunction.parse expression with
      | ok f => exact .ok _
      | error e => exact .error (RollupFunction.parse_failsOnly expression e hparse)
  · next expression _ =>
      cases hparse : RollupFunction.parse expression with
      | ok f => exact .ok _
      | error e => exact .error (RollupFunction.parse_failsOnly expression e hparse)
  · exact .ok none

/-! ### Fields -/

namespace BodyContext

open BodyM (Lockstep)

variable {ctx : BodyContext} {built : List String}

theorem selectCarried_lockstep (row : Row) (scope : Scope) (fields : List Field) :
    Lockstep ctx built (ctx.selectCarried row scope fields)
      ({ ctx with built }.selectCarried row scope fields) := by
  induction fields generalizing scope with
  | nil => exact .pure scope
  | cons leaf rest ih =>
      unfold selectCarried
      split
      · exact .bind (.nested row leaf) fun sql => ih _
      · exact ih scope

theorem formulaValue_lockstep (row : Row) (field : Field) :
    Lockstep ctx built (ctx.formulaValue row field) ({ ctx with built }.formulaValue row field) := by
  refine .bind (selectCarried_lockstep row _ _) fun scope => ?_
  dsimp only
  cases hvalue : Context.compileField
      ⟨row.table, ctx.options.target row.side.rowAlias, scope⟩ field.id with
  | ok c => exact .pure c.sql
  | error e =>
      cases e with
      | fieldNotFound id => exact .pure _
      | _ => exact .throw (Context.expand_failsOnly_isConflict _ _ _ _ _ hvalue)

theorem value_lockstep (row : Row) (id : String) :
    Lockstep ctx built (ctx.value row id) ({ ctx with built }.value row id) := by
  unfold value
  cases row.table.field? id with
  | none => exact .pure none
  | some field =>
      dsimp only
      split
      · exact .pure _
      · exact .pure _
      · exact .bind (formulaValue_lockstep row field) fun sql => .pure _
      · exact .bind (.nested row field) fun sql => .pure _

theorem values_lockstep (row : Row) (ids : List String) :
    Lockstep ctx built (ctx.values row ids) ({ ctx with built }.values row ids) := by
  induction ids with
  | nil => exact .pure []
  | cons id rest ih => exact .bind (value_lockstep row id) fun first => .bind ih fun others => .pure _

theorem filterSql_lockstep (foreign other : Row) (filter : Filter) :
    Lockstep ctx built (ctx.filterSql foreign other filter)
      ({ ctx with built }.filterSql foreign other filter) := by
  refine .bind (values_lockstep foreign _) fun left => ?_
  refine .bind (values_lockstep other _) fun right => ?_
  dsimp only
  split
  · exact .pure _
  · next e hfilter =>
      obtain ⟨id, -, rfl⟩ := (filter.compile_looksUp.eq_error_iff e).1 hfilter
      exact .throw rfl

theorem filterSql?_lockstep (foreign other : Row) (filter : Option Filter) :
    Lockstep ctx built (ctx.filterSql? foreign other filter)
      ({ ctx with built }.filterSql? foreign other filter) := by
  cases filter with
  | none => exact .pure none
  | some f => exact .bind (filterSql_lockstep foreign other f) fun sql => .pure _

/-! ### Links -/

theorem memberOf_lockstep (row : Row) (field : Field) (related : Related)
    (rollup : Option RollupFunction) :
    Lockstep ctx built (ctx.memberOf row field related rollup)
      ({ ctx with built }.memberOf row field related rollup) := by
  refine .bind (value_lockstep row related.target) fun read => ?_
  exact .bind (filterSql?_lockstep row row related.filter) fun filter => .pure _

theorem member?_lockstep (row : Row) (field : Field) :
    Lockstep ctx built (ctx.member? row field) ({ ctx with built }.member? row field) := by
  unfold member?
  split
  · exact .bind (memberOf_lockstep row field _ none) fun m => .pure _
  · next expression _ =>
      split
      · next e hparse => exact .throw (RollupFunction.parse_failsOnly expression e hparse)
      · exact .bind (memberOf_lockstep row field _ _) fun m => .pure _
  · exact .pure none

theorem members_lockstep (row : Row) (fields : List Field) :
    Lockstep ctx built (ctx.members row fields) ({ ctx with built }.members row fields) := by
  induction fields with
  | nil => exact .pure []
  | cons field rest ih =>
      exact .bind (member?_lockstep row field) fun first => .bind ih fun others => .pure _

theorem linkBody_lockstep (host : Table) (field : Field) :
    Lockstep ctx built (ctx.linkBody host field) ({ ctx with built }.linkBody host field) := by
  unfold linkBody
  split
  · next link _ =>
      dsimp only
      split
      · exact .pure _
      · refine .bind (value_lockstep _ link.titleField) fun read => ?_
        refine .bind (members_lockstep _ _) fun members => ?_
        exact .bind .get fun reads => .pure _
  · exact .throw rfl

/-! ### Single fields -/

theorem keyPairs_lockstep (foreign host : Row) (pairs : List (String × String)) :
    Lockstep ctx built (ctx.keyPairs foreign host pairs)
      ({ ctx with built }.keyPairs foreign host pairs) := by
  induction pairs with
  | nil => exact .pure _
  | cons pair rest ih =>
      refine .bind (value_lockstep foreign pair.1) fun left => ?_
      refine .bind (value_lockstep host pair.2) fun right => ?_
      split
      · exact .bind ih fun others => .pure _
      · exact .pure none

theorem rowOrder_lockstep (row : Row) (sort : Option SortKey) (link : Option Link) :
    Lockstep ctx built (ctx.rowOrder row sort link) ({ ctx with built }.rowOrder row sort link) := by
  cases sort with
  | none => exact .pure _
  | some key => exact .bind (value_lockstep row key.field) fun read => .pure _

theorem condensedBody_lockstep (host foreign : Table) (field : Field) (choice : RowChoice)
    (link : Option Link) (c : Condensation) (value order : String) :
    Lockstep ctx built (ctx.condensedBody host foreign field choice link c value order)
      ({ ctx with built }.condensedBody host foreign field choice link c value order) := by
  unfold condensedBody
  dsimp only
  split
  · refine .bind (keyPairs_lockstep _ _ _) fun keys => ?_
    split
    · exact .pure _
    · exact .bind .get fun reads => .pure _
  · refine .bind (filterSql?_lockstep _ _ _) fun filter => ?_
    exact .bind .get fun reads => .pure _

theorem conditionalBody_lockstep (host : Table) (field : Field) :
    Lockstep ctx built (ctx.conditionalBody host field)
      ({ ctx with built }.conditionalBody host field) := by
  unfold conditionalBody
  split
  · exact .throw rfl
  · next choice _ =>
      split
      · next e hrollup => exact .throw (field.rollup?_failsOnly e hrollup)
      · dsimp only
        split
        · refine .bind (value_lockstep _ choice.related.target) fun read => ?_
          split
          · exact .pure _
          · refine .bind (rowOrder_lockstep _ _ _) fun order => ?_
            exact condensedBody_lockstep _ _ _ _ _ _ _ _
        · exact .pure _

end BodyContext

/-! ### Units -/

namespace CteUnit

variable {ctx : BodyContext} {built : List String} {unit : CteUnit}

/-- The body of a unit, when different expressions exist. -/
theorem bodyM_lockstep (ctx : BodyContext) (built : List String) (unit : CteUnit) (host : Table)
    (field : Field) :
    BodyM.Lockstep ctx built (unit.bodyM ctx host field)
      (unit.bodyM { ctx with built } host field) := by
  cases unit with
  | link table id => exact BodyContext.linkBody_lockstep host field
  | conditional table id => exact BodyContext.conditionalBody_lockstep host field

/-- No body fails because of what is registered. -/
theorem body?_failsOnly_isConflict (ctx : BodyContext) (unit : CteUnit) :
    FailsOnly (fun e => e.isConflict = false) (unit.body? ctx) := by
  unfold body?
  obtain ⟨htrace, -⟩ | ⟨host, field, -, -, htrace⟩ := trace_cases ctx unit
  · rw [htrace]
    exact .ok none
  · rw [htrace]
    exact ((bodyM_lockstep ctx [] unit host field).failsOnly_isConflict []).map some

/-- Whether a read finds its field depends on whether the unit that carries the field exists. -/
theorem foundAlike_of_carrier {read : NestedRead} {carrier : CteUnit}
    (hcarrier : of? read.row.table read.field = some carrier)
    (h : carrier.name ∈ ctx.built ↔ carrier.name ∈ built) : BodyM.FoundAlike ctx built read := by
  simp [BodyM.FoundAlike, BodyContext.cteOf?, hcarrier, Option.filter, h]

/-- **A body depends on which of its requirements exist**, and on no other expression. -/
theorem trace_congr
    (h : ∀ carrier ∈ ctx.catalog.requirements unit, carrier.name ∈ ctx.built ↔ carrier.name ∈ built) :
    unit.trace { ctx with built } = unit.trace ctx := by
  have hfound : ∀ read ∈ (unit.trace ctx).2, BodyM.FoundAlike ctx built read := by
    intro read hread
    obtain ⟨carrier, hforesees⟩ := foresees_of_mem_trace hread
    exact foundAlike_of_carrier hforesees.carrier_eq (h carrier hforesees.required)
  unfold trace at hfound ⊢
  dsimp only
  split
  · rfl
  · next host hhost =>
      split
      · rfl
      · next field hfield =>
          simp only [hhost, hfield] at hfound
          obtain ⟨more, hmore, hanswer⟩ := (bodyM_lockstep ctx built unit host field).answer_eq []
          rw [hmore, List.nil_append] at hfound
          rw [hanswer hfound]

end CteUnit

end ComputedFields
