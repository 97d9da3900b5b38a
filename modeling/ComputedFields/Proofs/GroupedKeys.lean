/-
**Rows that are grouped by equal fields.**

When the filter of a conditional field asks for nothing but equal fields, the filter is not compiled at all.
The foreign rows are grouped by their fields and the groups are joined to the host records.  Which rows a
host record gets should not depend on this, so the keys and what they are joined with should be the two
sides of the comparisons that the filter would be compiled to.

They are, but for links.  A filter compares a link by its title, and the rows are grouped by the link as it
is.  So the groups are right exactly when no field of the foreign record that is compared is a link.

Main definitions:

* `ComputedFields.Filter.Met` — a filter is met, given which conditions are.

Main results:

* `ComputedFields.Filter.met_iff_of_equalities?` — when a filter for equal fields is met;
* `ComputedFields.Dialect.compared_eq_self_iff` — a field is compared as it is unless it is a link;
* `ComputedFields.BodyContext.condensedBody_grouped` — rows are grouped by what is read of the pairs;
* `ComputedFields.BodyContext.conditionalBody_keys` — **the groups against the filter**.
-/

import ComputedFields.Proofs.DanglingReferences
import ComputedFields.Proofs.FilterSides

set_option relaxedAutoImplicit false
set_option autoImplicit false

namespace ComputedFields

open Sql

/-! ### When a filter is met -/

namespace Filter

mutual

/-- The filter is met, given which conditions are.  Without conditions every row meets it. -/
def Met (meets : Condition → Prop) : Filter → Prop
  | .condition c => meets c
  | .all children => AllMet meets children
  | .any children => children = [] ∨ AnyMet meets children

/-- All of the filters are met. -/
def AllMet (meets : Condition → Prop) : List Filter → Prop
  | [] => True
  | f :: rest => f.Met meets ∧ AllMet meets rest

/-- One of the filters is met. -/
def AnyMet (meets : Condition → Prop) : List Filter → Prop
  | [] => False
  | f :: rest => f.Met meets ∨ AnyMet meets rest

end

variable {meets : Condition → Prop}

mutual

/-- A filter for equal fields is met when each of its pairs is equal. -/
theorem met_iff_of_equalities? : ∀ (f : Filter) {pairs : List (String × String)},
    f.equalities? = some pairs → (f.Met meets ↔ ∀ p ∈ pairs, meets ⟨p.1, .is, .field p.2⟩)
  | .condition ⟨field, op, operand⟩, pairs, h => by
      cases op <;> cases operand <;> simp [equalities?] at h
      subst h
      simp [Met]
  | .all children, pairs, h => allMet_iff_of_equalities? children h
  | .any children, pairs, h => by simp [equalities?] at h

theorem allMet_iff_of_equalities? : ∀ (fs : List Filter) {pairs : List (String × String)},
    equalitiesOfAll? fs = some pairs →
      (AllMet meets fs ↔ ∀ p ∈ pairs, meets ⟨p.1, .is, .field p.2⟩)
  | [], pairs, h => by
      cases h
      simp [AllMet]
  | f :: rest, pairs, h => by
      unfold equalitiesOfAll? at h
      split at h
      · next first others hfirst hothers =>
          cases h
          rw [AllMet, met_iff_of_equalities? f hfirst, allMet_iff_of_equalities? rest hothers,
            List.forall_mem_append]
      · cases h

end

end Filter

/-! ### Links and their titles -/

/-- The title of a link has its SQL inside. -/
theorem Dialect.exists_linkTitle (d : Dialect) (x : String) (multi : Bool) :
    ∃ before after, before ≠ "" ∧ d.linkTitle x multi = before ++ x ++ after := by
  cases d with
  | postgres => cases multi <;> exact ⟨_, _, by simp, rfl⟩
  | sqlite => cases multi <;> exact ⟨_, _, by simp, rfl⟩

/-- **A field is compared as it is unless it is a link.** -/
theorem Dialect.compared_eq_self_iff (d : Dialect) (field : Option Field) (value : String) :
    d.compared field value = value ↔ (field.any fun f => f.kind.isLink) = false := by
  unfold Dialect.compared
  split
  · next hlink =>
      obtain ⟨before, after, hbefore, htitle⟩ := d.exists_linkTitle value (field.any Field.multi)
      constructor
      · intro h
        have hlength := congrArg String.length (htitle.symm.trans h)
        rw [String.length_append, String.length_append] at hlength
        exact absurd (String.length_eq_zero_iff.1 (by omega)) hbefore
      · intro h
        rw [hlink] at h
        cases h
  · next hlink => simpa using hlink

/-- The comparison that a filter makes of two fields. -/
theorem Condition.sqlBy_is (d : Dialect) (field : String → Option Field) (left right : String → String)
    (a b : String) : Condition.sqlBy d field left right ⟨a, .is, .field b⟩ =
      "(" ++ d.compared (field a) (left a) ++ " = " ++ right b ++ ")" := rfl

/-! ### Grouped rows -/

/-- Only without link and order are rows grouped. -/
theorem RowChoice.bare_of_groupPairs? {choice : RowChoice} {pairs : List (String × String)}
    (h : choice.groupPairs? = some pairs) :
    choice.linkField = none ∧ choice.related.sort = none := by
  unfold RowChoice.groupPairs? at h
  split at h
  · next hguard =>
      simp only [Bool.and_eq_true, Option.isNone_iff_eq_none] at hguard
      exact ⟨hguard.1.1.1, hguard.1.1.2⟩
  · cases h

theorem BodyM.Settled.returns {α : Type} {x : BodyM α} {a : α} (h : x.Settled (.ok a)) :
    x.Returns fun b => b = a := by
  intro reads
  have hfirst : (x.run reads).1 = .ok a := h reads
  exact ⟨a, (x.run reads).2, Prod.ext hfirst rfl, rfl⟩

namespace BodyContext

variable {ctx : BodyContext} {row foreign host : Row} {id : String} {pairs : List (String × String)}

/-- The field is there and can be read on the record. -/
def Finds (ctx : BodyContext) (row : Row) (id : String) : Prop := (ctx.found row id).isSome = true

theorem Finds.readable (h : ctx.Finds row id) : ctx.Readable row id := by
  obtain ⟨v, hv⟩ := Option.isSome_iff_exists.1 h
  exact ⟨some v, read_of_found hv⟩

theorem Finds.value_settled (h : ctx.Finds row id) :
    ∃ field, ctx.fieldOn row id = some field ∧
      (ctx.value row id).Settled (.ok (some (ctx.sqlOn row id, field))) := by
  obtain ⟨v, hv⟩ := Option.isSome_iff_exists.1 h
  have hvalue : (ctx.value row id).Settled (ctx.read row id) := BodyContext.value_settled row id
  rw [read_of_found hv] at hvalue
  refine ⟨v.2, ?_, ?_⟩
  · rw [fieldOn, hv]
    rfl
  · rw [sqlOn, hv]
    exact hvalue

theorem keyPairs_settled (h : ∀ p ∈ pairs, ctx.Finds foreign p.1 ∧ ctx.Finds host p.2) :
    (ctx.keyPairs foreign host pairs).Settled
      (.ok (some (pairs.map fun p => (ctx.sqlOn foreign p.1, ctx.sqlOn host p.2)))) := by
  induction pairs with
  | nil => exact BodyM.settled_pure _
  | cons pair rest ih =>
      rw [List.forall_mem_cons] at h
      obtain ⟨left, -, hleft⟩ := h.1.1.value_settled
      obtain ⟨right, -, hright⟩ := h.1.2.value_settled
      exact hleft.bind (hright.bind ((ih h.2).bind (BodyM.settled_pure _)))

/-- With a pair that is not there on both records, there are no keys. -/
theorem keyPairs_settled_none (hread : ∀ p ∈ pairs, ctx.Readable foreign p.1 ∧ ctx.Readable host p.2)
    (h : ∃ p ∈ pairs, ¬ (ctx.Finds foreign p.1 ∧ ctx.Finds host p.2)) :
    (ctx.keyPairs foreign host pairs).Settled (.ok none) := by
  induction pairs with
  | nil =>
      obtain ⟨p, hp, -⟩ := h
      cases hp
  | cons pair rest ih =>
      rw [List.forall_mem_cons] at hread
      have hleft : (ctx.value foreign pair.1).Settled (.ok (ctx.found foreign pair.1)) :=
        hread.1.1.read_eq ▸ BodyContext.value_settled foreign pair.1
      have hright : (ctx.value host pair.2).Settled (.ok (ctx.found host pair.2)) :=
        hread.1.2.read_eq ▸ BodyContext.value_settled host pair.2
      refine hleft.bind (hright.bind ?_)
      split
      · next l r hl hr =>
          have hfinds : ctx.Finds foreign pair.1 ∧ ctx.Finds host pair.2 :=
            ⟨Option.isSome_iff_exists.2 ⟨l, hl⟩, Option.isSome_iff_exists.2 ⟨r, hr⟩⟩
          obtain ⟨p, hp, hmissing⟩ := h
          rcases List.mem_cons.1 hp with rfl | hp
          · exact absurd hfinds hmissing
          · exact (ih hread.2 ⟨p, hp, hmissing⟩).bind (BodyM.settled_pure _)
      · exact BodyM.settled_pure none

variable {hostTable foreignTable : Table} {field : Field} {choice : RowChoice}

/-- **Rows are grouped by what is read of the pairs** on the foreign record, and joined with what is read
on the host record. -/
theorem condensedBody_grouped (hpairs : choice.groupPairs? = some pairs)
    (h : ∀ p ∈ pairs, ctx.Finds ⟨.foreign, foreignTable⟩ p.1 ∧ ctx.Finds ⟨.host, hostTable⟩ p.2)
    (link : Option Link) (c : Condensation) (value order : String) :
    (ctx.condensedBody hostTable foreignTable field choice link c value order).Returns fun body =>
      ∃ source, body = groupedBody ctx.dialect hostTable field c
        { value, source, order, flatten := c.flattens ctx.dialect
          numbered := ctx.dialect.ordersAggregates
          keys := pairs.map fun p => ctx.sqlOn ⟨.foreign, foreignTable⟩ p.1 }
        (pairs.map fun p => ctx.sqlOn ⟨.host, hostTable⟩ p.2) := by
  unfold condensedBody
  rw [hpairs]
  refine (keyPairs_settled h).returns.bind fun keys hkeys => ?_
  subst hkeys
  refine BodyM.returns_get.bind fun reads _ => BodyM.returns_pure ?_
  rw [List.map_map, List.map_map]
  exact ⟨_, rfl⟩

theorem condensedBody_degraded (hpairs : choice.groupPairs? = some pairs)
    (hread : ∀ p ∈ pairs, ctx.Readable ⟨.foreign, foreignTable⟩ p.1 ∧
      ctx.Readable ⟨.host, hostTable⟩ p.2)
    (h : ∃ p ∈ pairs, ¬ (ctx.Finds ⟨.foreign, foreignTable⟩ p.1 ∧ ctx.Finds ⟨.host, hostTable⟩ p.2))
    (link : Option Link) (c : Condensation) (value order : String) :
    (ctx.condensedBody hostTable foreignTable field choice link c value order).Settled
      (.ok (ctx.degraded hostTable [field])) := by
  unfold condensedBody
  rw [hpairs]
  exact (keyPairs_settled_none hread h).bind (BodyM.settled_pure _)

/-- The body of a field whose rows can be grouped and whose target is there, up to the condensed rows. -/
theorem conditionalBody_returns_of_condensed {Q : Body → Prop}
    (hchoice : field.rowChoice? = some choice) (hpairs : choice.groupPairs? = some pairs)
    (hrollup : field.rollup?.isOk = true)
    (hforeign : ctx.catalog.table? choice.related.foreignTable = some foreignTable)
    (htarget : ctx.Finds ⟨.foreign, foreignTable⟩ choice.related.target)
    (h : ∀ c value order,
      (ctx.condensedBody hostTable foreignTable field choice none c value order).Returns Q) :
    (ctx.conditionalBody hostTable field).Returns Q := by
  obtain ⟨hlink, hsort⟩ := RowChoice.bare_of_groupPairs? hpairs
  obtain ⟨target, -, hvalue⟩ := htarget.value_settled
  unfold conditionalBody
  rw [hchoice]
  cases hroll : field.rollup? with
  | error e =>
      rw [hroll] at hrollup
      cases hrollup
  | ok rollup =>
      simp only [hforeign, RowChoice.link?, hlink]
      refine hvalue.returns.bind fun read hread => ?_
      subst hread
      rw [hsort]
      exact (BodyM.settled_pure _).returns.bind fun order _ => h _ _ order

theorem conditionalBody_grouped (hchoice : field.rowChoice? = some choice)
    (hpairs : choice.groupPairs? = some pairs) (hrollup : field.rollup?.isOk = true)
    (hforeign : ctx.catalog.table? choice.related.foreignTable = some foreignTable)
    (htarget : ctx.Finds ⟨.foreign, foreignTable⟩ choice.related.target)
    (h : ∀ p ∈ pairs, ctx.Finds ⟨.foreign, foreignTable⟩ p.1 ∧ ctx.Finds ⟨.host, hostTable⟩ p.2) :
    (ctx.conditionalBody hostTable field).Returns fun body =>
      ∃ c rows, rows.keys = pairs.map (fun p => ctx.sqlOn ⟨.foreign, foreignTable⟩ p.1) ∧
        body = groupedBody ctx.dialect hostTable field c rows
          (pairs.map fun p => ctx.sqlOn ⟨.host, hostTable⟩ p.2) := by
  refine conditionalBody_returns_of_condensed hchoice hpairs hrollup hforeign htarget ?_
  intro c value order reads
  obtain ⟨body, after, hrun, source, rfl⟩ := condensedBody_grouped hpairs h none c value order reads
  exact ⟨_, after, hrun, c, _, rfl, rfl⟩

/-- **The groups against the filter.**  A field whose filter asks for nothing but equal fields, and has no
link, order or limit, is read from groups of rows.  If the fields of all pairs are there, the keys are those
of the foreign record and they are joined with those of the host record; if one is missing, so is the
field.  The filter, with each side on its own record, would compare the same pairs in the same order and
with the same right sides.  The left sides are the keys, unless they are links.  So without links a row
meets the filter exactly when its keys are equal to those of the host. -/
theorem conditionalBody_keys {filter : Filter} (hchoice : field.rowChoice? = some choice)
    (hfilter : choice.related.filter = some filter) (hpairs : choice.groupPairs? = some pairs)
    (hrollup : field.rollup?.isOk = true)
    (hforeign : ctx.catalog.table? choice.related.foreignTable = some foreignTable)
    (htarget : ctx.Finds ⟨.foreign, foreignTable⟩ choice.related.target)
    (hread : ∀ p ∈ pairs, ctx.Readable ⟨.foreign, foreignTable⟩ p.1 ∧
      ctx.Readable ⟨.host, hostTable⟩ p.2) (reads : List NestedRead) :
    let d := ctx.filterDialect
    let onForeign := ctx.fieldOn ⟨.foreign, foreignTable⟩
    let key := ctx.sqlOn ⟨.foreign, foreignTable⟩
    let hostKey := ctx.sqlOn ⟨.host, hostTable⟩
    let isLink (id : String) : Bool := (onForeign id).any fun f => f.kind.isLink
    ((∀ p ∈ pairs, ctx.Finds ⟨.foreign, foreignTable⟩ p.1 ∧ ctx.Finds ⟨.host, hostTable⟩ p.2) →
      ∃ c rows, rows.keys = pairs.map (fun p => key p.1) ∧
        ((ctx.conditionalBody hostTable field).answer reads).1 =
          .ok (groupedBody ctx.dialect hostTable field c rows (pairs.map fun p => hostKey p.2))) ∧
    ((∃ p ∈ pairs, ¬ (ctx.Finds ⟨.foreign, foreignTable⟩ p.1 ∧ ctx.Finds ⟨.host, hostTable⟩ p.2)) →
      ((ctx.conditionalBody hostTable field).answer reads).1 = .ok (ctx.degraded hostTable [field])) ∧
    filter.conditions.map (Condition.sqlBy d onForeign key hostKey) =
      pairs.map (fun p => "(" ++ d.compared (onForeign p.1) (key p.1) ++ " = " ++ hostKey p.2 ++ ")") ∧
    (∀ p ∈ pairs, d.compared (onForeign p.1) (key p.1) = key p.1 ↔ isLink p.1 = false) ∧
    ((∀ p ∈ pairs, isLink p.1 = false) → ∀ holds : String → Prop,
      filter.Met (fun c => holds (c.sqlBy d onForeign key hostKey)) ↔
        ∀ p ∈ pairs, holds ("(" ++ key p.1 ++ " = " ++ hostKey p.2 ++ ")")) := by
  intro d onForeign key hostKey isLink
  obtain ⟨-, f, hf, hequal⟩ := RowChoice.of_groupPairs? hpairs
  cases hfilter.symm.trans hf
  have hequalities : filter.equalities? = some pairs := (Option.filter_eq_some_iff.1 hequal).1
  refine ⟨?_, ?_, ?_, ?_, ?_⟩
  · intro hfinds
    obtain ⟨body, after, hrun, c, rows, hkeys, rfl⟩ := conditionalBody_grouped hchoice hpairs hrollup
      hforeign htarget hfinds reads
    exact ⟨c, rows, hkeys, congrArg Prod.fst hrun⟩
  · intro hmissing
    obtain ⟨body, after, hrun, rfl⟩ := conditionalBody_returns_of_condensed hchoice hpairs hrollup
      hforeign htarget
      (fun c value order => (condensedBody_degraded hpairs hread hmissing none c value order).returns) reads
    exact congrArg Prod.fst hrun
  · rw [Filter.conditions_of_equalities? filter hequalities, List.map_map]
    exact List.map_congr_left fun p _ => Condition.sqlBy_is d onForeign key hostKey p.1 p.2
  · intro p _
    exact d.compared_eq_self_iff (onForeign p.1) (key p.1)
  · intro hlinks holds
    rw [Filter.met_iff_of_equalities? filter hequalities]
    refine forall₂_congr fun p hp => ?_
    have hkey : d.compared (onForeign p.1) (key p.1) = key p.1 :=
      (d.compared_eq_self_iff (onForeign p.1) (key p.1)).2 (hlinks p hp)
    rw [Condition.sqlBy_is, hkey]

end BodyContext

namespace Sample

/-- People whose name is the city of the host and whose city is the name of the host. -/
def mirrored : Related where
  foreignTable := "p"
  target := "n"
  filter := some (.all [.condition ⟨"n", .is, .field "c"⟩, .condition ⟨"c", .is, .field "n"⟩])

/-- People who live with the host. -/
def lodgers : Related where
  foreignTable := "p"
  target := "n"
  filter := some (.condition ⟨"h", .is, .field "n"⟩)

def mirroredField : Field := .ofConditionalLookup "o" "mirrored" .string none mirrored

def lodgersField : Field := .ofConditionalLookup "l" "lodgers" .string none lodgers

def neighbours : Table :=
  .ofFields "p" "people"
    [.single "n" "name" .string .column, .single "c" "city" .string .column, linkTo "h" "p" "n",
     mirroredField, lodgersField]

def neighbourContext : BodyContext :=
  { catalog := .ofTables [neighbours], options := { now := ⟨0⟩ }, filterDialect := .postgres
    built := ["CTE_h"] }

/-- A field of a neighbour as a foreign record, and one of the neighbour that is the host. -/
def onNeighbour : String → String := neighbourContext.sqlOn ⟨.foreign, neighbours⟩

def onHost : String → String := neighbourContext.sqlOn ⟨.host, neighbours⟩

theorem neighbours_finds : ∀ p ∈ [("n", "c"), ("c", "n")],
    neighbourContext.Finds ⟨.foreign, neighbours⟩ p.1 ∧
      neighbourContext.Finds ⟨.host, neighbours⟩ p.2 := by
  intro p hp
  simp only [List.mem_cons, List.not_mem_nil, or_false] at hp
  rcases hp with rfl | rfl
  · exact ⟨rfl, rfl⟩
  · exact ⟨rfl, rfl⟩

end Sample

namespace BodyContext

/-- Rows that are grouped by two columns are those that the filter asks for. -/
theorem conditionalBody_keys_mirrored :
    (∃ c rows, rows.keys = ["\"f\".\"name\"", "\"f\".\"city\""] ∧
      ((Sample.neighbourContext.conditionalBody Sample.neighbours Sample.mirroredField).answer []).1 =
        .ok (groupedBody .postgres Sample.neighbours Sample.mirroredField c rows
          ["\"m\".\"city\"", "\"m\".\"name\""])) ∧
      ∀ holds : String → Prop,
        Filter.Met (fun c => holds (c.sqlBy .postgres
            (Sample.neighbourContext.fieldOn ⟨.foreign, Sample.neighbours⟩) Sample.onNeighbour
            Sample.onHost))
          (.all [.condition ⟨"n", .is, .field "c"⟩, .condition ⟨"c", .is, .field "n"⟩]) ↔
        ∀ p ∈ [("n", "c"), ("c", "n")],
          holds ("(" ++ Sample.onNeighbour p.1 ++ " = " ++ Sample.onHost p.2 ++ ")") := by
  have hchoice : Sample.mirroredField.rowChoice? = some ⟨none, Sample.mirrored, true⟩ := rfl
  have hpairs : RowChoice.groupPairs? ⟨none, Sample.mirrored, true⟩ =
      some [("n", "c"), ("c", "n")] := rfl
  have hforeign : Sample.neighbourContext.catalog.table? "p" = some Sample.neighbours := rfl
  have htarget : Sample.neighbourContext.Finds ⟨.foreign, Sample.neighbours⟩ "n" := rfl
  obtain ⟨hgrouped, -, -, -, hmet⟩ := conditionalBody_keys hchoice rfl hpairs rfl hforeign htarget
    (fun p hp => (Sample.neighbours_finds p hp).imp Finds.readable Finds.readable) []
  refine ⟨hgrouped Sample.neighbours_finds, hmet ?_⟩
  intro p hp
  simp only [List.mem_cons, List.not_mem_nil, or_false] at hp
  rcases hp with rfl | rfl
  · rfl
  · rfl

/-- People are grouped by their homes, and compared by the names of these. -/
theorem lodgers_grouped_by_link :
    (∃ c rows, rows.keys = ["\"CTE_h\".\"h\""] ∧
      ((Sample.neighbourContext.conditionalBody Sample.neighbours Sample.lodgersField).answer []).1 =
        .ok (groupedBody .postgres Sample.neighbours Sample.lodgersField c rows
          ["\"m\".\"name\""])) ∧
      Condition.sqlBy .postgres (Sample.neighbourContext.fieldOn ⟨.foreign, Sample.neighbours⟩)
        Sample.onNeighbour Sample.onHost ⟨"h", .is, .field "n"⟩ =
          "((\"CTE_h\".\"h\" ->> 'title') = \"m\".\"name\")" := by
  have hchoice : Sample.lodgersField.rowChoice? = some ⟨none, Sample.lodgers, true⟩ := rfl
  have hforeign : Sample.neighbourContext.catalog.table? "p" = some Sample.neighbours := rfl
  have htarget : Sample.neighbourContext.Finds ⟨.foreign, Sample.neighbours⟩ "n" := rfl
  have hfinds : ∀ p ∈ [("h", "n")], Sample.neighbourContext.Finds ⟨.foreign, Sample.neighbours⟩ p.1 ∧
      Sample.neighbourContext.Finds ⟨.host, Sample.neighbours⟩ p.2 := by
    intro p hp
    rw [List.mem_singleton.1 hp]
    exact ⟨rfl, rfl⟩
  obtain ⟨body, after, hrun, c, rows, hkeys, rfl⟩ :=
    conditionalBody_grouped hchoice rfl rfl hforeign htarget hfinds []
  exact ⟨⟨c, rows, hkeys, congrArg Prod.fst hrun⟩, rfl⟩

end BodyContext

end ComputedFields
