/-
**Circles of formula fields.**

Formula fields may refer to each other in a circle, and then they have no value.  The compiler finds this
out by looking for a field on the path of those that are being expanded, and it reports the part of the
path that the field closes.  Here it is shown that what it reports is a circle of the table which the
request leads to, and that a request that leads to a circle is never answered with a value.  The report
may be another one: an error that is met first, or another circle.

The bound on the depth plays no part in this.  It is not reached, so that a larger one changes nothing.

Main definitions:

* `ComputedFields.Table.IsCircle` — a list of formula fields, each leading to the next, that is closed by
  its first one;
* `ComputedFields.Table.Reachable` — the fields that a request leads to;
* `ComputedFields.Table.Way` — the way from a request to a field;
* `ComputedFields.Context.askWithin` — the answer to a request within a bound on the depth.

Main results:

* `ComputedFields.Context.expandOnce_eq_of_trail` — the bound is not reached;
* `ComputedFields.Table.Way.isCircle` — a field that is met again closes a circle;
* `ComputedFields.Context.isCircle_of_expand` — **a reported circle is one**;
* `ComputedFields.Context.not_onCircle_of_valueOf` — **there is no circle behind a value**;
* `ComputedFields.Context.ask_circular` — both of them in any session, within any sufficient bound.
-/

import Mathlib.Data.List.Chain
import ComputedFields.Proofs.Faults
import ComputedFields.Proofs.SessionAnswers

set_option relaxedAutoImplicit false
set_option autoImplicit false

namespace ComputedFields

open Relation (ReflTransGen TransGen)

/-! ### The bound on the depth -/

/-- Steps that do the same in every session that is expanding the fields of the path, and go on with
them. -/
def SessionM.SameOn {α : Type} (path : List String) (x y : SessionM α) : Prop :=
  ∀ s, s.visiting = path → x.answer s = y.answer s ∧ (x.answer s).2.visiting = path

theorem SessionM.simulation_sameOn (path : List String) :
    Simulation fun (α : Type) (x y : SessionM α) => SameOn path x y where
  pure _ _ hs := ⟨rfl, hs⟩
  throw _ _ hs := ⟨rfl, hs⟩
  bind := by
    intro α β x y f g hxy hfg s hs
    obtain ⟨hanswer, hvisiting⟩ := hxy s hs
    rcases hx : x.answer s with ⟨result, after⟩
    rw [hx] at hanswer hvisiting
    cases result with
    | ok a =>
        rw [answer_bind_of_ok hx, answer_bind_of_ok hanswer.symm]
        exact hfg a after hvisiting
    | error e =>
        rw [answer_bind_of_error hx, answer_bind_of_error hanswer.symm]
        exact ⟨rfl, hvisiting⟩

theorem SessionM.SameOn.fromScratch {path : List String} {x y : SessionM Compiled}
    (h : SameOn path x y) : SameOn path (fromScratch x) (fromScratch y) := by
  have hend (c : Compiled) : SameOn path
      (do let s ← get; pure { c with reads := s.reads } : SessionM Compiled)
      (do let s ← get; pure { c with reads := s.reads }) := fun s hs => ⟨rfl, hs⟩
  refine (simulation_sameOn path).bind (fun s hs => ⟨rfl, hs⟩) fun _ => ?_
  exact (simulation_sameOn path).bind h hend

namespace Context

open SessionM

variable {ctx : Context} {depth depth' : Nat} {path : List String} {id : String}

/-- **The bound is not reached**: on a trail a field is expanded alike within any two bounds that the
fields of the table do not use up. -/
theorem expandOnce_eq_of_trail (htrail : ctx.table.Trail path id)
    (hdepth : ctx.table.fields.length < depth + path.length)
    (hdepth' : ctx.table.fields.length < depth' + path.length) :
    SameOn path (ctx.expandOnce depth id) (ctx.expandOnce depth' id) := by
  induction depth generalizing depth' path id with
  | zero =>
      obtain ⟨rest, hrest⟩ := htrail.exists_succ hdepth
      cases hrest
  | succ depth ih =>
      obtain ⟨depth', rfl⟩ := htrail.exists_succ hdepth'
      intro s hs
      refine ⟨?_, (expandOnce_restores ctx _ id s).trans hs⟩
      cases hfield : ctx.table.field? id with
      | none => rw [answer_expandOnce_of_none hfield, answer_expandOnce_of_none hfield]
      | some field =>
          cases hkind : field.kind with
          | formula source persisted =>
              cases hget : s.memo.get? id with
              | some c =>
                  rw [answer_expandOnce_of_memo hfield hkind hget,
                    answer_expandOnce_of_memo hfield hkind hget]
              | none =>
                  by_cases hvisiting : id ∈ s.visiting
                  · rw [answer_expandOnce_of_visiting hfield hkind hget hvisiting,
                      answer_expandOnce_of_visiting hfield hkind hget hvisiting]
                  have hpath : id ∉ path := hs ▸ hvisiting
                  cases hformula : source.formula with
                  | error e =>
                      rw [answer_expandOnce_of_unreadable hfield hkind hget hvisiting hformula,
                        answer_expandOnce_of_unreadable hfield hkind hget hvisiting hformula]
                  | ok f =>
                      have hholds : ctx.table.Holds id f :=
                        ⟨field, source, persisted, hfield, hkind, hformula⟩
                      have hinner : SameOn (path ++ [id])
                          (f.compileWith ctx.target (ctx.expandOnce depth))
                          (f.compileWith ctx.target (ctx.expandOnce depth')) :=
                        Formula.compileWith_simulates (simulation_sameOn _) fun ref href =>
                          ih (htrail.step hpath (hholds.leads href)) (Table.depth_step hdepth)
                            (Table.depth_step hdepth')
                      have henter : (s.enter id).visiting = path ++ [id] := by rw [Session.enter, hs]
                      obtain ⟨hsame, -⟩ := hinner _ henter
                      rw [answer_expandOnce_of_formula hfield hkind hget hvisiting hformula rfl,
                        answer_expandOnce_of_formula hfield hkind hget hvisiting hformula hsame.symm]
          | _ =>
              have hplain : field.kind.isFormula = false := by rw [hkind]; rfl
              rw [answer_expandOnce_of_isFormula hfield hplain, answer_expandOnce_of_isFormula hfield hplain]

/-- The step of a session that answers a request within a bound on the depth. -/
def askWithin (ctx : Context) (depth : Nat) : Request → SessionM Compiled
  | .tree (some f) => fromScratch (f.compileWith ctx.target (ctx.expandOnce depth))
  | .tree none => fromScratch (throw (.parse .emptyInput))
  | .field id => fromScratch (ctx.expandOnce depth id)

theorem ask_eq_askWithin (request : Request) : ctx.ask request = ctx.askWithin ctx.depth request := by
  rcases request with (_ | f) | id
  · rfl
  · rfl
  · rfl

theorem askWithin_eq_ask (hdepth : ctx.depth ≤ depth) (request : Request) :
    SameOn [] (ctx.askWithin depth request) (ctx.ask request) := by
  have hfield (id : String) : SameOn [] (ctx.expandOnce depth id) (ctx.expandOnce ctx.depth id) :=
    expandOnce_eq_of_trail .nil (Nat.lt_of_succ_le hdepth) (Nat.lt_succ_self _)
  rw [ask_eq_askWithin]
  rcases request with (_ | f) | id
  · exact fun s hs => ⟨rfl, hs⟩
  · exact (Formula.compileWith_simulates (simulation_sameOn _) fun ref _ => hfield ref).fromScratch
  · exact (hfield id).fromScratch

end Context

/-! ### Circles and the ways to them -/

namespace Table

/-- Formula fields of the table, each of which refers to the next one.  The first one closes the list and
none of the others occurs twice. -/
structure IsCircle (table : Table) (c : List String) : Prop where
  two_le : 2 ≤ c.length
  closed : c.head? = c.getLast?
  nodup : c.dropLast.Nodup
  holds : ∀ id ∈ c, ∃ f, table.Holds id f
  leads : c.IsChain table.Leads

/-- The request asks for the field, or for a formula that leads to it. -/
def Reachable (table : Table) : Request → String → Prop
  | .tree (some f), id => table.Reaches f id
  | .tree none, _ => False
  | .field first, id => ReflTransGen table.Leads first id

/-- The way from a request to a field: the formula fields of the path, which lead one to the next and
then to the field, none of them passed twice. -/
structure Way (table : Table) (request : Request) (path : List String) (id : String) : Prop
    extends Trail table path id where
  chain : (path ++ [id]).IsChain table.Leads
  reached : table.Reachable request id

variable {table : Table} {request : Request} {path : List String} {id ref : String}

theorem Reachable.tail (h : table.Reachable request id) (hlead : table.Leads id ref) :
    table.Reachable request ref := by
  rcases request with (_ | f) | first
  · exact h
  · obtain ⟨first, hfirst, hway⟩ := h
    exact ⟨first, hfirst, hway.tail hlead⟩
  · exact ReflTransGen.tail h hlead

theorem Way.nil (h : table.Reachable request id) : table.Way request [] id :=
  ⟨.nil, .singleton id, h⟩

theorem Way.step (h : table.Way request path id) (hid : id ∉ path) (hlead : table.Leads id ref) :
    table.Way request (path ++ [id]) ref := by
  refine ⟨h.toTrail.step hid hlead, ?_, h.reached.tail hlead⟩
  rw [List.append_assoc, List.singleton_append, List.isChain_append_cons_cons]
  exact ⟨h.chain, hlead, .singleton ref⟩

/-- Whatever is passed on a trail is a formula field. -/
theorem Trail.exists_holds (h : table.Trail path id) {x : String} (hx : x ∈ path) :
    ∃ f, table.Holds x f := by
  obtain ⟨_, ⟨f, hholds, _⟩, _⟩ := TransGen.head'_iff.1 (h.leads x hx)
  exact ⟨f, hholds⟩

/-- What is reported starts where the path first meets the field. -/
theorem circle_append {before rest : List String} (h : id ∉ before) :
    Context.circle (before ++ id :: rest) id = id :: rest ++ [id] := by
  have hbefore : ∀ x ∈ before, decide (x ≠ id) = true := by
    intro x hx
    exact decide_eq_true fun heq => h (heq ▸ hx)
  rw [Context.circle, List.dropWhile_append_of_pos hbefore, List.dropWhile_cons_of_neg (by simp)]

/-- **A field that is met again closes a circle.** -/
theorem Way.isCircle (h : table.Way request path id) (hid : id ∈ path) :
    table.IsCircle (Context.circle path id) := by
  have hholds : ∀ x ∈ path, ∃ f, table.Holds x f := fun x hx => h.toTrail.exists_holds hx
  obtain ⟨before, rest, rfl, hbefore⟩ := List.eq_append_cons_of_mem hid
  have hchain := h.chain
  rw [List.append_assoc] at hchain
  rw [circle_append hbefore]
  refine ⟨?_, ?_, ?_, ?_, hchain.suffix (List.suffix_append before _)⟩
  · simp
  · rw [List.getLast?_concat]
    rfl
  · rw [List.dropLast_concat]
    exact h.nodup.sublist (List.sublist_append_right before _)
  · intro x hx
    refine hholds x ?_
    simp only [List.cons_append, List.mem_cons, List.mem_append, List.not_mem_nil, or_false] at hx ⊢
    tauto

theorem head?_circle (hid : id ∈ path) : (Context.circle path id).head? = some id := by
  obtain ⟨before, rest, rfl, hbefore⟩ := List.eq_append_cons_of_mem hid
  rw [circle_append hbefore]
  rfl

end Table

/-! ### Reported circles -/

namespace Context

variable {ctx : Context} {depth : Nat} {path : List String} {id : String} {request : Request}
  {c : List String} {value : Compiled}

/-- **A reported circle is one**, and the request leads to it. -/
theorem isCircle_of_expand (h : ctx.expand depth path id = .error (.circularReference c))
    (hway : ctx.table.Way request path id)
    (hdepth : ctx.table.fields.length < depth + path.length) :
    ctx.table.IsCircle c ∧ ∃ first ∈ c.head?, ctx.table.Reachable request first := by
  -- the way grows by the field whose formula is entered, and the error comes from one of its references
  induction depth generalizing path id with
  | zero =>
      obtain ⟨rest, hrest⟩ := hway.toTrail.exists_succ hdepth
      cases hrest
  | succ depth ih =>
      rcases expand_error h with ⟨-, he⟩ | ⟨hid, he⟩ | ⟨cause, -, he⟩ |
        ⟨f, hid, hholds, hcompile⟩
      · cases he
      · cases he
        exact ⟨hway.isCircle hid, id, Table.head?_circle hid, hway.reached⟩
      · cases he
      · obtain ⟨ref, href, hread⟩ := Formula.exists_reference_of_error hcompile rfl
        exact ih hread (hway.step hid (hholds.leads href)) (Table.depth_step hdepth)

theorem isCircle_of_valueOf (h : ctx.valueOf request = .error (.circularReference c)) :
    ctx.table.IsCircle c ∧ ∃ first ∈ c.head?, ctx.table.Reachable request first := by
  rcases request with (_ | f) | id
  · cases h
  · obtain ⟨ref, href, hread⟩ := Formula.exists_reference_of_error h rfl
    exact isCircle_of_expand hread (.nil (Table.Reaches.of_mem href)) (Nat.lt_succ_self _)
  · exact isCircle_of_expand h (.nil ReflTransGen.refl) (Nat.lt_succ_self _)

/-! ### Circles that are reached -/

/-- Nothing that an expanded field leads to lies on a circle. -/
theorem not_onCircle_of_reflTransGen {ref : String} (h : ctx.expand depth path id = .ok value)
    (hway : ReflTransGen ctx.table.Leads id ref) : ¬ ctx.table.OnCircle ref := by
  intro hcircle
  obtain ⟨depth', _, path', value', h'⟩ :=
    exists_expand_of_transGen h (TransGen.trans_right hway hcircle)
  exact not_onCircle_of_expand h' hcircle

/-- **There is no circle behind a value.** -/
theorem not_onCircle_of_valueOf (h : ctx.valueOf request = .ok value)
    (hreach : ctx.table.Reachable request id) : ¬ ctx.table.OnCircle id := by
  rcases request with (_ | f) | first
  · cases h
  · obtain ⟨ref, href, hway⟩ := hreach
    obtain ⟨value', hread⟩ :=
      (Formula.compileWith_gathers h).total ref (Formula.mem_references.2 href)
    exact not_onCircle_of_reflTransGen hread hway
  · exact not_onCircle_of_reflTransGen h hreach

/-- **Circles are found, and nothing else is taken for one.**  Whatever a session has been asked before, it
is not expanding anything, and then a request is answered alike within any bound that exceeds the number of
fields; a circle that it reports is one of the table, and the request leads to it; and if the request leads
to a circle, it is refused. -/
theorem ask_circular (ctx : Context) (history : List Request) (request : Request) :
    (ctx.session {} history).2.visiting = [] ∧
      (∀ depth s, ctx.table.fields.length < depth → s.visiting = [] →
        (ctx.askWithin depth request).answer s = (ctx.ask request).answer s) ∧
      (∀ c, ((ctx.ask request).answer (ctx.session {} history).2).1 =
          .error (.circularReference c) →
        ctx.table.IsCircle c ∧ ∃ first ∈ c.head?, ctx.table.Reachable request first) ∧
      ∀ id, ctx.table.Reachable request id → ctx.table.OnCircle id →
        ∃ e, ((ctx.ask request).answer (ctx.session {} history).2).1 = .error e := by
  rw [ask_after_session]
  refine ⟨(session_answers history expanding_nil).2.visiting, ?_, ?_, ?_⟩
  · intro depth s hdepth hs
    exact (askWithin_eq_ask hdepth request s hs).1
  · intro c h
    exact isCircle_of_valueOf h
  · intro id hreach hcircle
    cases hvalue : ctx.valueOf request with
    | ok value => exact absurd hcircle (not_onCircle_of_valueOf hvalue hreach)
    | error e => exact ⟨e, rfl⟩

end Context

namespace Sample

def loopFields : List Field :=
  [.single "n" "n" .number .column,
   .single "first" "first" .number (.formula (.tree (some (.unary .neg (.field "second")))) false),
   .single "second" "second" .number
     (.formula (.tree (some (.binary (.field "n") .add (.field "first")))) false)]

/-- Two formula fields that refer to each other. -/
def loop : Table := .ofFields "tblA" "table_a" loopFields

def loopContext : Context :=
  ⟨loop, { dialect := .sqlite, mode := .generated, now := ⟨0⟩ }, .detached⟩

/-- A formula that is no part of the circle that it leads to. -/
def beyondLoop : Formula := .binary (.field "n") .mul (.field "second")

theorem loop_first_second : loop.Leads "first" "second" :=
  ⟨.unary .neg (.field "second"), ⟨_, _, _, rfl, rfl, rfl⟩, by decide⟩

theorem loop_second_first : loop.Leads "second" "first" :=
  ⟨.binary (.field "n") .add (.field "first"), ⟨_, _, _, rfl, rfl, rfl⟩, by decide⟩

end Sample

/-- A request that leads to a circle, after one that failed on it and one that did not. -/
theorem Context.ask_circular_beyondLoop :
    let answer := ((Sample.loopContext.ask (.tree (some Sample.beyondLoop))).answer
      (Sample.loopContext.session {} [.field "first", .field "n"]).2).1
    answer = .error (.circularReference ["second", "first", "second"]) ∧
      Sample.loop.IsCircle ["second", "first", "second"] ∧
      Sample.loop.Reachable (.tree (some Sample.beyondLoop)) "first" ∧
      Sample.loop.OnCircle "first" ∧ ∃ e, answer = .error e := by
  have hanswer : ((Sample.loopContext.ask (.tree (some Sample.beyondLoop))).answer
      (Sample.loopContext.session {} [.field "first", .field "n"]).2).1 =
        .error (.circularReference ["second", "first", "second"]) := rfl
  have hreach : Sample.loop.Reachable (.tree (some Sample.beyondLoop)) "first" :=
    ⟨"second", by decide, .single Sample.loop_second_first⟩
  have hcircle : Sample.loop.OnCircle "first" :=
    .tail (.single Sample.loop_first_second) Sample.loop_second_first
  obtain ⟨-, -, hsound, hrefused⟩ := ask_circular Sample.loopContext [.field "first", .field "n"]
    (.tree (some Sample.beyondLoop))
  exact ⟨hanswer, (hsound _ hanswer).1, hreach, hcircle, hrefused "first" hreach hcircle⟩

end ComputedFields
