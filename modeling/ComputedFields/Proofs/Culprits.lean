/-
**Errors name what is to blame.**

A request that is refused gets an error, and the error tells where to look: at a field that is missing, at
a call, at a formula field.  What each error tells is stated here by cases on the error, and it is true of
the formulas that the request leads to, however many formula fields lie between.

There is one thing to know about the calls that are named.  A distance to the present is measured as one
between two dates, so an error in its unit names the function for two dates, which need not occur anywhere.
All other calls are named as they are written.

Main definitions:

* `ComputedFields.Table.Demands`, `ComputedFields.Table.Calls` — the formulas that a request compiles, and
  the calls in them;
* `ComputedFields.Context.Tells` — what an error tells about a request.

Main results:

* `ComputedFields.Formula.Faulty.tells`, `ComputedFields.Context.tells_of_compileWith` — a part that is at
  fault, and a formula that does not compile;
* `ComputedFields.Context.tells_of_expand` — a field that cannot be expanded;
* `ComputedFields.Context.ask_tells` — **what the error of a request tells is true**, in any session.
-/

import ComputedFields.Proofs.Circles

set_option relaxedAutoImplicit false
set_option autoImplicit false

namespace ComputedFields

open Relation (ReflTransGen)

/-! ### What a request compiles -/

namespace Table

/-- The request compiles the formula: it asks for it, or it leads to a field that stands for it. -/
def Demands (table : Table) (request : Request) (f : Formula) : Prop :=
  request = .tree (some f) ∨ ∃ id, table.Reachable request id ∧ table.Holds id f

/-- The call occurs in a formula that the request compiles. -/
def Calls (table : Table) (request : Request) (callee : Callee) (args : List Formula) : Prop :=
  ∃ f, table.Demands request f ∧ Formula.Part (.call callee args) f

variable {table : Table} {request : Request} {f : Formula}

/-- Whatever a formula refers to that the request compiles, the request leads to. -/
theorem Demands.reachable (h : table.Demands request f) {ref : String} (href : ref ∈ f.references) :
    table.Reachable request ref := by
  rcases h with rfl | ⟨id, hreach, hholds⟩
  · exact Reaches.of_mem href
  · exact hreach.tail (hholds.leads href)

end Table

/-! ### What an error tells -/

/-- What an error tells about the request that is refused with it.  The errors that are not listed are no
answers to a request. -/
def Context.Tells (ctx : Context) (request : Request) : CompileError → Prop
  | .fieldNotFound id => ctx.table.Reachable request id ∧ ctx.table.field? id = none
  | .unsupportedFunction name => ∃ callee args, ctx.table.Calls request callee args ∧
      callee.name = name ∧ callee.supported ctx.target.dialect ctx.target.mode = false
  | .unsupportedOperator symbol => ∃ f op, ctx.table.Demands request f ∧
      Formula.Part (.chain op []) f ∧ op.symbol = symbol
  | .circularReference c =>
      ctx.table.IsCircle c ∧ ∃ first ∈ c.head?, ctx.table.Reachable request first
  | .argumentCount name count => ∃ f args, ctx.table.Calls request (.known f) args ∧
      f.name = name ∧ args.length = count ∧ f.accepts count = false
  | .argumentType name index => ∃ f args place, ctx.table.Calls request (.known f) args ∧
      place < args.length ∧ f.refusal place = .argumentType name index
  | .overflow => ∃ f, ctx.table.Demands request f ∧ ctx.Overruns f ∧ ctx.target.dialect = .sqlite
  | .parse cause => (request = .tree none ∧ cause = .emptyInput) ∨
      ∃ id, ctx.table.Reachable request id ∧ ctx.table.Unreadable id cause
  | _ => False

variable {ctx : Context} {request : Request} {e : CompileError}

/-- What a part is at fault for tells about the request that compiles it. -/
theorem Formula.Faulty.tells {f part : Formula} {depth : Nat} {path : List String}
    (h : Faulty ctx.target (ctx.expand depth path) part e) (hdemands : ctx.table.Demands request f)
    (hpart : Part part f) : ctx.Tells request e := by
  have hfaulty := h
  cases h with
  | noOperand => exact ⟨f, _, hdemands, hpart, rfl⟩
  | unknown => exact ⟨.unknown _, _, ⟨f, hdemands, hpart⟩, rfl, rfl⟩
  | count haccepts => exact ⟨_, _, ⟨f, hdemands, hpart⟩, rfl, rfl, haccepts⟩
  | unsupported _ hsupported => exact ⟨.known _, _, ⟨f, hdemands, hpart⟩, rfl, hsupported⟩
  | @applied g args parts _ haccepts hsupported hparts happly =>
      rcases refusal_or_overflows haccepts hsupported hparts happly with ⟨place, hplace, rfl⟩ | ⟨rfl, -⟩
      · obtain ⟨name, index, hrefusal⟩ := g.isWrongType_refusal place
        rw [hrefusal]
        exact ⟨g, args, place, ⟨f, hdemands, hpart⟩, hplace, hrefusal⟩
      · obtain ⟨hd, hoverruns⟩ := Context.overruns_of_faulty hfaulty
        exact ⟨f, hdemands, hoverruns.of_part hpart, hd⟩

namespace Context

/-- A formula that the request compiles: its errors tell about the request, if those of its references
do. -/
theorem tells_of_compileWith {f : Formula} {depth : Nat} {path : List String}
    (h : f.compileWith ctx.target (ctx.expand depth path) = .error e)
    (hdemands : ctx.table.Demands request f)
    (hread : ∀ ref ∈ f.references, ctx.expand depth path ref = .error e → ctx.Tells request e) :
    ctx.Tells request e := by
  rcases Formula.compileWith_blames h with ⟨ref, href, herror⟩ | ⟨part, hpart, hfaulty⟩
  · exact hread ref href herror
  · exact hfaulty.tells hdemands hpart

/-- A field that the request leads to: its errors tell about the request.  Circles need the way to the
field, and `isCircle_of_expand` keeps it. -/
theorem tells_of_expand {depth : Nat} {path : List String} {id : String}
    (h : ctx.expand depth path id = .error e) (he : ∀ c, e ≠ .circularReference c)
    (hreach : ctx.table.Reachable request id) : ctx.Tells request e := by
  induction depth generalizing path id with
  | zero =>
      cases h
      exact absurd rfl (he _)
  | succ depth ih =>
      rcases expand_error h with ⟨hfield, rfl⟩ | ⟨-, rfl⟩ | ⟨cause, hcause, rfl⟩ |
        ⟨f, -, hholds, hcompile⟩
      · exact ⟨hreach, hfield⟩
      · exact absurd rfl (he _)
      · exact .inr ⟨id, hreach, hcause⟩
      · have hdemands : ctx.table.Demands request f := .inr ⟨id, hreach, hholds⟩
        refine tells_of_compileWith hcompile hdemands fun ref href hread => ?_
        exact ih hread (hdemands.reachable href)

theorem tells_of_valueOf (h : ctx.valueOf request = .error e) : ctx.Tells request e := by
  by_cases hcircle : ∃ c, e = .circularReference c
  · obtain ⟨c, rfl⟩ := hcircle
    exact isCircle_of_valueOf h
  · have he : ∀ c, e ≠ .circularReference c := fun c heq => hcircle ⟨c, heq⟩
    rcases request with (_ | f) | id
    · cases h
      exact .inl ⟨rfl, rfl⟩
    · have hdemands : ctx.table.Demands (.tree (some f)) f := .inl rfl
      refine tells_of_compileWith h hdemands fun ref href hread => ?_
      exact tells_of_expand hread he (hdemands.reachable href)
    · exact tells_of_expand h he ReflTransGen.refl

/-- **What the error of a request tells is true**, whatever the session has been asked before.  A missing
field is one that the request leads to.  A call that is named occurs in a formula that the request
compiles, with the number of arguments that is given, or with an argument at the place that is refused.
Only a distance to the present is named as the distance between two dates. -/
theorem ask_tells (ctx : Context) (history : List Request) (request : Request) (e : CompileError)
    (h : ((ctx.ask request).answer (ctx.session {} history).2).1 = .error e) : ctx.Tells request e := by
  rw [ask_after_session] at h
  exact tells_of_valueOf h

end Context

namespace Sample

def sinceVisit : Formula := .call (.known (.date .fromNow)) [.field "d", .field "s"]

def visitFields : List Field :=
  [.single "d" "d" .dateTime .column, .single "s" "s" .string .column,
   .single "since" "since" .number (.formula (.tree (some sinceVisit)) false),
   .single "size" "size" .number
     (.formula (.tree (some (.call (.known (.text .len)) [.field "s", .field "d"]))) false),
   .single "lost" "lost" .number (.formula (.tree (some (.unary .neg (.field "gone")))) false)]

/-- Formula fields with a unit that is no literal, with an argument too many and with a reference to no
field. -/
def visits : Table := .ofFields "tblA" "table_a" visitFields

def visitContext : Context :=
  ⟨visits, { dialect := .postgres, mode := .select, now := ⟨0⟩ }, .detached⟩

/-- The distance refers to columns, so no other formula is compiled with it. -/
theorem eq_of_demands_sinceVisit {f : Formula} (h : visits.Demands (.tree (some sinceVisit)) f) :
    f = sinceVisit := by
  have hcolumn : ∀ ref ∈ sinceVisit.references, ∀ g, ¬ visits.Holds ref g := by
    rintro ref href g ⟨field, source, persisted, hfield, hkind, -⟩
    have href : ref ∈ ["d", "s"] := href
    obtain rfl | rfl := by simpa using href
    · cases hfield
      cases hkind
    · cases hfield
      cases hkind
  rcases h with h | ⟨id, ⟨ref, href, hway⟩, hholds⟩
  · cases h
    rfl
  · cases ReflTransGen.cases_head hway with
    | inl heq => exact absurd (heq ▸ hholds) (hcolumn ref href f)
    | inr hstep =>
        obtain ⟨_, ⟨g, hg, _⟩, _⟩ := hstep
        exact absurd hg (hcolumn ref href g)

/-- The answer to a request after one that is refused and one that is not. -/
def visitAnswer (request : Request) : Except CompileError Compiled :=
  ((visitContext.ask request).answer (visitContext.session {} [.field "lost", .field "d"]).2).1

end Sample

/-- Three errors of formula fields, one of them seen through another formula. -/
theorem Context.ask_tells_visits :
    (Sample.visitAnswer (.tree (some (.unary .not (.field "lost")))) =
        .error (.fieldNotFound "gone") ∧
      Sample.visits.Reachable (.tree (some (.unary .not (.field "lost")))) "gone" ∧
      Sample.visits.field? "gone" = none) ∧
    (Sample.visitAnswer (.field "size") = .error (.argumentCount "LEN" 2) ∧
      Sample.visitContext.Tells (.field "size") (.argumentCount "LEN" 2)) ∧
    Sample.visitAnswer (.field "since") = .error (.argumentType "DATETIME_DIFF" 2) ∧
      Sample.visitContext.Tells (.field "since") (.argumentType "DATETIME_DIFF" 2) := by
  have hlost : Sample.visitAnswer (.tree (some (.unary .not (.field "lost")))) =
      .error (.fieldNotFound "gone") := rfl
  have hsize : Sample.visitAnswer (.field "size") = .error (.argumentCount "LEN" 2) := rfl
  have hsince : Sample.visitAnswer (.field "since") =
      .error (.argumentType "DATETIME_DIFF" 2) := rfl
  exact ⟨⟨hlost, ask_tells _ _ _ _ hlost⟩, ⟨hsize, ask_tells _ _ _ _ hsize⟩, hsince,
    ask_tells _ _ _ _ hsince⟩

/-- The unit of a distance to the present is refused in the name of a function that is called nowhere. -/
theorem Context.fromNow_refused_as_datetimeDiff :
    Sample.visitAnswer (.tree (some Sample.sinceVisit)) = .error (.argumentType "DATETIME_DIFF" 2) ∧
      ∀ callee args, Sample.visits.Calls (.tree (some Sample.sinceVisit)) callee args →
        callee.name ≠ "DATETIME_DIFF" := by
  refine ⟨rfl, ?_⟩
  rintro callee args ⟨f, hdemands, hpart⟩
  rw [Sample.eq_of_demands_sinceVisit hdemands] at hpart
  cases hpart with
  | self => decide
  | call hmem hpart =>
      obtain rfl | rfl := by simpa using hmem
      · cases hpart
      · cases hpart

end ComputedFields
