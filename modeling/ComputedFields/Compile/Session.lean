/-
**Compiling several formulas of one table.**

A session remembers the formula fields that it has expanded, also those of a formula that did not
compile in the end.  Besides, it keeps the formula fields that it is expanding, one inside the other, and
the fields that the formula at hand has read so far.  It answers as if every formula were compiled on its
own.

Main definitions:

* `ComputedFields.Session`, `ComputedFields.SessionM` — what a session keeps, and its steps;
* `ComputedFields.Session.enter`, `ComputedFields.Session.leave`, `ComputedFields.SessionM.within` — a step
  inside a formula field;
* `ComputedFields.Context.expandOnce` — the value of a field, expanded at most once;
* `ComputedFields.Context.compileM`, `ComputedFields.Context.compileFieldM` — a formula, and the value
  of a field, compiled in a session;
* `ComputedFields.Request`, `ComputedFields.Context.session` — requests, and the answers to several of
  them in one session.
-/

import ComputedFields.Compile.Basic

set_option relaxedAutoImplicit false
set_option autoImplicit false

namespace ComputedFields

/-- What a session keeps. -/
structure Session where
  /-- The formula fields that have been expanded. -/
  memo : Entries Compiled := []
  /-- The formula fields that are being expanded, the innermost one last. -/
  visiting : List String := []
  /-- The fields that have been read, in the innermost formula field that is being expanded. -/
  reads : List String := []

/-- The session enters a formula field, of which nothing has been read. -/
def Session.enter (s : Session) (id : String) : Session :=
  { s with visiting := s.visiting ++ [id], reads := [] }

/-- The session leaves the innermost formula field, and goes on with what the outer session had read. -/
def Session.leave (s outer : Session) : Session :=
  { s with visiting := s.visiting.dropLast, reads := outer.reads }

/-- A step of a session: it may fail, and what the session keeps is kept even then. -/
abbrev SessionM := ExceptT CompileError (StateM Session)

namespace SessionM

variable {α : Type}

/-- The answer of a step, and the session after it. -/
def answer (step : SessionM α) (s : Session) : Except CompileError α × Session := step.run s

/-- The outcome of a step, which may be a failure. -/
def outcome (step : SessionM α) : SessionM (Except CompileError α) := ExceptT.lift step.run

/-- Fields are read. -/
def note (ids : List String) : SessionM Unit :=
  modify fun s => { s with reads := unionNew s.reads ids }

/-- A step inside a formula field: its outcome, and what it has read.  The field is left also when the step
fails. -/
def within (id : String) (step : SessionM α) : SessionM (Except CompileError α × List String) := do
  let outer ← get
  set (outer.enter id)
  let result ← step.outcome
  let inner ← get
  set (inner.leave outer)
  pure (result, inner.reads)

/-- A step that begins with nothing read; its value is told with all that has been read. -/
def fromScratch (step : SessionM Compiled) : SessionM Compiled := do
  modify fun s => { s with reads := [] }
  let c ← step
  let s ← get
  pure { c with reads := s.reads }

end SessionM

namespace Context

open SessionM

/-- The value of a field; what is remembered is not expanded again.  The first number bounds the depth of
the expansion. -/
def expandOnce (ctx : Context) : Nat → String → SessionM Compiled
  | 0, id => do
      let s ← get
      throw (.circularReference (circle s.visiting id))
  | depth + 1, id =>
      match ctx.table.field? id with
      | none => throw (.fieldNotFound id)
      | some field =>
          match field.kind with
          | .formula source _ => do
              let s ← get
              match s.memo.get? id with
              | some c => do
                  note c.reads
                  pure c
              | none =>
                  if id ∈ s.visiting then throw (.circularReference (circle s.visiting id))
                  else
                    match source.formula with
                    | .error e => throw (.parse e)
                    | .ok f => do
                        let inner ← within id (f.compileWith ctx.target (ctx.expandOnce depth))
                        let c ← MonadExcept.ofExcept inner.1
                        let value := asField field ⟨c.fragment, inner.2⟩
                        modify fun s => { s with memo := s.memo.insert id value }
                        note value.reads
                        pure value
          | _ => do
              note [field.id]
              pure (ctx.plain field)

/-- Compiles the value of a field in a session. -/
def compileFieldM (ctx : Context) (id : String) : SessionM Compiled :=
  fromScratch (ctx.expandOnce ctx.depth id)

/-- Compiles a formula in a session. -/
def compileM (ctx : Context) (f : Formula) : SessionM Compiled :=
  fromScratch (f.compileWith ctx.target (ctx.expandOnce ctx.depth))

/-- Compiles a tree that may be empty in a session. -/
def compileTreeM (ctx : Context) (root : Option Formula) : SessionM Compiled :=
  match root with
  | some f => ctx.compileM f
  | none => fromScratch (throw (.parse .emptyInput))

end Context

/-- What a session is asked: the value of a tree, which may be empty, or of a field. -/
inductive Request where
  | tree (root : Option Formula)
  | field (id : String)

namespace Context

/-- The step of a session that answers a request. -/
def ask (ctx : Context) : Request → SessionM Compiled
  | .tree root => ctx.compileTreeM root
  | .field id => ctx.compileFieldM id

/-- The answers to several requests in one session, and the session after them. -/
def session (ctx : Context) (s : Session) :
    List Request → List (Except CompileError Compiled) × Session
  | [] => ([], s)
  | request :: rest =>
      let answered := (ctx.ask request).answer s
      let others := ctx.session answered.2 rest
      (answered.1 :: others.1, others.2)

end Context

end ComputedFields
