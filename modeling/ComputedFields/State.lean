/-
**The state of a query under construction.**

While a query is built, it is known which common table expression carries a field, and which SQL
selects it.  Inside the body of a common table expression a field is selected otherwise than outside;
what is written there stays there.

Main definitions:

* `ComputedFields.QueryState` — the state of a query;
* `ComputedFields.QueryState.registerCte` — a field is carried by one expression only;
* `ComputedFields.Scope` — what a nested body sees, with its own selections in front.
-/

import ComputedFields.Error
import ComputedFields.Keyed

set_option relaxedAutoImplicit false
set_option autoImplicit false

namespace ComputedFields

/-! ### The state of a query -/

/-- The common table expressions that carry fields, and the selections of fields. -/
structure QueryState where
  ctes : Entries String := []
  selections : Entries String := []
  deriving DecidableEq, Repr

namespace QueryState

/-- The common table expression that carries a field. -/
def cteName? (s : QueryState) (field : String) : Option String := s.ctes.get? field

/-- The SQL that selects a field. -/
def selection? (s : QueryState) (field : String) : Option String := s.selections.get? field

/-- Lets a common table expression carry a field, unless another one does. -/
def registerCte (s : QueryState) (field cte : String) : Except CompileError QueryState :=
  match s.cteName? field with
  | some existing =>
      if existing = cte then .ok s else .error (.cteConflict field existing cte)
  | none => .ok { s with ctes := s.ctes.insert field cte }

/-- Selects a field by some SQL. -/
def setSelection (s : QueryState) (field sql : String) : QueryState :=
  { s with selections := s.selections.insert field sql }

end QueryState

/-! ### Scopes -/

/-- What is seen inside a body: the expressions that carry fields, and selections in layers, the
innermost first. -/
structure Scope where
  ctes : Entries String := []
  layers : List (Entries String) := []
  deriving DecidableEq, Repr

namespace Scope

/-- A scope that sees nothing. -/
def detached : Scope := {}

/-- The common table expression that carries a field. -/
def cteName? (s : Scope) (field : String) : Option String := s.ctes.get? field

/-- The SQL that selects a field: that of the innermost layer that has one. -/
def selection? (s : Scope) (field : String) : Option String :=
  s.layers.findSome? fun layer => layer.get? field

/-- A scope inside another. -/
def nested (s : Scope) : Scope := { s with layers := [] :: s.layers }

/-- Selects a field in the innermost layer. -/
def setSelection (s : Scope) (field sql : String) : Scope :=
  match s.layers with
  | [] => { s with layers := [Entries.insert [] field sql] }
  | layer :: outer => { s with layers := layer.insert field sql :: outer }

end Scope

/-- The scope of a query itself. -/
def QueryState.scope (s : QueryState) : Scope := ⟨s.ctes, [s.selections]⟩

end ComputedFields
