/-
**Conditions and choices.**

The results of a choice share one type.  When those that are not empty agree, that type is theirs, and
an empty text stands for a missing value of it; when they do not, all results become texts.  A choice
whose last alternative is a choice itself is one choice with all branches.

Main definitions:

* `ComputedFields.commonType` — the type of several results;
* `ComputedFields.Target.unify` — the results in that type;
* `ComputedFields.choice` — a choice, flattened;
* `ComputedFields.LogicalFunction.apply` — a call in SQL.
-/

import ComputedFields.Builtin.Call
import ComputedFields.Function

set_option relaxedAutoImplicit false
set_option autoImplicit false

namespace ComputedFields

open Sql (Expr)

/-! ### The type of a choice -/

/-- The type that several results share: that of the results that are not empty if they agree, else
text. -/
def commonType (results : List Fragment) : ValueType :=
  match (results.filter fun f => !f.isBlank && f.type != .unknown).map Fragment.type with
  | first :: others => if others.all (· = first) then first else .string
  | [] => ((results.map Fragment.type).find? (· ≠ .unknown)).getD .unknown

/-- A result in the type of its choice. -/
def Target.unifyTo (t : Target) (type : ValueType) (f : Fragment) : Fragment :=
  match type with
  | .number | .boolean | .dateTime => if f.isBlank then { f with expr := .null, type } else f
  | .string =>
      if f.type = .string ∨ f.type = .unknown ∨ f.isArray then f
      else { f with expr := t.text f, type := .string }
  | .unknown => f

/-- The results of a choice in their common type. -/
def Target.unify (t : Target) (results : List Fragment) : List Fragment :=
  results.map (t.unifyTo (commonType results))

/-- A choice; one in the last alternative is merged into it. -/
def choice (branches : List (Expr × Expr)) (otherwise : Option Expr) : Expr :=
  match otherwise with
  | some (.case inner last) => .case (branches ++ inner) last
  | _ => .case branches otherwise

namespace LogicalFunction

/-! ### Choices -/

/-- The choice between two results, of which the second may be absent. -/
def chooseIf (t : Target) (condition result : Fragment) (otherwise : Option Fragment) : Fragment :=
  let type := commonType [result, otherwise.getD .null]
  ⟨choice [(Target.truthy condition, (t.unifyTo type result).expr)]
    (otherwise.map fun f => (t.unifyTo type f).expr), type, false⟩

/-- Arguments in pairs; of an odd number the last one is left. -/
def pairUp : List Fragment → List (Fragment × Fragment) × Option Fragment
  | [] => ([], none)
  | [last] => ([], some last)
  | pattern :: result :: rest => ((pattern, result) :: (pairUp rest).1, (pairUp rest).2)

/-- The choice of the first result whose pattern equals the subject. -/
def chooseEqual (t : Target) (subject : Fragment) (rest : List Fragment) : Fragment :=
  let (pairs, default) := pairUp rest
  let type := commonType (pairs.map Prod.snd ++ default.toList)
  let branch (pair : Fragment × Fragment) : Expr × Expr :=
    ((t.compare .eq subject pair.1).expr, (t.unifyTo type pair.2).expr)
  ⟨choice (pairs.map branch) (default.map fun f => (t.unifyTo type f).expr), type, false⟩

/-! ### Calls -/

/-- A call in SQL. -/
def apply (t : Target) (f : LogicalFunction) (args : List Fragment) :
    Except CompileError Fragment :=
  let c : Call := ⟨f.signature.name, args⟩
  match f with
  | .ifElse => do
      let condition ← c.arg 0
      let result ← c.arg 1
      .ok (chooseIf t condition result args[2]?)
  | .switch => do
      let subject ← c.arg 0
      .ok (chooseEqual t subject (args.drop 1))
  | .and => .ok (.boolean (.chain .and (args.map Target.truthy)))
  | .or => .ok (.boolean (.chain .or (args.map Target.truthy)))
  | .xor =>
      let flag (f : Fragment) : Expr :=
        .case [(Target.truthy f, .number "1")] (some (.number "0"))
      .ok (.boolean (.binary (.binary (.chain .add (args.map flag)) .mod (.number "2")) .eq
        (.number "1")))
  | .not => do
      let value ← c.arg 0
      .ok (.boolean (.unary .not (Target.truthy value)))
  | .blank => .ok (.string (t.stringLiteral ""))
  | .error => do
      let message ← c.text t 0
      .ok (.string (.chain .concat [t.stringLiteral "#ERROR: ", message]))
  | .isError => do
      let value ← c.text t 0
      .ok (.boolean (.verbatim ("COALESCE(" ++ value.render ++ " LIKE '#ERROR%', FALSE)")))

end LogicalFunction

end ComputedFields
