/-
**Reading a formula.**

Operators are read by binding power: an operator joins an operand on its left when it binds at least
as tightly as its surroundings ask, and its right operand must bind more tightly, so that every
operator groups to the left.  A run of `+`, or of `&`, becomes one chain.  Negation binds more
tightly than all binary operators, `!` more tightly than `&&` and `||` only.

The tokens are given up to the end of the source or to the first fault of the scan.  A fault counts
only when the reader gets to it: an unexpected token before it is reported instead.

Main definitions:

* `ComputedFields.ParseError` — why a source is no formula;
* `ComputedFields.BinaryOp.power` — binding powers;
* `ComputedFields.Parser.expression` — reads an expression off a list of tokens;
* `ComputedFields.Formula.parse` — the formula of a source.
-/

import ComputedFields.Formula.Basic
import ComputedFields.Token.Scan

set_option relaxedAutoImplicit false
set_option autoImplicit false

namespace ComputedFields

/-! ### Errors -/

/-- Why a source is no formula. -/
inductive ParseError where
  | emptyInput
  | lexical (fault : LexError)
  | missingCloseParen
  | unexpectedToken (token : Token)
  | unexpectedEnd
  deriving DecidableEq, Repr

/-- The message of an error. -/
def ParseError.message : ParseError → String
  | .emptyInput => "Empty input"
  | .lexical fault => "Lexical error: " ++ fault.message
  | .missingCloseParen => "Missing closing parenthesis"
  | .unexpectedToken token => "Unexpected token, got " ++ token.describe
  | .unexpectedEnd => "Unexpected end of input"

/-! ### Operators and their binding powers -/

/-- The operator that a token between two operands denotes. -/
def BinaryOp.ofToken? : TokenKind → Option BinaryOp
  | .plus => some .add
  | .minus => some .sub
  | .asterisk => some .mul
  | .slash => some .div
  | .percent => some .mod
  | .ampersand => some .concat
  | .equals => some .eq
  | .notEquals => some .ne
  | .less => some .lt
  | .lessEqual => some .le
  | .greater => some .gt
  | .greaterEqual => some .ge
  | .and => some .and
  | .or => some .or
  | _ => none

/-- How tightly an operator binds the operand on its left.  The one on its right must bind more
tightly. -/
def BinaryOp.power : BinaryOp → Nat
  | .or => 10
  | .and => 20
  | .eq | .ne | .lt | .le | .gt | .ge => 40
  | .concat => 45
  | .add | .sub => 50
  | .mul | .div | .mod => 60

/-- How tightly the operand of a unary operator must bind. -/
def UnaryOp.power : UnaryOp → Nat
  | .not => 30
  | .neg => 90

/-- Runs of this operator are collected in one chain. -/
def BinaryOp.isChained : BinaryOp → Bool
  | .add | .concat => true
  | _ => false

/-! ### Literals -/

/-- The characters that the contents of a string stand for: a backslash before `n` or `t` makes a
line feed or a tab, before any other character it disappears. -/
def unescape : List Char → List Char
  | [] => []
  | ['\\'] => ['\\']
  | '\\' :: c :: rest =>
      (if c = 'n' then '\n' else if c = 't' then '\t' else c) :: unescape rest
  | c :: rest => c :: unescape rest

/-! ### Expressions -/

namespace Parser

/-- The end of the tokens: the fault of the scan, or the given error. -/
def ended (fault : Option LexError) (error : ParseError) : ParseError :=
  match fault with
  | some f => .lexical f
  | none => error

/-- The fault of the scan is met when the tokens are used up. -/
def checkEnd (fault : Option LexError) : Except ParseError Unit :=
  match fault with
  | some f => .error (.lexical f)
  | none => .ok ()

mutual

/-- Reads an expression whose operators bind with at least the given power.  The first number bounds
the depth of the reading. -/
def expression (fault : Option LexError) :
    Nat → Nat → List Token → Except ParseError (Formula × List Token)
  | 0, _, _ => .error .emptyInput
  | depth + 1, power, tokens => do
      let left ← operand fault depth tokens
      operators fault depth power left.1 left.2

/-- Reads an operand: a literal, a field reference, a call, a parenthesised expression, or a unary
operator with its operand. -/
def operand (fault : Option LexError) : Nat → List Token → Except ParseError (Formula × List Token)
  | 0, _ => .error .emptyInput
  | _ + 1, [] => .error (ended fault .emptyInput)
  | depth + 1, token :: rest =>
      match token.kind with
      | .parenLeft => do
          let inner ← expression fault depth 0 rest
          match inner.2 with
          | [] => .error (ended fault .missingCloseParen)
          | close :: after =>
              if close.kind = .parenRight then .ok (inner.1, after) else .error .missingCloseParen
      | .minus => do
          let inner ← expression fault depth UnaryOp.neg.power rest
          .ok (.unary .neg inner.1, inner.2)
      | .bang => do
          let inner ← expression fault depth UnaryOp.not.power rest
          .ok (.unary .not inner.1, inner.2)
      | .number => .ok (.number (String.ofList token.contents), rest)
      | .singleQuoted | .doubleQuoted =>
          .ok (.text (String.ofList (unescape token.contents)), rest)
      | .true => .ok (.bool true, rest)
      | .false => .ok (.bool false, rest)
      | .null => .ok (.null, rest)
      | .fieldRef => .ok (.field (String.ofList (Text.trimChars token.contents)), rest)
      | .identifier =>
          match rest with
          | [] => .error (ended fault .unexpectedEnd)
          | paren :: after =>
              if paren.kind = .parenLeft then do
                let args ← arguments fault depth true after
                .ok (.call (Callee.ofName (String.ofList token.contents)) args.1, args.2)
              else .error (.unexpectedToken paren)
      | _ => .error (.unexpectedToken token)

/-- Reads the operators after a left operand that bind with at least the given power. -/
def operators (fault : Option LexError) :
    Nat → Nat → Formula → List Token → Except ParseError (Formula × List Token)
  | 0, _, _, _ => .error .emptyInput
  | _ + 1, _, left, [] => do
      checkEnd fault
      .ok (left, [])
  | depth + 1, power, left, token :: rest =>
      match BinaryOp.ofToken? token.kind with
      | none => .ok (left, token :: rest)
      | some op =>
          if op.power < power then .ok (left, token :: rest)
          else if op.isChained then do
            let others ← chainOperands fault depth op rest
            operators fault depth power (.join op (left :: others.1)) others.2
          else do
            let right ← expression fault depth (op.power + 1) rest
            operators fault depth power (.binary left op right.1) right.2

/-- Reads the operands of a chain after its first operator. -/
def chainOperands (fault : Option LexError) :
    Nat → BinaryOp → List Token → Except ParseError (List Formula × List Token)
  | 0, _, _ => .error .emptyInput
  | depth + 1, op, tokens => do
      let first ← expression fault depth (op.power + 1) tokens
      match first.2 with
      | [] => do
          checkEnd fault
          .ok ([first.1], [])
      | token :: rest =>
          if BinaryOp.ofToken? token.kind = some op then do
            let others ← chainOperands fault depth op rest
            .ok (first.1 :: others.1, others.2)
          else .ok ([first.1], token :: rest)

/-- Reads the arguments of a call up to its closing parenthesis; a comma comes before each argument
but the first. -/
def arguments (fault : Option LexError) :
    Nat → Bool → List Token → Except ParseError (List Formula × List Token)
  | 0, _, _ => .error .emptyInput
  | _ + 1, _, [] => .error (ended fault .unexpectedEnd)
  | depth + 1, isFirst, token :: rest =>
      if token.kind = .parenRight then .ok ([], rest)
      else if isFirst then do
        let arg ← expression fault depth 0 (token :: rest)
        let others ← arguments fault depth false arg.2
        .ok (arg.1 :: others.1, others.2)
      else if token.kind = .comma then do
        let arg ← expression fault depth 0 rest
        let others ← arguments fault depth false arg.2
        .ok (arg.1 :: others.1, others.2)
      else .error (.unexpectedToken token)

end

/-- A depth that no reading of so many tokens exceeds: at most two readers begin between two
tokens. -/
def depthFor (tokens : List Token) : Nat := 2 * tokens.length + 4

/-- The formula that the tokens of a scan make up. -/
def formula (scanned : Scan) : Except ParseError Formula := do
  let read ← expression scanned.fault (depthFor scanned.tokens) 0 scanned.tokens
  match read.2 with
  | [] => do
      checkEnd scanned.fault
      .ok read.1
  | token :: _ => .error (.unexpectedToken token)

end Parser

/-- The formula of a source. -/
def Formula.parse (source : String) : Except ParseError Formula :=
  Parser.formula (scan source.toList)

end ComputedFields
