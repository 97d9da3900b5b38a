/-
**The catalogue of formula functions.**

A formula calls functions by name, in any case.  The catalogue is closed: it lists the functions by
category, each with its canonical name and the number of arguments it takes.  A name outside the
catalogue is kept as it is spelled, so that a message can show it.

Main definitions:

* `ComputedFields.Signature` — name and number of arguments;
* `ComputedFields.Function` — the functions, by category;
* `ComputedFields.Function.ofName?` — the function of a name;
* `ComputedFields.Callee` — what a call names: a function, or an unknown name.

Main results:

* `ComputedFields.Function.mem_all` — the catalogue is complete.
-/

set_option relaxedAutoImplicit false
set_option autoImplicit false

namespace ComputedFields

/-- The canonical name of a function and how many arguments it takes; without a greatest number it
takes any number from the least on. -/
structure Signature where
  name : String
  least : Nat
  greatest : Option Nat
  deriving DecidableEq, Repr

/-- The number of arguments is one that the function takes. -/
def Signature.accepts (s : Signature) (count : Nat) : Bool :=
  s.least ≤ count && s.greatest.all (count ≤ ·)

/-! ### Functions from numbers to a number -/

/-- Functions from numbers to a number. -/
inductive NumericFunction where
  | sum
  | average
  | max
  | min
  | round
  | roundUp
  | roundDown
  | ceiling
  | floor
  | even
  | odd
  | int
  | abs
  | sqrt
  | power
  | exp
  | log
  | mod
  | value
  deriving DecidableEq, Repr

namespace NumericFunction

/-- Name and number of arguments. -/
def signature : NumericFunction → Signature
  | .sum => ⟨"SUM", 1, none⟩
  | .average => ⟨"AVERAGE", 1, none⟩
  | .max => ⟨"MAX", 1, none⟩
  | .min => ⟨"MIN", 1, none⟩
  | .round => ⟨"ROUND", 1, some 2⟩
  | .roundUp => ⟨"ROUNDUP", 1, some 2⟩
  | .roundDown => ⟨"ROUNDDOWN", 1, some 2⟩
  | .ceiling => ⟨"CEILING", 1, some 2⟩
  | .floor => ⟨"FLOOR", 1, some 2⟩
  | .even => ⟨"EVEN", 1, some 1⟩
  | .odd => ⟨"ODD", 1, some 1⟩
  | .int => ⟨"INT", 1, some 1⟩
  | .abs => ⟨"ABS", 1, some 1⟩
  | .sqrt => ⟨"SQRT", 1, some 1⟩
  | .power => ⟨"POWER", 2, some 2⟩
  | .exp => ⟨"EXP", 1, some 1⟩
  | .log => ⟨"LOG", 1, some 2⟩
  | .mod => ⟨"MOD", 2, some 2⟩
  | .value => ⟨"VALUE", 1, some 1⟩

/-- All of them, in the order of the catalogue. -/
def all : List NumericFunction :=
  [.sum, .average, .max, .min, .round, .roundUp, .roundDown, .ceiling, .floor, .even, .odd,
   .int, .abs, .sqrt, .power, .exp, .log, .mod, .value]

theorem mem_all (f : NumericFunction) : f ∈ all := by cases f <;> decide

end NumericFunction

/-! ### Functions on text -/

/-- Functions on text. -/
inductive TextFunction where
  | concatenate
  | find
  | search
  | mid
  | left
  | right
  | replace
  | regexpReplace
  | substitute
  | lower
  | upper
  | rept
  | trim
  | len
  | t
  | encodeUrlComponent
  deriving DecidableEq, Repr

namespace TextFunction

/-- Name and number of arguments. -/
def signature : TextFunction → Signature
  | .concatenate => ⟨"CONCATENATE", 1, none⟩
  | .find => ⟨"FIND", 2, some 3⟩
  | .search => ⟨"SEARCH", 2, some 3⟩
  | .mid => ⟨"MID", 3, some 3⟩
  | .left => ⟨"LEFT", 1, some 2⟩
  | .right => ⟨"RIGHT", 1, some 2⟩
  | .replace => ⟨"REPLACE", 4, some 4⟩
  | .regexpReplace => ⟨"REGEXP_REPLACE", 3, some 3⟩
  | .substitute => ⟨"SUBSTITUTE", 3, some 3⟩
  | .lower => ⟨"LOWER", 1, some 1⟩
  | .upper => ⟨"UPPER", 1, some 1⟩
  | .rept => ⟨"REPT", 2, some 2⟩
  | .trim => ⟨"TRIM", 1, some 1⟩
  | .len => ⟨"LEN", 1, some 1⟩
  | .t => ⟨"T", 1, some 1⟩
  | .encodeUrlComponent => ⟨"ENCODE_URL_COMPONENT", 1, some 1⟩

/-- All of them, in the order of the catalogue. -/
def all : List TextFunction :=
  [.concatenate, .find, .search, .mid, .left, .right, .replace, .regexpReplace, .substitute,
   .lower, .upper, .rept, .trim, .len, .t, .encodeUrlComponent]

theorem mem_all (f : TextFunction) : f ∈ all := by cases f <;> decide

end TextFunction

/-! ### Conditions and choices -/

/-- Conditions and choices. -/
inductive LogicalFunction where
  | ifElse
  | switch
  | and
  | or
  | xor
  | not
  | blank
  | error
  | isError
  deriving DecidableEq, Repr

namespace LogicalFunction

/-- Name and number of arguments. -/
def signature : LogicalFunction → Signature
  | .ifElse => ⟨"IF", 2, some 3⟩
  | .switch => ⟨"SWITCH", 3, none⟩
  | .and => ⟨"AND", 1, none⟩
  | .or => ⟨"OR", 1, none⟩
  | .xor => ⟨"XOR", 1, none⟩
  | .not => ⟨"NOT", 1, some 1⟩
  | .blank => ⟨"BLANK", 0, some 0⟩
  | .error => ⟨"ERROR", 1, some 1⟩
  | .isError => ⟨"IS_ERROR", 1, some 1⟩

/-- All of them, in the order of the catalogue. -/
def all : List LogicalFunction :=
  [.ifElse, .switch, .and, .or, .xor, .not, .blank, .error, .isError]

theorem mem_all (f : LogicalFunction) : f ∈ all := by cases f <;> decide

end LogicalFunction

/-! ### Functions on dates and times -/

/-- Functions on dates and times. -/
inductive DateFunction where
  | today
  | now
  | year
  | month
  | weekNum
  | weekday
  | day
  | hour
  | minute
  | second
  | fromNow
  | toNow
  | datetimeDiff
  | workday
  | workdayDiff
  | isSame
  | isAfter
  | isBefore
  | dateAdd
  | datestr
  | timestr
  | datetimeFormat
  | datetimeParse
  | createdTime
  | lastModifiedTime
  deriving DecidableEq, Repr

namespace DateFunction

/-- Name and number of arguments. -/
def signature : DateFunction → Signature
  | .today => ⟨"TODAY", 0, some 0⟩
  | .now => ⟨"NOW", 0, some 0⟩
  | .year => ⟨"YEAR", 1, some 1⟩
  | .month => ⟨"MONTH", 1, some 1⟩
  | .weekNum => ⟨"WEEKNUM", 1, some 1⟩
  | .weekday => ⟨"WEEKDAY", 1, some 2⟩
  | .day => ⟨"DAY", 1, some 1⟩
  | .hour => ⟨"HOUR", 1, some 1⟩
  | .minute => ⟨"MINUTE", 1, some 1⟩
  | .second => ⟨"SECOND", 1, some 1⟩
  | .fromNow => ⟨"FROMNOW", 1, some 2⟩
  | .toNow => ⟨"TONOW", 1, some 2⟩
  | .datetimeDiff => ⟨"DATETIME_DIFF", 2, some 3⟩
  | .workday => ⟨"WORKDAY", 2, some 2⟩
  | .workdayDiff => ⟨"WORKDAY_DIFF", 2, some 2⟩
  | .isSame => ⟨"IS_SAME", 2, some 3⟩
  | .isAfter => ⟨"IS_AFTER", 2, some 3⟩
  | .isBefore => ⟨"IS_BEFORE", 2, some 3⟩
  | .dateAdd => ⟨"DATE_ADD", 3, some 3⟩
  | .datestr => ⟨"DATESTR", 1, some 1⟩
  | .timestr => ⟨"TIMESTR", 1, some 1⟩
  | .datetimeFormat => ⟨"DATETIME_FORMAT", 1, some 2⟩
  | .datetimeParse => ⟨"DATETIME_PARSE", 1, some 2⟩
  | .createdTime => ⟨"CREATED_TIME", 0, some 0⟩
  | .lastModifiedTime => ⟨"LAST_MODIFIED_TIME", 0, some 0⟩

/-- All of them, in the order of the catalogue. -/
def all : List DateFunction :=
  [.today, .now, .year, .month, .weekNum, .weekday, .day, .hour, .minute, .second, .fromNow,
   .toNow, .datetimeDiff, .workday, .workdayDiff, .isSame, .isAfter, .isBefore, .dateAdd,
   .datestr, .timestr, .datetimeFormat, .datetimeParse, .createdTime, .lastModifiedTime]

theorem mem_all (f : DateFunction) : f ∈ all := by cases f <;> decide

end DateFunction

/-! ### Functions on multi-valued fields -/

/-- Functions on multi-valued fields. -/
inductive ArrayFunction where
  | countAll
  | countA
  | count
  | arrayJoin
  | arrayUnique
  | arrayFlatten
  | arrayCompact
  deriving DecidableEq, Repr

namespace ArrayFunction

/-- Name and number of arguments. -/
def signature : ArrayFunction → Signature
  | .countAll => ⟨"COUNTALL", 1, some 1⟩
  | .countA => ⟨"COUNTA", 1, none⟩
  | .count => ⟨"COUNT", 1, none⟩
  | .arrayJoin => ⟨"ARRAY_JOIN", 1, some 2⟩
  | .arrayUnique => ⟨"ARRAY_UNIQUE", 1, some 1⟩
  | .arrayFlatten => ⟨"ARRAY_FLATTEN", 1, some 1⟩
  | .arrayCompact => ⟨"ARRAY_COMPACT", 1, some 1⟩

/-- All of them, in the order of the catalogue. -/
def all : List ArrayFunction :=
  [.countAll, .countA, .count, .arrayJoin, .arrayUnique, .arrayFlatten, .arrayCompact]

theorem mem_all (f : ArrayFunction) : f ∈ all := by cases f <;> decide

end ArrayFunction

/-! ### Functions on the record itself -/

/-- Functions on the record itself. -/
inductive SystemFunction where
  | recordId
  | autoNumber
  | textAll
  deriving DecidableEq, Repr

namespace SystemFunction

/-- Name and number of arguments. -/
def signature : SystemFunction → Signature
  | .recordId => ⟨"RECORD_ID", 0, some 0⟩
  | .autoNumber => ⟨"AUTO_NUMBER", 0, some 0⟩
  | .textAll => ⟨"TEXT_ALL", 1, some 1⟩

/-- All of them, in the order of the catalogue. -/
def all : List SystemFunction :=
  [.recordId, .autoNumber, .textAll]

theorem mem_all (f : SystemFunction) : f ∈ all := by cases f <;> decide

end SystemFunction

/-! ### The catalogue -/

/-- What a function works on. -/
inductive Category where
  | numeric
  | text
  | logical
  | dateTime
  | array
  | system
  deriving DecidableEq, Repr

/-- A function of the catalogue. -/
inductive Function where
  | numeric (f : NumericFunction)
  | text (f : TextFunction)
  | logical (f : LogicalFunction)
  | date (f : DateFunction)
  | array (f : ArrayFunction)
  | system (f : SystemFunction)
  deriving DecidableEq, Repr

namespace Function

/-- Name and number of arguments. -/
def signature : Function → Signature
  | .numeric f => f.signature
  | .text f => f.signature
  | .logical f => f.signature
  | .date f => f.signature
  | .array f => f.signature
  | .system f => f.signature

/-- The category of a function. -/
def category : Function → Category
  | .numeric _ => .numeric
  | .text _ => .text
  | .logical _ => .logical
  | .date _ => .dateTime
  | .array _ => .array
  | .system _ => .system

/-- The canonical name. -/
def name (f : Function) : String := f.signature.name

/-- The number of arguments is one that the function takes. -/
def accepts (f : Function) (count : Nat) : Bool := f.signature.accepts count

/-- The whole catalogue. -/
def all : List Function :=
  NumericFunction.all.map numeric ++ TextFunction.all.map text ++
    LogicalFunction.all.map logical ++ DateFunction.all.map date ++
    ArrayFunction.all.map array ++ SystemFunction.all.map system

/-- **Every function is in the catalogue.** -/
theorem mem_all (f : Function) : f ∈ all := by
  cases f with
  | numeric f => simp [all, NumericFunction.mem_all]
  | text f => simp [all, TextFunction.mem_all]
  | logical f => simp [all, LogicalFunction.mem_all]
  | date f => simp [all, DateFunction.mem_all]
  | array f => simp [all, ArrayFunction.mem_all]
  | system f => simp [all, SystemFunction.mem_all]

/-- The function of a name, which may be written in any case. -/
def ofName? (spelling : String) : Option Function :=
  let upper := spelling.map Char.toUpper
  all.find? fun f => f.name = upper

/-- The function of a name, or the message that there is none. -/
def parse (spelling : String) : Except String Function :=
  match ofName? spelling with
  | some f => .ok f
  | none => .error ("Unknown function: " ++ spelling)

end Function

/-! ### What a call names -/

/-- What a call names: a function of the catalogue, or a name that is not in it. -/
inductive Callee where
  | known (f : Function)
  | unknown (spelling : String)
  deriving DecidableEq, Repr

namespace Callee

/-- The callee of a name. -/
def ofName (spelling : String) : Callee :=
  match Function.ofName? spelling with
  | some f => .known f
  | none => .unknown spelling

/-- Name and number of arguments; an unknown callee takes any number. -/
def signature : Callee → Signature
  | .known f => f.signature
  | .unknown spelling => ⟨spelling, 0, none⟩

/-- The canonical name of a function, or the spelling of an unknown one. -/
def name (callee : Callee) : String := callee.signature.name

/-- The number of arguments is one that the callee takes. -/
def accepts (callee : Callee) (count : Nat) : Bool := callee.signature.accepts count

/-- The category of a function; an unknown one has none. -/
def category? : Callee → Option Category
  | .known f => some f.category
  | .unknown _ => none

end Callee

end ComputedFields
