import DecisionModel.Calendar.Reader
import DecisionModel.Decimal.Text
import DecisionModel.Duration.Reader
import DecisionModel.Operator.Symbol
import DecisionModel.Value.Kind

/-!
# Evaluation errors

An error says what went wrong, with the values that were involved; only `message` puts it into
words. An unresolved name is not an error: it is the value absent.

Some operations do not look whether their result is a word. Where it is none, they have no result
and no error either: the evaluation is *broken off*, and with it everything that it is part of. Being
broken off stands among the errors because it is handed on in the same way.
-/

namespace DecisionModel

/-! ## Causes -/

/-- What was applied to operands it does not take. -/
inductive Operation where
  | operator (symbol : String)
  | function (name : String)
  deriving DecidableEq, Repr

/-- Operators are written between their operands, functions in front of them. -/
def Operation.render : Operation → List Kind → String
  | .operator symbol, [left, right] => left.name ++ " " ++ symbol ++ " " ++ right.name
  | .operator symbol, [operand] => symbol ++ operand.name
  | .operator name, operands | .function name, operands =>
    name ++ "(" ++ String.intercalate ", " (operands.map Kind.name) ++ ")"

/-- What left its range. -/
inductive Overflow where
  | numbers (op : ArithmeticOp) (left right : Decimal)
  | months (op : ArithmeticOp) (left right : Months)
  | elapsed (op : ArithmeticOp) (left right : Elapsed)
  | monthsScaled (duration : Months) (factor : Decimal)
  | elapsedScaled (duration : Elapsed) (factor : Decimal)
  /-- A number that is asked for as a position is not a 64-bit word. -/
  | position (number : Decimal)
  | dateByMonths (date : Date) (months : Int)
  | dateByElapsed (date : Date) (shift : Elapsed)
  | dateTimeByElapsed (dateTime : DateTime) (shift : Elapsed)
  /-- A date-time leaves the calendar when it is expressed at another offset. -/
  | offsetShift
  deriving DecidableEq, Repr

def Overflow.message : Overflow → String
  | .numbers op l r => l.toText ++ " " ++ op.symbol ++ " " ++ r.toText
  | .months op l r => l.toText ++ " " ++ op.symbol ++ " " ++ r.toText
  | .elapsed op l r => l.toText ++ " " ++ op.symbol ++ " " ++ r.toText
  | .monthsScaled d f => d.toText ++ " scaled by " ++ f.toText
  | .elapsedScaled d f => d.toText ++ " scaled by " ++ f.toText
  | .position n => n.toText ++ " does not fit a position"
  | .dateByMonths d m => d.toText ++ " shifted by " ++ String.ofList (Text.ofInt m) ++ " months"
  | .dateByElapsed d e => d.toText ++ " shifted by " ++ e.toText
  | .dateTimeByElapsed d e => d.toText ++ " shifted by " ++ e.toText
  | .offsetShift => "date and time offset shift"

/-- Why an argument of the right kind cannot be used. -/
inductive ArgumentFault where
  | divisionByZero
  | fractionalPower (exponent base : Decimal)
  | squareRoot (number : Decimal)
  | notWhole (number : Decimal)
  | negativeScale (scale : Int)
  | startOutsideString (start : Int) (length : Nat)
  | startOutsideList (start : Int) (length : Nat)
  | negativeLength (length : Int)
  | insertPosition (position : Int) (length : Nat)
  | removePosition (position : Int) (length : Nat)
  | tooFewSamples (count : Nat)
  | unknownLiteral
  | noArgument
  /-- A component of a date or a time is too large, or negative, even to be looked at. -/
  | componentOutOfRange (component : Calendar.Component) (number : Int)
  | offsetOutOfRange (offset : Elapsed)
  | calendar (fault : Calendar.Fault)
  | calendarText (text : String) (fault : Calendar.Fault)
  | datePart (text : String)
  | timePart (text : String)
  | durationText (text : String) (fault : Duration.Fault)
  | numberText (text : String) (fault : Decimal.ReadFault)
  | notAnObject (kind : Kind)
  deriving DecidableEq, Repr

private def quoted (text message : String) : String := "'" ++ text ++ "': " ++ message

def ArgumentFault.message : ArgumentFault → String
  | .divisionByZero => "division by zero"
  | .fractionalPower e b => "fractional power " ++ e.toText ++ " of negative base " ++ b.toText
  | .squareRoot n => "square root of " ++ n.toText
  | .notWhole n => "expected a whole number, got " ++ n.toText
  | .negativeScale n => s!"scale {n} is negative"
  | .startOutsideString start length => s!"start position {start} is outside a string of {length}"
  | .startOutsideList start length => s!"start position {start} is outside a list of {length}"
  | .negativeLength n => s!"negative length {n}"
  | .insertPosition n length => s!"cannot insert at position {n} in a list of {length}"
  | .removePosition n length => s!"cannot remove position {n} from a list of {length}"
  | .tooFewSamples n => s!"needs at least 2 samples, got {n}"
  | .unknownLiteral => "unknown date/time literal"
  | .noArgument => "expected an argument"
  | .componentOutOfRange c n => c.name ++ s!" {n} out of range"
  | .offsetOutOfRange d => "offset " ++ d.toText ++ " out of range"
  | .calendar fault => fault.message
  | .calendarText text fault => quoted text fault.message
  | .datePart text => "invalid date in '" ++ text ++ "'"
  | .timePart text => "invalid time in '" ++ text ++ "'"
  | .durationText text fault => quoted text fault.message
  | .numberText text fault => quoted text fault.message
  | .notAnObject kind => "expected a JSON object, got " ++ kind.name

/-- Where an evaluation is broken off. -/
inductive Breakdown where
  /-- The smallest number of months is negated. -/
  | negatedMonths
  /-- Elapsed time is negated, and its seconds are the smallest word. -/
  | negatedElapsed
  /-- The nanoseconds of a duration's text are more than the word in which they are added up. -/
  | addedNanoseconds
  /-- The members of the iteration for a square root still differ when it has to stop. -/
  | unsettledRoot
  /-- A part of a sequence is taken that is not within it. -/
  | sliceBounds
  deriving DecidableEq, Repr

def Breakdown.message : Breakdown → String
  | .negatedMonths => "attempt to negate with overflow"
  | .negatedElapsed => "attempt to negate with overflow"
  | .addedNanoseconds => "attempt to add with overflow"
  | .unsettledRoot => "geo mean circuit breaker"
  | .sliceBounds => "range out of bounds"

/-! ## Errors -/

inductive EvalError where
  /-- An operator or a function was applied to operands of kinds that it does not take. -/
  | unsupported (operation : Operation) (operands : List Kind)
  | invalidArgument (function : String) (fault : ArgumentFault)
  | overflow (cause : Overflow)
  /-- Invocations nest deeper than the limit. -/
  | callDepthExceeded (function : String) (limit : Nat)
  /-- No error of the language, and none that can be caught. -/
  | brokenOff (cause : Breakdown)
  deriving DecidableEq, Repr

def EvalError.message : EvalError → String
  | .unsupported operation operands =>
    operation.render operands ++ " : operation unsupported for one or more operands types"
  | .invalidArgument function fault => function ++ ": " ++ fault.message
  | .overflow cause => "numeric overflow: " ++ cause.message
  | .callDepthExceeded function limit =>
    s!"maximum call depth ({limit}) exceeded while invoking '" ++ function ++ "'"
  | .brokenOff cause => cause.message

/-- What evaluation yields: a result or an error. -/
abbrev Result := Except EvalError

/-- A result; where there is none, the evaluation is broken off. -/
def Breakdown.unless {α : Type} (cause : Breakdown) : Option α → Result α
  | some result => .ok result
  | none => .error (.brokenOff cause)

namespace Breakdown

variable {α : Type} {cause : Breakdown} {r : Option α}

theorem unless_eq_ok_iff {a : α} : Breakdown.unless cause r = .ok a ↔ r = some a := by
  cases r <;> simp [Breakdown.unless]

theorem unless_eq_error_iff {e : EvalError} :
    Breakdown.unless cause r = .error e ↔ e = .brokenOff cause ∧ r = none := by
  cases r <;> simp [Breakdown.unless, eq_comm]

end Breakdown

end DecisionModel
