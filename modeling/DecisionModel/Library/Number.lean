import DecisionModel.Library.Arguments
import DecisionModel.Operator.Arithmetic

/-!
# Functions of numbers

Rounding and magnitude.
-/

namespace DecisionModel.Library

/-- A function of one number. -/
def ofNumber (function : String) (f : Decimal → Decimal) (args : List Value) : Result Value :=
  let subject := argument args 0
  if subject.isMissing then .ok subject
  else (expectNumber function subject).map fun n => .number (f n)

def floor (args : List Value) : Result Value := ofNumber "floor" Decimal.floor args

def ceiling (args : List Value) : Result Value := ofNumber "ceiling" Decimal.ceiling args

/-- The magnitude of a number or a duration. -/
def abs (args : List Value) : Result Value :=
  match argument args 0 with
  | .months d => (if d.isNegative then d.negate else .ok d).map .months
  | .elapsed d => (if d.isNegative then d.negate else .ok d).map .elapsed
  | _ => ofNumber "abs" Decimal.abs args

/-- How many decimals to round to; none unless it is said. The count is a word of 32 bits. -/
def places (function : String) : Value → Result Nat
  | .absent => .ok 0
  | .null => .ok 0
  | v => do
    let count := (← Number.toWhole function (← expectNumber function v)).toInt
    if count < 0 ∨ wordSize32 ≤ count then
      throw (.invalidArgument function (.negativeScale count))
    else return count.toNat

def rounded (function : String) (tie : Tie) (args : List Value) : Result Value :=
  let subject := argument args 0
  if subject.isMissing then .ok subject
  else do
    let n ← expectNumber function subject
    return .number (n.round tie (← places function (argument args 1)))

/-- Rounds a half away from zero. -/
def round (args : List Value) : Result Value := rounded "round" .awayFromZero args

/-- Rounds a half to the even neighbour. -/
def decimal (args : List Value) : Result Value := rounded "decimal" .toEven args

end DecisionModel.Library
