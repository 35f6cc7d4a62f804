import DecisionModel.Decimal.Power
import DecisionModel.Error

/-!
# Arithmetic on numbers

Decimal arithmetic with its failures put as errors: a result out of range is an overflow that shows
both operands, and an operand that the operation has no result for is a fault of the argument.
-/

namespace DecisionModel.Number

/-- A result, or the overflow of the operation that has none. -/
def orOverflow (op : ArithmeticOp) (left right : Decimal) : Option Decimal → Result Decimal
  | some result => .ok result
  | none => .error (.overflow (.numbers op left right))

def add (left right : Decimal) : Result Decimal := orOverflow .add left right (left.add? right)

def sub (left right : Decimal) : Result Decimal := orOverflow .sub left right (left.sub? right)

def mul (left right : Decimal) : Result Decimal := orOverflow .mul left right (left.mul? right)

/-- Division by zero is a fault of the argument, not an overflow. -/
def div (left right : Decimal) : Result Decimal :=
  if right.isZero then .error (.invalidArgument "/" .divisionByZero)
  else orOverflow .div left right (left.div? right)

/-- A whole power is computed by multiplication, and under a negative exponent it is inverted
afterwards. A negative number has no other powers. -/
def power (base exponent : Decimal) : Result Decimal :=
  if exponent.isWhole then do
    let (some whole) := exponent.toInt64? | .error (.overflow (.numbers .pow base exponent))
    let result ← orOverflow .pow base exponent (base.power? whole.toInt.natAbs)
    if whole.toInt < 0 then div .one result else return result
  else if base.negative then
    .error (.invalidArgument "**" (.fractionalPower exponent base))
  else orOverflow .pow base exponent (base.fractionalPower? exponent)

/-- A negative number has no root. For any other one the root is looked for, and where the search
does not come to an end, the evaluation is broken off. -/
def squareRoot (number : Decimal) : Result Decimal :=
  if number.negative && !number.isZero then .error (.invalidArgument "sqrt" (.squareRoot number))
  else Breakdown.unless .unsettledRoot number.sqrt?

/-- A number as a position or a count, for the function that asks for one. -/
def toWhole (function : String) (number : Decimal) : Result Int64 :=
  if !number.isWhole then .error (.invalidArgument function (.notWhole number))
  else match number.toInt64? with
    | some whole => .ok whole
    | none => .error (.overflow (.position number))

end DecisionModel.Number
