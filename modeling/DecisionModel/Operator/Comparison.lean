import DecisionModel.Error
import DecisionModel.Value.Basic

/-!
# Comparison

Equality and order of values. Both take operands of one kind and refuse others, except that null
and absent equal themselves and nothing else, and have no order. Inside lists and contexts nothing
is refused: entries of different kinds are simply not equal.

Times and date-times are compared after the right one is expressed at the offset of the left one,
so values that are written differently can be equal.
-/

namespace DecisionModel.Value

/-- The error of an operator that does not take operands of these kinds. -/
def mismatch (symbol : String) (left right : Value) : EvalError :=
  .unsupported (.operator symbol) [left.kind, right.kind]

/-- Null and absent, the values without content. -/
def isMissing (v : Value) : Bool := v.isAbsent || v.isNull

/-- The order of two date-times, if the right one can be expressed at the offset of the left. -/
def orderDateTimes (a b : DateTime) : Result Ordering :=
  match a.order? b with
  | some o => .ok o
  | none => .error (.overflow .offsetShift)

/-- A comparison that failed does not hold. -/
def holds : Result Bool → Bool
  | .ok b => b
  | .error _ => false

mutual

def equals (left right : Value) : Result Bool :=
  if left.isMissing || right.isMissing then .ok (left.kind == right.kind)
  else match left, right with
    | .bool a, .bool b => .ok (a == b)
    | .number a, .number b => .ok (a.same b)
    | .string a, .string b => .ok (a == b)
    | .list as, .list bs => .ok (agreeAll as bs)
    | .context as, .context bs => .ok (agreeEntries as bs)
    | .date a, .date b => .ok (a == b)
    | .time a, .time b => .ok (a.order b == .eq)
    | .dateTime a, .dateTime b => (orderDateTimes a b).map (· == .eq)
    | .months a, .months b => .ok (a == b)
    | .elapsed a, .elapsed b => .ok (a == b)
    | .composite a, .composite b => .ok (a == b)
    | .function a, .function b => .ok (a.same b)
    | left, right => .error (mismatch "=" left right)

/-- Whether two lists are of one length and equal element by element. -/
def agreeAll : List Value → List Value → Bool
  | [], [] => true
  | a :: as, b :: bs => holds (a.equals b) && agreeAll as bs
  | _, _ => false

/-- Whether two contexts bind the same names to equal values. -/
def agreeEntries : List (String × Value) → List (String × Value) → Bool
  | [], [] => true
  | (m, a) :: as, (n, b) :: bs => m == n && holds (a.equals b) && agreeEntries as bs
  | _, _ => false

end

/-- Equality read as a test that cannot fail. -/
def agrees (left right : Value) : Bool := holds (left.equals right)

/-- The order of two values of a kind that has one; null has no order with anything. The operator
is the one that errors name. -/
def order (op : ComparisonOp) (left right : Value) : Result (Option Ordering) :=
  if left.isNull || right.isNull then .ok none
  else match left, right with
    | .number a, .number b => .ok (some (a.order b))
    | .string a, .string b => .ok (some (compare a b))
    | .date a, .date b => .ok (some (a.order b))
    | .time a, .time b => .ok (some (a.order b))
    | .dateTime a, .dateTime b => (orderDateTimes a b).map some
    | .months a, .months b => .ok (some (compare a.toInt b.toInt))
    | .elapsed a, .elapsed b => .ok (some (compare a.nanos b.nanos))
    | left, right => .error (mismatch op.symbol left right)

/-- Whether the operator holds: absent if an operand is, and null where there is no order. -/
def compare (op : ComparisonOp) (left right : Value) : Result Value :=
  if left.isAbsent || right.isAbsent then .ok .absent
  else match op with
    | .eq => (left.equals right).map .bool
    | .ne => (left.equals right).map fun equal => .bool !equal
    | op => (left.order op right).map fun
      | none => .null
      | some ordering => .bool (op.holds ordering)

end DecisionModel.Value
