import DecisionModel.Value.Basic

/-!
# Three-valued logic

Connectives on values. A boolean that decides the result does so whatever stands beside it. Where
none decides, a value that is not boolean leaves the result open: absent if one of the two is
absent, and null otherwise.
-/

namespace DecisionModel.Value

/-- The result of a connective that neither operand decides. -/
def undecided (left right : Value) : Value :=
  if left.isAbsent || right.isAbsent then .absent else .null

def or3 (left right : Value) : Value :=
  match left.truth, right.truth with
  | some true, _ => .bool true
  | _, some true => .bool true
  | some false, some false => .bool false
  | _, _ => undecided left right

def and3 (left right : Value) : Value :=
  match left.truth, right.truth with
  | some false, _ => .bool false
  | _, some false => .bool false
  | some true, some true => .bool true
  | _, _ => undecided left right

def not3 : Value → Value
  | .bool b => .bool !b
  | .absent => .absent
  | _ => .null

end DecisionModel.Value
