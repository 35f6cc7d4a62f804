import DecisionModel.Value.Basic

/-!
# Sameness of values

Whether two values are the same piece of data, which is stricter than equality in the language:
times count as different when their offsets differ, and values of different kinds are compared
without complaint. Numbers are the same when they denote the same number, functions when they are
the same function, and a predicate is not even the same as itself.
-/

namespace DecisionModel.Value

mutual

def same : Value → Value → Bool
  | .null, .null => true
  | .absent, .absent => true
  | .bool a, .bool b => a == b
  | .number a, .number b => a.same b
  | .string a, .string b => a == b
  | .list as, .list bs => sameAll as bs
  | .context as, .context bs => sameEntries as bs
  | .date a, .date b => a == b
  | .time a, .time b => a == b
  | .dateTime a, .dateTime b => a == b
  | .months a, .months b => a == b
  | .elapsed a, .elapsed b => a == b
  | .composite a, .composite b => a == b
  | .function a, .function b => a.same b
  | _, _ => false

def sameAll : List Value → List Value → Bool
  | [], [] => true
  | a :: as, b :: bs => a.same b && sameAll as bs
  | _, _ => false

def sameEntries : List (String × Value) → List (String × Value) → Bool
  | [], [] => true
  | (m, a) :: as, (n, b) :: bs => m == n && a.same b && sameEntries as bs
  | _, _ => false

end

end DecisionModel.Value
