import DecisionModel.Operator.Comparison
import DecisionModel.Operator.Logic

/-!
# Predicates applied

What a predicate makes of a candidate: true or false, or null or absent where it cannot decide.
-/

namespace DecisionModel.Predicate

/-- How a candidate is compared with the lower end of an interval. -/
def lowOp : Bound → ComparisonOp
  | .included => .ge
  | .excluded => .gt

/-- How a candidate is compared with the upper end of an interval. -/
def highOp : Bound → ComparisonOp
  | .included => .le
  | .excluded => .lt

/-- Whether a candidate lies in an interval. An absent end leaves that open, even where the other
end would decide it. -/
def testInterval (lowBound : Bound) (low high : Value) (highBound : Bound) (candidate : Value) :
    Result Value :=
  if low.isAbsent || high.isAbsent then .ok .absent
  else do
    let above ← candidate.compare (lowOp lowBound) low
    let below ← candidate.compare (highOp highBound) high
    if above.isAbsent || below.isAbsent then return .absent
    else return above.and3 below

mutual

def test : Predicate → Value → Result Value
  | .compare op bound, candidate => candidate.compare op bound
  | .interval lowBound low high highBound, candidate =>
    testInterval lowBound low high highBound candidate
  | .constant b, _ => .ok (.bool b)
  | .anyOf tests, candidate => testAny (.bool false) tests candidate
  | .negate p, candidate => (p.test candidate).map Value.not3

/-- The disjunction of what came out so far and of further tests, which are passed over once one
holds. -/
def testAny (result : Value) : List Predicate → Value → Result Value
  | [], _ => .ok result
  | p :: tests, candidate => do
    let result := result.or3 (← p.test candidate)
    if result.truth = some true then return result
    else testAny result tests candidate

end

end DecisionModel.Predicate
