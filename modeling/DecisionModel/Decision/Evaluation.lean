import DecisionModel.Decision.Merge
import DecisionModel.Decision.Set
import DecisionModel.Value.Json

/-!
# Evaluation of decisions

The decisions that a decision requires are evaluated before it, in the order in which they are
listed and each of them once. The result of each is merged into one context, which is handed from
decision to decision.
-/

namespace DecisionModel

/-- How far an evaluation has come. -/
structure Progress where
  context : Context
  /-- The decisions whose results are in the context. -/
  merged : List String

namespace Decision

/-- The result of the decision's own table. -/
def evaluateTable (d : Decision) (callLimit : Nat) (context : Context) :
    Except DecisionError Value :=
  match d.table.evaluate (.root context callLimit [.decision d.id]) with
  | .ok result => .ok result
  | .error e => .error (.ofTable d.id e)

end Decision

namespace DecisionSet

/-- Looks a decision up that has to be there. -/
def find (set : DecisionSet) (id : String) : Except DecisionError Decision :=
  match set.get? id with
  | some d => .ok d
  | none => .error (.unknownDecision id)

/-- Evaluates a decision after what it requires, and answers its result with the context that it was
evaluated in. `steps` bounds how deep requirements nest; in a set no path of requirements is longer
than the set is large. -/
def evaluateFrom (set : DecisionSet) :
    (steps : Nat) → Decision → Progress → Except DecisionError (Value × Progress)
  | 0, d, _ => .error (.cyclicDependency [d.id])
  | steps + 1, d, progress => do
    let progress ← d.required.foldlM (fun progress id => do
      if progress.merged.contains id then return progress
      else
        let required ← set.find id
        let (result, inner) ← set.evaluateFrom steps required progress
        return ⟨inner.context.mergeResult result, id :: inner.merged⟩) progress
    let result ← d.evaluateTable set.callLimit progress.context
    return (result, progress)

/-- The result of a decision in a context. -/
def evaluate (set : DecisionSet) (id : String) (context : Context) :
    Except DecisionError Value := do
  let d ← set.find id
  let (result, _) ← set.evaluateFrom set.size d ⟨context, []⟩
  return result

/-- The result of a decision for data in JSON, in JSON. -/
def evaluateJson (set : DecisionSet) (id : String) (data : Json) : Except DecisionError Json :=
  match Context.fromJson data with
  | .ok context => (set.evaluate id context).map Value.toJson
  | .error e => .error (.unusableContext e)

end DecisionSet

end DecisionModel
