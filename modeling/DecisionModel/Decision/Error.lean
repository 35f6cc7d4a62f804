import DecisionModel.Table.Evaluation

/-!
# Errors of decisions

What can go wrong when decisions are loaded and when they are evaluated.
-/

namespace DecisionModel

inductive DecisionError where
  | unknownDecision (id : String)
  /-- More than one rule of a table matches where only one may. -/
  | notUnique (decision : String)
  | unsupportedHitPolicy (policy : String)
  /-- Decisions that require one another in a circle; the first is named again at the end. -/
  | cyclicDependency (path : List String)
  | invalidTable (decision : String) (fault : TableFault)
  | duplicateId (decision : String)
  | evaluation (decision : String) (place : Cell) (source : EvalError)
  /-- A document that does not have the form of a decision set. -/
  | malformedDocument
  /-- Data that cannot serve as the context of an evaluation. -/
  | unusableContext (source : EvalError)
  deriving DecidableEq, Repr

namespace DecisionError

/-- Where a cell is, in brackets. -/
def location (place : Cell) : String :=
  match place.rule with
  | some rule => s!" (rule {rule}, column {place.column})"
  | none => s!" (column {place.column})"

def message : DecisionError → String
  | .unknownDecision id => "unknown decision \"" ++ id ++ "\""
  | .notUnique id => "Decision \"" ++ id ++ "\" is not unique but hit policy is UNIQUE."
  | .unsupportedHitPolicy policy => "unsupported hit policy \"" ++ policy ++ "\""
  | .cyclicDependency path =>
    "decision requirement cycle detected: " ++ String.intercalate " → " path
  | .invalidTable id fault => "invalid decision table \"" ++ id ++ "\": " ++ fault.message
  | .duplicateId id => "invalid decision table \"" ++ id ++ "\": duplicate decision id"
  | .evaluation id place source =>
    "failed to evaluate decision \"" ++ id ++ "\"" ++ location place ++ ": " ++ source.message
  | .malformedDocument => "interchange error: malformed document"
  | .unusableContext source => "interchange error: " ++ source.message

/-- The error of a decision whose table has one. -/
def ofTable (decision : String) : TableError → DecisionError
  | .cell place source => .evaluation decision place source
  | .notUnique => .notUnique decision

end DecisionError

end DecisionModel
