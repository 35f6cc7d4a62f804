/-!
# Kinds of values

The kinds by which errors speak of values.
-/

namespace DecisionModel

inductive Kind where
  | null
  | absent
  | boolean
  | number
  | string
  | list
  | context
  | date
  | time
  | dateTime
  | months
  | elapsed
  | composite
  | function
  | predicate
  deriving DecidableEq, Repr

def Kind.name : Kind → String
  | .null => "null"
  | .absent => "absent"
  | .boolean => "boolean"
  | .number => "number"
  | .string => "string"
  | .list => "list"
  | .context => "context"
  | .date => "date"
  | .time => "time"
  | .dateTime => "date and time"
  | .months => "years and months duration"
  | .elapsed => "days and time duration"
  | .composite => "duration"
  | .function => "function"
  | .predicate => "predicate"

end DecisionModel
