import DecisionModel.Calendar.Time
import DecisionModel.Duration.Basic
import DecisionModel.Entries
import DecisionModel.Function
import DecisionModel.Value.Kind

/-!
# Values

Everything that an expression can yield. Null is a value like any other. Absent stands where a name
could not be resolved and flows through almost every operation.

A predicate is a test of one value, kept as data: what it compares with, how, and how tests are
joined. So a predicate can be built in one scope and applied elsewhere, with the values that it
holds.
-/

namespace DecisionModel

mutual

inductive Value where
  | null
  | absent
  | bool (b : Bool)
  | number (n : Decimal)
  | string (s : String)
  | list (items : List Value)
  /-- The entries are sorted by name. -/
  | context (entries : List (String × Value))
  | date (d : Date)
  | time (t : Time)
  | dateTime (dt : DateTime)
  | months (d : Months)
  | elapsed (d : Elapsed)
  | composite (d : Composite)
  | function (f : Function)
  | predicate (p : Predicate)

inductive Predicate where
  /-- The value compared with a bound, which is the right operand. -/
  | compare (op : ComparisonOp) (bound : Value)
  /-- The value between two others. -/
  | interval (lowBound : Bound) (low high : Value) (highBound : Bound)
  | constant (result : Bool)
  | anyOf (tests : List Predicate)
  | negate (test : Predicate)

end

/-- The bindings of a scope, or the value of a context. -/
abbrev Context := List (String × Value)

namespace Value

/-- A value that is not known is absent. -/
instance : Inhabited Value := ⟨.absent⟩

def kind : Value → Kind
  | .null => .null
  | .absent => .absent
  | .bool _ => .boolean
  | .number _ => .number
  | .string _ => .string
  | .list _ => .list
  | .context _ => .context
  | .date _ => .date
  | .time _ => .time
  | .dateTime _ => .dateTime
  | .months _ => .months
  | .elapsed _ => .elapsed
  | .composite _ => .composite
  | .function _ => .function
  | .predicate _ => .predicate

def isAbsent : Value → Bool
  | .absent => true
  | _ => false

def isNull : Value → Bool
  | .null => true
  | _ => false

/-- The truth of a boolean; no other value has one. -/
def truth : Value → Option Bool
  | .bool b => some b
  | _ => none

def ofNat (n : Nat) : Value := .number (.ofNat n)

def ofDuration : Duration → Value
  | .months d => .months d
  | .elapsed d => .elapsed d
  | .composite d => .composite d

/-- The entry of a context. Whatever else is asked for is absent. -/
def field (v : Value) (name : String) : Value :=
  match v with
  | .context entries => (Entries.get? entries name).getD .absent
  | _ => .absent

/-- The value at the end of a path of entries. -/
def follow (v : Value) (names : List String) : Value := names.foldl field v

end Value

namespace Context

/-- The context that a value is, if it is one, and the empty one otherwise. -/
def ofValue : Value → Context
  | .context entries => entries
  | _ => []

/-- Binds a path of names. Contexts along it are kept and added to; where something else stands in
the way, or nothing, a new context takes its place. -/
def setPath (context : Context) : List String → Value → Context
  | [], _ => context
  | [name], value => Entries.insert context name value
  | name :: rest, value =>
    let inner := ofValue ((Entries.get? context name).getD .absent)
    Entries.insert context name (.context (setPath inner rest value))

end Context

namespace Predicate

/-- A value as a test: a predicate is one already, and any other value asks for equality. -/
def ofValue : Value → Predicate
  | .predicate p => p
  | v => .compare .eq v

end Predicate

end DecisionModel
