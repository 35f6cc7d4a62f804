import DecisionModel.Double.Basic
import DecisionModel.Entries

/-!
# JSON values

A JSON tree as it is read: the fields of an object stand in the order of the text, repeated names
included, because the readers of documents refuse a repeated field while plain data keep the last
one (`Json.settle`). A number is either an integer of at most 64 bits or a double; which of the
two is decided when it is read.
-/

namespace DecisionModel

namespace Json

/-- A JSON number. -/
inductive Number where
  | integer (value : Int)
  | double (value : Double)
  deriving DecidableEq, Repr

end Json

inductive Json where
  | null
  | bool (value : Bool)
  | number (value : Json.Number)
  | string (value : String)
  | array (items : List Json)
  | object (fields : List (String × Json))
  deriving Repr

namespace Json

instance : Inhabited Json := ⟨.null⟩

def ofInt (n : Int) : Json := .number (.integer n)

def ofNat (n : Nat) : Json := ofInt n

/-- The field of an object. -/
def get? (name : String) : Json → Option Json
  | .object fields => Entries.get? fields name
  | _ => none

def string? : Json → Option String
  | .string s => some s
  | _ => none

def bool? : Json → Option Bool
  | .bool b => some b
  | _ => none

def array? : Json → Option (List Json)
  | .array items => some items
  | _ => none

def fields? : Json → Option (List (String × Json))
  | .object fields => some fields
  | _ => none

def integer? : Json → Option Int
  | .number (.integer n) => some n
  | _ => none

mutual

/-- Sorts the fields of every object by name and keeps the last of those that repeat a name. -/
def settle : Json → Json
  | .array items => .array (settleAll items)
  | .object fields => .object (settleFields [] fields)
  | .null => .null
  | .bool b => .bool b
  | .number n => .number n
  | .string s => .string s

def settleAll : List Json → List Json
  | [] => []
  | item :: items => item.settle :: settleAll items

def settleFields (settled : List (String × Json)) : List (String × Json) → List (String × Json)
  | [] => settled
  | (name, value) :: rest => settleFields (Entries.insert settled name value.settle) rest

end

end Json

end DecisionModel
