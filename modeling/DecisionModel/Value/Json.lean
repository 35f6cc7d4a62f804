import DecisionModel.Error
import DecisionModel.Json.Printer
import DecisionModel.Value.Text

/-!
# Values and plain JSON

Plain JSON data become values and back. A number keeps its digits: an integer is taken as it is, a
double by its shortest text. On the way back a number is written as a JSON number only if it would
be read as the same decimal again, and otherwise as a string of its digits. Dates, times and
durations are written as strings, and what has no form in JSON as null.
-/

namespace DecisionModel

/-! ## Numbers -/

namespace Decimal

/-- The decimal that a double's text denotes. -/
def ofDouble (x : Double) : Except ReadFault Decimal := readChars x.toChars

/-- The decimal of a JSON number. An integer of 64 bits always is one. -/
def ofJson (n : Json.Number) : Result Decimal :=
  match n with
  | .integer i => match ofInt? i with
    | some d => .ok d
    | none => .error (.invalidArgument "number" (.numberText n.toText .tooLarge))
  | .double x => match ofDouble x with
    | .ok d => .ok d
    | .error fault => .error (.invalidArgument "number" (.numberText n.toText fault))

/-- A double near the decimal, if it is read as the same decimal again. -/
def exactDouble? (d : Decimal) : Option Double :=
  match d.toDouble? with
  | none => none
  | some x => match ofDouble x with
    | .ok back => if back.same d then some x else none
    | .error _ => none

/-- The integer that a number without decimals is, within 64 bits. -/
def wholeInt64? (d : Decimal) : Option Int64 := if d.isWhole then d.toInt64? else none

/-- A JSON integer if there is one for the number, else a double that is read as the same number,
else the digits as a string. -/
def toJson (d : Decimal) : Json :=
  match d.wholeInt64? with
  | some i => .ofInt i.toInt
  | none => match d.normalize.exactDouble? with
    | some x => .number (.double x)
    | none => .string d.normalize.toText

end Decimal

/-! ## Values -/

namespace Value

mutual

def fromJson : Json → Result Value
  | .null => .ok .null
  | .bool b => .ok (.bool b)
  | .number n => (Decimal.ofJson n).map .number
  | .string s => .ok (.string s)
  | .array items => (fromJsonAll items).map .list
  | .object fields => (fromJsonFields [] fields).map .context

def fromJsonAll : List Json → Result (List Value)
  | [] => .ok []
  | item :: items => do
    let value ← fromJson item
    return value :: (← fromJsonAll items)

/-- Adds fields to the entries read before; of a repeated name the last field counts. -/
def fromJsonFields (entries : Context) : List (String × Json) → Result Context
  | [] => .ok entries
  | (name, json) :: fields => do
    let value ← fromJson json
    fromJsonFields (Entries.insert entries name value) fields

end

mutual

def toJson : Value → Json
  | .null => .null
  | .absent => .null
  | .function _ => .null
  | .predicate _ => .null
  | .bool b => .bool b
  | .number n => n.toJson
  | .string s => .string s
  | .list items => .array (toJsonAll items)
  | .context entries => .object (toJsonFields entries)
  | .date d => .string d.toText
  | .time t => .string t.toText
  | .dateTime dt => .string dt.toText
  | .months d => .string d.toText
  | .elapsed d => .string d.toText
  | .composite d => .string d.toText

def toJsonAll : List Value → List Json
  | [] => []
  | item :: items => item.toJson :: toJsonAll items

def toJsonFields : List (String × Value) → List (String × Json)
  | [] => []
  | (name, value) :: entries => (name, value.toJson) :: toJsonFields entries

end

end Value

/-- The bindings that a JSON object gives. -/
def Context.fromJson (json : Json) : Result Context := do
  match ← Value.fromJson json with
  | .context entries => return entries
  | other => throw (.invalidArgument "context" (.notAnObject other.kind))

end DecisionModel
