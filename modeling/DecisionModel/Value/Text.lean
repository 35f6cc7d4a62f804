import DecisionModel.Decimal.Text
import DecisionModel.Value.Basic

/-!
# Values as text

How a value is shown. Numbers are shown without trailing zeros, strings in quotes but without
escapes, and functions and predicates only by what they are.
-/

namespace DecisionModel.Value

mutual

def toText : Value → String
  | .null => "null"
  | .absent => "absent"
  | .bool true => "true"
  | .bool false => "false"
  | .number n => n.normalize.toText
  | .string s => "\"" ++ s ++ "\""
  | .list items => "[" ++ String.intercalate ", " (textsOf items) ++ "]"
  | .context entries => "\x7b" ++ String.intercalate ", " (entryTextsOf entries) ++ "\x7d"
  | .date d => d.toText
  | .time t => t.toText
  | .dateTime dt => dt.toText
  | .months d => d.toText
  | .elapsed d => d.toText
  | .composite d => d.toText
  | .function f => "function " ++ f.name
  | .predicate _ => "predicate"

def textsOf : List Value → List String
  | [] => []
  | item :: items => item.toText :: textsOf items

def entryTextsOf : List (String × Value) → List String
  | [] => []
  | (name, value) :: entries => (name ++ ": " ++ value.toText) :: entryTextsOf entries

end

end DecisionModel.Value
