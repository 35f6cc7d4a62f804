import DecisionModel.Json.Basic
import DecisionModel.Double.Shortest

/-!
# Writing JSON text

The shortest form: no blanks, and an escape only where one is required.
-/

namespace DecisionModel.Json

def hexChar (n : Nat) : Char := Nat.digitChar n

/-- A character inside quotes. -/
def quoteChar (c : Char) : List Char :=
  match c with
  | '"' => ['\\', '"']
  | '\\' => ['\\', '\\']
  | '\n' => ['\\', 'n']
  | '\t' => ['\\', 't']
  | '\x0d' => ['\\', 'r']
  | '\x08' => ['\\', 'b']
  | '\x0c' => ['\\', 'f']
  | c =>
    if c < ' ' then ['\\', 'u', '0', '0', hexChar (c.toNat / 16), hexChar (c.toNat % 16)]
    else [c]

def quote (s : String) : String :=
  String.ofList ('"' :: s.toList.flatMap quoteChar ++ ['"'])

def Number.toText : Number → String
  | .integer n => String.ofList (Text.ofInt n)
  | .double x => String.ofList x.toChars

mutual

def render : Json → String
  | .null => "null"
  | .bool true => "true"
  | .bool false => "false"
  | .number n => n.toText
  | .string s => quote s
  | .array items => "[" ++ String.intercalate "," (renderAll items) ++ "]"
  | .object fields => "\x7b" ++ String.intercalate "," (renderFields fields) ++ "\x7d"

def renderAll : List Json → List String
  | [] => []
  | item :: items => item.render :: renderAll items

def renderFields : List (String × Json) → List String
  | [] => []
  | (name, value) :: rest => (quote name ++ ":" ++ value.render) :: renderFields rest

end

end DecisionModel.Json
