import DecisionModel.Json.Basic

/-!
# Records in JSON

A record is written as an object with a field for each of its parts; one may also be read from an
array that lists the parts in their order. A field that is not asked for is passed over, but none
that is may be given twice. A choice among names is written as the name, and may be read from an
object that has the name as its only field, with nothing under it. Inside a record the reader is
more liberal: an empty object is nothing too, and kinds may be numbered.
-/

namespace DecisionModel.Json

/-- The parts of a record, before it is known which ones are asked for. -/
inductive Parts (α : Type) where
  | named (fields : List (String × α))
  | listed (items : List α)

namespace Parts

variable {α : Type}

/-- The field of a name, if there is one. A repeated field cannot be taken. -/
def field? (fields : List (String × α)) (name : String) : Option (Option α) :=
  match fields.filter (·.1 == name) with
  | [] => some none
  | [(_, value)] => some (some value)
  | _ => none

/-- What is given for each of the fields. -/
def take? (names : List String) : Parts α → Option (List (Option α))
  | .named fields => names.mapM (field? fields)
  | .listed items =>
    if names.length < items.length then none
    else some (items.map some ++ List.replicate (names.length - items.length) none)

/-- Splits off the part that says what kind of record it is, which in an array comes first. -/
def split? (name : String) : Parts α → Option (α × Parts α)
  | .named fields =>
    match field? fields name with
    | some (some tag) => some (tag, .named (fields.filter (·.1 != name)))
    | _ => none
  | .listed [] => none
  | .listed (tag :: items) => some (tag, .listed items)

end Parts

/-- The parts of a value that can be a record. -/
def parts? : Json → Option (Parts Json)
  | .object fields => some (.named fields)
  | .array items => some (.listed items)
  | _ => none

/-- The name that is chosen. -/
def choice? : Json → Option String
  | .string name => some name
  | .object [(name, .null)] => some name
  | _ => none

/-- The name that is chosen inside a record, where an empty object is nothing as well. -/
def innerChoice? : Json → Option String
  | .object [(name, .object [])] => some name
  | json => json.choice?

/-- One of several kinds inside a record, chosen by its name or by its position among them. -/
def kindAmong? (kinds : List String) : Json → Option String
  | .string name => some name
  | .number (.integer n) => if n < 0 then none else kinds[n.toNat]?
  | _ => none

/-- A list of strings. -/
def strings? (json : Json) : Option (List String) := do (← json.array?).mapM string?

end DecisionModel.Json
