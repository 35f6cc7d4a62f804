import DecisionModel.Decision.Set
import DecisionModel.Expr.Json
import DecisionModel.Json.Reader

/-!
# Documents

The form in which decision sets are exchanged: a JSON document that lists decisions with their
tables. A document is read in two steps. Its form comes first, and only then what it says: the hit
policies, the tables and the requirements.
-/

namespace DecisionModel

/-- A decision as a document describes it. -/
structure DecisionDocument where
  id : String
  hitPolicy : String
  required : List String
  inputs : List Expr
  outputs : List String
  rules : List Rule

structure Document where
  decisions : List DecisionDocument

/-! ## Writing -/

namespace Rule

def toJson (r : Rule) : Json :=
  .object [
    ("input_entries", .array (Expr.toJsonAll r.inputEntries)),
    ("output_entries", .array (Expr.toJsonAll r.outputEntries))]

end Rule

namespace DecisionDocument

def toJson (d : DecisionDocument) : Json :=
  .object [
    ("id", .string d.id),
    ("hit_policy", .string d.hitPolicy),
    ("required_decisions", Expr.stringsToJson d.required),
    ("inputs", .array (Expr.toJsonAll d.inputs)),
    ("outputs", Expr.stringsToJson d.outputs),
    ("rules", .array (d.rules.map Rule.toJson))]

end DecisionDocument

namespace Document

def toJson (document : Document) : Json :=
  .object [("decisions", .array (document.decisions.map DecisionDocument.toJson))]

end Document

/-! ## Reading -/

namespace Rule

/-- The fields that are read, and what counts in them. -/
def fields : List (String × Json.Shape) :=
  [("input_entries", .whole), ("output_entries", .whole)]

def fromJson? (json : Json) : Option Rule := do
  let [some inputs, some outputs] ← (← json.parts?).take? (fields.map (·.1)) | none
  return ⟨← Expr.listFromJson? inputs, ← Expr.listFromJson? outputs⟩

end Rule

namespace DecisionDocument

/-- The hit policy of a decision that does not name one. -/
def defaultHitPolicy : String := "UNIQUE"

/-- The fields that are read, and what counts in them. -/
def fields : List (String × Json.Shape) :=
  [("id", .whole), ("hit_policy", .whole), ("required_decisions", .whole), ("inputs", .whole),
    ("outputs", .whole), ("rules", .list (.record Rule.fields))]

def fromJson? (json : Json) : Option DecisionDocument := do
  let [some id, hitPolicy, required, some inputs, some outputs, some rules] ←
    (← json.parts?).take? (fields.map (·.1)) | none
  return {
    id := ← id.string?
    hitPolicy := ← match hitPolicy with
      | none => some defaultHitPolicy
      | some policy => policy.string?
    required := ← match required with
      | none => some []
      | some ids => ids.strings?
    inputs := ← Expr.listFromJson? inputs
    outputs := ← outputs.strings?
    rules := ← (← rules.array?).mapM Rule.fromJson? }

/-- The decision that is described. -/
def toDecision (d : DecisionDocument) : Except DecisionError Decision :=
  match HitPolicy.ofText? d.hitPolicy with
  | none => .error (.unsupportedHitPolicy d.hitPolicy)
  | some policy => match Table.new policy d.inputs d.outputs d.rules with
    | .ok table => .ok ⟨d.id, table, d.required⟩
    | .error fault => .error (.invalidTable d.id fault)

end DecisionDocument

namespace Document

/-- The fields that are read, and what counts in them. -/
def fields : List (String × Json.Shape) :=
  [("decisions", .list (.record DecisionDocument.fields))]

def fromJson? (json : Json) : Option Document := do
  let [some decisions] ← (← json.parts?).take? (fields.map (·.1)) | none
  return ⟨← (← decisions.array?).mapM DecisionDocument.fromJson?⟩

def toDecisionSet (document : Document) : Except DecisionError DecisionSet := do
  DecisionSet.new (← document.decisions.mapM DecisionDocument.toDecision)

end Document

namespace DecisionSet

/-- The set that a document describes. -/
def ofJson (json : Json) : Except DecisionError DecisionSet :=
  match Document.fromJson? json with
  | some document => document.toDecisionSet
  | none => .error .malformedDocument

/-- The set that the text of a document describes. Fields that are not read have to be well-formed
and no more. -/
def ofText (text : String) : Except DecisionError DecisionSet :=
  match Json.readAs? (.record Document.fields) text with
  | some json => ofJson json
  | none => .error .malformedDocument

end DecisionSet

end DecisionModel
