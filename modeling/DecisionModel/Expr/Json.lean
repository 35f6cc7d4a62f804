import DecisionModel.Decimal.Text
import DecisionModel.Double.Shortest
import DecisionModel.Expr.Basic
import DecisionModel.Json.Record

/-!
# Expressions in JSON

The form in which expressions are handed over: a record for each of them, with its kind in the field
`type`. A number literal is written as a string, so that it keeps its digits and its decimals; it
may also be read from a JSON number.
-/

namespace DecisionModel

/-! ## Writing -/

namespace Bound

def name : Bound → String
  | .excluded => "open"
  | .included => "closed"

def ofName? (s : String) : Option Bound := [excluded, included].find? (·.name == s)

end Bound

def Literal.toJson : Literal → Json
  | .null => .object [("kind", .string "null")]
  | .bool b => .object [("kind", .string "bool"), ("value", .bool b)]
  | .number n => .object [("kind", .string "number"), ("value", .string n.toText)]
  | .string s => .object [("kind", .string "string"), ("value", .string s)]

namespace Expr

/-- A record of a kind. -/
def record (kind : String) (fields : List (String × Json)) : Json :=
  .object (("type", .string kind) :: fields)

def stringsToJson (names : List String) : Json := .array (names.map .string)

mutual

def toJson : Expr → Json
  | .literal l => record "Literal" [("value", l.toJson)]
  | .name n => record "Name" [("name", .string n)]
  | .path names => record "QualifiedName" [("names", stringsToJson names)]
  | .arithmetic op left right =>
    record "ArithmeticExpression"
      [("operator", .string op.symbol), ("left", left.toJson), ("right", right.toJson)]
  | .negation op operand =>
    record "ArithmeticExpression" [("operator", .string op.symbol), ("right", operand.toJson)]
  | .comparison op left right =>
    record "ComparisonExpression"
      [("operator", .string op.symbol), ("left", left.toJson), ("right", right.toJson)]
  | .between value low high =>
    record "Between" [("value", value.toJson), ("low", low.toJson), ("high", high.toJson)]
  | .member value tests =>
    record "In" [("value", value.toJson), ("tests", .array (toJsonAll tests))]
  | .interval lowBound low high highBound =>
    record "Interval"
      [("start_bound", .string lowBound.name), ("start", low.toJson), ("end", high.toJson),
       ("end_bound", .string highBound.name)]
  | .unaryTest none operand => record "SimplePositiveUnaryTest" [("operand", operand.toJson)]
  | .unaryTest (some op) operand =>
    record "SimplePositiveUnaryTest" [("operator", .string op.symbol), ("operand", operand.toJson)]
  | .unaryTests tests negated =>
    record "SimpleUnaryTests" [("tests", .array (toJsonAll tests)), ("negated", .bool negated)]
  | .expressions items => record "SimpleExpressions" [("expressions", .array (toJsonAll items))]
  | .temporal symbol params =>
    record "DateTimeLiteral" [("symbol", .string symbol), ("params", .array (toJsonAll params))]
  | .invocation function params =>
    record "FunctionInvocation"
      [("function", function.toJson), ("params", .object [("params", .array (toJsonAll params))])]
  | .list items => record "List" [("items", .array (toJsonAll items))]
  | .lambda params body =>
    record "FunctionDefinition" [("params", stringsToJson params), ("body", body.toJson)]

def toJsonAll : List Expr → List Json
  | [] => []
  | e :: es => e.toJson :: toJsonAll es

end

end Expr

/-! ## Reading -/

/-- The decimal of a number literal. -/
def Decimal.ofLiteral? : Json → Option Decimal
  | .string s => (Decimal.read s).toOption
  | .number (.integer n) => Decimal.ofInt? n
  | .number (.double x) => (Decimal.readChars x.toPlainChars).toOption
  | _ => none

namespace Literal

def kinds : List String := ["null", "bool", "number", "string"]

/-- The literal of a kind. A null takes no value. -/
def ofKind? (kind : String) (value? : Option Json) : Option Literal :=
  match kind, value? with
  | "null", none => some .null
  | "null", some .null => some .null
  | "bool", some (.bool b) => some (.bool b)
  | "number", some n => (Decimal.ofLiteral? n).map .number
  | "string", some (.string s) => some (.string s)
  | _, _ => none

/-- In an array the value has to be given, also that of a null. -/
def fromJson? : Json → Option Literal
  | .array [kind, value] => do ofKind? (← kind.kindAmong? kinds) (some value)
  | .object fields => do
    let [some kind, value?] ← (Json.Parts.named fields).take? ["kind", "value"] | none
    ofKind? (← kind.innerChoice?) value?
  | _ => none

end Literal

def ArithmeticOp.fromJson? (json : Json) : Option ArithmeticOp := do ofSymbol? (← json.choice?)

def ComparisonOp.fromJson? (json : Json) : Option ComparisonOp := do ofSymbol? (← json.choice?)

def Bound.fromJson? (json : Json) : Option Bound := do ofName? (← json.choice?)

/-- Choices as they may stand inside an expression. -/
def ArithmeticOp.fromInner? (json : Json) : Option ArithmeticOp := do
  ofSymbol? (← json.innerChoice?)

def ComparisonOp.fromInner? (json : Json) : Option ComparisonOp := do
  ofSymbol? (← json.innerChoice?)

def Bound.fromInner? (json : Json) : Option Bound := do ofName? (← json.innerChoice?)

namespace Expr

/-- The kinds of expressions. -/
def kinds : List String :=
  ["Literal", "Name", "QualifiedName", "ArithmeticExpression", "ComparisonExpression", "Between",
    "In", "Interval", "SimplePositiveUnaryTest", "SimpleUnaryTests", "SimpleExpressions",
    "DateTimeLiteral", "FunctionInvocation", "List", "FunctionDefinition"]

/-- Everything that a JSON value can be read as where it stands inside an expression. -/
structure Reading where
  json : Json
  expr? : Option Expr
  exprs? : Option (List Expr)
  /-- The arguments of a call are a record of their own. -/
  params? : Option (List Expr)

/-- A value that is not given or null, or else an expression. -/
def optional? : Option Reading → Option (Option Expr)
  | none => some none
  | some r => match r.json with
    | .null => some none
    | _ => r.expr?.map some

/-- An operator that is not given or null, or else one that reads. -/
def optionalOp? : Option Reading → Option (Option ComparisonOp)
  | none => some none
  | some r => match r.json with
    | .null => some none
    | json => (ComparisonOp.fromInner? json).map some

/-- The arguments of a call. -/
def paramsOf? (parts : Json.Parts Reading) : Option (List Expr) := do
  let [some params] ← parts.take? ["params"] | none
  params.exprs?

/-- The expression of a kind. -/
def ofKind? (kind : String) (parts : Json.Parts Reading) : Option Expr :=
  match kind with
  | "Literal" => do
    let [some value] ← parts.take? ["value"] | none
    return .literal (← Literal.fromJson? value.json)
  | "Name" => do
    let [some text] ← parts.take? ["name"] | none
    return .name (← text.json.string?)
  | "QualifiedName" => do
    let [some names] ← parts.take? ["names"] | none
    return .path (← names.json.strings?)
  | "ArithmeticExpression" => do
    let [some op, left, some right] ← parts.take? ["operator", "left", "right"] | none
    let op ← ArithmeticOp.fromInner? op.json
    match ← optional? left with
    | some left => return .arithmetic op left (← right.expr?)
    | none => return .negation op (← right.expr?)
  | "ComparisonExpression" => do
    let [some op, some left, some right] ← parts.take? ["operator", "left", "right"] | none
    return .comparison (← ComparisonOp.fromInner? op.json) (← left.expr?) (← right.expr?)
  | "Between" => do
    let [some value, some low, some high] ← parts.take? ["value", "low", "high"] | none
    return .between (← value.expr?) (← low.expr?) (← high.expr?)
  | "In" => do
    let [some value, some tests] ← parts.take? ["value", "tests"] | none
    return .member (← value.expr?) (← tests.exprs?)
  | "Interval" => do
    let [some lowBound, some low, some high, some highBound] ←
      parts.take? ["start_bound", "start", "end", "end_bound"] | none
    return .interval (← Bound.fromInner? lowBound.json) (← low.expr?) (← high.expr?)
      (← Bound.fromInner? highBound.json)
  | "SimplePositiveUnaryTest" => do
    let [op, some operand] ← parts.take? ["operator", "operand"] | none
    return .unaryTest (← optionalOp? op) (← operand.expr?)
  | "SimpleUnaryTests" => do
    let [tests, negated] ← parts.take? ["tests", "negated"] | none
    let tests ← match tests with
      | none => some []
      | some tests => tests.exprs?
    let negated ← match negated with
      | none => some false
      | some negated => negated.json.bool?
    return .unaryTests tests negated
  | "SimpleExpressions" => do
    let [some items] ← parts.take? ["expressions"] | none
    return .expressions (← items.exprs?)
  | "DateTimeLiteral" => do
    let [some symbol, some params] ← parts.take? ["symbol", "params"] | none
    return .temporal (← symbol.json.string?) (← params.exprs?)
  | "FunctionInvocation" => do
    let [some function, params] ← parts.take? ["function", "params"] | none
    let params ← match params with
      | none => some []
      | some params => params.params?
    return .invocation (← function.expr?) params
  | "List" => do
    let [some items] ← parts.take? ["items"] | none
    return .list (← items.exprs?)
  | "FunctionDefinition" => do
    let [some params, some body] ← parts.take? ["params", "body"] | none
    return .lambda (← params.json.strings?) (← body.expr?)
  | _ => none

/-- The expression that a record is, whose kind is read as `kindOf?` says. -/
def ofParts? (kindOf? : Json → Option String) (parts : Json.Parts Reading) : Option Expr := do
  let (kind, rest) ← parts.split? "type"
  ofKind? (← kindOf? kind.json) rest

/-- The expression that a record inside another one is. -/
def ofInnerParts? (parts : Json.Parts Reading) : Option Expr := ofParts? (·.kindAmong? kinds) parts

mutual

/-- Reads a JSON tree from the leaves up. -/
def read : Json → Reading
  | .array items =>
    let readings := readAll items
    ⟨.array items, ofInnerParts? (.listed readings), readings.mapM (·.expr?),
      paramsOf? (.listed readings)⟩
  | .object fields =>
    let readings := readFields fields
    ⟨.object fields, ofInnerParts? (.named readings), none, paramsOf? (.named readings)⟩
  | .null => ⟨.null, none, none, none⟩
  | .bool b => ⟨.bool b, none, none, none⟩
  | .number n => ⟨.number n, none, none, none⟩
  | .string s => ⟨.string s, none, none, none⟩

def readAll : List Json → List Reading
  | [] => []
  | item :: items => read item :: readAll items

def readFields : List (String × Json) → List (String × Reading)
  | [] => []
  | (key, json) :: fields => (key, read json) :: readFields fields

end

/-- An expression that stands on its own has the name of its kind. -/
def fromJson? : Json → Option Expr
  | .array items => ofParts? Json.string? (.listed (readAll items))
  | .object fields => ofParts? Json.string? (.named (readFields fields))
  | _ => none

/-- A list of expressions. -/
def listFromJson? (json : Json) : Option (List Expr) := do (← json.array?).mapM fromJson?

end Expr

end DecisionModel
