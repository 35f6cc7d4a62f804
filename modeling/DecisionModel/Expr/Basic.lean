import DecisionModel.Decimal.Basic
import DecisionModel.Operator.Symbol
import DecisionModel.Text.Blank

/-!
# Expressions

The tree that is evaluated. Trees come ready-made, from a document or from the functions below;
nothing here knows the text they were once written in.
-/

namespace DecisionModel

inductive Literal where
  | null
  | bool (value : Bool)
  | number (value : Decimal)
  | string (value : String)
  deriving DecidableEq, Repr

/-- Whether an end of an interval belongs to it. -/
inductive Bound where
  | excluded
  | included
  deriving DecidableEq, Repr

inductive Expr where
  | literal (value : Literal)
  /-- A single name such as `age` or `date and time`. -/
  | name (name : String)
  /-- A path such as `applicant.address.city`. -/
  | path (names : List String)
  | arithmetic (op : ArithmeticOp) (left right : Expr)
  /-- An operator with only a right operand. Whichever it is, the operand is negated. -/
  | negation (op : ArithmeticOp) (operand : Expr)
  | comparison (op : ComparisonOp) (left right : Expr)
  /-- A value between two others, which both count in. -/
  | between (value low high : Expr)
  /-- A value that satisfies one of several tests. -/
  | member (value : Expr) (tests : List Expr)
  | interval (lowBound : Bound) (low high : Expr) (highBound : Bound)
  /-- A single test of a table cell. Without an operator it tests for equality. -/
  | unaryTest (op : Option ComparisonOp) (operand : Expr)
  /-- The tests of a table cell, one of which, or with `negated` none of which, has to hold. No
  tests at all accept everything. -/
  | unaryTests (tests : List Expr) (negated : Bool)
  /-- The output of a table cell: its first expression counts. -/
  | expressions (items : List Expr)
  /-- A literal that is written as a call, such as a date. -/
  | temporal (symbol : String) (params : List Expr)
  | invocation (function : Expr) (params : List Expr)
  | list (items : List Expr)
  | lambda (params : List String) (body : Expr)
  deriving Repr

namespace Expr

instance : Inhabited Expr := ⟨.literal .null⟩

/-! ## Construction -/

def null : Expr := .literal .null
def bool (b : Bool) : Expr := .literal (.bool b)
def number (n : Decimal) : Expr := .literal (.number n)
def string (s : String) : Expr := .literal (.string s)

/-- The path whose names are written with points between them. -/
def dotted (text : String) : Expr := .path ((Text.split '.' text.toList).map String.ofList)

def neg (operand : Expr) : Expr := .negation .sub operand
def call (function : String) (params : List Expr) : Expr := .invocation (.name function) params
def tests (tests : List Expr) : Expr := .unaryTests tests false
def notTests (tests : List Expr) : Expr := .unaryTests tests true

/-- The test that accepts everything. -/
def any : Expr := .unaryTests [] false

/-! ## Names -/

/-- The text of a bare name or path, and the names to resolve for it. -/
def qualifiedName? : Expr → Option (String × List String)
  | .name n => some (n, [n])
  | .path ns => some (".".intercalate ns, ns)
  | _ => none

def qualifiedText? (e : Expr) : Option String := e.qualifiedName?.map (·.1)

/-- In a call that has the name `text` as an argument: the names to resolve for the first such
argument. -/
def argumentNamed? (text : String) : Expr → Option (List String)
  | .invocation _ params =>
    params.findSome? fun p => match p.qualifiedName? with
      | some (t, names) => if t = text then some names else none
      | none => none
  | _ => none

end Expr

end DecisionModel
