import DecisionModel.Evaluation
import DecisionModel.Table.Basic

/-!
# Evaluation of decision tables

The input expressions are evaluated once, from left to right. Then the rules are gone through in
order: the tests of a rule up to the first that does not hold, and the outputs of a rule that
matches. Nothing is evaluated after the point where the hit policy has settled the result, or where
a cell fails.
-/

namespace DecisionModel

/-- A place in a table. Rules and columns count from one, and output columns go on from the input
columns; the head of a column belongs to no rule. -/
structure Cell where
  rule : Option Nat
  column : Nat
  deriving DecidableEq, Repr

/-- Why a table has no result. -/
inductive TableError where
  /-- The evaluation of a cell failed, or was broken off there. -/
  | cell (place : Cell) (source : EvalError)
  /-- More than one rule matches where only one may. -/
  | notUnique
  deriving DecidableEq, Repr

/-- What happens in a cell, with an error put in its place. -/
def Cell.run {α : Type} (place : Cell) : Result α → Except TableError α
  | .ok result => .ok result
  | .error source => .error (.cell place source)

/-- An input column during an evaluation: the name that the tests may refer to, and the value that
is tested. -/
structure Column where
  inputVariable : Option String
  candidate : Value

namespace Table

/-- The scope of a cell; the heads of the columns count as rule 0. -/
def cellScope (s : Scope) (rule column : Nat) : Scope := (s.part rule).part column

/-- The columns of input expressions, numbered from `column` on. -/
def columnsFrom (column : Nat) (s : Scope) : List Expr → Except TableError (List Column)
  | [] => .ok []
  | input :: inputs => do
    let candidate ← Cell.run ⟨none, column⟩ (input.evaluate (cellScope s 0 column))
    return ⟨input.qualifiedText?, candidate⟩ :: (← columnsFrom (column + 1) s inputs)

/-- What a test in a cell makes of the column's candidate. -/
def testCell (s : Scope) (column : Column) (entry : Expr) : Result Value := do
  (← entry.evaluateTest (s.forColumn column.inputVariable)).test column.candidate

/-- Whether every test of a rule is exactly true. -/
def matchesFrom (rule column : Nat) (s : Scope) : List Column → List Expr → Except TableError Bool
  | c :: columns, entry :: entries => do
    match ← Cell.run ⟨some rule, column⟩ (testCell (cellScope s rule column) c entry) with
    | .bool true => matchesFrom rule (column + 1) s columns entries
    | _ => return false
  | _, _ => .ok true

/-- The value that an output entry gives: of a list of expressions the first one counts. -/
def outputValue (entry : Expr) (result : Value) : Value :=
  match entry, result with
  | .expressions _, .list items => items.headD .absent
  | _, v => v

/-- Puts the output values of a rule into a row. -/
def outputsFrom (rule column : Nat) (s : Scope) (row : Context) :
    List String → List Expr → Except TableError Context
  | name :: names, entry :: entries => do
    let result ← Cell.run ⟨some rule, column⟩ (entry.evaluate (cellScope s rule column))
    outputsFrom rule (column + 1) s
      (row.setPath (outputPath name) (outputValue entry result)) names entries
  | _, _ => .ok row

/-- A row in which every output is absent. -/
def emptyRow (t : Table) : Context :=
  t.outputs.foldl (fun row name => Context.setPath row (outputPath name) .absent) []

/-- The row of the rule with the given number. -/
def row (t : Table) (s : Scope) (number : Nat) (rule : Rule) : Except TableError Context :=
  outputsFrom number (t.inputs.length + 1) s t.emptyRow t.outputs rule.outputEntries

/-! ## Rules by hit policy -/

/-- The row of a rule, if the rule matches. -/
def hit? (t : Table) (columns : List Column) (s : Scope) (number : Nat) (rule : Rule) :
    Except TableError (Option Context) := do
  if ← matchesFrom number 1 s columns rule.inputEntries then
    return some (← t.row s number rule)
  else return none

/-- The row of the first rule that matches. -/
def firstHit (t : Table) (columns : List Column) (s : Scope) (number : Nat) :
    List Rule → Except TableError (Option Context)
  | [] => .ok none
  | rule :: rules => do
    match ← t.hit? columns s number rule with
    | some row => return some row
    | none => t.firstHit columns s (number + 1) rules

/-- The row of the only rule that matches. Of a second one not even the outputs are evaluated. -/
def onlyHit (t : Table) (columns : List Column) (s : Scope) (number : Nat)
    (found : Option Context) : List Rule → Except TableError (Option Context)
  | [] => .ok found
  | rule :: rules => do
    match found with
    | none => t.onlyHit columns s (number + 1) (← t.hit? columns s number rule) rules
    | some row =>
      if ← matchesFrom number 1 s columns rule.inputEntries then throw .notUnique
      else t.onlyHit columns s (number + 1) (some row) rules

/-- The rows of all rules that match. -/
def allHits (t : Table) (columns : List Column) (s : Scope) (number : Nat) :
    List Rule → Except TableError (List Context)
  | [] => .ok []
  | rule :: rules => do
    let hit ← t.hit? columns s number rule
    let hits ← t.allHits columns s (number + 1) rules
    return hit.toList ++ hits

/-- One row, where every output is absent if no rule matches, or a list of rows. -/
def evaluate (t : Table) (s : Scope) : Except TableError Value := do
  let columns ← columnsFrom 1 s t.inputs
  match t.hitPolicy with
  | .first => return .context ((← t.firstHit columns s 1 t.rules).getD t.emptyRow)
  | .unique => return .context ((← t.onlyHit columns s 1 none t.rules).getD t.emptyRow)
  | .collect | .ruleOrder => return .list ((← t.allHits columns s 1 t.rules).map .context)

end Table

end DecisionModel
