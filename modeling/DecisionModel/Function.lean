import DecisionModel.Builtin
import DecisionModel.Expr.Basic

/-!
# Functions

A function is equal only to itself: a function expression yields another function every time it is
evaluated, even where the parameters and the body are the same. What tells two functions apart is
where they came from. Evaluation keeps the site it is at, a path through the evaluations that
contain one another; no site is visited twice, so the site of a function expression names the
function it yields there.
-/

namespace DecisionModel

/-- The step from an evaluation to another one that it contains. -/
inductive Step where
  /-- The evaluation of an operand, an argument, an element or a table cell. -/
  | part (index : Nat)
  /-- The evaluation of the body of a function that is called. -/
  | body
  /-- The call of the function that a decision yields. -/
  | result
  /-- The evaluation of a decision. -/
  | decision (id : String)
  deriving DecidableEq, Repr

/-- The steps that lead to an evaluation, the last one first. -/
abbrev Site := List Step

/-- What a function is recognised by. -/
inductive Identity where
  /-- A function that was there before evaluation began. -/
  | given (index : Nat)
  /-- A function that an expression at this site yields. -/
  | made (site : Site)
  deriving DecidableEq, Repr

inductive Function where
  | builtin (b : Builtin)
  | lambda (identity : Identity) (params : List String) (body : Expr)
  /-- A decision that can be called. Its body is evaluated where it is called; when that yields a
  function, this function is called with the arguments. -/
  | decision (identity : Identity) (name : String) (body : Expr)
  deriving Repr

namespace Function

def name : Function → String
  | .builtin b => b.name
  | .lambda .. => "anonymous"
  | .decision _ name _ => name

/-- Whether two functions are the same one. -/
def same : Function → Function → Bool
  | .builtin a, .builtin b => a == b
  | .lambda a _ _, .lambda b _ _ => a == b
  | .decision a _ _, .decision b _ _ => a == b
  | _, _ => false

end Function

end DecisionModel
