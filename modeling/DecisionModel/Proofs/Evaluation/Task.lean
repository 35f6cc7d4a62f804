import DecisionModel.Proofs.Evaluation.Simulation
import Mathlib.Logic.Relation

/-!
# Tasks

Evaluation is defined by a count of the calls that may still nest, and the count is not part of the
language. So that nothing hangs on it, the recursion is written down once more as a reader would do
it: a *task* is an expression to be evaluated or a function to be called, and `Task.step` says what
it comes to where the tasks inside it are carried out by `run`; a call is refused by its scope alone.
`Task.Starts` says which tasks are inside a task. No chain of them goes on for ever, so that the step
has one solution, and this is evaluation.
-/

namespace DecisionModel

/-- What there is to do: an expression to evaluate, or a function to call. -/
inductive Task where
  | evaluation (e : Expr) (s : Scope)
  | call (f : Function) (args : List Value) (s : Scope)

namespace Task

def scope : Task → Scope
  | .evaluation _ s | .call _ _ s => s

/-- What a task comes to, where `run` carries out the tasks inside it. -/
def step (run : Task → Result Value) : Task → Result Value
  | .evaluation e s => e.evaluateWith (fun f args s => run (.call f args s)) s
  | .call (.builtin b) args _ => b.call args
  | .call (.lambda identity params body) args s => do
    let inner ← s.enterCall (Function.lambda identity params body).name (bindParams [] params args)
    run (.evaluation body inner)
  | .call (.decision _ name body) args s => do
    let inner ← s.enterCall name []
    match ← run (.evaluation body inner) with
    | .function f => run (.call f args (inner.stepTo .result))
    | v => return v

/-- The tasks inside a task: the evaluation of operands, the calls of an invocation, and for a call
the evaluation of the body and what a decision hands on, as far as the limit lets the call in. Which
functions an invocation calls, and with which arguments, is left open. -/
inductive Starts : Task → Task → Prop where
  | operand {e operand : Expr} {s : Scope} (site : Site) : operand ∈ e.operands →
      Starts (.evaluation e s) (.evaluation operand (s.atSite site))
  | call {function : Expr} {params : List Expr} {s : Scope} (f : Function) (args : List Value)
      (site : Site) :
      Starts (.evaluation (.invocation function params) s) (.call f args (s.atSite site))
  | body {identity : Identity} {params : List String} {body : Expr} {args : List Value}
      {s : Scope} : s.depth < s.limit →
      Starts (.call (.lambda identity params body) args s)
        (.evaluation body (s.enter (bindParams [] params args)))
  | decision {identity : Identity} {name : String} {body : Expr} {args : List Value} {s : Scope} :
      s.depth < s.limit →
      Starts (.call (.decision identity name body) args s) (.evaluation body (s.enter []))
  | result {identity : Identity} {name : String} {body : Expr} {args : List Value} {s : Scope}
      (f : Function) : s.depth < s.limit →
      Starts (.call (.decision identity name body) args s)
        (.call f args ((s.enter []).stepTo .result))

/-- The tasks that come up in the course of a task, the task itself included. -/
def Reaches : Task → Task → Prop := Relation.ReflTransGen Starts

/-- What evaluation makes of a task. -/
def outcome : Task → Result Value
  | .evaluation e s => e.evaluate s
  | .call f args s => f.invoke args s

/-! ## Tasks end -/

/-- How many calls may still nest, and then how much of an expression is left. -/
noncomputable def size : Task → Nat × Nat
  | .evaluation e s => (s.callsLeft, sizeOf e)
  | .call _ _ s => (s.callsLeft, 0)

theorem Starts.limit_eq {outer inner : Task} (h : Starts outer inner) :
    inner.scope.limit = outer.scope.limit := by
  cases h <;> rfl

theorem Starts.depth_le {outer inner : Task} (h : Starts outer inner)
    (hdepth : outer.scope.depth ≤ outer.scope.limit) : inner.scope.depth ≤ inner.scope.limit := by
  cases h with
  | operand | call => exact hdepth
  | body hlt | decision hlt | result f hlt => exact hlt

theorem Reaches.within {outer inner : Task} (h : Reaches outer inner)
    (hdepth : outer.scope.depth ≤ outer.scope.limit) :
    inner.scope.depth ≤ inner.scope.limit ∧ inner.scope.limit = outer.scope.limit := by
  induction h with
  | refl => exact ⟨hdepth, rfl⟩
  | tail _ hstarts ih => exact ⟨hstarts.depth_le ih.1, hstarts.limit_eq.trans ih.2⟩

/-! ## The step has one solution -/

end Task

end DecisionModel
