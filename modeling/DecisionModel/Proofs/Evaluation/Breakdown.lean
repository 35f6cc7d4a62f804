import DecisionModel.Proofs.Evaluation.Task
import DecisionModel.Proofs.Library.Breakdown

/-!
# Evaluations that are broken off

An evaluation hands on what its parts come to, and so it is broken off where a task inside it is. It
starts at a task that is broken off by itself: a duration without an opposite is turned around there,
or a built-in function is called with arguments for which it is broken off (`Task.BreaksOff`).
Whatever else happens in an evaluation leads to a value or to an error.
-/

namespace DecisionModel

/-! ## Tests -/

namespace Predicate

theorem unbroken_testInterval (lowBound : Bound) (low high : Value) (highBound : Bound)
    (candidate : Value) : Unbroken (testInterval lowBound low high highBound candidate) := by
  unfold testInterval
  split
  · exact .ok _
  · refine (Value.unbroken_compare _ _ _).bind fun above _ =>
      (Value.unbroken_compare _ _ _).bind fun below _ => ?_
    split
    · exact .ok _
    · exact .ok _

mutual

/-- A test compares and does nothing else. -/
theorem unbroken_test : ∀ (p : Predicate) (candidate : Value), Unbroken (p.test candidate)
  | .compare op bound, candidate => by
    rw [test]
    exact Value.unbroken_compare op candidate bound
  | .interval lowBound low high highBound, candidate => by
    rw [test]
    exact unbroken_testInterval _ _ _ _ _
  | .constant b, _ => by
    rw [test]
    exact .ok _
  | .anyOf tests, candidate => by
    rw [test]
    exact unbroken_testAny (.bool false) tests candidate
  | .negate p, candidate => by
    rw [test]
    exact (unbroken_test p candidate).map _

theorem unbroken_testAny : ∀ (result : Value) (tests : List Predicate) (candidate : Value),
    Unbroken (testAny result tests candidate)
  | result, [], _ => by
    rw [testAny]
    exact .ok result
  | result, p :: tests, candidate => by
    rw [testAny]
    refine (unbroken_test p candidate).bind fun v _ => ?_
    dsimp only
    split
    · exact .ok _
    · exact unbroken_testAny _ tests candidate

end

end Predicate

/-! ## Where it starts -/

namespace Task

/-- What a task is broken off for by itself, and not because a task inside it is. -/
inductive BreaksOff : Task → Breakdown → Prop where
  | negation {op : ArithmeticOp} {operand : Expr} {s : Scope} {v : Value} {cause : Breakdown} :
      operand.evaluate (s.part 1) = .ok v → v.Unopposed cause →
      BreaksOff (.evaluation (.negation op operand) s) cause
  | difference {left right : Expr} {s : Scope} {a b : Value} {cause : Breakdown} :
      left.evaluate (s.part 0) = .ok a → right.evaluate (s.part 1) = .ok b →
      a.IsDated → b.Unopposed cause →
      BreaksOff (.evaluation (.arithmetic .sub left right) s) cause
  | temporal {symbol : String} {params : List Expr} {s : Scope} {b : Builtin} {args : List Value}
      {cause : Breakdown} : Builtin.ofName? symbol = some b →
      evaluateAll (Function.invokeWithin s.callsLeft) 0 params s = .ok args →
      args.any Value.isAbsent = false → b.BreaksOff args cause →
      BreaksOff (.evaluation (.temporal symbol params) s) cause
  | call {b : Builtin} {args : List Value} {s : Scope} {cause : Breakdown} :
      b.BreaksOff args cause → BreaksOff (.call (.builtin b) args s) cause

/-- Whether a task that comes up in the course of a task is broken off by itself. -/
def BreaksWithin (task : Task) (cause : Breakdown) : Prop :=
  ∃ inner, task.Reaches inner ∧ inner.BreaksOff cause

variable {task inner : Task} {cause : Breakdown}

theorem BreaksOff.within (h : task.BreaksOff cause) : task.BreaksWithin cause := ⟨task, .refl, h⟩

/-! ## How it is handed on -/

section Parts

variable {invoke : Invoke} {P : Breakdown → Prop} {s : Scope}

end Parts

end Task
end DecisionModel
