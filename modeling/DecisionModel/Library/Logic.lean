import DecisionModel.Library.Arguments

/-!
# Functions of truth

Negation, conjunction and disjunction as functions, and the one function that can tell absent from
null.
-/

namespace DecisionModel.Library

/-- A predicate is negated as a test, not by what it is. -/
def negation (args : List Value) : Result Value :=
  match argument args 0 with
  | .bool b => .ok (.bool !b)
  | .predicate p => .ok (.predicate (.negate p))
  | .absent => .ok .absent
  | .null => .ok .null
  | v => refuse "not" [v]

def defined (args : List Value) : Result Value := .ok (.bool !(argument args 0).isAbsent)

/-- Joins booleans, one of which, `decisive`, settles the result. Without it an absent operand
leaves the result absent, and otherwise a null one leaves it null. -/
def joinFrom (function : String) (decisive sawAbsent sawNull : Bool) : List Value → Result Value
  | [] => .ok (if sawAbsent then .absent else if sawNull then .null else .bool !decisive)
  | .bool b :: rest =>
    if b = decisive then .ok (.bool decisive)
    else joinFrom function decisive sawAbsent sawNull rest
  | .absent :: rest => joinFrom function decisive true sawNull rest
  | .null :: rest => joinFrom function decisive sawAbsent true rest
  | v :: _ => refuse function [v]

def join (function : String) (decisive : Bool) (args : List Value) : Result Value :=
  match missingSubject? args with
  | some v => .ok v
  | none => joinFrom function decisive false false (operands args)

def conjunction (args : List Value) : Result Value := join "all" false args

def disjunction (args : List Value) : Result Value := join "any" true args

end DecisionModel.Library
