import DecisionModel.Error
import DecisionModel.Operator.Comparison

/-!
# Arguments of built-in functions

What the built-in functions have in common in their treatment of arguments. An argument that is not
given is absent, a missing subject is handed back as the result, and a value of another kind is
refused under the name of the function.
-/

namespace DecisionModel.Library

/-- The argument at a position. -/
def argument (args : List Value) (index : Nat) : Value := args.getD index .absent

/-- The subject of a function that is called with a single argument, if that is null or absent. -/
def missingSubject? : List Value → Option Value
  | [subject] => if subject.isMissing then some subject else none
  | _ => none

/-- What is missing among several arguments: absent before null. -/
def firstMissing? (args : List Value) : Option Value :=
  if args.any Value.isAbsent then some .absent
  else if args.any Value.isNull then some .null
  else none

/-- The error of a function that does not take values of these kinds. -/
def refuse {α : Type} (function : String) (values : List Value) : Result α :=
  .error (.unsupported (.function function) (values.map Value.kind))

def expectList (function : String) : Value → Result (List Value)
  | .list items => .ok items
  | v => refuse function [v]

def expectNumber (function : String) : Value → Result Decimal
  | .number n => .ok n
  | v => refuse function [v]

def expectString (function : String) : Value → Result String
  | .string s => .ok s
  | v => refuse function [v]

/-- What an aggregate works on: the elements of a single list, or else the arguments. -/
def operands : List Value → List Value
  | [.list items] => items
  | args => args

end DecisionModel.Library
