import DecisionModel.Error
import DecisionModel.Value.Basic

/-!
# Scopes

What an expression is evaluated in: the bindings around it, innermost first, with the built-in
functions behind them all; the input variable, if a column of a decision table is being tested; and
how deep calls may still nest. Scoping is dynamic: a function's body sees the bindings of whoever
calls it.
-/

namespace DecisionModel

structure Scope where
  /-- The bindings, innermost first. -/
  frames : List Context
  /-- The text of the column's input expression, when that is a name. -/
  inputVariable : Option String
  /-- The number of calls that are being evaluated. -/
  depth : Nat
  /-- The number of calls that may be evaluated at a time. -/
  limit : Nat
  site : Site

namespace Scope

/-- How deep calls may nest unless it is said. -/
def defaultLimit : Nat := 64

/-- A scope that nothing encloses. -/
def root (context : Context) (limit : Nat) (site : Site) : Scope :=
  ⟨[context], none, 0, limit, site⟩

/-- How many calls may still nest. -/
def callsLeft (s : Scope) : Nat := s.limit - s.depth

/-- The same scope at another site. -/
def stepTo (s : Scope) (step : Step) : Scope := { s with site := step :: s.site }

/-- The scope of a part of what is evaluated. -/
def part (s : Scope) (index : Nat) : Scope := s.stepTo (.part index)

/-- A scope with further bindings. -/
def push (s : Scope) (frame : Context) : Scope := { s with frames := frame :: s.frames }

/-- The scope of a column's tests. -/
def forColumn (s : Scope) (name : Option String) : Scope :=
  { s.push [] with inputVariable := name }

/-- The scope of a function's body. -/
def enter (s : Scope) (frame : Context) : Scope :=
  { (s.push frame).stepTo .body with depth := s.depth + 1 }

/-- The error of a call that would nest too deep. -/
def tooDeep (s : Scope) (function : String) : EvalError := .callDepthExceeded function s.limit

/-- The scope of a function's body, as long as the limit allows. -/
def enterCall (s : Scope) (function : String) (frame : Context) : Result Scope :=
  if s.depth < s.limit then .ok (s.enter frame) else .error (s.tooDeep function)

/-- The innermost binding of a name, or else the built-in function of that name. -/
def lookup (s : Scope) (name : String) : Option Value :=
  match s.frames.findSome? (Entries.get? · name) with
  | some v => some v
  | none => (Builtin.ofName? name).map fun b => .function (.builtin b)

/-- The value of a path: that of its first name, and from there along the entries. Where a name is
not bound, and for the empty path, it is absent. -/
def resolve (s : Scope) : List String → Value
  | [] => .absent
  | name :: names => ((s.lookup name).getD .absent).follow names

end Scope

end DecisionModel
