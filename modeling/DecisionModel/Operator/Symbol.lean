/-!
# Operators

The binary operators of the expression language and the symbols they are written with.
-/

namespace DecisionModel

inductive ArithmeticOp where
  | add
  | sub
  | mul
  | div
  | pow
  deriving DecidableEq, Repr

namespace ArithmeticOp

def symbol : ArithmeticOp → String
  | .add => "+"
  | .sub => "-"
  | .mul => "*"
  | .div => "/"
  | .pow => "**"

def ofSymbol? (s : String) : Option ArithmeticOp :=
  [add, sub, mul, div, pow].find? (·.symbol == s)

end ArithmeticOp

inductive ComparisonOp where
  | eq
  | ne
  | lt
  | le
  | gt
  | ge
  deriving DecidableEq, Repr

namespace ComparisonOp

def symbol : ComparisonOp → String
  | .eq => "="
  | .ne => "!="
  | .lt => "<"
  | .le => "<="
  | .gt => ">"
  | .ge => ">="

/-- Equality may also be written with two signs. -/
def ofSymbol? (s : String) : Option ComparisonOp :=
  if s = "==" then some .eq else [eq, ne, lt, le, gt, ge].find? (·.symbol == s)

/-- Whether an ordering of the operands satisfies the operator. -/
def holds : ComparisonOp → Ordering → Bool
  | .eq, o => o == .eq
  | .ne, o => o != .eq
  | .lt, o => o == .lt
  | .le, o => o != .gt
  | .gt, o => o == .gt
  | .ge, o => o != .lt

end ComparisonOp

end DecisionModel
