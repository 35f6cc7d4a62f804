import DecisionModel.Decimal.Selection
import DecisionModel.Library.Arguments
import DecisionModel.Operator.Arithmetic

/-!
# Aggregates

Functions of many values, which are the elements of one list or the arguments themselves. A single
argument that is null or absent is the result; among several operands a missing one is a value like
any other, and most often refused.
-/

namespace DecisionModel.Library

/-- An aggregate of operands. -/
def aggregate (f : List Value → Result Value) (args : List Value) : Result Value :=
  match missingSubject? args with
  | some v => .ok v
  | none => f (operands args)

/-- An aggregate of numbers; other operands are refused before anything is computed. -/
def aggregateNumbers (function : String) (f : List Decimal → Result Value) (args : List Value) :
    Result Value :=
  aggregate (fun items => do f (← items.mapM (expectNumber function))) args

/-! ## Extremes and sums -/

/-- The best of the operands so far and of further ones: one that stands to it as `keep` says takes
its place. An operand without order makes the result null. -/
def extremeFrom (keep : Ordering) (best : Value) : List Value → Result Value
  | [] => .ok best
  | item :: items => do
    match ← item.order .lt best with
    | none => return .null
    | some ordering => extremeFrom keep (if ordering == keep then item else best) items

def extreme (keep : Ordering) : List Value → Result Value
  | [] => .ok .absent
  | item :: items => extremeFrom keep item items

def least (args : List Value) : Result Value := aggregate (extreme .lt) args

def greatest (args : List Value) : Result Value := aggregate (extreme .gt) args

/-- The operands added up from the left; a single one is its own sum, of whatever kind it is. -/
def sum (args : List Value) : Result Value :=
  aggregate (fun
    | [] => .ok (.ofNat 0)
    | item :: items => items.foldlM (Value.arithmetic .add) item) args

def product (args : List Value) : Result Value :=
  aggregateNumbers "product" (fun ns => (ns.foldlM Number.mul .one).map .number) args

/-! ## Averages -/

def mean (args : List Value) : Result Value :=
  aggregateNumbers "mean" (fun ns => do
    if ns.isEmpty then return .absent
    else
      let total ← ns.foldlM Number.add .zero
      return .number (← Number.div total (.ofNat ns.length))) args

/-- The middle number, or half the sum of the two in the middle. The upper one is looked for in the
list that the search for the lower one leaves. -/
def medianOf (ns : List Decimal) : Result Decimal :=
  if ns.length % 2 = 1 then .ok (Decimal.select ns (ns.length / 2)).value
  else do
    let low := Decimal.select ns (ns.length / 2 - 1)
    let high := Decimal.select low.values (ns.length / 2)
    Number.div (← Number.add low.value high.value) .two

def median (args : List Value) : Result Value :=
  aggregateNumbers "median" (fun ns =>
    if ns.isEmpty then .ok .absent else (medianOf ns).map .number) args

/-! ## Frequency and spread -/

/-- The numbers of a sorted list with how often each of them stands there. -/
def frequencies : List Decimal → List (Decimal × Nat)
  | [] => []
  | n :: ns =>
    match frequencies ns with
    | [] => [(n, 1)]
    | (next, count) :: rest =>
      if n.same next then (n, count + 1) :: rest else (n, 1) :: (next, count) :: rest

/-- The numbers that occur most often, in ascending order. -/
def modeOf (ns : List Decimal) : List Decimal :=
  let counted := frequencies (Decimal.sortInPlace ns)
  let top := counted.foldl (fun top entry => Nat.max top entry.2) 0
  (counted.filter (·.2 == top)).map (·.1)

def mode (args : List Value) : Result Value :=
  aggregateNumbers "mode" (fun ns => .ok (.list ((modeOf ns).map .number))) args

/-- The sum of the squared distances from the mean, in one pass: `count` numbers have been seen,
with this mean and this sum. -/
def squaredDistances (count : Nat) (mean sum : Decimal) : List Decimal → Result Decimal
  | [] => .ok sum
  | n :: ns => do
    let delta ← Number.sub n mean
    let mean ← Number.add mean (← Number.div delta (.ofNat (count + 1)))
    let sum ← Number.add sum (← Number.mul delta (← Number.sub n mean))
    squaredDistances (count + 1) mean sum ns

/-- The variance of a sample. -/
def variance (ns : List Decimal) : Result Decimal := do
  Number.div (← squaredDistances 0 .zero .zero ns) (.ofNat (ns.length - 1))

/-- The deviation of a sample, which takes two numbers at least. -/
def standardDeviation (ns : List Decimal) : Result Decimal :=
  if ns.length < 2 then .error (.invalidArgument "stddev" (.tooFewSamples ns.length))
  else do Number.squareRoot (← variance ns)

def stddev (args : List Value) : Result Value :=
  aggregateNumbers "stddev" (fun ns => (standardDeviation ns).map .number) args

end DecisionModel.Library
