import DecisionModel.Operator.Comparison
import DecisionModel.Operator.Number

/-!
# Arithmetic on values

Numbers, strings, dates, times and durations under one set of operators. An absent operand makes
the result absent before any kind is looked at; null is refused like every kind that an operator
does not take.

A date or a date-time is moved by months on the calendar, where the day is cut to the length of the
month, and by elapsed time on the clock; a duration of both families moves it by the months first.
-/

namespace DecisionModel

/-! ## Moving along the calendar -/

/-- A result, or an overflow with the cause given. -/
def Overflow.unless {α : Type} (cause : Overflow) : Option α → Result α
  | some result => .ok result
  | none => .error (.overflow cause)

namespace Overflow

variable {α : Type} {cause : Overflow} {r : Option α}

theorem unless_eq_ok_iff {a : α} : Overflow.unless cause r = .ok a ↔ r = some a := by
  cases r <;> simp [Overflow.unless]

theorem unless_eq_error_iff {e : EvalError} :
    Overflow.unless cause r = .error e ↔ e = .overflow cause ∧ r = none := by
  cases r <;> simp [Overflow.unless, eq_comm]

end Overflow

namespace Date

def plusMonths (d : Date) (months : Months) : Result Date :=
  Overflow.unless (.dateByMonths d months.toInt) (d.addMonths? months.toInt)

/-- The date that elapsed time from its midnight leads to; a part of a day that is left counts as
the day it falls on. -/
def plusElapsed (d : Date) (e : Elapsed) : Result Date :=
  Overflow.unless (.dateByElapsed d e) (((DateTime.atMidnight d).shift? e.nanos).map (·.date))

def plusComposite (d : Date) (c : Composite) : Result Date := do
  (← d.plusMonths c.months).plusElapsed c.elapsed

end Date

namespace DateTime

def plusMonths (dt : DateTime) (months : Months) : Result DateTime :=
  (dt.date.plusMonths months).map ({ dt with date := · })

def plusElapsed (dt : DateTime) (e : Elapsed) : Result DateTime :=
  Overflow.unless (.dateTimeByElapsed dt e) (dt.shift? e.nanos)

def plusComposite (dt : DateTime) (c : Composite) : Result DateTime := do
  (← dt.plusMonths c.months).plusElapsed c.elapsed

/-- The elapsed time from `b` to `a`, in universal time. -/
def minus (a b : DateTime) : Result Elapsed := do
  let a ← Overflow.unless .offsetShift a.toUtc?
  let b ← Overflow.unless .offsetShift b.toUtc?
  return ⟨a.localNanos - b.localNanos⟩

end DateTime

/-- The elapsed time between two clock readings of one day, in universal time. -/
def Time.minus (a b : Time) : Elapsed := ⟨(a.toUtcClock.nanos : Int) - b.toUtcClock.nanos⟩

/-! ## Opposites of durations -/

def Months.negate (m : Months) : Result Months := Breakdown.unless .negatedMonths m.neg?

def Elapsed.negate (e : Elapsed) : Result Elapsed := Breakdown.unless .negatedElapsed e.neg?

def Composite.negate (c : Composite) : Result Composite := do
  let months ← c.months.negate
  return ⟨months, ← c.elapsed.negate⟩

/-! ## Scaling durations -/

namespace Months

/-- The duration `combine`d with a number, rounded to whole months. -/
def scale (combine : Decimal → Decimal → Result Decimal) (d : Months) (factor : Decimal) :
    Result Months := do
  let scaled ← combine (.ofInt64 d.count) factor
  Overflow.unless (.monthsScaled d factor) ((scaled.roundHalfEven 0).toInt64?.map (⟨·⟩))

end Months

namespace Elapsed

/-- The duration `combine`d with a number, rounded to whole nanoseconds, of which a 64-bit word has
to hold the number. -/
def scale (combine : Decimal → Decimal → Result Decimal) (d : Elapsed) (factor : Decimal) :
    Result Elapsed := do
  let nanos ← Overflow.unless (.elapsedScaled d factor) (Decimal.ofInt? d.nanos)
  let scaled ← combine nanos factor
  Overflow.unless (.elapsedScaled d factor)
    ((scaled.roundHalfEven 0).toInt64?.map fun n => ⟨n.toInt⟩)

end Elapsed

/-! ## Operators -/

namespace Value

/-- A string and a number are joined as texts, and a duration may stand on either side. -/
def add : Value → Value → Result Value
  | .number a, .number b => (Number.add a b).map .number
  | .string a, .string b => .ok (.string (a ++ b))
  | .string a, .number b => .ok (.string (a ++ b.normalize.toText))
  | .number a, .string b => .ok (.string (a.normalize.toText ++ b))
  | .months a, .months b => (Overflow.unless (.months .add a b) (a.add? b)).map .months
  | .elapsed a, .elapsed b => (Overflow.unless (.elapsed .add a b) (a.add? b)).map .elapsed
  | .date d, .months m => (d.plusMonths m).map .date
  | .months m, .date d => (d.plusMonths m).map .date
  | .dateTime dt, .months m => (dt.plusMonths m).map .dateTime
  | .months m, .dateTime dt => (dt.plusMonths m).map .dateTime
  | .date d, .elapsed e => (d.plusElapsed e).map .date
  | .elapsed e, .date d => (d.plusElapsed e).map .date
  | .dateTime dt, .elapsed e => (dt.plusElapsed e).map .dateTime
  | .elapsed e, .dateTime dt => (dt.plusElapsed e).map .dateTime
  | .date d, .composite c => (d.plusComposite c).map .date
  | .composite c, .date d => (d.plusComposite c).map .date
  | .dateTime dt, .composite c => (dt.plusComposite c).map .dateTime
  | .composite c, .dateTime dt => (dt.plusComposite c).map .dateTime
  | .time t, .elapsed e => .ok (.time (t.shift e.nanos))
  | .elapsed e, .time t => .ok (.time (t.shift e.nanos))
  | left, right => .error (mismatch "+" left right)

/-- A date stands for its midnight when it is taken from a date-time, or the other way round. A date
is moved back by the opposite of a duration, so the duration has to have one; a time is not. -/
def sub : Value → Value → Result Value
  | .number a, .number b => (Number.sub a b).map .number
  | .date a, .date b => ((DateTime.atMidnight a).minus (.atMidnight b)).map .elapsed
  | .date a, .dateTime b => ((DateTime.atMidnight a).minus b).map .elapsed
  | .dateTime a, .date b => (a.minus (.atMidnight b)).map .elapsed
  | .dateTime a, .dateTime b => (a.minus b).map .elapsed
  | .time a, .time b => .ok (.elapsed (a.minus b))
  | .months a, .months b => (Overflow.unless (.months .sub a b) (a.sub? b)).map .months
  | .elapsed a, .elapsed b => (Overflow.unless (.elapsed .sub a b) (a.sub? b)).map .elapsed
  | .date d, .months m => (m.negate >>= d.plusMonths).map .date
  | .dateTime dt, .months m => (m.negate >>= dt.plusMonths).map .dateTime
  | .date d, .elapsed e => (e.negate >>= d.plusElapsed).map .date
  | .dateTime dt, .elapsed e => (e.negate >>= dt.plusElapsed).map .dateTime
  | .date d, .composite c => (c.negate >>= d.plusComposite).map .date
  | .dateTime dt, .composite c => (c.negate >>= dt.plusComposite).map .dateTime
  | .time t, .elapsed e => .ok (.time (t.shift (-e.nanos)))
  | left, right => .error (mismatch "-" left right)

def mul : Value → Value → Result Value
  | .number a, .number b => (Number.mul a b).map .number
  | .months d, .number n => (d.scale Number.mul n).map .months
  | .number n, .months d => (d.scale Number.mul n).map .months
  | .elapsed d, .number n => (d.scale Number.mul n).map .elapsed
  | .number n, .elapsed d => (d.scale Number.mul n).map .elapsed
  | left, right => .error (mismatch "*" left right)

/-- A duration is divided by a number, whichever of them stands on the left; by zero it gives
null. -/
def div : Value → Value → Result Value
  | .number a, .number b => (Number.div a b).map .number
  | .months d, .number n => if n.isZero then .ok .null else (d.scale Number.div n).map .months
  | .number n, .months d => if n.isZero then .ok .null else (d.scale Number.div n).map .months
  | .elapsed d, .number n => if n.isZero then .ok .null else (d.scale Number.div n).map .elapsed
  | .number n, .elapsed d => if n.isZero then .ok .null else (d.scale Number.div n).map .elapsed
  | left, right => .error (mismatch "/" left right)

def power : Value → Value → Result Value
  | .number a, .number b => (Number.power a b).map .number
  | left, right => .error (mismatch "**" left right)

def arithmetic (op : ArithmeticOp) (left right : Value) : Result Value :=
  if left.isAbsent || right.isAbsent then .ok .absent
  else match op with
    | .add => add left right
    | .sub => sub left right
    | .mul => mul left right
    | .div => div left right
    | .pow => power left right

/-- The opposite of a number or a duration. -/
def negate : Value → Result Value
  | .absent => .ok .absent
  | .number n => .ok (.number n.neg)
  | .months d => d.negate.map .months
  | .elapsed d => d.negate.map .elapsed
  | .composite d => d.negate.map .composite
  | v => .error (.unsupported (.operator "-") [v.kind])

end Value

end DecisionModel
