import DecisionModel.Library.Arguments
import DecisionModel.Operator.Number
import DecisionModel.Temporal

/-!
# Functions of dates, times and durations

Values of the calendar from text, from their components or from one another.
-/

namespace DecisionModel.Library

open Calendar (Component nanosPerSecond)

/-- A component that is given as a number, within the range that is looked at. -/
def component (function : String) (name : Component) (low high : Int) (number : Int) :
    Result Int :=
  if low ≤ number ∧ number ≤ high then .ok number
  else .error (.invalidArgument function (.componentOutOfRange name number))

/-- A component that is given as a whole number. -/
def wholeComponent (function : String) (name : Component) (low high : Int) (v : Value) :
    Result Int := do
  let number ← Number.toWhole function (← expectNumber function v)
  component function name low high number.toInt

/-- What the calendar has to say against components, as an error. -/
def checked {α : Type} (function : String) : Except Calendar.Fault α → Result α
  | .ok result => .ok result
  | .error fault => .error (.invalidArgument function (.calendar fault))

/-- The date of three components. -/
def dateOf (year month day : Value) : Result Value := do
  let year ← wholeComponent "date" .year (-maxInt32 - 1) maxInt32 year
  let month ← wholeComponent "date" .month 0 255 month
  let day ← wholeComponent "date" .day 0 255 day
  return .date (← checked "date" (Date.ofComponents year month.toNat day.toNat))

/-- A date from a text, from a date or a date-time, or from year, month and day. -/
def date (args : List Value) : Result Value :=
  match firstMissing? args with
  | some v => .ok v
  | none => match args with
    | [.string s] => (Date.read s).map .date
    | [.date d] => .ok (.date d)
    | [.dateTime dt] => .ok (.date dt.date)
    | [year, month, day] => dateOf year month day
    | v :: _ => refuse "date" [v]
    | [] => .error (.invalidArgument "date" .noArgument)

/-- The nanoseconds of a number of seconds that its whole part does not cover. A negative number has
none. -/
def nanosecondsOf (seconds : Decimal) : Nat :=
  match seconds.fract.mul? (.ofNat nanosPerSecond) with
  | some nanos => nanos.toInt.toNat
  | none => 0

/-- The clock reading of three components, where seconds may have decimals. -/
def clockOf (hour minute second : Value) : Result Clock := do
  let hour ← wholeComponent "time" .hour 0 255 hour
  let minute ← wholeComponent "time" .minute 0 255 minute
  let seconds ← expectNumber "time" second
  let whole := match seconds.toInt64? with
    | some n => n.toInt
    | none => -1
  let second ← component "time" .second 0 255 whole
  checked "time" (Clock.ofComponents hour.toNat minute.toNat second.toNat (nanosecondsOf seconds))

/-- The offset that a days-and-time duration stands for. -/
def offsetOf : Value → Result Offset
  | .elapsed d =>
    if InInt32 d.wholeSeconds then
      checked "time" (Offset.ofSeconds d.wholeSeconds)
    else .error (.invalidArgument "time" (.offsetOutOfRange d))
  | v => refuse "time" [v]

/-- A time from a text, from a time or a date-time, or from hour, minute and second, with an offset
if one is given. -/
def time (args : List Value) : Result Value :=
  match firstMissing? args with
  | some v => .ok v
  | none => match args with
    | [.string s] => (Time.read s).map .time
    | [.time t] => .ok (.time t)
    | [.dateTime dt] => .ok (.time dt.time)
    | [hour, minute, second] => do return .time ⟨← clockOf hour minute second, none⟩
    | [hour, minute, second, offset] => do
      let clock ← clockOf hour minute second
      return .time ⟨clock, some (← offsetOf offset)⟩
    | v :: _ => refuse "time" [v]
    | [] => .error (.invalidArgument "time" .noArgument)

/-- A date-time from a text, from a date-time or a date, or from a date and a time. -/
def dateAndTime (args : List Value) : Result Value :=
  match firstMissing? args with
  | some v => .ok v
  | none => match args with
    | [.string s] => (DateTime.read s).map .dateTime
    | [.dateTime dt] => .ok (.dateTime dt)
    | [.date d] => .ok (.dateTime (.atMidnight d))
    | [.date d, .time t] => .ok (.dateTime ⟨d, t.clock, t.offset⟩)
    | [.dateTime dt, .time t] => .ok (.dateTime ⟨dt.date, t.clock, t.offset⟩)
    | [day, time] => refuse "date and time" [day, time]
    | v :: _ => refuse "date and time" [v]
    | [] => .error (.invalidArgument "date and time" .noArgument)

def duration (args : List Value) : Result Value :=
  let text := argument args 0
  if text.isMissing then .ok text
  else do return .ofDuration (← Duration.read (← expectString "duration" text))

/-- A date or a date-time as it reads locally. -/
def localReading : Value → Result DateTime
  | .date d => .ok (.atMidnight d)
  | .dateTime dt => .ok dt
  | v => refuse "years and months duration" [v]

/-- The day of the month and the clock reading, in this order. -/
def withinMonth (a b : DateTime) : Ordering :=
  (compare a.date.day b.date.day).then (compare a.clock.nanos b.clock.nanos)

/-- The number of whole months from one local reading to another. A month that is not complete does
not count, in either direction. -/
def monthsBetween (a b : DateTime) : Int :=
  let months := (b.date.year - a.date.year) * 12 + ((b.date.month : Int) - a.date.month)
  if 0 < months ∧ withinMonth b a = .lt then months - 1
  else if months < 0 ∧ withinMonth b a = .gt then months + 1
  else months

def yearsAndMonthsDuration (args : List Value) : Result Value :=
  match firstMissing? (args.take 2) with
  | some v => .ok v
  | none => do
    let a ← localReading (argument args 0)
    let b ← localReading (argument args 1)
    return .months ⟨.ofInt (monthsBetween a b)⟩

end DecisionModel.Library
