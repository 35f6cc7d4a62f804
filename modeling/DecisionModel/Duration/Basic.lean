import DecisionModel.Calendar.Clock
import DecisionModel.Word

/-!
# Durations

Two families that do not mix, because a month has no fixed length: a count of months, which is a
64-bit word, and elapsed time in nanoseconds. A literal such as `P1M2D` holds one of each.

The text of a duration lists its parts by size and leaves zero parts out, but never all of them.
-/

namespace DecisionModel

open Calendar

/-! ## Years and months -/

/-- A signed number of months. -/
structure Months where
  count : Int64
  deriving DecidableEq, Repr

namespace Months

instance : Inhabited Months := ⟨⟨0⟩⟩

def toInt (m : Months) : Int := m.count.toInt

/-- The duration of a number of months, if a 64-bit word holds it. -/
def ofInt? (n : Int) : Option Months :=
  if InInt64 n then some ⟨.ofInt n⟩ else none

def add? (a b : Months) : Option Months := ofInt? (a.toInt + b.toInt)

def sub? (a b : Months) : Option Months := ofInt? (a.toInt - b.toInt)

/-- The opposite duration; the smallest word has none. -/
def neg? (m : Months) : Option Months := ofInt? (-m.toInt)

def isNegative (m : Months) : Bool := m.toInt < 0

/-- The whole years, with the sign of the duration. -/
def years (m : Months) : Int := Int.tdiv m.toInt 12

/-- The months beyond the whole years, with the sign of the duration. -/
def monthsOfYear (m : Months) : Int := Int.tmod m.toInt 12

/-- A number of months without its sign: `PnYnM`. -/
def magnitudeChars (months : Nat) : List Char :=
  let years := months / 12
  let rest := months % 12
  'P' :: (if 0 < years then Text.ofNat years ++ ['Y'] else [])
    ++ (if 0 < rest ∨ years = 0 then Text.ofNat rest ++ ['M'] else [])

def toChars (m : Months) : List Char :=
  (if m.isNegative then ['-'] else []) ++ magnitudeChars m.toInt.natAbs

def toText (m : Months) : String := String.ofList m.toChars

/-- The months without their sign; the largest word stands for the one that has no opposite. -/
def magnitude (m : Months) : Nat := min m.toInt.natAbs maxInt64

end Months

/-! ## Days and time -/

/-- Elapsed time, in nanoseconds. -/
structure Elapsed where
  nanos : Int
  deriving DecidableEq, Repr

namespace Elapsed

instance : Inhabited Elapsed := ⟨⟨0⟩⟩

/-- Whether the whole seconds are a 64-bit word. -/
def inRange (nanos : Int) : Bool :=
  decide (InInt64 (Int.tdiv nanos nanosPerSecond))

def ofNanos? (nanos : Int) : Option Elapsed := if inRange nanos then some ⟨nanos⟩ else none

def add? (a b : Elapsed) : Option Elapsed := ofNanos? (a.nanos + b.nanos)

def sub? (a b : Elapsed) : Option Elapsed := ofNanos? (a.nanos - b.nanos)

/-- The opposite duration; there is none if the seconds are the smallest word. -/
def neg? (e : Elapsed) : Option Elapsed := ofNanos? (-e.nanos)

def isNegative (e : Elapsed) : Bool := e.nanos < 0

/-- The whole units in the duration, and those beyond the next larger unit, all with its sign. -/
def wholeSeconds (e : Elapsed) : Int := Int.tdiv e.nanos nanosPerSecond
def days (e : Elapsed) : Int := Int.tdiv e.nanos nanosPerDay
def hours (e : Elapsed) : Int := Int.tmod (Int.tdiv e.nanos nanosPerHour) 24
def minutes (e : Elapsed) : Int := Int.tmod (Int.tdiv e.nanos nanosPerMinute) 60
def seconds (e : Elapsed) : Int := Int.tmod e.wholeSeconds 60
def subsecondNanos (e : Elapsed) : Int := Int.tmod e.nanos nanosPerSecond

/-- The longest duration, which ends just before the seconds leave their word. -/
def maxNanos : Nat := maxInt64 * nanosPerSecond + (nanosPerSecond - 1)

/-- The nanoseconds without their sign; the longest duration stands for those whose seconds have no
opposite. -/
def magnitude (e : Elapsed) : Nat := min e.nanos.natAbs maxNanos

/-- One part of a duration, if it is not zero. -/
def partChars (amount : Nat) (designator : Char) : List Char :=
  if 0 < amount then Text.ofNat amount ++ [designator] else []

/-- A number of nanoseconds: `nDTnHnMn.nS`. The designator `P` is not part of it. -/
def magnitudeChars (nanos : Nat) : List Char :=
  let days := nanos / nanosPerDay
  let hours := nanos / nanosPerHour % 24
  let minutes := nanos / nanosPerMinute % 60
  let seconds := nanos / nanosPerSecond % 60
  let fraction := nanos % nanosPerSecond
  let ofDay := nanos % nanosPerDay
  partChars days 'D' ++
    if 0 < ofDay ∨ days = 0 then
      'T' :: partChars hours 'H' ++ partChars minutes 'M' ++
        (if 0 < seconds ∨ 0 < fraction ∨ (hours = 0 ∧ minutes = 0) then
          Text.ofNat seconds ++ Clock.fractionChars fraction ++ ['S']
        else [])
    else []

def toChars (e : Elapsed) : List Char :=
  (if e.isNegative then ['-'] else []) ++ 'P' :: magnitudeChars e.magnitude

def toText (e : Elapsed) : String := String.ofList e.toChars

end Elapsed

/-! ## Both -/

/-- Months and elapsed time. A date is moved by the months first. -/
structure Composite where
  months : Months
  elapsed : Elapsed
  deriving DecidableEq, Repr

namespace Composite

/-- One sign in front for both parts. -/
def toChars (d : Composite) : List Char :=
  (if d.months.isNegative || d.elapsed.isNegative then ['-'] else [])
    ++ Months.magnitudeChars d.months.magnitude
    ++ Elapsed.magnitudeChars d.elapsed.magnitude

def toText (d : Composite) : String := String.ofList d.toChars

end Composite

/-- A duration of any family. -/
inductive Duration where
  | months (d : Months)
  | elapsed (d : Elapsed)
  | composite (d : Composite)
  deriving DecidableEq, Repr

def Duration.toChars : Duration → List Char
  | .months d => d.toChars
  | .elapsed d => d.toChars
  | .composite d => d.toChars

end DecisionModel
