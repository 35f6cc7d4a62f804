import DecisionModel.Calendar.Component
import DecisionModel.Text.Digits

/-!
# Clock readings and offsets

A clock reading is a number of nanoseconds since midnight, below a day. Moving it wraps around.
An offset from universal time is a whole number of seconds, below 26 hours to either side.
-/

namespace DecisionModel

namespace Calendar

def nanosPerSecond : Nat := 1000000000
def nanosPerMinute : Nat := 60 * nanosPerSecond
def nanosPerHour : Nat := 60 * nanosPerMinute
def nanosPerDay : Nat := 24 * nanosPerHour

end Calendar

open Calendar

/-- A reading of a clock that starts over at midnight. -/
structure Clock where
  nanos : Nat
  nanos_lt : nanos < nanosPerDay
  deriving DecidableEq, Repr

namespace Clock

def midnight : Clock := ⟨0, by decide⟩

instance : Inhabited Clock := ⟨midnight⟩

def hour (c : Clock) : Nat := c.nanos / nanosPerHour
def minute (c : Clock) : Nat := c.nanos / nanosPerMinute % 60
def second (c : Clock) : Nat := c.nanos / nanosPerSecond % 60
def nanosecond (c : Clock) : Nat := c.nanos % nanosPerSecond

/-- The reading that is `nanos` nanoseconds after midnight, days left out. -/
def wrap (nanos : Int) : Clock :=
  ⟨(nanos % nanosPerDay).toNat, by
    have : (0 : Int) < nanosPerDay := by decide
    have h₁ := Int.emod_nonneg nanos (Int.ne_of_gt this)
    have h₂ := Int.emod_lt_of_pos nanos this
    omega⟩

/-- The reading of the four components; of several that are wrong the first is named. -/
def ofComponents (hour minute second nanosecond : Nat) : Except Fault Clock :=
  if 24 ≤ hour then .error (.outOfRange .hour)
  else if 60 ≤ minute then .error (.outOfRange .minute)
  else if 60 ≤ second then .error (.outOfRange .second)
  else if nanosPerSecond ≤ nanosecond then .error (.outOfRange .subsecond)
  else .ok (wrap (((hour * 60 + minute) * 60 + second) * nanosPerSecond + nanosecond : Nat))

/-- Moves the hands; passing midnight starts over. -/
def shift (c : Clock) (nanos : Int) : Clock := wrap (c.nanos + nanos)

/-- The fraction of a second: a point and the nine digits without trailing zeros, or nothing. -/
def fractionChars (nanosecond : Nat) : List Char :=
  if nanosecond = 0 then [] else '.' :: Text.dropTrailingZeros (Text.padded 9 nanosecond)

/-- The form `hh:mm:ss`, with a fraction when there is one. -/
def toChars (c : Clock) : List Char :=
  Text.padded 2 c.hour ++ ':' :: Text.padded 2 c.minute ++ ':' :: Text.padded 2 c.second
    ++ fractionChars c.nanosecond

end Clock

/-- A distance from universal time. -/
structure Offset where
  seconds : Int
  seconds_bound : -93600 < seconds ∧ seconds < 93600
  deriving DecidableEq, Repr

namespace Offset

def utc : Offset := ⟨0, by decide⟩

instance : Inhabited Offset := ⟨utc⟩

def ofSeconds (seconds : Int) : Except Fault Offset :=
  if h : -93600 < seconds ∧ seconds < 93600 then .ok ⟨seconds, h⟩ else .error (.outOfRange .offset)

/-- A `Z`, or a sign, hours and minutes. Seconds are not written. -/
def toChars (o : Offset) : List Char :=
  if o.seconds = 0 then ['Z']
  else
    (if o.seconds < 0 then '-' else '+') :: Text.padded 2 (o.seconds.natAbs / 3600)
      ++ ':' :: Text.padded 2 (o.seconds.natAbs / 60 % 60)

/-- The text of an offset that may be missing. -/
def optionChars : Option Offset → List Char
  | none => []
  | some o => o.toChars

/-- The order of offsets that may be missing, which come first. -/
def optionOrder : Option Offset → Option Offset → Ordering
  | none, none => .eq
  | none, some _ => .lt
  | some _, none => .gt
  | some a, some b => compare a.seconds b.seconds

end Offset

end DecisionModel
