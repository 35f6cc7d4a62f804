import DecisionModel.Calendar.Clock
import DecisionModel.Calendar.Date

/-!
# Times and date-times

A time is a clock reading, a date-time a clock reading on a date, and either may be pinned to an
offset. Two of them are compared after the second is expressed at the offset of the first; one
without an offset is compared as it stands. A time wraps around midnight when it is moved, a
date-time moves on to other days and can leave the calendar.
-/

namespace DecisionModel

open Calendar

/-! ## Times -/

structure Time where
  clock : Clock
  offset : Option Offset
  deriving DecidableEq, Repr

namespace Time

/-- The same instant at another offset. Without an offset, or without another one, nothing
changes. -/
def atOffset (t : Time) (target : Option Offset) : Time :=
  match t.offset, target with
  | some own, some target =>
    if own = target then t
    else ⟨t.clock.shift ((target.seconds - own.seconds) * nanosPerSecond), some target⟩
  | _, _ => t

/-- The clock reading in universal time, which a time without an offset is taken to be in. -/
def toUtcClock (t : Time) : Clock := (t.atOffset (some .utc)).clock

/-- Order by clock reading and then by offset, after the second time is brought to the offset of
the first. -/
def order (a b : Time) : Ordering :=
  let b := b.atOffset a.offset
  (compare a.clock.nanos b.clock.nanos).then (Offset.optionOrder a.offset b.offset)

def shift (t : Time) (nanos : Int) : Time := { t with clock := t.clock.shift nanos }

def toChars (t : Time) : List Char := t.clock.toChars ++ Offset.optionChars t.offset

def toText (t : Time) : String := String.ofList t.toChars

end Time

/-! ## Date-times -/

structure DateTime where
  date : Date
  clock : Clock
  offset : Option Offset
  deriving DecidableEq, Repr

namespace DateTime

/-- Midnight of a date, without an offset. -/
def atMidnight (date : Date) : DateTime := ⟨date, .midnight, none⟩

def time (dt : DateTime) : Time := ⟨dt.clock, dt.offset⟩

/-- The local reading as nanoseconds since the first midnight of year 0. -/
def localNanos (dt : DateTime) : Int := dt.date.dayNumber * nanosPerDay + dt.clock.nanos

/-- The date-time with a given local reading, within the calendar. -/
def ofLocalNanos? (nanos : Int) (offset : Option Offset) : Option DateTime :=
  (Date.ofDayNumber? (nanos / nanosPerDay)).map (⟨·, .wrap nanos, offset⟩)

/-- Moves the local reading. -/
def shift? (dt : DateTime) (nanos : Int) : Option DateTime :=
  ofLocalNanos? (dt.localNanos + nanos) dt.offset

/-- Steps by whole months, at the same clock reading. -/
def addMonths? (dt : DateTime) (months : Int) : Option DateTime :=
  (dt.date.addMonths? months).map ({ dt with date := · })

/-- The same instant at another offset. Without an offset, or without another one, nothing
changes; `none` when the reading there leaves the calendar. -/
def atOffset? (dt : DateTime) (target : Option Offset) : Option DateTime :=
  match dt.offset, target with
  | some own, some target =>
    if own = target then some dt
    else ofLocalNanos? (dt.localNanos + (target.seconds - own.seconds) * nanosPerSecond)
      (some target)
  | _, _ => some dt

/-- The reading in universal time, which a date-time without an offset is taken to be in. -/
def toUtc? (dt : DateTime) : Option DateTime := dt.atOffset? (some .utc)

/-- Order by date, clock reading and offset, after the second date-time is brought to the offset
of the first; `none` when that leaves the calendar. -/
def order? (a b : DateTime) : Option Ordering :=
  (b.atOffset? a.offset).map fun b =>
    (a.date.order b.date).then <|
      (compare a.clock.nanos b.clock.nanos).then (Offset.optionOrder a.offset b.offset)

def toChars (dt : DateTime) : List Char :=
  dt.date.toChars ++ 'T' :: dt.clock.toChars ++ Offset.optionChars dt.offset

def toText (dt : DateTime) : String := String.ofList dt.toChars

end DateTime

end DecisionModel
