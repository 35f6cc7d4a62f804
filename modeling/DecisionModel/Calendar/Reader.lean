import DecisionModel.Calendar.Time
import DecisionModel.Text.Blank
import DecisionModel.Powers

/-!
# Reading dates and times

The forms of ISO 8601 that literals use: `yyyy-mm-dd`, `hh:mm:ss` with an optional fraction and
offset, and both with a `T` between them. Blanks around a text are left out. Each reader consumes
its part from the front, so the first fault in the text is the one reported; only then are the
components checked against the calendar.
-/

namespace DecisionModel

open Calendar

namespace Calendar

/-! ## Parts -/

/-- Reads exactly `count` digits whose value lies between `low` and `high`. -/
def readNumber (component : Component) (count low high : Nat) (cs : List Char) :
    Except Fault (Nat × List Char) :=
  let digits := cs.take count
  let value := Text.valueOf digits
  if digits.length = count ∧ digits.all Text.isDigit ∧ low ≤ value ∧ value ≤ high then
    .ok (value, cs.drop count)
  else .error (.unread component)

def readSeparator (mark : Char) : List Char → Except Fault (List Char)
  | [] => .error .separator
  | c :: cs => if c = mark then .ok cs else .error .separator

def readEnd : List Char → Except Fault Unit
  | [] => .ok ()
  | _ :: _ => .error .trailing

/-- A year of four digits with an optional sign. -/
def readYear (cs : List Char) : Except Fault (Int × List Char) := do
  match cs with
  | '-' :: cs =>
    let (year, rest) ← readNumber .year 4 0 9999 cs
    return (-(year : Int), rest)
  | '+' :: cs =>
    let (year, rest) ← readNumber .year 4 0 9999 cs
    return (year, rest)
  | cs =>
    let (year, rest) ← readNumber .year 4 0 9999 cs
    return (year, rest)

/-- The nanoseconds of a fraction: at least one digit, of which those after the ninth do not
count. -/
def readSubsecond (cs : List Char) : Except Fault (Nat × List Char) :=
  let digits := cs.takeWhile Text.isDigit
  if digits.isEmpty then .error (.unread .subsecond)
  else
    let kept := digits.take 9
    .ok (Text.valueOf kept * tenTo (9 - kept.length), cs.dropWhile Text.isDigit)

/-- A clock reading; it has a fraction exactly when a point stands anywhere in the text. -/
def readClock (cs : List Char) : Except Fault Clock := do
  let (hour, rest) ← readNumber .hour 2 0 23 cs
  let rest ← readSeparator ':' rest
  let (minute, rest) ← readNumber .minute 2 0 59 rest
  let rest ← readSeparator ':' rest
  let (second, rest) ← readNumber .second 2 0 60 rest
  if cs.contains '.' then
    let rest ← readSeparator '.' rest
    let (nanosecond, rest) ← readSubsecond rest
    readEnd rest
    Clock.ofComponents hour minute second nanosecond
  else
    readEnd rest
    Clock.ofComponents hour minute second 0

/-- A signed offset of hours and minutes. -/
def readOffset (cs : List Char) : Except Fault Offset := do
  let (negative, rest) ← match cs with
    | '-' :: rest => .ok (true, rest)
    | '+' :: rest => .ok (false, rest)
    | _ => .error (.unread .offsetHour)
  let (hours, rest) ← readNumber .offsetHour 2 0 25 rest
  let rest ← readSeparator ':' rest
  let (minutes, rest) ← readNumber .offsetMinute 2 0 59 rest
  readEnd rest
  let seconds : Int := (hours * 3600 + minutes * 60 : Nat)
  Offset.ofSeconds (if negative then -seconds else seconds)

/-- The text from the last sign on, unless that sign is the first character; and what stands
before it. -/
def cutOffset? (cs : List Char) : Option (List Char × List Char) :=
  let isSign (c : Char) : Bool := c == '+' || c == '-'
  let after := cs.reverse.takeWhile (!isSign ·)
  match cs.reverse.dropWhile (!isSign ·) with
  | [] => none
  | [_] => none
  | sign :: before => some (before.reverse, sign :: after.reverse)

/-- Splits a time into its clock reading and its offset. -/
def splitOffset (cs : List Char) : Except Fault (List Char × Option Offset) :=
  match cs.reverse with
  | 'Z' :: before => .ok (before.reverse, some .utc)
  | _ =>
    match cutOffset? cs with
    | none => .ok (cs, none)
    | some (clock, offset) => (readOffset offset).map fun o => (clock, some o)

end Calendar

/-! ## Whole texts -/

def Date.readChars (cs : List Char) : Except Fault Date := do
  let (year, rest) ← readYear (Text.trim cs)
  let rest ← readSeparator '-' rest
  let (month, rest) ← readNumber .month 2 1 12 rest
  let rest ← readSeparator '-' rest
  let (day, rest) ← readNumber .day 2 1 31 rest
  readEnd rest
  Date.ofComponents year month day

/-- One `T` in front of the time is left out. -/
def Time.readChars (cs : List Char) : Except Fault Time := do
  let trimmed := Text.trim cs
  let body := match trimmed with
    | 'T' :: rest => rest
    | cs => cs
  let (clock, offset) ← splitOffset body
  return ⟨← readClock clock, offset⟩

/-- Why a text is not a date-time: a text without a `T` is read as a date and has the fault of
one; otherwise the part that does not read is named. -/
inductive DateTime.Fault where
  | date (fault : Calendar.Fault)
  | datePart
  | timePart
  deriving DecidableEq, Repr

/-- A date alone is its midnight. -/
def DateTime.readChars (cs : List Char) : Except DateTime.Fault DateTime :=
  match Text.cut? 'T' (Text.trim cs) with
  | none => match Date.readChars (Text.trim cs) with
    | .ok date => .ok (.atMidnight date)
    | .error fault => .error (.date fault)
  | some (dateText, timeText) =>
    match Date.readChars dateText, Time.readChars timeText with
    | .ok date, .ok time => .ok ⟨date, time.clock, time.offset⟩
    | .error _, _ => .error .datePart
    | .ok _, .error _ => .error .timePart

end DecisionModel
