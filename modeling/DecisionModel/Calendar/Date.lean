import DecisionModel.Calendar.Component
import DecisionModel.Text.Digits

/-!
# Dates

Days of the proleptic Gregorian calendar with a year 0, from year -9999 to year 9999. A date holds
its validity as a proof, so that a step that leaves the calendar has to be answered where it
happens. Arithmetic on elapsed days goes through the day number, which counts from the first day
of year 0.
-/

namespace DecisionModel

namespace Calendar

def isLeap (year : Int) : Bool := year % 4 == 0 && (year % 100 != 0 || year % 400 == 0)

def monthLength (year : Int) (month : Nat) : Nat :=
  match month with
  | 2 => if isLeap year then 29 else 28
  | 4 | 6 | 9 | 11 => 30
  | _ => 31

def minYear : Int := -9999
def maxYear : Int := 9999

end Calendar

open Calendar

/-- The days that exist, within the supported years. -/
def Date.IsValid (year : Int) (month day : Nat) : Prop :=
  minYear ≤ year ∧ year ≤ maxYear ∧ 1 ≤ month ∧ month ≤ 12 ∧ 1 ≤ day ∧ day ≤ monthLength year month

instance (year : Int) (month day : Nat) : Decidable (Date.IsValid year month day) :=
  inferInstanceAs (Decidable (_ ∧ _))

structure Date where
  year : Int
  month : Nat
  day : Nat
  valid : Date.IsValid year month day
  deriving DecidableEq, Repr

namespace Date

instance : Inhabited Date := ⟨⟨0, 1, 1, by decide⟩⟩

/-- The date of the three components; of several that are wrong the month is named first, then
the year. -/
def ofComponents (year : Int) (month day : Nat) : Except Fault Date :=
  if month < 1 ∨ 12 < month then .error (.outOfRange .month)
  else if year < minYear ∨ maxYear < year then .error (.outOfRange .year)
  else if h : IsValid year month day then .ok ⟨year, month, day, h⟩
  else .error (.outOfRange .day)

/-- Order by year, then month, then day. -/
def order (a b : Date) : Ordering :=
  (compare a.year b.year).then ((compare a.month b.month).then (compare a.day b.day))

/-! ## Day numbers -/

/-- The number of the first day of a year. -/
def yearStart (year : Int) : Int :=
  365 * year + (year + 3) / 4 - (year + 99) / 100 + (year + 399) / 400

/-- The days of a year that come before a month. -/
def daysBefore (year : Int) : (month : Nat) → Nat
  | 0 => 0
  | 1 => 0
  | month + 2 => daysBefore year (month + 1) + monthLength year (month + 1)

/-- The number of days since the first day of year 0. -/
def dayNumber (d : Date) : Int := yearStart d.year + daysBefore d.year d.month + (d.day - 1 : Nat)

/-- The year that a day number falls into. The mean length of a year gives an estimate that is off
by one at most. -/
def yearOf (number : Int) : Int :=
  let estimate := 400 * number / 146097
  if yearStart (estimate + 1) ≤ number then estimate + 1
  else if yearStart estimate ≤ number then estimate
  else estimate - 1

/-- The month and the day of a day of the year, both counted from one, where `day` days have gone
by since `month` began. -/
def locate (year : Int) (month : Nat) : (months day : Nat) → Nat × Nat
  | 0, day => (month, day + 1)
  | months + 1, day =>
    if day < monthLength year month then (month, day + 1)
    else locate year (month + 1) months (day - monthLength year month)

/-- The date of a day number, within the supported years. -/
def ofDayNumber? (number : Int) : Option Date :=
  let year := yearOf number
  let (month, day) := locate year 1 11 (number - yearStart year).toNat
  if h : IsValid year month day then some ⟨year, month, day, h⟩ else none

/-! ## Steps -/

/-- Steps by whole months. The day stays, unless the month reached is shorter; then it is that
month's last day. -/
def addMonths? (d : Date) (months : Int) : Option Date :=
  let index := d.year * 12 + (d.month - 1 : Nat) + months
  let year := index / 12
  let month := (index % 12).toNat + 1
  let day := min d.day (monthLength year month)
  if h : IsValid year month day then some ⟨year, month, day, h⟩ else none

/-! ## Text -/

/-- The form `yyyy-mm-dd`, with a minus sign in front of a negative year. -/
def toChars (d : Date) : List Char :=
  (if d.year < 0 then ['-'] else []) ++ Text.padded 4 d.year.natAbs ++
    '-' :: Text.padded 2 d.month ++ '-' :: Text.padded 2 d.day

def toText (d : Date) : String := String.ofList d.toChars

end Date

end DecisionModel
