import DecisionModel.Calendar.Date
import Mathlib.Data.Nat.Init
import Mathlib.Tactic.ByContra

/-!
# Day numbers

The calendar as a number line: every date has a day number, dates are ordered as their numbers are,
and `ofDayNumber?` finds the date of a number exactly if the calendar has one. Years are settled
first, through the numbers of their first days, and then the months within one year.
-/

namespace DecisionModel

open Calendar

namespace Date

variable {year number : Int}

/-! ## Years -/

def yearLength (year : Int) : Nat := if isLeap year then 366 else 365

theorem isLeap_iff :
    isLeap year = true ↔ year % 4 = 0 ∧ (year % 100 ≠ 0 ∨ year % 400 = 0) := by
  simp [isLeap]

theorem yearStart_succ (year : Int) : yearStart (year + 1) = yearStart year + yearLength year := by
  unfold yearStart yearLength
  split
  · next h =>
    rw [isLeap_iff] at h
    omega
  · next h =>
    rw [isLeap_iff] at h
    omega

theorem yearStart_mono {a b : Int} (h : a ≤ b) : yearStart a ≤ yearStart b := by
  unfold yearStart
  omega

/-- The estimate that `yearOf` begins with is off by one at most: in one direction … -/
theorem yearStart_estimate_le (number : Int) :
    yearStart (400 * number / 146097 - 1) ≤ number := by
  unfold yearStart
  omega

/-- … and in the other one. -/
theorem lt_yearStart_estimate (number : Int) :
    number < yearStart (400 * number / 146097 + 2) := by
  unfold yearStart
  omega

theorem yearOf_spec (number : Int) :
    yearStart (yearOf number) ≤ number ∧ number < yearStart (yearOf number + 1) := by
  have hlow := yearStart_estimate_le number
  have hhigh := lt_yearStart_estimate number
  unfold yearOf
  dsimp only
  split
  · next h => exact ⟨h, by rwa [Int.add_assoc]⟩
  · split
    · next h h' => exact ⟨h', by omega⟩
    · next h h' => exact ⟨hlow, by rw [Int.sub_add_cancel]; omega⟩

/-- A day number falls into one year only. -/
theorem yearOf_eq (hlow : yearStart year ≤ number) (hhigh : number < yearStart (year + 1)) :
    yearOf number = year := by
  obtain ⟨hlow', hhigh'⟩ := yearOf_spec number
  apply Int.le_antisymm
  · by_contra hlt
    have := yearStart_mono (a := year + 1) (b := yearOf number) (by omega)
    omega
  · by_contra hlt
    have := yearStart_mono (a := yearOf number + 1) (b := year) (by omega)
    omega

/-! ## Months within a year -/

variable {month : Nat}

theorem daysBefore_succ (h : 1 ≤ month) :
    daysBefore year (month + 1) = daysBefore year month + monthLength year month := by
  obtain ⟨m, rfl⟩ : ∃ m, month = m + 1 := ⟨month - 1, by omega⟩
  rfl

theorem daysBefore_mono {later : Nat} (hmonth : 1 ≤ month) (h : month ≤ later) :
    daysBefore year month ≤ daysBefore year later := by
  induction later, h using Nat.le_induction with
  | base => exact Nat.le_refl _
  | succ later hle ih =>
    rw [daysBefore_succ (Nat.le_trans hmonth hle)]
    exact Nat.le_trans ih (Nat.le_add_right _ _)

/-- The days before a month that would follow December are those of the whole year. -/
theorem daysBefore_thirteen (year : Int) : daysBefore year 13 = yearLength year := by
  simp only [daysBefore, monthLength, yearLength]
  split <;> rfl

/-- The number of days of the year that come before a date. -/
def dayOfYear (d : Date) : Nat := daysBefore d.year d.month + (d.day - 1)

theorem dayNumber_eq (d : Date) : d.dayNumber = yearStart d.year + d.dayOfYear := by
  unfold dayNumber dayOfYear
  omega

theorem dayOfYear_lt_daysBefore_succ (d : Date) :
    d.dayOfYear < daysBefore d.year (d.month + 1) := by
  obtain ⟨-, -, hmonth, -, hday, hlen⟩ := d.valid
  rw [daysBefore_succ hmonth, dayOfYear]
  omega

theorem dayOfYear_lt (d : Date) : d.dayOfYear < yearLength d.year := by
  obtain ⟨-, -, -, hmonth, -, -⟩ := d.valid
  have hlt := d.dayOfYear_lt_daysBefore_succ
  have hle : daysBefore d.year (d.month + 1) ≤ daysBefore d.year 13 :=
    daysBefore_mono (by omega) (by omega)
  rw [daysBefore_thirteen] at hle
  omega

theorem yearOf_dayNumber (d : Date) : yearOf d.dayNumber = d.year := by
  have hlt := d.dayOfYear_lt
  apply yearOf_eq
  · rw [dayNumber_eq]
    omega
  · rw [yearStart_succ, dayNumber_eq]
    omega

/-! ## Order -/

variable {a b : Date}

theorem order_swap (a b : Date) : (a.order b).swap = b.order a := by
  simp only [order, Ordering.swap_then, Int.compare_swap, Nat.compare_swap]

theorem dayNumber_lt_of_year_lt (h : a.year < b.year) : a.dayNumber < b.dayNumber := by
  have hlt := a.dayOfYear_lt
  have hle := yearStart_mono (a := a.year + 1) (b := b.year) (by omega)
  rw [yearStart_succ] at hle
  rw [dayNumber_eq, dayNumber_eq]
  omega

theorem dayNumber_lt_of_month_lt (hyear : a.year = b.year) (h : a.month < b.month) :
    a.dayNumber < b.dayNumber := by
  have hlt := a.dayOfYear_lt_daysBefore_succ
  have hle : daysBefore a.year (a.month + 1) ≤ daysBefore a.year b.month :=
    daysBefore_mono (by omega) h
  have hmonth : daysBefore a.year b.month ≤ b.dayOfYear := by
    rw [hyear, dayOfYear]
    exact Nat.le_add_right _ _
  rw [dayNumber_eq, dayNumber_eq, ← hyear]
  omega

theorem dayNumber_lt_of_order (h : a.order b = .lt) : a.dayNumber < b.dayNumber := by
  rw [order, Ordering.then_eq_lt, Ordering.then_eq_lt, Int.compare_eq_lt, Int.compare_eq_eq,
    Nat.compare_eq_lt, Nat.compare_eq_eq, Nat.compare_eq_lt] at h
  rcases h with hyear | ⟨hyear, hmonth | ⟨hmonth, hday⟩⟩
  · exact dayNumber_lt_of_year_lt hyear
  · exact dayNumber_lt_of_month_lt hyear hmonth
  · have hfirst := a.valid.2.2.2.2.1
    rw [dayNumber_eq, dayNumber_eq, dayOfYear, dayOfYear, hyear, hmonth]
    omega

theorem eq_of_order (h : a.order b = .eq) : a = b := by
  rw [order, Ordering.then_eq_eq, Ordering.then_eq_eq, Int.compare_eq_eq, Nat.compare_eq_eq,
    Nat.compare_eq_eq] at h
  obtain ⟨hyear, hmonth, hday⟩ := h
  cases a
  cases b
  cases hyear
  cases hmonth
  cases hday
  rfl

/-- **Dates are ordered as their day numbers are.** -/
theorem order_eq_compare (a b : Date) : a.order b = compare a.dayNumber b.dayNumber := by
  cases h : a.order b with
  | lt => exact (Int.compare_eq_lt.mpr (dayNumber_lt_of_order h)).symm
  | eq => exact (Int.compare_eq_eq.mpr (congrArg dayNumber (eq_of_order h))).symm
  | gt =>
    have hswap : b.order a = .lt := by rw [← order_swap, h]; rfl
    exact (Int.compare_eq_gt.mpr (dayNumber_lt_of_order hswap)).symm

theorem dayNumber_injective (h : a.dayNumber = b.dayNumber) : a = b :=
  eq_of_order ((order_eq_compare a b).trans (Int.compare_eq_eq.mpr h))

/-! ## The date of a day number -/

/-- What `locate` finds is the day of the year that was asked for. -/
theorem locate_spec {months day : Nat} (hmonth : 1 ≤ month) (hsum : month + months = 12)
    (hday : daysBefore year month + day < daysBefore year 13) :
    ∃ m d, locate year month months day = (m, d) ∧ 1 ≤ m ∧ m ≤ 12 ∧ 1 ≤ d ∧
      d ≤ monthLength year m ∧ daysBefore year m + (d - 1) = daysBefore year month + day := by
  induction months generalizing month day with
  | zero =>
    obtain rfl : month = 12 := by omega
    have hlast : daysBefore year 13 = daysBefore year 12 + monthLength year 12 := rfl
    exact ⟨12, day + 1, rfl, by omega, by omega, by omega, by omega, by omega⟩
  | succ months ih =>
    by_cases hlt : day < monthLength year month
    · exact ⟨month, day + 1, by rw [locate, if_pos hlt], by omega, by omega, by omega, by omega,
        by omega⟩
    · have hnext : daysBefore year (month + 1) = daysBefore year month + monthLength year month :=
        daysBefore_succ hmonth
      obtain ⟨m, d, hfound, hm, hm', hd, hd', hsame⟩ :=
        @ih (month + 1) (day - monthLength year month) (by omega) (by omega) (by omega)
      exact ⟨m, d, by rw [locate, if_neg hlt, hfound], hm, hm', hd, hd', by omega⟩

/-- The calendar has the date of a number exactly if some date has the number. -/
theorem ofDayNumber?_eq_some_iff {d : Date} :
    ofDayNumber? number = some d ↔ d.dayNumber = number := by
  obtain ⟨hlow, hhigh⟩ := yearOf_spec number
  rw [yearStart_succ] at hhigh
  have hnone : daysBefore (yearOf number) 1 = 0 := rfl
  have hday : daysBefore (yearOf number) 1 + (number - yearStart (yearOf number)).toNat <
      daysBefore (yearOf number) 13 := by
    rw [daysBefore_thirteen, hnone]
    omega
  obtain ⟨m, day, hfound, hm, hm', hd, hd', hsame⟩ :=
    locate_spec (Nat.le_refl 1) (show 1 + 11 = 12 from rfl) hday
  rw [hnone] at hsame
  simp only [ofDayNumber?, hfound]
  constructor
  · intro h
    split at h
    · cases h
      show yearStart (yearOf number) + daysBefore (yearOf number) m + (day - 1 : Nat) = number
      omega
    · cases h
  · rintro rfl
    have hvalid : IsValid (yearOf d.dayNumber) m day := by
      obtain ⟨hmin, hmax, -⟩ := d.valid
      exact ⟨by rwa [yearOf_dayNumber], by rwa [yearOf_dayNumber], hm, hm', hd, hd'⟩
    rw [dif_pos hvalid]
    refine congrArg some (dayNumber_injective ?_)
    show yearStart (yearOf d.dayNumber) + daysBefore (yearOf d.dayNumber) m + (day - 1 : Nat) =
      d.dayNumber
    omega

end Date
end DecisionModel
