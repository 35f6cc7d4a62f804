import DecisionModel.Library.Calendar
import DecisionModel.Proofs.Calendar.MonthStep

/-!
# Whole months between two readings

The number of whole months is the difference of the months' numbers, less one towards zero where the
last month is not complete. Whether it is depends on the days and the clock readings only, so that
exchanging the two readings turns everything round.

For dates the count is tied to steps by months: from the earlier date, so many months lead to the
later one or to a day before it, and one month more leads past it. The last holds for days that every
month has. From the end of a month a longer step can be cut, and then come out no later than a date
to which the count does not see a whole month: the step of one month from 31 January ends on
28 February, but until that day no month is complete.
-/

namespace DecisionModel.Library

open Calendar

theorem withinMonth_swap (a b : DateTime) : (withinMonth a b).swap = withinMonth b a := by
  rw [withinMonth, withinMonth, Ordering.swap_then, Nat.compare_swap, Nat.compare_swap]

/-- The difference of the years and of the months within them is that of the months' numbers. -/
theorem monthIndex_sub (a b : Date) :
    b.monthIndex - a.monthIndex = (b.year - a.year) * 12 + ((b.month : Int) - a.month) := by
  obtain ⟨-, -, ha, -⟩ := a.valid
  obtain ⟨-, -, hb, -⟩ := b.valid
  unfold Date.monthIndex
  omega

theorem monthsBetween_eq (a b : DateTime) : monthsBetween a b =
    if 0 < b.date.monthIndex - a.date.monthIndex ∧ withinMonth b a = .lt then
      b.date.monthIndex - a.date.monthIndex - 1
    else if b.date.monthIndex - a.date.monthIndex < 0 ∧ withinMonth b a = .gt then
      b.date.monthIndex - a.date.monthIndex + 1
    else b.date.monthIndex - a.date.monthIndex := by
  rw [monthsBetween, monthIndex_sub]

/-- Exchanging the two readings turns the count round. -/
theorem monthsBetween_swap (a b : DateTime) : monthsBetween b a = -monthsBetween a b := by
  rw [monthsBetween_eq, monthsBetween_eq, ← withinMonth_swap b a]
  cases withinMonth b a with
  | lt =>
    simp only [Ordering.swap, reduceCtorEq, and_true, and_false, if_false]
    split <;> split <;> omega
  | gt =>
    simp only [Ordering.swap, reduceCtorEq, and_true, and_false, if_false]
    split <;> split <;> omega
  | eq =>
    simp only [Ordering.swap, reduceCtorEq, and_false, if_false]
    omega

/-! ## Words -/

/-- The calendar has fewer months than a word can count. -/
theorem inInt64_monthsBetween (a b : DateTime) :
    InInt64 (monthsBetween a b) ∧ InInt64 (monthsBetween a b + 1) := by
  have ha := a.date.hasMonth_monthIndex
  have hb := b.date.hasMonth_monthIndex
  have hnear : -1 ≤ monthsBetween a b - (b.date.monthIndex - a.date.monthIndex) ∧
      monthsBetween a b - (b.date.monthIndex - a.date.monthIndex) ≤ 1 := by
    rw [monthsBetween_eq]
    split
    · omega
    · split <;> omega
  unfold Date.HasMonth minYear maxYear at ha hb
  unfold InInt64 maxInt64
  omega

/-- The duration of the whole months from one reading to another. -/
def wholeMonths (a b : DateTime) : Months := ⟨.ofInt (monthsBetween a b)⟩

theorem wholeMonths_toInt (a b : DateTime) : (wholeMonths a b).toInt = monthsBetween a b :=
  (inInt64_monthsBetween a b).1.toInt_ofInt

theorem wholeMonths_swap (a b : DateTime) : (wholeMonths b a).toInt = -(wholeMonths a b).toInt := by
  rw [wholeMonths_toInt, wholeMonths_toInt, monthsBetween_swap]

/-- There is a duration of one month more. -/
theorem exists_next (a b : DateTime) : ∃ next, (wholeMonths a b).add? ⟨1⟩ = some next ∧
    next.toInt = monthsBetween a b + 1 := by
  have hsum : (wholeMonths a b).toInt + Months.toInt ⟨1⟩ = monthsBetween a b + 1 :=
    congrArg (· + 1) (wholeMonths_toInt a b)
  have hnext : (⟨.ofInt (monthsBetween a b + 1)⟩ : Months).toInt = monthsBetween a b + 1 :=
    (inInt64_monthsBetween a b).2.toInt_ofInt
  exact ⟨_, Months.ofInt?_eq_some_iff.mpr (hnext.trans hsum.symm), hnext⟩

theorem yearsAndMonthsDuration_dates (a b : Date) : yearsAndMonthsDuration [.date a, .date b] =
    .ok (.months (wholeMonths (.atMidnight a) (.atMidnight b))) := rfl

theorem yearsAndMonthsDuration_dateTimes (a b : DateTime) :
    yearsAndMonthsDuration [.dateTime a, .dateTime b] = .ok (.months (wholeMonths a b)) := rfl

/-! ## Dates -/

section Dates

variable {a b e : Date} {n : Int}

theorem withinMonth_atMidnight (a b : Date) :
    withinMonth (.atMidnight a) (.atMidnight b) = compare a.day b.day :=
  Ordering.then_eq

/-- From an earlier date to a later one. Either the month of the later date is reached, or the last
month is not complete. -/
theorem monthsBetween_cases (h : a.order b ≠ .gt) :
    (monthsBetween (.atMidnight a) (.atMidnight b) = b.monthIndex - a.monthIndex ∧ a.day ≤ b.day) ∨
    (monthsBetween (.atMidnight a) (.atMidnight b) = b.monthIndex - a.monthIndex - 1 ∧
      a.monthIndex < b.monthIndex ∧ b.day < a.day) := by
  rw [Date.order_ne_gt_iff] at h
  rw [monthsBetween_eq, withinMonth_atMidnight]
  simp only [DateTime.atMidnight, Nat.compare_eq_lt, Nat.compare_eq_gt]
  split
  · next hpartial => exact .inr ⟨rfl, by omega, hpartial.2⟩
  · split
    · omega
    · exact .inl ⟨rfl, by omega⟩

theorem monthsBetween_nonneg (h : a.order b ≠ .gt) :
    0 ≤ monthsBetween (.atMidnight a) (.atMidnight b) := by
  rcases monthsBetween_cases h with ⟨hcount, -⟩ | ⟨hcount, hmonth, -⟩
  · rw [Date.order_ne_gt_iff] at h
    omega
  · omega

/-- So many months on from the earlier date, the later one is reached or not yet passed. -/
theorem addMonths?_monthsBetween (h : a.order b ≠ .gt) :
    ∃ e, a.addMonths? (monthsBetween (.atMidnight a) (.atMidnight b)) = some e ∧
      e.order b ≠ .gt := by
  have hnonneg := monthsBetween_nonneg h
  have hcases := monthsBetween_cases h
  have hmonth : Date.HasMonth (a.monthIndex + monthsBetween (.atMidnight a) (.atMidnight b)) := by
    apply Date.hasMonth_of_between (a := a) (b := b)
    · omega
    · rcases hcases with ⟨hcount, -⟩ | ⟨hcount, -, -⟩ <;> omega
  obtain ⟨e, he, hindex, hday⟩ := Date.addMonths?_of_hasMonth hmonth
  refine ⟨e, he, ?_⟩
  rw [Date.order_ne_gt_iff]
  rcases hcases with ⟨hcount, hle⟩ | ⟨hcount, -, -⟩
  · -- the month of the later date: there the day is at most that of the earlier one
    exact .inr ⟨by omega, by omega⟩
  · exact .inl (by omega)

/-- One month more leads past the later date, if the day is not cut on the way. -/
theorem lt_addMonths?_monthsBetween_succ (h : a.order b ≠ .gt) (hday : a.day ≤ 28)
    (he : a.addMonths? n = some e) (hn : monthsBetween (.atMidnight a) (.atMidnight b) < n) :
    b.order e = .lt := by
  obtain ⟨hindex, heday⟩ := Date.addMonths?_eq_some_iff.mp he
  have hlength := Date.monthLength_ge e.year e.month
  rw [Date.order_eq_lt_iff]
  rcases monthsBetween_cases h with ⟨hcount, -⟩ | ⟨hcount, -, hpartial⟩
  · exact .inl (by omega)
  · omega

end Dates

/-- **The whole months between two dates are the most that lead from the earlier one to the later
one and not past it.** From the earlier date so many months lead to a date, which does not come after
the later one. If every month has the day, one month more leads past it or out of the calendar, and
no greater number of months leads to a date that does not come after the later one. Exchanging the
two dates turns the count round, and so it does for date-times. -/
theorem whole_months_bracket :
    (∀ a b : Date, ∃ m m' : Months,
      yearsAndMonthsDuration [.date a, .date b] = .ok (.months m) ∧
      yearsAndMonthsDuration [.date b, .date a] = .ok (.months m') ∧
      m'.toInt = -m.toInt ∧
      (a.order b ≠ .gt → 0 ≤ m.toInt ∧ (∃ e, a.plusMonths m = .ok e ∧ e.order b ≠ .gt) ∧
        (a.day ≤ 28 →
          (∃ next, m.add? ⟨1⟩ = some next ∧
            ((∃ e, a.plusMonths next = .ok e ∧ b.order e = .lt) ∨
              ∃ cause, a.plusMonths next = .error (.overflow cause))) ∧
          ∀ (n : Months) (e : Date), a.plusMonths n = .ok e → e.order b ≠ .gt →
            n.toInt ≤ m.toInt))) ∧
    ∀ a b : DateTime, ∃ m m' : Months,
      yearsAndMonthsDuration [.dateTime a, .dateTime b] = .ok (.months m) ∧
      yearsAndMonthsDuration [.dateTime b, .dateTime a] = .ok (.months m') ∧
      m'.toInt = -m.toInt := by
  refine ⟨fun a b => ?_, fun a b => ?_⟩
  · refine ⟨wholeMonths (.atMidnight a) (.atMidnight b), wholeMonths (.atMidnight b) (.atMidnight a),
      yearsAndMonthsDuration_dates a b, yearsAndMonthsDuration_dates b a, wholeMonths_swap _ _, ?_⟩
    intro horder
    rw [wholeMonths_toInt]
    refine ⟨monthsBetween_nonneg horder, ?_, fun hday => ⟨?_, ?_⟩⟩
    · obtain ⟨e, he, hle⟩ := addMonths?_monthsBetween horder
      exact ⟨e, Date.plusMonths_eq_ok_iff.mpr (wholeMonths_toInt .. ▸ he), hle⟩
    · obtain ⟨next, hnext⟩ := exists_next (.atMidnight a) (.atMidnight b)
      refine ⟨next, hnext.1, ?_⟩
      cases h : a.plusMonths next with
      | ok e =>
        have he := Date.plusMonths_eq_ok_iff.mp h
        exact .inl ⟨e, rfl, lt_addMonths?_monthsBetween_succ horder hday he (by omega)⟩
      | error err =>
        obtain ⟨rfl, -⟩ := Date.plusMonths_eq_error_iff.mp h
        exact .inr ⟨_, rfl⟩
    · intro n e he hle
      by_contra hmore
      have hlt := lt_addMonths?_monthsBetween_succ horder hday (Date.plusMonths_eq_ok_iff.mp he)
        (by omega)
      rw [← Date.order_swap, hlt] at hle
      exact hle rfl
  · exact ⟨wholeMonths a b, wholeMonths b a, yearsAndMonthsDuration_dateTimes a b,
      yearsAndMonthsDuration_dateTimes b a, wholeMonths_swap a b⟩

/-- A day is missing to the third month, in either direction. -/
theorem two_months_of_winter :
    let a : Date := ⟨2019, 11, 28, by decide⟩
    let b : Date := ⟨2020, 2, 27, by decide⟩
    a.order b ≠ .gt ∧ a.day ≤ 28 ∧
      yearsAndMonthsDuration [.date a, .date b] = .ok (.months ⟨2⟩) ∧
      yearsAndMonthsDuration [.date b, .date a] = .ok (.months ⟨-2⟩) ∧
      a.plusMonths ⟨2⟩ = .ok ⟨2020, 1, 28, by decide⟩ ∧
      a.plusMonths ⟨3⟩ = .ok ⟨2020, 2, 28, by decide⟩ ∧
      ∀ (n : Months) (e : Date), a.plusMonths n = .ok e → e.order b ≠ .gt → n.toInt ≤ 2 := by
  intro a b
  have horder : a.order b ≠ .gt := by decide
  have hcount : yearsAndMonthsDuration [.date a, .date b] = .ok (.months ⟨2⟩) := rfl
  obtain ⟨m, m', hm, -, -, hbracket⟩ := whole_months_bracket.1 a b
  obtain rfl : m = ⟨2⟩ := by
    rw [hcount] at hm
    cases hm
    rfl
  obtain ⟨-, -, hgreatest⟩ := hbracket horder
  exact ⟨horder, by decide, hcount, rfl, Date.plusMonths_eq_ok_iff.mpr (by decide),
    Date.plusMonths_eq_ok_iff.mpr (by decide), (hgreatest (by decide)).2⟩

end DecisionModel.Library
