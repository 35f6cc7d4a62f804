import DecisionModel.Operator.Arithmetic
import DecisionModel.Proofs.Calendar.DayNumber
import DecisionModel.Proofs.Duration.Months

/-!
# Steps by months

Months are numbered through, twelve to a year and the first one of year 0 being the zeroth, so that a
step by months adds to the number of the month. That, and that the day is cut to the length of the
month reached, is all that a step does, and there is a step wherever the calendar has the month
reached (`addMonths?_eq_some_iff`, `addMonths?_eq_none_iff`).

Dates are ordered by the number of their month first and then by the day. Steps from one date differ
in the month already, so cutting the day cannot bring them together. Equal steps from two dates
of one month can end on the same day, but never in the other order.
-/

namespace DecisionModel

open Calendar

namespace Date

/-- The number of a date's month, counted from the first month of year 0. -/
def monthIndex (d : Date) : Int := d.year * 12 + (d.month - 1 : Nat)

variable {d e a b a' b' : Date} {n m : Int}

theorem year_eq_ediv (d : Date) : d.year = d.monthIndex / 12 := by
  obtain ⟨-, -, hmonth, hmonth', -⟩ := d.valid
  unfold monthIndex
  omega

theorem month_eq_emod (d : Date) : d.month = (d.monthIndex % 12).toNat + 1 := by
  obtain ⟨-, -, hmonth, hmonth', -⟩ := d.valid
  unfold monthIndex
  omega

/-- The number of a month says which month of which year it is. -/
theorem month_of_monthIndex (h : a.monthIndex = b.monthIndex) :
    a.year = b.year ∧ a.month = b.month := by
  rw [year_eq_ediv, month_eq_emod, h, ← year_eq_ediv, ← month_eq_emod]
  exact ⟨rfl, rfl⟩

theorem eq_of_monthIndex (hindex : a.monthIndex = b.monthIndex) (hday : a.day = b.day) : a = b := by
  obtain ⟨hyear, hmonth⟩ := month_of_monthIndex hindex
  cases a
  cases b
  cases hyear
  cases hmonth
  cases hday
  rfl

/-! ## Order -/

theorem compare_monthIndex (a b : Date) :
    compare a.monthIndex b.monthIndex = (compare a.year b.year).then (compare a.month b.month) := by
  obtain ⟨-, -, ha, ha', -⟩ := a.valid
  obtain ⟨-, -, hb, hb', -⟩ := b.valid
  unfold monthIndex
  cases h : compare a.year b.year with
  | lt =>
    rw [Int.compare_eq_lt] at h
    exact Int.compare_eq_lt.mpr (by omega)
  | gt =>
    rw [Int.compare_eq_gt] at h
    exact Int.compare_eq_gt.mpr (by omega)
  | eq =>
    rw [Int.compare_eq_eq] at h
    rw [h, Ordering.then]
    cases h' : compare a.month b.month with
    | lt =>
      rw [Nat.compare_eq_lt] at h'
      exact Int.compare_eq_lt.mpr (by omega)
    | gt =>
      rw [Nat.compare_eq_gt] at h'
      exact Int.compare_eq_gt.mpr (by omega)
    | eq =>
      rw [Nat.compare_eq_eq] at h'
      exact Int.compare_eq_eq.mpr (by omega)

/-- Dates are ordered by their months, and within one month by their days. -/
theorem order_eq_compare_monthIndex (a b : Date) :
    a.order b = (compare a.monthIndex b.monthIndex).then (compare a.day b.day) := by
  rw [compare_monthIndex, Ordering.then_assoc, order]

theorem order_eq_lt_iff : a.order b = .lt ↔
    a.monthIndex < b.monthIndex ∨ a.monthIndex = b.monthIndex ∧ a.day < b.day := by
  rw [order_eq_compare_monthIndex, Ordering.then_eq_lt, Int.compare_eq_lt, Int.compare_eq_eq,
    Nat.compare_eq_lt]

theorem order_ne_gt_iff : a.order b ≠ .gt ↔
    a.monthIndex < b.monthIndex ∨ a.monthIndex = b.monthIndex ∧ a.day ≤ b.day := by
  rw [order_eq_compare_monthIndex, ne_eq, Ordering.then_eq_gt, Int.compare_eq_gt, Int.compare_eq_eq,
    Nat.compare_eq_gt]
  omega

/-! ## Steps -/

/-- Whether the calendar has the year of the month with a number. -/
def HasMonth (index : Int) : Prop := minYear ≤ index / 12 ∧ index / 12 ≤ maxYear

instance (index : Int) : Decidable (HasMonth index) := inferInstanceAs (Decidable (_ ∧ _))

theorem hasMonth_monthIndex (d : Date) : HasMonth d.monthIndex := by
  obtain ⟨hmin, hmax, -⟩ := d.valid
  rw [HasMonth, ← year_eq_ediv]
  exact ⟨hmin, hmax⟩

/-- The calendar has every month between two that it has. -/
theorem hasMonth_of_between (hlow : a.monthIndex ≤ n) (hhigh : n ≤ b.monthIndex) : HasMonth n := by
  have ha := a.hasMonth_monthIndex.1
  have hb := b.hasMonth_monthIndex.2
  exact ⟨by omega, by omega⟩

theorem monthLength_ge (year : Int) (month : Nat) : 28 ≤ monthLength year month := by
  unfold monthLength
  split
  · split <;> decide
  · decide
  · decide
  · decide
  · decide
  · decide

theorem addMonths?_of_hasMonth (h : HasMonth (d.monthIndex + n)) :
    ∃ e, d.addMonths? n = some e ∧ e.monthIndex = d.monthIndex + n ∧
      e.day = min d.day (monthLength e.year e.month) := by
  have hlength := monthLength_ge ((d.monthIndex + n) / 12) (((d.monthIndex + n) % 12).toNat + 1)
  obtain ⟨-, -, -, -, hday, -⟩ := d.valid
  have hvalid : IsValid ((d.monthIndex + n) / 12) (((d.monthIndex + n) % 12).toNat + 1)
      (min d.day (monthLength ((d.monthIndex + n) / 12) (((d.monthIndex + n) % 12).toNat + 1))) :=
    ⟨h.1, h.2, by omega, by omega, by omega, Nat.min_le_right _ _⟩
  refine ⟨⟨_, _, _, hvalid⟩, dif_pos hvalid, ?_, rfl⟩
  show (d.monthIndex + n) / 12 * 12 + (((d.monthIndex + n) % 12).toNat + 1 - 1 : Nat) = _
  omega

/-- A step leads to the month that is so many months on, and keeps the day as far as it can. -/
theorem addMonths?_eq_some_iff : d.addMonths? n = some e ↔
    e.monthIndex = d.monthIndex + n ∧ e.day = min d.day (monthLength e.year e.month) := by
  constructor
  · intro h
    have hmonth : HasMonth (d.monthIndex + n) := by
      simp only [addMonths?] at h
      split at h
      · next hvalid => exact ⟨hvalid.1, hvalid.2.1⟩
      · cases h
    obtain ⟨e', he', hstep⟩ := addMonths?_of_hasMonth hmonth
    rw [he'] at h
    obtain rfl := Option.some.inj h
    exact hstep
  · rintro ⟨hindex, hday⟩
    obtain ⟨e', he', hindex', hday'⟩ :=
      addMonths?_of_hasMonth (d := d) (n := n) (hindex ▸ e.hasMonth_monthIndex)
    have hsame : e'.monthIndex = e.monthIndex := by rw [hindex, hindex']
    rw [he']
    obtain ⟨hyear, hmonth⟩ := month_of_monthIndex hsame
    refine congrArg some (eq_of_monthIndex hsame ?_)
    rw [hday, hday', hyear, hmonth]

/-- There is no step exactly if the month is one that the calendar does not have. -/
theorem addMonths?_eq_none_iff : d.addMonths? n = none ↔ ¬HasMonth (d.monthIndex + n) := by
  constructor
  · intro h hmonth
    obtain ⟨e, he, -⟩ := addMonths?_of_hasMonth hmonth
    rw [h] at he
    cases he
  · intro h
    rw [Option.eq_none_iff_forall_ne_some]
    intro e he
    exact h ((addMonths?_eq_some_iff.mp he).1 ▸ e.hasMonth_monthIndex)

theorem addMonths?_zero (d : Date) : d.addMonths? 0 = some d := by
  obtain ⟨-, -, -, -, -, hday⟩ := d.valid
  exact addMonths?_eq_some_iff.mpr ⟨(Int.add_zero _).symm, (Nat.min_eq_left hday).symm⟩

/-- The later of two dates stays the later one, or both come to the same day. -/
theorem order_addMonths?_ne_gt (h : a.order b ≠ .gt) (ha : a.addMonths? n = some a')
    (hb : b.addMonths? n = some b') : a'.order b' ≠ .gt := by
  obtain ⟨haindex, haday⟩ := addMonths?_eq_some_iff.mp ha
  obtain ⟨hbindex, hbday⟩ := addMonths?_eq_some_iff.mp hb
  rw [order_ne_gt_iff] at h ⊢
  rcases h with hlt | ⟨hindex, hday⟩
  · exact .inl (by omega)
  · have hsame : a'.monthIndex = b'.monthIndex := by omega
    -- both days are cut to the length of the same month
    obtain ⟨hyear, hmonth⟩ := month_of_monthIndex hsame
    refine .inr ⟨hsame, ?_⟩
    rw [haday, hbday, hyear, hmonth]
    omega

/-- More months lead to a later date. -/
theorem order_addMonths?_eq_lt (h : n < m) (ha : d.addMonths? n = some a)
    (hb : d.addMonths? m = some b) : a.order b = .lt := by
  obtain ⟨haindex, -⟩ := addMonths?_eq_some_iff.mp ha
  obtain ⟨hbindex, -⟩ := addMonths?_eq_some_iff.mp hb
  exact order_eq_lt_iff.mpr (.inl (by omega))

/-- A day that every month has is not cut, so the step can be taken back. -/
theorem addMonths?_neg (hday : d.day ≤ 28) (h : d.addMonths? n = some e) :
    e.addMonths? (-n) = some d := by
  obtain ⟨hindex, heday⟩ := addMonths?_eq_some_iff.mp h
  have hlength := monthLength_ge e.year e.month
  have hlength' := monthLength_ge d.year d.month
  exact addMonths?_eq_some_iff.mpr ⟨by omega, by omega⟩

/-! ## Steps by a duration -/

variable {months : Months}

theorem plusMonths_eq_ok_iff :
    d.plusMonths months = .ok e ↔ d.addMonths? months.toInt = some e :=
  Overflow.unless_eq_ok_iff

theorem plusMonths_eq_error_iff {err : EvalError} : d.plusMonths months = .error err ↔
    err = .overflow (.dateByMonths d months.toInt) ∧ ¬HasMonth (d.monthIndex + months.toInt) := by
  rw [plusMonths, Overflow.unless_eq_error_iff, addMonths?_eq_none_iff]

theorem inInt64_of_hasMonth (h : HasMonth n) : InInt64 n := by
  unfold HasMonth minYear maxYear at h
  unfold InInt64 maxInt64
  omega

/-- The calendar is not long enough for the one duration that has no opposite. -/
theorem ne_smallest_of_addMonths? (h : d.addMonths? months.toInt = some e) :
    months ≠ .smallest := by
  have hd := d.hasMonth_monthIndex
  have he := e.hasMonth_monthIndex
  rw [(addMonths?_eq_some_iff.mp h).1] at he
  rw [ne_eq, Months.eq_smallest_iff]
  unfold HasMonth minYear maxYear at hd he
  unfold maxInt64
  omega

/-- **A step by months is exact.** It leads to the month that is so many months on, and there to the
day that it came from or, where the month is shorter, to its last one. It fails with an overflow,
and exactly if the calendar does not have the year of that month, as when the number of the month is
no word. Of two dates the later one does not fall behind the earlier one, more months lead further,
no months lead nowhere, and from a day that every month has the opposite step leads back. -/
theorem month_steps_exact (d : Date) (months : Months) :
    (∀ e, d.plusMonths months = .ok e ↔
      e.monthIndex = d.monthIndex + months.toInt ∧
        e.day = min d.day (monthLength e.year e.month)) ∧
    (∀ err, d.plusMonths months = .error err ↔
      err = .overflow (.dateByMonths d months.toInt) ∧
        ¬(minYear ≤ (d.monthIndex + months.toInt) / 12 ∧
          (d.monthIndex + months.toInt) / 12 ≤ maxYear)) ∧
    (¬InInt64 (d.monthIndex + months.toInt) →
      d.plusMonths months = .error (.overflow (.dateByMonths d months.toInt))) ∧
    (∀ later e f, d.order later ≠ .gt → d.plusMonths months = .ok e →
      later.plusMonths months = .ok f → e.order f ≠ .gt) ∧
    (∀ (more : Months) (e f : Date), months.toInt < more.toInt → d.plusMonths months = .ok e →
      d.plusMonths more = .ok f → e.order f = .lt) ∧
    d.plusMonths ⟨0⟩ = .ok d ∧
    (∀ e, d.day ≤ 28 → d.plusMonths months = .ok e →
      ∃ back, months.neg? = some back ∧ e.plusMonths back = .ok d) := by
  refine ⟨fun e => ?_, fun err => plusMonths_eq_error_iff, fun hword => ?_, ?_, ?_, ?_, ?_⟩
  · rw [plusMonths_eq_ok_iff, addMonths?_eq_some_iff]
  · exact plusMonths_eq_error_iff.mpr ⟨rfl, fun hmonth => hword (inInt64_of_hasMonth hmonth)⟩
  · intro later e f horder he hf
    exact order_addMonths?_ne_gt horder (plusMonths_eq_ok_iff.mp he) (plusMonths_eq_ok_iff.mp hf)
  · intro more e f hlt he hf
    exact order_addMonths?_eq_lt hlt (plusMonths_eq_ok_iff.mp he) (plusMonths_eq_ok_iff.mp hf)
  · exact plusMonths_eq_ok_iff.mpr d.addMonths?_zero
  · intro e hday he
    rw [plusMonths_eq_ok_iff] at he
    obtain ⟨back, hneg, hback⟩ := Months.exists_neg? (ne_smallest_of_addMonths? he)
    refine ⟨back, hneg, ?_⟩
    rw [plusMonths_eq_ok_iff, hback]
    exact addMonths?_neg hday he

/-- Backwards over year 0 into a leap February, where the day is cut; one month further back; and
back again from a day that was not cut. The calendar ends at year 9999. -/
theorem february_of_year_zero :
    let d : Date := ⟨1, 5, 31, by decide⟩
    let early : Date := ⟨1, 5, 28, by decide⟩
    let leap : Date := ⟨0, 2, 29, by decide⟩
    let cut : Date := ⟨0, 2, 28, by decide⟩
    let before : Date := ⟨-1, 12, 31, by decide⟩
    d.plusMonths ⟨-15⟩ = .ok leap ∧ early.plusMonths ⟨-15⟩ = .ok cut ∧
      cut.order leap ≠ .gt ∧ cut.plusMonths ⟨15⟩ = .ok early ∧
      d.plusMonths ⟨-17⟩ = .ok before ∧ before.order leap = .lt ∧
      d.plusMonths ⟨.maxValue⟩ = .error (.overflow (.dateByMonths d maxInt64)) := by
  intro d early leap cut before
  have hd : d.plusMonths ⟨-15⟩ = .ok leap := plusMonths_eq_ok_iff.mpr (by decide)
  have hearly : early.plusMonths ⟨-15⟩ = .ok cut := plusMonths_eq_ok_iff.mpr (by decide)
  have hbefore : d.plusMonths ⟨-17⟩ = .ok before := plusMonths_eq_ok_iff.mpr (by decide)
  obtain ⟨-, -, -, hmono, -, -, hback⟩ := month_steps_exact early ⟨-15⟩
  obtain ⟨-, -, -, -, hmore, -⟩ := month_steps_exact d ⟨-17⟩
  obtain ⟨-, -, hoverflow, -⟩ := month_steps_exact d ⟨.maxValue⟩
  obtain ⟨back, hneg, hcut⟩ := hback cut (by decide) hearly
  obtain rfl : ⟨15⟩ = back := Option.some.inj hneg
  exact ⟨hd, hearly, hmono d cut leap (by decide) hearly hd, hcut, hbefore,
    hmore ⟨-15⟩ before leap (by decide) hbefore hd, hoverflow (by decide)⟩

end Date
end DecisionModel
