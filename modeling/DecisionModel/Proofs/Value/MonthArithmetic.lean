import DecisionModel.Proofs.Calendar.MonthStep
import DecisionModel.Proofs.Duration.Text
import DecisionModel.Proofs.Value.Opposite

/-!
# Arithmetic on months

What is read from a text has an opposite, since the sign is put on an amount that is a word. But a
difference can come to the smallest word, so arithmetic reaches every duration of months there is
(`derived_months`), and the one without an opposite too. Sums and differences are exact or overflow,
and so are a date and a date-time that are moved forward. Whatever turns a duration around is exact or
overflows as long as the duration is not the smallest one; this goes for its opposite, for its
magnitude, and for a date or a date-time that is moved back by it. For the smallest duration all of
these are broken off.

No arithmetic makes a duration of both families, so the parts of one are those of a literal, turned
around at most, and both of them have an opposite.
-/

namespace DecisionModel

open Calendar

/-! ## Opposites of both parts -/

namespace Composite

variable {c c' : Composite}

/-- Both parts have an opposite, and their opposites have one too. -/
def IsTurnable (c : Composite) : Prop :=
  c.months ≠ .smallest ∧ c.elapsed.nanos.natAbs ≤ maxInt64 + 1

theorem IsTurnable.exists_negate (h : c.IsTurnable) :
    ∃ c' : Composite, c.negate = .ok c' ∧ c'.months.toInt = -c.months.toInt := by
  obtain ⟨months, hmonths, hopposite⟩ := Months.exists_neg? h.1
  obtain ⟨elapsed, helapsed⟩ := Elapsed.exists_neg? h.2
  refine ⟨⟨months, elapsed⟩, ?_, hopposite⟩
  rw [negate, Months.negate, Elapsed.negate, hmonths, helapsed]
  rfl

theorem IsTurnable.of_negate (h : c.IsTurnable) (hc : c.negate = .ok c') : c'.IsTurnable := by
  obtain ⟨months, hmonths, hc⟩ := bind_eq_ok_iff.mp hc
  obtain ⟨elapsed, helapsed, hc⟩ := bind_eq_ok_iff.mp hc
  obtain rfl : ⟨months, elapsed⟩ = c' := Except.ok.inj hc
  have hmonths := Months.neg?_eq_some_iff.mp (Breakdown.unless_eq_ok_iff.mp hmonths)
  have helapsed := (Elapsed.neg?_eq_some_iff.mp (Breakdown.unless_eq_ok_iff.mp helapsed)).2
  have hhigh := c.months.inInt64_toInt.2
  refine ⟨Months.ne_smallest_iff.mpr ?_, ?_⟩
  · rw [hmonths]
    omega
  · rw [helapsed, Int.natAbs_neg]
    exact h.2

end Composite

namespace Value

/-! ## What is reached -/

/-- The durations that are read, and what addition, subtraction, negation and scaling make of
them. -/
inductive Derived : Value → Prop where
  | read {text : String} {d : Duration} (h : Duration.read text = .ok d) : Derived (.ofDuration d)
  | add {a b v : Value} (ha : Derived a) (hb : Derived b) (h : arithmetic .add a b = .ok v) :
    Derived v
  | sub {a b v : Value} (ha : Derived a) (hb : Derived b) (h : arithmetic .sub a b = .ok v) :
    Derived v
  | negate {a v : Value} (ha : Derived a) (h : a.negate = .ok v) : Derived v
  | scale {a v : Value} {n : Decimal} {op : ArithmeticOp} (ha : Derived a)
    (hop : op = .mul ∨ op = .div)
    (h : arithmetic op a (.number n) = .ok v ∨ arithmetic op (.number n) a = .ok v) : Derived v

variable {a b v : Value} {c : Composite} {op : ArithmeticOp}

/-- Arithmetic reaches every duration of months. -/
theorem derived_months (m : Months) : Derived (.months m) := by
  have hreadable (m : Months) (h : m.toInt.natAbs ≤ maxInt64) : Derived (.months m) :=
    .read (d := .months m) (Duration.read_toText h)
  by_cases hm : m = .smallest
  · -- one month less than the longest duration backwards that a text can stand for
    subst hm
    exact .sub (hreadable ⟨-.maxValue⟩ (by decide)) (hreadable ⟨1⟩ (by decide)) rfl
  · have hlow := Months.ne_smallest_iff.mp hm
    have hhigh := m.inInt64_toInt.2
    exact hreadable m (by omega)

theorem map_ne_composite {α : Type} {x : Result α} {f : α → Value} (h : ∀ a, f a ≠ .composite c) :
    x.map f ≠ .ok (.composite c) := by
  intro hmap
  obtain ⟨a, -, ha⟩ := map_eq_ok_iff.mp hmap
  exact h a ha

/-- No arithmetic makes a duration of both families. -/
theorem arithmetic_ne_composite : arithmetic op a b ≠ .ok (.composite c) := by
  unfold arithmetic
  split
  · simp
  · cases op with
    | add =>
      simp only [add]
      split <;> first | exact map_ne_composite (by simp) | simp
    | sub =>
      simp only [sub]
      split <;> first | exact map_ne_composite (by simp) | simp
    | mul =>
      simp only [mul]
      split <;> first | exact map_ne_composite (by simp) | simp
    | div =>
      simp only [div]
      repeat' split
      all_goals first | exact map_ne_composite (by simp) | simp
    | pow =>
      simp only [power]
      split <;> first | exact map_ne_composite (by simp) | simp

/-- The parts of a duration of both families that is reached have opposites. -/
theorem Derived.isTurnable (h : Derived v) (hv : v = .composite c) : c.IsTurnable := by
  induction h generalizing c with
  | @read text d h =>
    cases d with
    | composite d =>
      cases hv
      obtain ⟨hmonths, hnanos, -⟩ := Duration.isReadable_of_read h
      exact ⟨Months.ne_smallest_iff.mpr (by omega), Duration.natAbs_le_of_inInt64 hnanos⟩
    | months m => cases hv
    | elapsed e => cases hv
  | add ha hb h => exact absurd (hv ▸ h) arithmetic_ne_composite
  | sub ha hb h => exact absurd (hv ▸ h) arithmetic_ne_composite
  | scale ha hop h =>
    subst hv
    rcases h with h | h
    · exact absurd h arithmetic_ne_composite
    · exact absurd h arithmetic_ne_composite
  | @negate a v ha h ih =>
    subst hv
    cases a with
    | composite d =>
      obtain ⟨d', hd', hback⟩ := map_eq_ok_iff.mp h
      obtain rfl : d' = c := by cases hback; rfl
      exact (ih rfl).of_negate hd'
    | months m | elapsed e =>
      obtain ⟨d', -, hback⟩ := map_eq_ok_iff.mp h
      cases hback
    | _ => cases h

/-! ## Exact results -/

/-- A result that is the duration of `n` months, or an overflow where no word holds them. -/
def IsMonths (n : Int) (r : Result Value) : Prop :=
  (∃ m : Months, m.toInt = n ∧ r = .ok (.months m)) ∨
    ¬InInt64 n ∧ ∃ cause, r = .error (.overflow cause)

/-- A result that is a date moved by `n` months on the calendar, as part of a value, or an overflow
where the calendar does not have the month. -/
def IsStep (d : Date) (n : Int) (value : Date → Value) (r : Result Value) : Prop :=
  (∃ e : Date, e.monthIndex = d.monthIndex + n ∧ e.day = min d.day (monthLength e.year e.month) ∧
    r = .ok (value e)) ∨
  ¬Date.HasMonth (d.monthIndex + n) ∧ ∃ cause, r = .error (.overflow cause)

theorem isMonths_ofInt? (n : Int) (cause : Overflow) :
    IsMonths n ((Overflow.unless cause (Months.ofInt? n)).map .months) := by
  cases h : Months.ofInt? n with
  | some m => exact .inl ⟨m, Months.ofInt?_eq_some_iff.mp h, rfl⟩
  | none => exact .inr ⟨Months.ofInt?_eq_none_iff.mp h, cause, rfl⟩

theorem isStep_plusMonths (d : Date) (m : Months) (value : Date → Value) :
    IsStep d m.toInt value ((d.plusMonths m).map value) := by
  cases h : d.plusMonths m with
  | ok e =>
    obtain ⟨hindex, hday⟩ := Date.addMonths?_eq_some_iff.mp (Date.plusMonths_eq_ok_iff.mp h)
    exact .inl ⟨e, hindex, hday, rfl⟩
  | error err =>
    obtain ⟨rfl, hmonth⟩ := Date.plusMonths_eq_error_iff.mp h
    exact .inr ⟨hmonth, _, rfl⟩

/-- A date is moved back by just so many months, if the duration has an opposite. -/
theorem isStep_minusMonths (d : Date) {m : Months} (hm : m ≠ .smallest) (value : Date → Value) :
    IsStep d (-m.toInt) value ((m.negate >>= d.plusMonths).map value) := by
  obtain ⟨back, hback, hopposite⟩ := Months.exists_neg? hm
  rw [Months.negate, hback, ← hopposite]
  exact isStep_plusMonths d back value

/-- A date-time's clock reading and offset on another date. -/
def onDate (dt : DateTime) (d : Date) : Value := .dateTime { dt with date := d }

theorem map_plusMonths_dateTime (dt : DateTime) (m : Months) :
    (dt.plusMonths m).map Value.dateTime = (dt.date.plusMonths m).map (onDate dt) := by
  rw [DateTime.plusMonths]
  cases dt.date.plusMonths m <;> rfl

theorem isMonths_negate {m : Months} (hm : m ≠ .smallest) :
    IsMonths (-m.toInt) (negate (.months m)) := by
  obtain ⟨back, hback, hopposite⟩ := Months.exists_neg? hm
  refine .inl ⟨back, hopposite, ?_⟩
  rw [negate, Months.negate, hback]
  rfl

/-- The magnitude of a duration is the duration itself or its opposite. -/
theorem abs_months (m : Months) :
    Library.abs [.months m] = if m.isNegative then negate (.months m) else .ok (.months m) := by
  show (if m.isNegative then m.negate else .ok m).map Value.months = _
  split <;> rfl

theorem isMonths_abs {m : Months} (hm : m ≠ .smallest) :
    IsMonths m.toInt.natAbs (Library.abs [.months m]) := by
  rw [abs_months]
  split
  · next hnegative =>
    have hneg : m.toInt < 0 := of_decide_eq_true hnegative
    rw [show (m.toInt.natAbs : Int) = -m.toInt by omega]
    exact isMonths_negate hm
  · next hnegative =>
    have hneg : ¬m.toInt < 0 := of_decide_eq_false (Bool.eq_false_iff.mpr hnegative)
    exact .inl ⟨m, by omega, rfl⟩

theorem map_minusMonths_dateTime (dt : DateTime) (m : Months) :
    (m.negate >>= dt.plusMonths).map Value.dateTime =
      (m.negate >>= dt.date.plusMonths).map (onDate dt) := by
  cases m.negate with
  | ok back => exact map_plusMonths_dateTime dt back
  | error e => rfl

/-! ## The smallest duration -/

theorem months_negate_smallest : Months.smallest.negate = .error (.brokenOff .negatedMonths) :=
  Breakdown.unless_eq_error_iff.mpr ⟨rfl, Months.neg?_eq_none_iff.mpr rfl⟩

theorem negate_smallest : negate (.months .smallest) = .error (.brokenOff .negatedMonths) := by
  rw [negate, months_negate_smallest]
  rfl

theorem abs_smallest : Library.abs [.months .smallest] = .error (.brokenOff .negatedMonths) := by
  rw [abs_months, if_pos (by decide), negate_smallest]

theorem sub_smallest_date (d : Date) :
    arithmetic .sub (.date d) (.months .smallest) = .error (.brokenOff .negatedMonths) := by
  show (Months.smallest.negate >>= d.plusMonths).map .date = _
  rw [months_negate_smallest]
  rfl

theorem sub_smallest_dateTime (dt : DateTime) :
    arithmetic .sub (.dateTime dt) (.months .smallest) = .error (.brokenOff .negatedMonths) := by
  show (Months.smallest.negate >>= dt.plusMonths).map .dateTime = _
  rw [months_negate_smallest]
  rfl

/-- **Arithmetic on months is exact or overflows, unless the smallest duration is to be turned
around.** That holds for sums and differences, for dates and date-times that are moved forth and for
the opposite of a duration of both families, whatever durations arithmetic has reached, and it
reaches all durations of months. Opposites, magnitudes, and dates and date-times that are moved back
are exact or overflow as well, except for the one duration that has no opposite: with it, each of the
four is broken off. -/
theorem months_exact_unless_smallest_turned (a b : Months) :
    Derived (.months a) ∧
    IsMonths (a.toInt + b.toInt) (arithmetic .add (.months a) (.months b)) ∧
    IsMonths (a.toInt - b.toInt) (arithmetic .sub (.months a) (.months b)) ∧
    (∀ d : Date, IsStep d a.toInt .date (arithmetic .add (.date d) (.months a)) ∧
      IsStep d a.toInt .date (arithmetic .add (.months a) (.date d))) ∧
    (∀ dt : DateTime,
      IsStep dt.date a.toInt (onDate dt) (arithmetic .add (.dateTime dt) (.months a)) ∧
      IsStep dt.date a.toInt (onDate dt) (arithmetic .add (.months a) (.dateTime dt))) ∧
    (∀ c, Derived (.composite c) → ∃ c' : Composite,
      negate (.composite c) = .ok (.composite c') ∧ c'.months.toInt = -c.months.toInt) ∧
    (a ≠ .smallest →
      IsMonths (-a.toInt) (negate (.months a)) ∧
      IsMonths a.toInt.natAbs (Library.abs [.months a]) ∧
      (∀ d : Date, IsStep d (-a.toInt) .date (arithmetic .sub (.date d) (.months a))) ∧
      ∀ dt : DateTime,
        IsStep dt.date (-a.toInt) (onDate dt) (arithmetic .sub (.dateTime dt) (.months a))) ∧
    (a = .smallest →
      negate (.months a) = .error (.brokenOff .negatedMonths) ∧
      Library.abs [.months a] = .error (.brokenOff .negatedMonths) ∧
      (∀ d : Date,
        arithmetic .sub (.date d) (.months a) = .error (.brokenOff .negatedMonths)) ∧
      ∀ dt : DateTime,
        arithmetic .sub (.dateTime dt) (.months a) = .error (.brokenOff .negatedMonths)) := by
  refine ⟨derived_months a, isMonths_ofInt? _ _, isMonths_ofInt? _ _, fun d => ?_, fun dt => ?_,
    fun c hc => ?_, fun ha => ?_, ?_⟩
  · have hadd := isStep_plusMonths d a .date
    exact ⟨hadd, hadd⟩
  · have hadd := isStep_plusMonths dt.date a (onDate dt)
    rw [← map_plusMonths_dateTime] at hadd
    exact ⟨hadd, hadd⟩
  · obtain ⟨c', hnegate, hopposite⟩ := (hc.isTurnable rfl).exists_negate
    refine ⟨c', ?_, hopposite⟩
    rw [negate, hnegate]
    rfl
  · refine ⟨isMonths_negate ha, isMonths_abs ha, fun d => isStep_minusMonths d ha .date,
      fun dt => ?_⟩
    have hsub := isStep_minusMonths dt.date ha (onDate dt)
    rw [← map_minusMonths_dateTime] at hsub
    exact hsub
  · rintro rfl
    exact ⟨negate_smallest, abs_smallest, sub_smallest_date, sub_smallest_dateTime⟩

/-- The longest duration backwards that a text can stand for is turned forwards, and so are the
months of a literal of both families; one month less is not. -/
theorem longest_literal_turned :
    let longest : Months := ⟨-.maxValue⟩
    let c : Composite := ⟨⟨-14⟩, ⟨-2 * nanosPerDay⟩⟩
    longest ≠ .smallest ∧ Derived (.composite c) ∧
      IsMonths maxInt64 (negate (.months longest)) ∧
      IsMonths maxInt64 (Library.abs [.months longest]) ∧
      (∃ c' : Composite, negate (.composite c) = .ok (.composite c') ∧ c'.months.toInt = 14) ∧
      arithmetic .sub (.months longest) (.months ⟨1⟩) = .ok (.months .smallest) ∧
      Library.abs [.months .smallest] = .error (.brokenOff .negatedMonths) := by
  intro longest c
  have hread : Duration.read "-P1Y2M2D" = .ok (.composite c) := rfl
  have hlongest : longest ≠ .smallest := by decide
  have hc : Derived (.composite c) := .read (d := .composite c) hread
  obtain ⟨-, -, -, -, -, hcomposite, hturned, -⟩ :=
    months_exact_unless_smallest_turned longest longest
  obtain ⟨-, -, -, -, -, -, -, hsmallest⟩ := months_exact_unless_smallest_turned .smallest longest
  exact ⟨hlongest, hc, (hturned hlongest).1, (hturned hlongest).2.1, hcomposite c hc, rfl,
    (hsmallest rfl).2.1⟩

/-- The smallest duration is what two literals differ by, and to turn it around is neither exact nor
an overflow. -/
theorem smallest_has_no_opposite :
    (arithmetic .sub (.months ⟨-.maxValue⟩) (.months ⟨1⟩) = .ok (.months .smallest) ∧
      negate (.months .smallest) = .error (.brokenOff .negatedMonths)) ∧
    ¬∀ m : Months, Derived (.months m) → IsMonths (-m.toInt) (negate (.months m)) := by
  refine ⟨⟨rfl, negate_smallest⟩, fun hexact => ?_⟩
  have hsmallest := hexact .smallest (derived_months .smallest)
  rw [negate_smallest] at hsmallest
  rcases hsmallest with ⟨m, -, hm⟩ | ⟨-, cause, hoverflow⟩
  · cases hm
  · cases hoverflow

end Value
end DecisionModel
