import DecisionModel.Operator.Arithmetic
import DecisionModel.Proofs.Value.Equality

/-!
# Chronology

A date-time with an offset stands for an instant, its reading in universal time. The same instant
has a reading at every offset, and the calendar shows all of them but those before its first day and
after its last one. So there are two ways to see a comparison. It brings the right date-time to the
offset of the left one and goes through the components, from the year to the nanosecond; and it
says which of two instants is earlier. They come to the same because dates follow one another as
their day numbers do, whatever months, leap days and years the shift passes.

What fails is the shift only, and it fails exactly where the calendar ends.
-/

namespace DecisionModel

open Calendar

/-! ## Where the calendar ends -/

namespace Date

theorem dayNumber_mem (d : Date) :
    yearStart minYear ≤ d.dayNumber ∧ d.dayNumber < yearStart (maxYear + 1) := by
  obtain ⟨hmin, hmax, -⟩ := d.valid
  have hfirst := yearStart_mono hmin
  have hlast := yearStart_mono (a := d.year + 1) (b := maxYear + 1) (by omega)
  have hday := d.dayOfYear_lt
  rw [yearStart_succ] at hlast
  rw [dayNumber_eq]
  omega

/-- Every day number from the first day to the last one is that of a date. -/
theorem exists_dayNumber_eq_iff {number : Int} :
    (∃ d : Date, d.dayNumber = number) ↔
      yearStart minYear ≤ number ∧ number < yearStart (maxYear + 1) := by
  constructor
  · rintro ⟨d, rfl⟩
    exact d.dayNumber_mem
  · rintro ⟨hfirst, hlast⟩
    obtain ⟨hlow, hhigh⟩ := yearOf_spec number
    have hmin : minYear ≤ yearOf number := by
      by_contra hlt
      have := yearStart_mono (a := yearOf number + 1) (b := minYear) (by omega)
      omega
    have hmax : yearOf number ≤ maxYear := by
      by_contra hlt
      have := yearStart_mono (a := maxYear + 1) (b := yearOf number) (by omega)
      omega
    have hnone : daysBefore (yearOf number) 1 = 0 := rfl
    rw [yearStart_succ] at hhigh
    have hofYear : daysBefore (yearOf number) 1 + (number - yearStart (yearOf number)).toNat <
        daysBefore (yearOf number) 13 := by
      rw [daysBefore_thirteen, hnone]
      omega
    obtain ⟨month, day, -, hmonth, hmonth', hday, hday', hsame⟩ :=
      locate_spec (Nat.le_refl 1) (show 1 + 11 = 12 from rfl) hofYear
    refine ⟨⟨yearOf number, month, day, hmin, hmax, hmonth, hmonth', hday, hday'⟩, ?_⟩
    show yearStart (yearOf number) + daysBefore (yearOf number) month + (day - 1 : Nat) = number
    omega

end Date

namespace Calendar

/-- Whether a local reading, in nanoseconds, falls on a day of the supported years. -/
def HasReading (nanos : Int) : Prop :=
  Date.yearStart minYear * nanosPerDay ≤ nanos ∧ nanos < Date.yearStart (maxYear + 1) * nanosPerDay

instance (nanos : Int) : Decidable (HasReading nanos) := inferInstanceAs (Decidable (_ ∧ _))

theorem hasReading_iff_day {nanos : Int} : HasReading nanos ↔
    Date.yearStart minYear ≤ nanos / nanosPerDay ∧
      nanos / nanosPerDay < Date.yearStart (maxYear + 1) := by
  have hpos : (0 : Int) < nanosPerDay := by decide
  rw [HasReading, Int.le_ediv_iff_mul_le hpos, Int.ediv_lt_iff_lt_mul hpos]

end Calendar

namespace DateTime

theorem hasReading_localNanos (dt : DateTime) : HasReading dt.localNanos := by
  rw [hasReading_iff_day, localNanos_ediv]
  exact dt.date.dayNumber_mem

/-- A date-time shows every reading that the calendar has, at whatever offset. -/
theorem exists_localNanos_eq_iff {nanos : Int} {offset : Option Offset} :
    (∃ dt : DateTime, dt.localNanos = nanos ∧ dt.offset = offset) ↔ HasReading nanos := by
  constructor
  · rintro ⟨dt, rfl, -⟩
    exact dt.hasReading_localNanos
  · intro h
    obtain ⟨date, hdate⟩ := Date.exists_dayNumber_eq_iff.mpr (hasReading_iff_day.mp h)
    refine ⟨⟨date, .wrap nanos, offset⟩, ?_, rfl⟩
    rw [localNanos, hdate, Clock.wrap_nanos, Int.mul_comm, Int.mul_ediv_add_emod]

/-! ## Other offsets -/

/-- The local reading at an offset of the instant that a date-time stands for. -/
def readingAt (dt : DateTime) (target : Offset) : Int :=
  dt.universalNanos + Offset.distance (some target)

variable {a b dt moved : DateTime} {own target : Offset}

theorem localNanos_add_shift (h : dt.offset = some own) :
    dt.localNanos + Offset.shift dt.offset (some target) = dt.readingAt target := by
  rw [readingAt, universalNanos, h,
    Offset.shift_of_isSome_eq (show (some own).isSome = (some target).isSome from rfl)]
  omega

/-- A date-time at another offset shows the reading of its instant there. -/
theorem atOffset?_eq_some_iff_readingAt (h : dt.offset = some own) :
    dt.atOffset? (some target) = some moved ↔
      moved.localNanos = dt.readingAt target ∧ moved.offset = some target := by
  rw [atOffset?_eq_some_iff, localNanos_add_shift h, h]
  rfl

theorem atOffset?_eq_none_iff (h : dt.offset = some own) :
    dt.atOffset? (some target) = none ↔ ¬ HasReading (dt.readingAt target) := by
  rw [Option.eq_none_iff_forall_ne_some,
    ← @exists_localNanos_eq_iff _ (some target), not_exists]
  exact forall_congr' fun moved => not_congr (atOffset?_eq_some_iff_readingAt h)

theorem universalNanos_of_atOffset? (h : dt.offset = some own)
    (hmoved : dt.atOffset? (some target) = some moved) :
    moved.universalNanos = dt.universalNanos := by
  obtain ⟨hnanos, hoffset⟩ := (atOffset?_eq_some_iff_readingAt h).mp hmoved
  rw [universalNanos, hnanos, hoffset, readingAt]
  omega

/-- What was brought to another offset can be brought back, and is then what it was. -/
theorem atOffset?_back (h : dt.offset = some own)
    (hmoved : dt.atOffset? (some target) = some moved) : moved.atOffset? dt.offset = some dt := by
  obtain ⟨-, hoffset⟩ := (atOffset?_eq_some_iff_readingAt h).mp hmoved
  rw [h, atOffset?_eq_some_iff_readingAt hoffset, readingAt, universalNanos_of_atOffset? h hmoved,
    universalNanos, h]
  exact ⟨by omega, rfl⟩

/-! ## Instants in order -/

/-- Two date-times that a comparison succeeds for are ordered as their instants. -/
theorem order?_eq_some_iff_instants {o : Ordering} (ha : a.offset = some own)
    (hb : b.offset = some target) :
    a.order? b = some o ↔ HasReading (b.readingAt own) ∧
      o = compare a.universalNanos b.universalNanos := by
  have hlocal : a.localNanos = Offset.distance (some own) + a.universalNanos := by
    rw [universalNanos, ha]
    omega
  have hshifted : b.localNanos + Offset.shift b.offset (some own) =
      Offset.distance (some own) + b.universalNanos := by
    rw [localNanos_add_shift hb, readingAt, Int.add_comm]
  have hpinned : compare a.offset.isSome b.offset.isSome = .eq := by
    rw [ha, hb]
    rfl
  rw [order?_eq_some_iff, hpinned, Ordering.then_eq, ha, hshifted, hlocal, compare_add_left,
    ← Option.isSome_iff_exists, Option.isSome_iff_ne_none, ne_eq, atOffset?_eq_none_iff hb, not_not]

theorem order?_eq_none_iff (ha : a.offset = some own) (hb : b.offset = some target) :
    a.order? b = none ↔ ¬ HasReading (b.readingAt own) := by
  rw [order?, Option.map_eq_none_iff, ha, atOffset?_eq_none_iff hb]

theorem orderDateTimes_eq_ok_iff {o : Ordering} :
    Value.orderDateTimes a b = .ok o ↔ a.order? b = some o := by
  unfold Value.orderDateTimes
  cases a.order? b <;> simp

theorem orderDateTimes_eq_error_iff {e : EvalError} :
    Value.orderDateTimes a b = .error e ↔ e = .overflow .offsetShift ∧ a.order? b = none := by
  unfold Value.orderDateTimes
  cases a.order? b <;> simp [eq_comm]

/-- **Date-times with offsets are ordered as their instants.** A comparison that succeeds tells the
order of the instants, and equality where they are the same. A date-time brought to another offset
stands for the instant that it stood for, and is the old one when it is brought back. Both fail for
one reason, an overflow, and exactly if the calendar does not have the reading at the other
offset. -/
theorem ordered_as_instants (a b : DateTime) (p q target : Offset) (ha : a.offset = some p)
    (hb : b.offset = some q) :
    let moves (dt : DateTime) (offset : Option Offset) : Result DateTime :=
      Overflow.unless .offsetShift (dt.atOffset? offset)
    (∀ o, Value.orderDateTimes a b = .ok o →
      o = compare a.universalNanos b.universalNanos ∧
        (o = .eq ↔ a.universalNanos = b.universalNanos)) ∧
    (∀ e, Value.orderDateTimes a b = .error e ↔
      e = .overflow .offsetShift ∧ ¬ HasReading (b.readingAt p)) ∧
    (∀ moved, moves b (some target) = .ok moved →
      moved.universalNanos = b.universalNanos ∧ moved.offset = some target ∧
        moves moved b.offset = .ok b) ∧
    (∀ e, moves b (some target) = .error e ↔
      e = .overflow .offsetShift ∧ ¬ HasReading (b.readingAt target)) := by
  intro moves
  refine ⟨fun o h => ?_, fun e => ?_, fun moved h => ?_, fun e => ?_⟩
  · obtain ⟨-, rfl⟩ := (order?_eq_some_iff_instants ha hb).mp (orderDateTimes_eq_ok_iff.mp h)
    exact ⟨rfl, Int.compare_eq_eq⟩
  · rw [orderDateTimes_eq_error_iff, order?_eq_none_iff ha hb]
  · have hmoved := Overflow.unless_eq_ok_iff.mp h
    exact ⟨universalNanos_of_atOffset? hb hmoved, ((atOffset?_eq_some_iff_readingAt hb).mp hmoved).2,
      Overflow.unless_eq_ok_iff.mpr (atOffset?_back hb hmoved)⟩
  · rw [Overflow.unless_eq_error_iff, atOffset?_eq_none_iff hb]

/-- The day after a leap day has begun to the east while the leap day goes on in universal time. To
the west a reading of the last day of the calendar has none to the east. -/
theorem leap_midnight_ordered :
    let early : DateTime := ⟨⟨2020, 2, 29, by decide⟩, .wrap (-nanosPerHour), some .utc⟩
    let late : DateTime := ⟨⟨2020, 3, 1, by decide⟩, .wrap 1, some ⟨3600, by decide⟩⟩
    let last : DateTime := ⟨⟨9999, 12, 31, by decide⟩, .wrap (-1), some ⟨-18000, by decide⟩⟩
    Value.orderDateTimes late early = .ok .gt ∧
      early.universalNanos < late.universalNanos ∧
      Value.orderDateTimes late last = .error (.overflow .offsetShift) := by
  intro early late last
  have horder : Value.orderDateTimes late early = .ok .gt := by decide +kernel
  obtain ⟨hinstants, -⟩ :=
    (ordered_as_instants late early ⟨3600, by decide⟩ .utc .utc rfl rfl).1 .gt horder
  obtain ⟨-, hfails, -⟩ :=
    ordered_as_instants late last ⟨3600, by decide⟩ ⟨-18000, by decide⟩ .utc rfl rfl
  exact ⟨horder, Int.compare_eq_gt.mp hinstants.symm, (hfails _).mpr ⟨rfl, by decide⟩⟩

end DateTime
end DecisionModel
