import DecisionModel.Calendar.Time
import DecisionModel.Proofs.Calendar.DayNumber

/-!
# Readings at other offsets

Times and date-times are compared after the right one is brought to the offset of the left one. Here
both orders are put as comparisons of numbers of nanoseconds. For a date-time the shifted reading is
a point on the line of local readings, so that the comparison is one of instants as long as the
shift stays in the calendar. A time has no day to carry over to: its shifted reading is taken modulo
a day, and that is where the two orders part.
-/

namespace DecisionModel

open Calendar

theorem compare_natCast (m n : Nat) : compare (m : Int) n = compare m n := by
  simp only [compare, compareOfLessAndEq, Int.ofNat_lt, Int.ofNat_inj]

theorem compare_add_left (d m n : Int) : compare (d + m) (d + n) = compare m n := by
  simp only [compare, compareOfLessAndEq, Int.add_lt_add_iff_left, Int.add_right_inj]

/-! ## Clock readings -/

namespace Clock

theorem nanos_injective {c c' : Clock} (h : c.nanos = c'.nanos) : c = c' := by
  cases c
  cases c'
  cases h
  rfl

theorem wrap_nanos (nanos : Int) : ((wrap nanos).nanos : Int) = nanos % nanosPerDay :=
  Int.toNat_of_nonneg (Int.emod_nonneg nanos (by decide))

theorem nanos_emod (c : Clock) : (c.nanos : Int) % nanosPerDay = c.nanos :=
  Int.emod_eq_of_lt (Int.natCast_nonneg _) (Int.ofNat_lt.mpr c.nanos_lt)

end Clock

/-! ## Offsets -/

namespace Offset

/-- The nanoseconds by which a reading moves from one offset to another; it stays where one of them
is missing. -/
def shift : (own target : Option Offset) → Int
  | some own, some target => (target.seconds - own.seconds) * nanosPerSecond
  | _, _ => 0

/-- The offset that a reading has after it was brought to another one. -/
def reached : (own target : Option Offset) → Option Offset
  | some _, some target => some target
  | own, _ => own

/-- The distance of a reading from universal time. -/
def distance : Option Offset → Int
  | some o => o.seconds * nanosPerSecond
  | none => 0

variable {own target : Option Offset}

@[simp] theorem shift_none_left (target : Option Offset) : shift none target = 0 := rfl

@[simp] theorem shift_none_right (own : Option Offset) : shift own none = 0 := by
  cases own <;> rfl

@[simp] theorem reached_none_left (target : Option Offset) : reached none target = none := rfl

@[simp] theorem reached_none_right (own : Option Offset) : reached own none = own := by
  cases own <;> rfl

theorem shift_self (own : Option Offset) : shift own own = 0 := by
  cases own <;> simp [shift]

theorem shift_swap (own target : Option Offset) : shift target own = -shift own target := by
  cases own <;> cases target <;> simp only [shift, Int.neg_zero]
  rw [← Int.neg_mul, Int.neg_sub]

theorem shift_of_isSome_eq (h : own.isSome = target.isSome) :
    shift own target = distance target - distance own := by
  cases own <;> cases target <;> simp_all [shift, distance, Int.sub_mul]

theorem reached_of_isSome_eq (h : own.isSome = target.isSome) : reached own target = target := by
  cases own <;> cases target <;> simp_all [reached]

theorem optionOrder_reached (own target : Option Offset) :
    optionOrder target (reached own target) = compare target.isSome own.isSome := by
  cases own <;> cases target <;> simp [optionOrder, reached] <;> rfl

end Offset

/-! ## Times -/

namespace Time

theorem atOffset_eq (t : Time) (target : Option Offset) :
    t.atOffset target =
      ⟨.wrap (t.clock.nanos + Offset.shift t.offset target), Offset.reached t.offset target⟩ := by
  have hstay : Clock.wrap (t.clock.nanos + 0) = t.clock := Clock.nanos_injective <| by
    rw [Int.add_zero, ← Int.ofNat_inj, Clock.wrap_nanos, Clock.nanos_emod]
  obtain ⟨clock, own⟩ := t
  cases own with
  | none => exact congrArg (Time.mk · none) hstay.symm
  | some own =>
    cases target with
    | none => exact congrArg (Time.mk · (some own)) hstay.symm
    | some target =>
      simp only [atOffset]
      split
      · next h => rw [h, Offset.shift_self, hstay]; rfl
      · rfl

/-- The order of two times, as a comparison of the left reading with the right one shifted and taken
modulo a day. A time without an offset comes before one with an offset, if they read the same. -/
theorem order_eq (a b : Time) :
    a.order b =
      (compare (a.clock.nanos : Int)
        ((b.clock.nanos + Offset.shift b.offset a.offset) % nanosPerDay)).then
        (compare a.offset.isSome b.offset.isSome) := by
  simp only [order, atOffset_eq, Offset.optionOrder_reached, ← Clock.wrap_nanos,
    compare_natCast]

end Time

/-! ## Date-times -/

namespace DateTime

theorem localNanos_ediv (dt : DateTime) : dt.localNanos / nanosPerDay = dt.date.dayNumber := by
  have hclock : (dt.clock.nanos : Int) / nanosPerDay = 0 :=
    Int.ediv_eq_zero_of_lt (Int.natCast_nonneg _) (Int.ofNat_lt.mpr dt.clock.nanos_lt)
  rw [localNanos, Int.add_comm, Int.add_mul_ediv_right _ _ (by decide), hclock, Int.zero_add]

theorem localNanos_emod (dt : DateTime) : dt.localNanos % nanosPerDay = dt.clock.nanos := by
  rw [localNanos, Int.add_comm, Int.add_mul_emod_self_right, Clock.nanos_emod]

theorem localNanos_injective {a b : DateTime} (hnanos : a.localNanos = b.localNanos)
    (hoffset : a.offset = b.offset) : a = b := by
  have hdate : a.date = b.date := Date.dayNumber_injective <| by
    rw [← localNanos_ediv, hnanos, localNanos_ediv]
  have hclock : a.clock = b.clock := Clock.nanos_injective <| by
    rw [← Int.ofNat_inj, ← localNanos_emod, hnanos, localNanos_emod]
  cases a
  cases b
  cases hdate
  cases hclock
  cases hoffset
  rfl

/-- The order of local readings is that of the days and then that of the clocks. -/
theorem compare_localNanos (a b : DateTime) :
    compare a.localNanos b.localNanos =
      (a.date.order b.date).then (compare a.clock.nanos b.clock.nanos) := by
  have ha := a.clock.nanos_lt
  have hb := b.clock.nanos_lt
  simp only [nanosPerDay, nanosPerHour, nanosPerMinute, nanosPerSecond] at ha hb
  rw [Date.order_eq_compare]
  simp only [localNanos, nanosPerDay, nanosPerHour, nanosPerMinute, nanosPerSecond]
  cases h : compare a.date.dayNumber b.date.dayNumber with
  | lt =>
    rw [Int.compare_eq_lt] at h
    exact Int.compare_eq_lt.mpr (by omega)
  | gt =>
    rw [Int.compare_eq_gt] at h
    exact Int.compare_eq_gt.mpr (by omega)
  | eq =>
    rw [Int.compare_eq_eq] at h
    rw [h, Ordering.then, ← compare_natCast]
    exact compare_add_left _ _ _

/-- The calendar has a reading exactly if some date-time shows it. -/
theorem ofLocalNanos?_eq_some_iff {nanos : Int} {offset : Option Offset} {dt : DateTime} :
    ofLocalNanos? nanos offset = some dt ↔ dt.localNanos = nanos ∧ dt.offset = offset := by
  simp only [ofLocalNanos?, Option.map_eq_some_iff, Date.ofDayNumber?_eq_some_iff]
  constructor
  · rintro ⟨date, hdate, rfl⟩
    refine ⟨?_, rfl⟩
    rw [localNanos, hdate, Clock.wrap_nanos, Int.mul_comm, Int.mul_ediv_add_emod]
  · rintro ⟨rfl, rfl⟩
    refine ⟨dt.date, (localNanos_ediv dt).symm, localNanos_injective ?_ rfl⟩
    rw [localNanos, Clock.wrap_nanos, localNanos_emod, localNanos]

/-- A date-time at another offset is the one whose reading is shifted. -/
theorem atOffset?_eq_some_iff {dt other : DateTime} {target : Option Offset} :
    dt.atOffset? target = some other ↔
      other.localNanos = dt.localNanos + Offset.shift dt.offset target ∧
        other.offset = Offset.reached dt.offset target := by
  have hstay : some dt = some other ↔
      other.localNanos = dt.localNanos + 0 ∧ other.offset = dt.offset := by
    rw [Option.some_inj, Int.add_zero]
    exact ⟨by rintro rfl; exact ⟨rfl, rfl⟩, fun h => (localNanos_injective h.1 h.2).symm⟩
  cases hown : dt.offset with
  | none =>
    rw [hown] at hstay
    simpa only [atOffset?, hown, Offset.shift_none_left, Offset.reached_none_left] using hstay
  | some own =>
    cases target with
    | none =>
      rw [hown] at hstay
      simpa only [atOffset?, hown, Offset.shift_none_right, Offset.reached_none_right] using hstay
    | some target =>
      simp only [atOffset?, hown]
      split
      · next h =>
        rw [hown] at hstay
        rw [← h, Offset.shift_self]
        exact hstay
      · exact ofLocalNanos?_eq_some_iff

/-- The order of two date-times, as a comparison of the left reading with the right one shifted. It
is there exactly if the calendar has the shifted reading. -/
theorem order?_eq_some_iff {a b : DateTime} {o : Ordering} :
    a.order? b = some o ↔
      (∃ shifted, b.atOffset? a.offset = some shifted) ∧
        o = (compare a.localNanos (b.localNanos + Offset.shift b.offset a.offset)).then
          (compare a.offset.isSome b.offset.isSome) := by
  rw [order?, Option.map_eq_some_iff]
  have horder {shifted : DateTime} (h : b.atOffset? a.offset = some shifted) :
      (a.date.order shifted.date).then ((compare a.clock.nanos shifted.clock.nanos).then
        (Offset.optionOrder a.offset shifted.offset)) =
      (compare a.localNanos (b.localNanos + Offset.shift b.offset a.offset)).then
        (compare a.offset.isSome b.offset.isSome) := by
    obtain ⟨hnanos, hoffset⟩ := atOffset?_eq_some_iff.mp h
    rw [← hnanos, compare_localNanos, hoffset, Offset.optionOrder_reached, Ordering.then_assoc]
  constructor
  · rintro ⟨shifted, h, rfl⟩
    exact ⟨⟨shifted, h⟩, horder h⟩
  · rintro ⟨⟨shifted, h⟩, rfl⟩
    exact ⟨shifted, h, horder h⟩

end DateTime

end DecisionModel
