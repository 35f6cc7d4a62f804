import DecisionModel.Operator.Arithmetic
import DecisionModel.Proofs.Bind
import DecisionModel.Proofs.Value.Equality

/-!
# Differences and shifts

A difference is taken in universal time, a shift is made on the local reading. All the same the
difference of two moments shifts the second one to the first one, whatever offsets they are at: a
shift moves the reading in universal time by just as much as the local one, because the offset stays
what it was. So everything here is said of readings in universal time. A date-time has one of them
and the difference of two is exact; a time has one modulo a day, which is where the midnights go that
a shift passes.

What comes out is at the offset of the moment that was shifted. It is equal to the other moment, but
the same only where there are no offsets, as with dates.
-/

namespace DecisionModel

open Calendar

/-! ## Times -/

theorem Offset.shift_utc (own : Option Offset) : shift own (some .utc) = -distance own := by
  cases own with
  | none => rfl
  | some own =>
    show (0 - own.seconds) * (nanosPerSecond : Int) = -(own.seconds * nanosPerSecond)
    rw [Int.zero_sub, Int.neg_mul]

namespace Time

theorem toUtcClock_nanos (t : Time) : (t.toUtcClock.nanos : Int) = t.universalNanos := by
  rw [toUtcClock, atOffset_eq, Clock.wrap_nanos, Offset.shift_utc, universalNanos, Int.sub_eq_add_neg]

theorem minus_nanos (a b : Time) : (a.minus b).nanos = a.universalNanos - b.universalNanos := by
  rw [minus, toUtcClock_nanos, toUtcClock_nanos]

/-- A reading in universal time moves as the clock does, around midnight if need be. -/
theorem universalNanos_shift (t : Time) (nanos : Int) :
    (t.shift nanos).universalNanos = (t.universalNanos + nanos) % nanosPerDay := by
  simp only [universalNanos, shift, Clock.shift, Clock.wrap_nanos, Int.emod_sub_emod,
    Int.emod_add_emod]
  congr 1
  omega

/-- The difference of two times leads from the second one to the first one. -/
theorem universalNanos_shift_minus (a b : Time) :
    (b.shift (a.minus b).nanos).universalNanos = a.universalNanos := by
  rw [universalNanos_shift, minus_nanos, Int.add_comm, Int.sub_add_cancel, universalNanos,
    Int.emod_emod]

end Time

/-! ## Date-times -/

namespace DateTime

variable {a b dt moved : DateTime} {d e : Elapsed} {nanos : Int}

theorem shift?_eq_some_iff : dt.shift? nanos = some moved ↔
    moved.localNanos = dt.localNanos + nanos ∧ moved.offset = dt.offset :=
  ofLocalNanos?_eq_some_iff

theorem plusElapsed_eq_ok_iff : dt.plusElapsed e = .ok moved ↔
    moved.localNanos = dt.localNanos + e.nanos ∧ moved.offset = dt.offset := by
  rw [plusElapsed, Overflow.unless_eq_ok_iff, shift?_eq_some_iff]

theorem universalNanos_plusElapsed (h : dt.plusElapsed e = .ok moved) :
    moved.universalNanos = dt.universalNanos + e.nanos := by
  obtain ⟨hnanos, hoffset⟩ := plusElapsed_eq_ok_iff.mp h
  rw [universalNanos, universalNanos, hnanos, hoffset]
  omega

theorem localNanos_of_toUtc? (h : dt.toUtc? = some moved) :
    moved.localNanos = dt.universalNanos := by
  obtain ⟨hnanos, -⟩ := atOffset?_eq_some_iff.mp h
  rw [hnanos, Offset.shift_utc, universalNanos, Int.sub_eq_add_neg]

theorem nanos_of_minus (h : a.minus b = .ok d) :
    d.nanos = a.universalNanos - b.universalNanos := by
  obtain ⟨a', ha, h⟩ := bind_eq_ok_iff.mp h
  obtain ⟨b', hb, h⟩ := bind_eq_ok_iff.mp h
  rw [Overflow.unless_eq_ok_iff] at ha hb
  obtain rfl := Except.ok.inj h
  rw [localNanos_of_toUtc? ha, localNanos_of_toUtc? hb]

/-- The difference of two date-times leads from the second one to the first one. -/
theorem universalNanos_plusElapsed_minus (hminus : a.minus b = .ok d)
    (hplus : b.plusElapsed d = .ok moved) : moved.universalNanos = a.universalNanos := by
  rw [universalNanos_plusElapsed hplus, nanos_of_minus hminus, Int.add_comm, Int.sub_add_cancel]

/-- What a date-time was shifted by is its difference from where it was. -/
theorem minus_of_plusElapsed (hplus : dt.plusElapsed d = .ok moved)
    (hminus : moved.minus dt = .ok e) : e = d := by
  have hnanos : e.nanos = d.nanos := by
    rw [nanos_of_minus hminus, universalNanos_plusElapsed hplus]
    omega
  cases e
  cases d
  exact congrArg Elapsed.mk hnanos

end DateTime

/-! ## Dates -/

namespace Date

theorem atMidnight_localNanos (d : Date) :
    (DateTime.atMidnight d).localNanos = d.dayNumber * nanosPerDay := Int.add_zero _

theorem atMidnight_minus (a b : Date) : (DateTime.atMidnight a).minus (.atMidnight b) =
    .ok ⟨a.dayNumber * nanosPerDay - b.dayNumber * nanosPerDay⟩ := by
  rw [← atMidnight_localNanos, ← atMidnight_localNanos]
  rfl

/-- The days between two dates lead from the second one to the first one. -/
theorem plusElapsed_minus (a b : Date) :
    b.plusElapsed ⟨a.dayNumber * nanosPerDay - b.dayNumber * nanosPerDay⟩ = .ok a := by
  have hshift : (DateTime.atMidnight b).shift?
      (a.dayNumber * nanosPerDay - b.dayNumber * nanosPerDay) = some (.atMidnight a) := by
    rw [DateTime.shift?_eq_some_iff, atMidnight_localNanos, atMidnight_localNanos]
    exact ⟨by omega, rfl⟩
  rw [plusElapsed, hshift]
  rfl

end Date

/-! ## Values -/

namespace Value

theorem arithmetic_sub_dateTime (a b : DateTime) :
    arithmetic .sub (.dateTime a) (.dateTime b) = (a.minus b).map .elapsed := rfl

theorem arithmetic_add_elapsed (dt : DateTime) (d : Elapsed) :
    arithmetic .add (.dateTime dt) (.elapsed d) = (dt.plusElapsed d).map .dateTime := rfl

theorem equals_of_key {a b : Value} {k : Key} (ha : a.key? = some k)
    (hb : b.key? = some k) : a.equals b = .ok true := by
  have hagrees : holds (a.equals b) = true := (agrees_iff_key a b).mpr ⟨k, ha, hb⟩
  cases h : a.equals b with
  | ok equal => exact congrArg Except.ok (by rwa [h] at hagrees)
  | error e => simp [h, holds] at hagrees

/-- Two moments of one kind are equal if they are at the same reading in universal time. -/
theorem equals_dateTime {a b : DateTime} (hpinned : a.offset.isSome = b.offset.isSome)
    (hnanos : a.universalNanos = b.universalNanos) :
    equals (.dateTime a) (.dateTime b) = .ok true := by
  refine equals_of_key (k := .dateTime b.offset.isSome b.universalNanos) ?_ rfl
  rw [key?, hpinned, hnanos]

theorem equals_time {a b : Time} (hpinned : a.offset.isSome = b.offset.isSome)
    (hnanos : a.universalNanos = b.universalNanos) : equals (.time a) (.time b) = .ok true := by
  refine equals_of_key (k := .time b.offset.isSome b.universalNanos) ?_ rfl
  rw [key?, hpinned, hnanos]

/-- **Difference and shift undo each other.** The difference of two dates leads from the second one
to the first one. So does that of two date-times, if both have an offset or neither has one, to a
date-time that is equal to the first one; and a date-time that was shifted differs from where it was
by just the shift. The difference of two times leads to one that is equal to the first one, around
midnight too. Dates and times always have a difference and a shift by it, and of date-times all this
is said where neither leaves the calendar. -/
theorem shift_undoes_difference :
    (∀ a b : Date, ∃ d, arithmetic .sub (.date b) (.date a) = .ok d ∧
      arithmetic .add (.date a) d = .ok (.date b)) ∧
    (∀ a b : DateTime, a.offset.isSome = b.offset.isSome →
      (∀ d moved, arithmetic .sub (.dateTime b) (.dateTime a) = .ok d →
        arithmetic .add (.dateTime a) d = .ok moved → moved.equals (.dateTime b) = .ok true) ∧
      ∀ (d : Elapsed) (moved e : Value), arithmetic .add (.dateTime a) (.elapsed d) = .ok moved →
        arithmetic .sub moved (.dateTime a) = .ok e → e = .elapsed d) ∧
    ∀ a b : Time, a.offset.isSome = b.offset.isSome →
      ∃ d moved, arithmetic .sub (.time b) (.time a) = .ok d ∧
        arithmetic .add (.time a) d = .ok moved ∧ moved.equals (.time b) = .ok true := by
  refine ⟨fun a b => ?_, fun a b hpinned => ⟨?_, ?_⟩, fun a b hpinned => ?_⟩
  · refine ⟨.elapsed ⟨b.dayNumber * nanosPerDay - a.dayNumber * nanosPerDay⟩, ?_, ?_⟩
    · exact congrArg (Except.map Value.elapsed) (Date.atMidnight_minus b a)
    · exact congrArg (Except.map Value.date) (Date.plusElapsed_minus b a)
  · intro d moved hsub hadd
    rw [arithmetic_sub_dateTime] at hsub
    obtain ⟨d, hminus, rfl⟩ := map_eq_ok_iff.mp hsub
    obtain ⟨moved, hplus, rfl⟩ := map_eq_ok_iff.mp hadd
    have hoffset := (DateTime.plusElapsed_eq_ok_iff.mp hplus).2
    exact equals_dateTime (hoffset ▸ hpinned)
      (DateTime.universalNanos_plusElapsed_minus hminus hplus)
  · intro d moved e hadd hsub
    rw [arithmetic_add_elapsed] at hadd
    obtain ⟨moved, hplus, rfl⟩ := map_eq_ok_iff.mp hadd
    obtain ⟨e, hminus, rfl⟩ := map_eq_ok_iff.mp hsub
    exact congrArg Value.elapsed (DateTime.minus_of_plusElapsed hplus hminus)
  · refine ⟨.elapsed (b.minus a), .time (a.shift (b.minus a).nanos), rfl, rfl, ?_⟩
    exact equals_time hpinned (Time.universalNanos_shift_minus b a)

/-- From the evening before a leap day to the night after it, further west; and from past midnight
back to the small hours, which the clock reaches the other way round. -/
theorem leap_day_difference_undone :
    let a : DateTime :=
      ⟨⟨2020, 2, 28, by decide⟩, .wrap (1410 * nanosPerMinute), some ⟨3600, by decide⟩⟩
    let b : DateTime :=
      ⟨⟨2020, 3, 1, by decide⟩, .wrap (15 * nanosPerMinute), some ⟨-18000, by decide⟩⟩
    let moved : DateTime :=
      ⟨⟨2020, 3, 1, by decide⟩, .wrap (375 * nanosPerMinute), some ⟨3600, by decide⟩⟩
    let d : Elapsed := ⟨1845 * nanosPerMinute⟩
    let early : Time := ⟨.wrap (30 * nanosPerMinute), some ⟨3600, by decide⟩⟩
    let late : Time := ⟨.wrap (310 * nanosPerMinute), some .utc⟩
    (arithmetic .sub (.dateTime b) (.dateTime a) = .ok (.elapsed d) ∧
      arithmetic .add (.dateTime a) (.elapsed d) = .ok (.dateTime moved) ∧
      equals (.dateTime moved) (.dateTime b) = .ok true ∧
      arithmetic .sub (.dateTime moved) (.dateTime a) = .ok (.elapsed d) ∧
      ∀ e, arithmetic .sub (.dateTime moved) (.dateTime a) = .ok e → e = .elapsed d) ∧
    ∃ d moved, arithmetic .sub (.time late) (.time early) = .ok d ∧
      arithmetic .add (.time early) d = .ok moved ∧ moved.equals (.time late) = .ok true := by
  intro a b moved d early late
  obtain ⟨-, hdateTimes, htimes⟩ := shift_undoes_difference
  obtain ⟨hthere, hback⟩ := hdateTimes a b rfl
  have hminus : b.minus a = .ok d := by decide +kernel
  have hplus : a.plusElapsed d = .ok moved := by decide +kernel
  have hreturn : moved.minus a = .ok d := by decide +kernel
  have hsub : arithmetic .sub (.dateTime b) (.dateTime a) = .ok (.elapsed d) := by
    rw [arithmetic_sub_dateTime, hminus]
    rfl
  have hadd : arithmetic .add (.dateTime a) (.elapsed d) = .ok (.dateTime moved) := by
    rw [arithmetic_add_elapsed, hplus]
    rfl
  have hsub' : arithmetic .sub (.dateTime moved) (.dateTime a) = .ok (.elapsed d) := by
    rw [arithmetic_sub_dateTime, hreturn]
    rfl
  refine ⟨⟨hsub, hadd, hthere _ _ hsub hadd, hsub', fun e => ?_⟩, htimes early late rfl⟩
  exact hback d _ e hadd

end Value
end DecisionModel
