import DecisionModel.Library.Call
import DecisionModel.Proofs.Calendar.Text
import DecisionModel.Proofs.Decimal.Whole

/-!
# Times of day from numbers

A time of day is made of three numbers, of which the last one may have decimals. Its integer part is
the second, and its rest is cut to nanoseconds. The product that counts the nanoseconds is exact: a
rest has no more digits than decimals, so moving its point leaves a mantissa that fits.

The two parts of the seconds are looked at one after the other, and a rest below zero counts as
none. So a number between minus one and zero, whose integer part is zero, is taken for zero; every
other number below zero is refused for its integer part.
-/

namespace DecisionModel

open Calendar (nanosPerSecond)

namespace Decimal

variable {d : Decimal}

/-! ## Nanoseconds -/

/-- A number whose point can be moved to the right without losing digits. -/
theorem exists_toRat_mul_tenTo {places : Nat}
    (h : d.mantissa * tenTo (places - d.scale) ≤ maxMantissa) :
    ∃ moved : Decimal, moved.toRat = d.toRat * tenTo places := by
  refine ⟨⟨d.negative, d.mantissa * tenTo (places - d.scale), d.scale - places, h,
    (Nat.sub_le _ _).trans d.scale_le⟩, ?_⟩
  -- one of the two differences is zero
  have hplaces : (tenTo (places - d.scale) : Rat) * tenTo d.scale =
      tenTo (d.scale - places) * tenTo places := by
    have hsum : places - d.scale + d.scale = d.scale - places + places := by omega
    exact_mod_cast (tenTo_add _ _).symm.trans ((congrArg tenTo hsum).trans (tenTo_add _ _))
  rw [toRat_eq_div, toRat_eq_div, div_eq_iff (tenTo_ne_zero _), mul_assoc, mul_comm (tenTo _ : Rat),
    ← hplaces, ← mul_assoc, mul_right_comm, div_mul_cancel₀ _ (tenTo_ne_zero _)]
  cases hsign : d.negative <;> simp [signed, hsign]

/-- A rest has no more digits than decimals. -/
theorem fract_mantissa_mul_le (d : Decimal) :
    d.fract.mantissa * tenTo (9 - d.fract.scale) ≤ maxMantissa := by
  have hlt : d.fract.mantissa < tenTo d.scale := Nat.mod_lt _ (tenTo_pos _)
  show d.fract.mantissa * tenTo (9 - d.scale) ≤ maxMantissa
  rcases Nat.le_total 9 d.scale with hlong | hshort
  · rw [Nat.sub_eq_zero_of_le hlong, tenTo_zero, Nat.mul_one]
    exact d.fract.mantissa_le
  · calc d.fract.mantissa * tenTo (9 - d.scale)
        ≤ tenTo d.scale * tenTo (9 - d.scale) := Nat.mul_le_mul_right _ hlt.le
      _ = tenTo 9 := by rw [← tenTo_add, Nat.add_sub_cancel' hshort]
      _ ≤ maxMantissa := by decide

theorem toRat_nanosPerSecond : (ofNat nanosPerSecond).toRat = tenTo 9 := toRat_ofNat (by decide)

/-- **The nanoseconds of a rest are counted exactly.** -/
theorem exists_mul?_nanosPerSecond (d : Decimal) :
    ∃ nanos, d.fract.mul? (ofNat nanosPerSecond) = some nanos ∧
      nanos.toRat = d.fract.toRat * tenTo 9 := by
  obtain ⟨moved, hmoved⟩ := exists_toRat_mul_tenTo d.fract_mantissa_mul_le
  have hproduct : d.fract.toRat * (ofNat nanosPerSecond).toRat = moved.toRat := by
    rw [toRat_nanosPerSecond, hmoved]
  obtain ⟨nanos, hnanos, hnearest⟩ := exists_isNearest (map_toRat_mul? d.fract (ofNat nanosPerSecond))
    (hproduct ▸ abs_toRat_le_maxMantissa moved)
  exact ⟨nanos, hnanos, (hnearest.toRat_eq hproduct).trans hmoved⟩

end Decimal

namespace Library

variable {s : Decimal}

theorem nanosecondsOf_eq (s : Decimal) :
    nanosecondsOf s = ⌊s.fract.toRat * tenTo 9⌋.toNat := by
  obtain ⟨nanos, hnanos, hvalue⟩ := s.exists_mul?_nanosPerSecond
  unfold nanosecondsOf
  rw [hnanos, ← hvalue]
  dsimp only
  rcases le_total 0 nanos.toRat with hpos | hneg
  · rw [Decimal.toInt_eq_floor hpos]
  · have hceil : ⌈nanos.toRat⌉ ≤ 0 := Int.ceil_le.mpr (by exact_mod_cast hneg)
    have hfloor : ⌊nanos.toRat⌋ ≤ 0 := (Int.floor_le_ceil _).trans hceil
    rw [Decimal.toInt_eq_ceil hneg]
    omega

theorem nanosecondsOf_lt (s : Decimal) : nanosecondsOf s < nanosPerSecond := by
  have hrest := (abs_lt.mp s.abs_fract_lt).2
  have hpos : (0 : Rat) < tenTo 9 := Decimal.tenTo_cast_pos 9
  have hfloor : ⌊s.fract.toRat * tenTo 9⌋ < tenTo 9 := by
    rw [Int.floor_lt]
    push_cast
    nlinarith
  rw [nanosecondsOf_eq]
  show ⌊s.fract.toRat * tenTo 9⌋.toNat < tenTo 9
  have := tenTo_pos 9
  omega

/-- Second and nanoseconds together are the number cut to nanoseconds. -/
theorem floor_nanoseconds (hs : 0 ≤ s.toRat) :
    ⌊s.toRat * tenTo 9⌋ = s.toInt * tenTo 9 + nanosecondsOf s := by
  have hsplit : s.toRat * tenTo 9 = s.fract.toRat * tenTo 9 + (s.toInt * tenTo 9 : Int) := by
    rw [Decimal.toRat_fract]
    push_cast
    ring
  have hrest : 0 ≤ ⌊s.fract.toRat * tenTo 9⌋ :=
    Int.floor_nonneg.mpr (mul_nonneg (Decimal.fract_nonneg hs) (Decimal.tenTo_cast_pos 9).le)
  rw [hsplit, Int.floor_add_intCast, nanosecondsOf_eq, Int.toNat_of_nonneg hrest, add_comm]

/-- A rest below zero counts as none. -/
theorem nanosecondsOf_of_nonpos (hs : s.fract.toRat ≤ 0) : nanosecondsOf s = 0 := by
  have hfloor : ⌊s.fract.toRat * tenTo 9⌋ ≤ 0 := by
    have hle := mul_nonpos_of_nonpos_of_nonneg hs (Decimal.tenTo_cast_pos 9).le
    exact (Int.floor_le_floor hle).trans_eq Int.floor_zero
  rw [nanosecondsOf_eq]
  omega

end Library

/-! ## Clock readings -/

namespace Clock

variable {c : Clock} {hour minute second nanosecond : Nat}

/-- Components make the reading that has them, and no other components are accepted. -/
theorem ofComponents_eq_ok_iff : ofComponents hour minute second nanosecond = .ok c ↔
    c.hour = hour ∧ c.minute = minute ∧ c.second = second ∧ c.nanosecond = nanosecond := by
  constructor
  · intro h
    unfold ofComponents at h
    split at h
    · cases h
    split at h
    · cases h
    split at h
    · cases h
    split at h
    · cases h
    next hhour hminute hsecond hnanosecond =>
    have hnanos := wrap_nanos
      (((hour * 60 + minute) * 60 + second) * nanosPerSecond + nanosecond : Nat)
    rw [Except.ok.inj h] at hnanos
    unfold Clock.hour Clock.minute Clock.second Clock.nanosecond
    simp only [Calendar.nanosPerDay, Calendar.nanosPerHour, Calendar.nanosPerMinute,
      Calendar.nanosPerSecond] at *
    omega
  · rintro ⟨rfl, rfl, rfl, rfl⟩
    exact c.ofComponents_self

/-- The reading of a clock that three numbers describe, the last of which is cut to nanoseconds. -/
structure Reads (c : Clock) (hour minute second : Rat) : Prop where
  hour : hour = c.hour
  minute : minute = c.minute
  second_nonneg : 0 ≤ second
  second_lt : second < 60
  second_cut : c.second + c.nanosecond / 1000000000 = (⌊second * 1000000000⌋ / 1000000000 : Rat)

end Clock

namespace Library

variable {function : String} {name : Calendar.Component} {low high k : Int} {h m n s : Decimal}
  {c : Clock}

theorem component_eq_ok_iff {number : Int} :
    component function name low high number = .ok k ↔ number = k ∧ low ≤ k ∧ k ≤ high := by
  unfold component
  split
  · next hrange => exact ⟨fun h => Except.ok.inj h ▸ ⟨rfl, hrange⟩, fun h => congrArg _ h.1⟩
  · next hrange => exact iff_of_false nofun fun ⟨hk, hlow, hhigh⟩ => hrange (hk ▸ ⟨hlow, hhigh⟩)

/-- A component is a whole number in its range. -/
theorem wholeComponent_eq_ok_iff (hlow : InInt64 low) (hhigh : InInt64 high) :
    wholeComponent function name low high (.number n) = .ok k ↔
      n.toRat = k ∧ low ≤ k ∧ k ≤ high := by
  show (Number.toWhole function n >>= fun w => component function name low high w.toInt) = _ ↔ _
  rw [bind_eq_ok_iff]
  constructor
  · rintro ⟨w, hw, hcomponent⟩
    obtain ⟨rfl, hrange⟩ := component_eq_ok_iff.mp hcomponent
    exact ⟨Number.toWhole_eq_ok_iff.mp hw, hrange⟩
  · rintro ⟨hn, hrange⟩
    have hword : InInt64 k := by
      unfold InInt64 at *
      omega
    refine ⟨.ofInt k, ?_, ?_⟩
    · rw [Number.toWhole_eq_ok_iff, hword.toInt_ofInt, hn]
    · rw [component_eq_ok_iff, hword.toInt_ofInt]
      exact ⟨rfl, hrange⟩

theorem checked_eq_ok_iff {α : Type} {r : Except Calendar.Fault α} {a : α} :
    checked function r = .ok a ↔ r = .ok a := by
  cases r <;> simp [checked]

/-- The integer part of the seconds as it is looked at. -/
def wholeSecond (s : Decimal) : Int :=
  match s.toInt64? with
  | some n => n.toInt
  | none => -1

/-- A number that no word holds is refused as minus one is. -/
theorem component_wholeSecond_eq_ok_iff :
    component "time" .second 0 255 (wholeSecond s) = .ok k ↔ s.toInt = k ∧ 0 ≤ k ∧ k ≤ 255 := by
  rw [component_eq_ok_iff, wholeSecond]
  cases hword : s.toInt64? with
  | some w =>
    dsimp only
    rw [Decimal.toInt64?_eq_some_iff.mp hword]
  | none =>
    dsimp only
    rw [Decimal.toInt64?_eq_none_iff] at hword
    unfold InInt64 maxInt64 at hword
    omega

/-- Three numbers have a reading if the first two are its hour and minute and the parts of the third
are its second and nanoseconds. -/
theorem clockOf_eq_ok_iff : clockOf (.number h) (.number m) (.number s) = .ok c ↔
    h.toRat = c.hour ∧ m.toRat = c.minute ∧ s.toInt = c.second ∧
      nanosecondsOf s = c.nanosecond := by
  constructor
  · intro hclock
    obtain ⟨hour, hhour, hclock⟩ := bind_eq_ok_iff.mp hclock
    obtain ⟨minute, hminute, hclock⟩ := bind_eq_ok_iff.mp hclock
    obtain ⟨_, hs, hclock⟩ := bind_eq_ok_iff.mp hclock
    cases hs
    obtain ⟨second, hsecond, hclock⟩ := bind_eq_ok_iff.mp hclock
    obtain ⟨hh, hhour0, -⟩ := (wholeComponent_eq_ok_iff (by decide) (by decide)).mp hhour
    obtain ⟨hm, hminute0, -⟩ := (wholeComponent_eq_ok_iff (by decide) (by decide)).mp hminute
    obtain ⟨hs, hsecond0, -⟩ := component_wholeSecond_eq_ok_iff.mp hsecond
    obtain ⟨hchour, hcminute, hcsecond, hcnanos⟩ :=
      Clock.ofComponents_eq_ok_iff.mp (checked_eq_ok_iff.mp hclock)
    refine ⟨?_, ?_, ?_, hcnanos.symm⟩
    · rw [hh, hchour, ← Int.cast_natCast, Int.toNat_of_nonneg hhour0]
    · rw [hm, hcminute, ← Int.cast_natCast, Int.toNat_of_nonneg hminute0]
    · rw [hs, hcsecond, Int.toNat_of_nonneg hsecond0]
  · rintro ⟨hh, hm, hs, hnanos⟩
    have hhour := c.hour_le
    have hminute := c.minute_le
    have hsecond := c.second_le
    refine bind_eq_ok_iff.mpr ⟨(c.hour : Int), ?_, bind_eq_ok_iff.mpr ⟨(c.minute : Int), ?_,
      bind_eq_ok_iff.mpr ⟨s, rfl, bind_eq_ok_iff.mpr ⟨(c.second : Int), ?_, ?_⟩⟩⟩⟩
    · rw [wholeComponent_eq_ok_iff (by decide) (by decide), hh, Int.cast_natCast]
      exact ⟨rfl, by omega, by omega⟩
    · rw [wholeComponent_eq_ok_iff (by decide) (by decide), hm, Int.cast_natCast]
      exact ⟨rfl, by omega, by omega⟩
    · exact component_wholeSecond_eq_ok_iff.mpr ⟨hs, by omega, by omega⟩
    · rw [checked_eq_ok_iff, Clock.ofComponents_eq_ok_iff, hnanos]
      exact ⟨rfl, rfl, rfl, rfl⟩

theorem time_numbers (h m s : Decimal) :
    Builtin.time.call [.number h, .number m, .number s] =
      (do return .time ⟨← clockOf (.number h) (.number m) (.number s), none⟩) := rfl

theorem time_eq_ok_iff {v : Value} :
    Builtin.time.call [.number h, .number m, .number s] = .ok v ↔
      ∃ c, v = .time ⟨c, none⟩ ∧ clockOf (.number h) (.number m) (.number s) = .ok c := by
  rw [time_numbers, bind_eq_ok_iff]
  refine exists_congr fun c => ?_
  rw [pure_eq_ok, Except.ok.injEq, and_comm, eq_comm]

/-- A number that is not negative has the seconds of a reading for its parts exactly if they make
up what is left of it after the ninth decimal is cut off. -/
theorem second_parts_iff (hs : 0 ≤ s.toRat) :
    s.toInt = c.second ∧ nanosecondsOf s = c.nanosecond ↔
      s.toRat < 60 ∧
        c.second + c.nanosecond / 1000000000 = (⌊s.toRat * 1000000000⌋ / 1000000000 : Rat) := by
  have hfloor := floor_nanoseconds hs
  rw [show tenTo 9 = 1000000000 from rfl] at hfloor
  have hcut : c.second + c.nanosecond / 1000000000 = (⌊s.toRat * 1000000000⌋ / 1000000000 : Rat) ↔
      (c.second : Int) * 1000000000 + c.nanosecond = s.toInt * 1000000000 + nanosecondsOf s := by
    rw [eq_div_iff (by norm_num), add_mul, div_mul_cancel₀ _ (by norm_num)]
    push_cast at hfloor
    rw [hfloor]
    exact_mod_cast Iff.rfl
  rw [hcut]
  have hlt := nanosecondsOf_lt s
  have hclt := c.nanosecond_lt
  have hsecond := c.second_le
  rw [show nanosPerSecond = 1000000000 from rfl] at hlt hclt
  constructor
  · rintro ⟨hwhole, hnanos⟩
    have hupper := Int.lt_floor_add_one s.toRat
    rw [← Decimal.toInt_eq_floor hs, hwhole] at hupper
    have hlast : ((c.second : Int) : Rat) ≤ 59 := by exact_mod_cast hsecond
    exact ⟨by linarith, by omega⟩
  · rintro ⟨-, hsum⟩
    omega

/-- Nothing but the parts of the seconds is looked at. -/
theorem clockOf_congr {s' : Decimal} (hwhole : s.toInt64? = s'.toInt64?)
    (hnanos : nanosecondsOf s = nanosecondsOf s') :
    clockOf (.number h) (.number m) (.number s) = clockOf (.number h) (.number m) (.number s') := by
  simp only [clockOf, expectNumber, ok_bind, hwhole, hnanos]

/-- **A time of day is what its numbers say, or an error, but for seconds between minus one and
zero.** Hour and minute are the first two numbers, and second and nanoseconds together the third one
cut to nanoseconds; numbers that no reading has are refused. Seconds above minus one that are
negative are taken for zero. -/
theorem time_of_numbers (h m s : Decimal) :
    ((0 ≤ s.toRat ∨ s.toRat ≤ -1) → ∀ v,
      Builtin.time.call [.number h, .number m, .number s] = .ok v ↔
        ∃ c : Clock, v = .time ⟨c, none⟩ ∧ c.Reads h.toRat m.toRat s.toRat) ∧
    (-1 < s.toRat → s.toRat < 0 →
      Builtin.time.call [.number h, .number m, .number s] =
        Builtin.time.call [.number h, .number m, .number .zero]) := by
  constructor
  · intro hs v
    rw [time_eq_ok_iff]
    refine exists_congr fun c => and_congr_right fun _ => ?_
    rw [clockOf_eq_ok_iff]
    rcases hs with hpos | hneg
    · rw [second_parts_iff hpos]
      exact ⟨fun ⟨hh, hm, hlt, hcut⟩ => ⟨hh, hm, hpos, hlt, hcut⟩,
        fun hreads => ⟨hreads.hour, hreads.minute, hreads.second_lt, hreads.second_cut⟩⟩
    · refine iff_of_false (fun ⟨_, _, hwhole, _⟩ => ?_) fun hreads => ?_
      · have hceil : ⌈s.toRat⌉ ≤ -1 := Int.ceil_le.mpr (by exact_mod_cast hneg)
        rw [← Decimal.toInt_eq_ceil (by linarith)] at hceil
        omega
      · linarith [hreads.second_nonneg]
  · intro hlow hneg
    have hwhole : s.toInt = 0 := by
      rw [Decimal.toInt_eq_ceil hneg.le, Int.ceil_eq_iff]
      exact ⟨by push_cast; linarith, by exact_mod_cast hneg.le⟩
    have hrest : s.fract.toRat ≤ 0 := by
      rw [Decimal.toRat_fract, hwhole, Int.cast_zero, sub_zero]
      exact hneg.le
    have hword : s.toInt64? = Decimal.toInt64? .zero := by
      simp only [Decimal.toInt64?, hwhole]
      rfl
    have hnanos : nanosecondsOf s = nanosecondsOf .zero := by
      rw [nanosecondsOf_of_nonpos hrest]
      rfl
    rw [time_numbers, time_numbers, clockOf_congr hword hnanos]

/-- Half a second after zero and half a second before it. -/
def halfAfter : Decimal := ⟨false, 5000, 4, by decide, by decide⟩

def halfBefore : Decimal := halfAfter.neg

theorem toRat_halfAfter : halfAfter.toRat = 1 / 2 := by
  rw [halfAfter, Decimal.toRat_mk]
  norm_num [tenTo]

theorem toRat_halfBefore : halfBefore.toRat = -(1 / 2) := by
  rw [halfBefore, Decimal.toRat_neg, toRat_halfAfter]

/-- A quarter past ten, and so many nanoseconds. -/
def quarterPastTen (nanos : Nat) : Clock :=
  .wrap ((10 * 60 + 15) * 60 * nanosPerSecond + nanos)

theorem half_second_read :
    (0 ≤ halfAfter.toRat ∧
      Builtin.time.call [.ofNat 10, .ofNat 15, .number halfAfter] =
        .ok (.time ⟨quarterPastTen 500000000, none⟩) ∧
      (quarterPastTen 500000000).Reads (Decimal.ofNat 10).toRat (Decimal.ofNat 15).toRat (1 / 2)) ∧
    -1 < halfBefore.toRat ∧ halfBefore.toRat < 0 ∧
      Builtin.time.call [.ofNat 10, .ofNat 15, .number halfBefore] =
        Builtin.time.call [.ofNat 10, .ofNat 15, .number .zero] := by
  have hpos : 0 ≤ halfAfter.toRat := by rw [toRat_halfAfter]; norm_num
  have hlow : -1 < halfBefore.toRat := by rw [toRat_halfBefore]; norm_num
  have hneg : halfBefore.toRat < 0 := by rw [toRat_halfBefore]; norm_num
  have hcall : Builtin.time.call [.ofNat 10, .ofNat 15, .number halfAfter] =
      .ok (.time ⟨quarterPastTen 500000000, none⟩) := rfl
  obtain ⟨hread, -⟩ := time_of_numbers (.ofNat 10) (.ofNat 15) halfAfter
  obtain ⟨-, hdropped⟩ := time_of_numbers (.ofNat 10) (.ofNat 15) halfBefore
  obtain ⟨c, hc, hreads⟩ := (hread (.inl hpos) _).mp hcall
  cases hc
  exact ⟨⟨hpos, hcall, toRat_halfAfter ▸ hreads⟩, hlow, hneg, hdropped hlow hneg⟩

/-- Half a second before zero is read as zero, though no reading has it. -/
theorem half_second_dropped :
    Builtin.time.call [.ofNat 10, .ofNat 15, .number halfBefore] =
        .ok (.time ⟨quarterPastTen 0, none⟩) ∧
      ∀ c : Clock, ¬c.Reads (Decimal.ofNat 10).toRat (Decimal.ofNat 15).toRat halfBefore.toRat := by
  refine ⟨rfl, fun c hreads => ?_⟩
  have hpos := hreads.second_nonneg
  rw [toRat_halfBefore] at hpos
  norm_num at hpos

end Library
end DecisionModel
