import DecisionModel.Operator.Arithmetic
import DecisionModel.Proofs.Decimal.Whole
import DecisionModel.Proofs.Duration.Months

/-!
# Durations scaled by whole numbers

A duration is scaled in decimals, rounded to whole months or nanoseconds, and then it has to be a
word. A product of whole numbers is whole, and so is a quotient that leaves nothing over, and such a
result is rounded neither to a decimal nor to a whole unit. So what comes of it is what the integers
say, and all that can go wrong is the word (`wholeWord_eq_ok_iff`). How many zeros the number is
written with plays no part.

Elapsed time need not be a word of nanoseconds itself. If it is just above the words it may still be
multiplied by minus one, but no division leads back to it.
-/

namespace DecisionModel

open Decimal (ofRat?)

variable {op : ArithmeticOp} {a b n : Decimal} {result : Option Decimal} {cause : Overflow}
  {x q z : Int} {w : Int64}

/-! ## Whole results -/

namespace Number

/-- A number rounded to a whole one, which has to be a word. -/
def wholeWord (cause : Overflow) (x : Result Decimal) : Result Int64 := do
  Overflow.unless cause ((← x).roundHalfEven 0).toInt64?

/-- **A whole result is there exactly if a word holds it**, and is not rounded. -/
theorem wholeWord_eq_ok_iff (hresult : result.map Decimal.toRat = (ofRat? q).map Decimal.toRat) :
    wholeWord cause (orOverflow op a b result) = .ok w ↔ w.toInt = q := by
  cases result with
  | none =>
    refine iff_of_false nofun fun hw => ?_
    have hfits : |(q : Rat)| ≤ Decimal.maxMantissa := by
      rw [← Decimal.natAbs_le_iff, ← hw]
      exact Decimal.natAbs_le_of_inInt64 (inInt64_toInt w)
    obtain ⟨c, hc, -⟩ := Decimal.exists_isNearest hresult hfits
    cases hc
  | some c =>
    have hvalue : c.toRat = q := (Decimal.isNearest_of_eq_some hresult rfl).toRat_eq_intCast
    have hwhole : (c.roundHalfEven 0).toInt = q :=
      Decimal.toInt_of_toRat (Decimal.toRat_round .toEven 0 hvalue)
    show Overflow.unless cause (c.roundHalfEven 0).toInt64? = .ok w ↔ _
    rw [Overflow.unless_eq_ok_iff, Decimal.toInt64?_eq_some_iff, hwhole]

theorem wholeWord_mul_eq_ok_iff (ha : a.toRat = x) (hn : n.toRat = z) :
    wholeWord cause (mul a n) = .ok w ↔ w.toInt = z * x := by
  apply wholeWord_eq_ok_iff
  rw [Decimal.map_toRat_mul?, ha, hn, ← Int.cast_mul, mul_comm]

theorem wholeWord_div_eq_ok_iff (ha : a.toRat = (z * q : Int)) (hn : n.toRat = z) (hz : z ≠ 0) :
    wholeWord cause (div a n) = .ok w ↔ w.toInt = q := by
  have hz' : (z : Rat) ≠ 0 := Int.cast_ne_zero.mpr hz
  have hzero := Decimal.isZero_eq_false hn hz
  rw [div, hzero, if_neg Bool.false_ne_true]
  apply wholeWord_eq_ok_iff
  rw [Decimal.map_toRat_div? hzero, ha, hn, Int.cast_mul, mul_div_cancel_left₀ _ hz']

end Number

open Number (wholeWord wholeWord_mul_eq_ok_iff wholeWord_div_eq_ok_iff)

/-! ## Both families -/

namespace Months

variable {combine : Decimal → Decimal → Result Decimal} {d r : Months}

theorem scale_eq (combine : Decimal → Decimal → Result Decimal) (d : Months) (n : Decimal) :
    d.scale combine n =
      (wholeWord (.monthsScaled d n) (combine (.ofInt64 d.count) n)).map (⟨·⟩) := by
  unfold scale wholeWord
  cases combine (.ofInt64 d.count) n with
  | error e => rfl
  | ok scaled =>
    simp only [ok_bind]
    cases (scaled.roundHalfEven 0).toInt64? <;> rfl

theorem scale_eq_ok_iff : d.scale combine n = .ok r ↔
    wholeWord (.monthsScaled d n) (combine (.ofInt64 d.count) n) = .ok r.count := by
  rw [scale_eq, map_eq_ok_iff]
  constructor
  · rintro ⟨w, hw, rfl⟩
    exact hw
  · intro h
    exact ⟨r.count, h, rfl⟩

theorem scale_mul_eq_ok_iff (hn : n.toRat = z) :
    d.scale Number.mul n = .ok r ↔ r.toInt = z * d.toInt := by
  rw [scale_eq_ok_iff, wholeWord_mul_eq_ok_iff (Decimal.toRat_ofInt64 d.count) hn]
  rfl

theorem scale_div_eq_ok_iff (hd : d.toInt = z * q) (hn : n.toRat = z) (hz : z ≠ 0) :
    d.scale Number.div n = .ok r ↔ r.toInt = q := by
  have hcount : (Decimal.ofInt64 d.count).toRat = (z * q : Int) := by
    rw [Decimal.toRat_ofInt64, ← hd]
    rfl
  rw [scale_eq_ok_iff, wholeWord_div_eq_ok_iff hcount hn hz]
  rfl

end Months

namespace Elapsed

variable {combine : Decimal → Decimal → Result Decimal} {d r : Elapsed} {nanos : Decimal}

theorem scale_of_ofInt? (combine : Decimal → Decimal → Result Decimal) (n : Decimal)
    (hnanos : Decimal.ofInt? d.nanos = some nanos) : d.scale combine n =
      (wholeWord (.elapsedScaled d n) (combine nanos n)).map (⟨·.toInt⟩) := by
  unfold scale wholeWord
  rw [hnanos, Overflow.unless, ok_bind]
  cases combine nanos n with
  | error e => rfl
  | ok scaled =>
    simp only [ok_bind]
    cases (scaled.roundHalfEven 0).toInt64? <;> rfl

/-- Of the results that the integers allow, those are there that a word holds. -/
theorem scale_eq_ok_iff (hnanos : Decimal.ofInt? d.nanos = some nanos)
    (hcombine : ∀ w, wholeWord (.elapsedScaled d n) (combine nanos n) = .ok w ↔ w.toInt = q) :
    d.scale combine n = .ok r ↔ r.nanos = q ∧ InInt64 q := by
  rw [scale_of_ofInt? combine n hnanos, map_eq_ok_iff]
  constructor
  · rintro ⟨w, hw, rfl⟩
    rw [hcombine] at hw
    exact ⟨hw, hw ▸ inInt64_toInt w⟩
  · rintro ⟨hr, hword⟩
    refine ⟨.ofInt q, (hcombine _).mpr hword.toInt_ofInt, ?_⟩
    cases r
    cases hr
    rw [hword.toInt_ofInt]

/-- Nanoseconds of which a word holds a multiple are a decimal, and what they come to is exact. -/
theorem scale_mul_eq_ok_iff (hn : n.toRat = z) (hz : z ≠ 0) :
    d.scale Number.mul n = .ok r ↔ r.nanos = z * d.nanos ∧ InInt64 (z * d.nanos) := by
  cases hnanos : Decimal.ofInt? d.nanos with
  | some nanos =>
    apply scale_eq_ok_iff hnanos
    intro w
    exact wholeWord_mul_eq_ok_iff (Decimal.toRat_of_ofInt? hnanos) hn
  | none =>
    have hlarge : ¬d.nanos.natAbs ≤ Decimal.maxMantissa := by
      intro hle
      obtain ⟨nanos, h⟩ := Decimal.exists_ofInt?_eq_some hle
      cases hnanos.symm.trans h
    have hoverflow : d.scale Number.mul n = .error (.overflow (.elapsedScaled d n)) := by
      rw [scale, hnanos]
      rfl
    rw [hoverflow]
    refine iff_of_false nofun fun h => hlarge ?_
    calc d.nanos.natAbs ≤ z.natAbs * d.nanos.natAbs :=
          Nat.le_mul_of_pos_left _ (Int.natAbs_pos.mpr hz)
      _ = (z * d.nanos).natAbs := (Int.natAbs_mul z d.nanos).symm
      _ ≤ Decimal.maxMantissa := Decimal.natAbs_le_of_inInt64 h.2

theorem scale_div_eq_ok_iff (hd : d.nanos = z * q) (hword : InInt64 d.nanos) (hn : n.toRat = z)
    (hz : z ≠ 0) : d.scale Number.div n = .ok r ↔ r.nanos = q ∧ InInt64 q := by
  obtain ⟨nanos, hnanos⟩ := Decimal.exists_ofInt?_eq_some (Decimal.natAbs_le_of_inInt64 hword)
  have hvalue := Decimal.toRat_of_ofInt? hnanos
  rw [hd] at hvalue
  apply scale_eq_ok_iff hnanos
  intro w
  exact wholeWord_div_eq_ok_iff hvalue hn hz

end Elapsed

/-! ## Durations -/

namespace Value

/-- The months or nanoseconds of a duration of one family. -/
def count? : Value → Option Int
  | .months d => some d.toInt
  | .elapsed d => some d.nanos
  | _ => none

theorem months_mul_eq_ok_iff {d : Months} {v : Value} (hn : n.toRat = z) :
    arithmetic .mul (.months d) (.number n) = .ok v ↔
      ∃ r : Months, r.toInt = z * d.toInt ∧ Value.months r = v := by
  show (d.scale Number.mul n).map Value.months = .ok v ↔ _
  simp only [map_eq_ok_iff, Months.scale_mul_eq_ok_iff hn]

theorem months_div_eq_ok_iff {d : Months} {v : Value} (hd : d.toInt = z * q) (hn : n.toRat = z)
    (hz : z ≠ 0) : arithmetic .div (.months d) (.number n) = .ok v ↔
      ∃ r : Months, r.toInt = q ∧ Value.months r = v := by
  show (if n.isZero then .ok .null else (d.scale Number.div n).map Value.months) = .ok v ↔ _
  rw [Decimal.isZero_eq_false hn hz, if_neg Bool.false_ne_true]
  simp only [map_eq_ok_iff, Months.scale_div_eq_ok_iff hd hn hz]

theorem elapsed_mul_eq_ok_iff {d : Elapsed} {v : Value} (hn : n.toRat = z) (hz : z ≠ 0) :
    arithmetic .mul (.elapsed d) (.number n) = .ok v ↔
      InInt64 (z * d.nanos) ∧ Value.elapsed ⟨z * d.nanos⟩ = v := by
  show (d.scale Number.mul n).map Value.elapsed = .ok v ↔ _
  simp only [map_eq_ok_iff, Elapsed.scale_mul_eq_ok_iff hn hz]
  constructor
  · rintro ⟨⟨_⟩, ⟨rfl, hword⟩, rfl⟩
    exact ⟨hword, rfl⟩
  · rintro ⟨hword, rfl⟩
    exact ⟨_, ⟨rfl, hword⟩, rfl⟩

theorem elapsed_div_eq_ok_iff {v : Value} (hword : InInt64 (z * q)) (hn : n.toRat = z)
    (hz : z ≠ 0) : arithmetic .div (.elapsed ⟨z * q⟩) (.number n) = .ok v ↔
      InInt64 q ∧ Value.elapsed ⟨q⟩ = v := by
  show (if n.isZero then .ok .null else
    ((⟨z * q⟩ : Elapsed).scale Number.div n).map Value.elapsed) = .ok v ↔ _
  rw [Decimal.isZero_eq_false hn hz, if_neg Bool.false_ne_true]
  simp only [map_eq_ok_iff, Elapsed.scale_div_eq_ok_iff rfl hword hn hz]
  constructor
  · rintro ⟨⟨_⟩, ⟨rfl, hq⟩, rfl⟩
    exact ⟨hq, rfl⟩
  · rintro ⟨hq, rfl⟩
    exact ⟨_, ⟨rfl, hq⟩, rfl⟩

/-- **Durations are multiplied by whole numbers exactly**, on either side of the number. Dividing the
product by the number leads back to the duration, provided that a word holds its months or
nanoseconds, and to nothing else. -/
theorem whole_multiples_exact (d r : Value) (n : Decimal) (count z : Int)
    (hd : d.count? = some count) (hn : n.toRat = z) (hz : z ≠ 0)
    (hr : arithmetic .mul d (.number n) = .ok r) :
    (r.kind = d.kind ∧ r.count? = some (z * count)) ∧
    arithmetic .mul (.number n) d = .ok r ∧
    ∀ q, arithmetic .div r (.number n) = .ok q ↔ q = d ∧ InInt64 count := by
  cases d with
  | months d =>
    cases hd
    obtain ⟨m, hm, rfl⟩ := (months_mul_eq_ok_iff hn).mp hr
    refine ⟨⟨rfl, congrArg some hm⟩, hr, fun q => ?_⟩
    rw [months_div_eq_ok_iff hm hn hz]
    constructor
    · rintro ⟨m', hm', rfl⟩
      exact ⟨congrArg Value.months (Months.toInt_injective hm'), d.inInt64_toInt⟩
    · rintro ⟨rfl, -⟩
      exact ⟨d, rfl, rfl⟩
  | elapsed d =>
    cases hd
    obtain ⟨hword, rfl⟩ := (elapsed_mul_eq_ok_iff hn hz).mp hr
    refine ⟨⟨rfl, rfl⟩, hr, fun q => ?_⟩
    rw [elapsed_div_eq_ok_iff hword hn hz]
    constructor
    · rintro ⟨hfits, rfl⟩
      exact ⟨rfl, hfits⟩
    · rintro ⟨rfl, hfits⟩
      exact ⟨hfits, rfl⟩
  | _ => cases hd

/-- Five, written with six places. -/
def five : Decimal := ⟨false, 5000000, 6, by decide, by decide⟩

def minusOne : Decimal := Decimal.one.neg

/-- A year and five months are taken five times. One nanosecond more than a word holds fits only
backwards. -/
theorem five_times_and_backwards :
    let above : Value := .elapsed ⟨9223372036854775808⟩
    let below : Value := .elapsed ⟨-9223372036854775808⟩
    (arithmetic .mul (.number five) (.months ⟨17⟩) = .ok (.months ⟨85⟩) ∧
      arithmetic .div (.months ⟨85⟩) (.number five) = .ok (.months ⟨17⟩)) ∧
    (arithmetic .mul above (.number minusOne) = .ok below ∧
      ∀ q, arithmetic .div below (.number minusOne) ≠ .ok q) := by
  intro above below
  have hfive : five.toRat = ((5 : Int) : Rat) := by
    rw [Decimal.toRat_eq_div]
    norm_num [five, Decimal.signed, tenTo]
  have hminus : minusOne.toRat = ((-1 : Int) : Rat) := by
    rw [minusOne, Decimal.toRat_neg, Decimal.toRat_one, Int.cast_neg, Int.cast_one]
  have hmonths : arithmetic .mul (.months ⟨17⟩) (.number five) = .ok (.months ⟨85⟩) := rfl
  have helapsed : arithmetic .mul above (.number minusOne) = .ok below := rfl
  obtain ⟨-, hleft, hdiv⟩ :=
    whole_multiples_exact (.months ⟨17⟩) _ five 17 5 rfl hfive (by decide) hmonths
  obtain ⟨-, -, hnone⟩ :=
    whole_multiples_exact above _ minusOne 9223372036854775808 (-1) rfl hminus (by decide) helapsed
  refine ⟨⟨hleft, (hdiv _).mpr ⟨rfl, by decide⟩⟩, helapsed, ?_⟩
  intro q hq
  obtain ⟨-, hfits⟩ := (hnone q).mp hq
  exact absurd hfits (by decide)

end Value
end DecisionModel
