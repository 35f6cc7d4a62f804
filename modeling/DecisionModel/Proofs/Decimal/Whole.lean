import DecisionModel.Library.Sequence
import DecisionModel.Proofs.Bind
import DecisionModel.Proofs.Decimal.WholePower
import Mathlib.Algebra.Order.Floor.Ring
import Mathlib.Data.Rat.Floor

/-!
# Whole numbers

A number splits into an integer part, cut off towards zero, and a rest with the same sign and less
than one. So it is whole exactly if it is an integer, however many zeros it is written with, and a
position is asked for with success exactly if it is the integer of a word.
-/

namespace DecisionModel

namespace Decimal

variable {d : Decimal} {z : Int}

/-! ## Integer part and rest -/

theorem signed_eq (d : Decimal) : d.signed = d.toInt * tenTo d.scale + d.fract.signed := by
  have hsplit : (d.mantissa : Int) =
      (d.mantissa / tenTo d.scale : Nat) * tenTo d.scale + (d.mantissa % tenTo d.scale : Nat) := by
    exact_mod_cast (Nat.div_add_mod' d.mantissa (tenTo d.scale)).symm
  cases hsign : d.negative with
  | false =>
    simp only [signed, toInt, trunc, fract, hsign, Bool.false_and, Bool.false_eq_true, if_false]
    exact hsplit
  | true =>
    have hrest : d.fract.signed = -(d.mantissa % tenTo d.scale : Nat) := by
      simp only [signed, fract, hsign, Bool.true_and, isWhole]
      split
      · rfl
      · next hwhole => simp_all
    rw [hrest]
    simp only [signed, toInt, trunc, hsign, if_true]
    rw [hsplit]
    push_cast
    ring

theorem toRat_fract (d : Decimal) : d.fract.toRat = d.toRat - d.toInt := by
  rw [toRat_eq_div, toRat_eq_div, d.signed_eq]
  show (d.fract.signed : Rat) / tenTo d.scale = _
  have hne := tenTo_ne_zero d.scale
  push_cast
  field_simp
  ring

/-- The rest is less than one. -/
theorem abs_fract_lt (d : Decimal) : |d.fract.toRat| < 1 := by
  rw [abs_toRat]
  show ((d.mantissa % tenTo d.scale : Nat) : Rat) / tenTo d.scale < 1
  rw [div_lt_one (tenTo_cast_pos _)]
  exact_mod_cast Nat.mod_lt _ (tenTo_pos _)

theorem fract_nonneg (h : 0 ≤ d.toRat) : 0 ≤ d.fract.toRat := by
  cases hsign : d.negative with
  | false => exact toRat_nonneg (by simp [fract, hsign])
  | true =>
    have hzero : d.toRat = ((0 : Int) : Rat) := by
      rw [Int.cast_zero]
      exact le_antisymm (toRat_nonpos hsign) h
    rw [toRat_fract, toInt_of_toRat hzero, hzero, sub_self]

theorem toInt_neg (d : Decimal) : d.neg.toInt = -d.toInt := by
  simp only [toInt, trunc, neg, signed]
  by_cases hsign : d.negative = true
  · simp [hsign]
  · simp [hsign]

theorem toInt_eq_floor (h : 0 ≤ d.toRat) : d.toInt = ⌊d.toRat⌋ := by
  have hlow := fract_nonneg h
  have hhigh := (abs_lt.mp d.abs_fract_lt).2
  rw [toRat_fract] at hlow hhigh
  exact (Int.floor_eq_iff.mpr ⟨by linarith, by linarith⟩).symm

theorem toInt_eq_ceil (h : d.toRat ≤ 0) : d.toInt = ⌈d.toRat⌉ := by
  have hneg : 0 ≤ d.neg.toRat := by rw [toRat_neg]; linarith
  have hfloor := toInt_eq_floor hneg
  rw [toInt_neg, toRat_neg, Int.floor_neg] at hfloor
  exact neg_injective hfloor

theorem toRat_of_isWhole (h : d.isWhole = true) : d.toRat = d.toInt := by
  rw [isWhole, beq_iff_eq] at h
  have hzero : d.fract.toRat = 0 := by
    rw [toRat_eq_zero_iff, isZero, beq_iff_eq]
    exact h
  rw [toRat_fract] at hzero
  exact sub_eq_zero.mp hzero

/-! ## Integers -/

/-- A decimal without places that has the sign and the digits of an integer. -/
theorem toRat_of_natAbs (hsign : d.negative = decide (z < 0)) (hmantissa : d.mantissa = z.natAbs)
    (hscale : d.scale = 0) : d.toRat = z := by
  have hsigned : d.signed = z := by
    simp only [signed, hsign, hmantissa, decide_eq_true_eq]
    split <;> omega
  rw [toRat_eq_div, hsigned, hscale, tenTo_zero, Nat.cast_one, div_one]

theorem toRat_ofInt64 (w : Int64) : (ofInt64 w).toRat = w.toInt := toRat_of_natAbs rfl rfl rfl

theorem toRat_of_ofInt? (h : ofInt? z = some d) : d.toRat = z := by
  unfold ofInt? at h
  split at h
  · obtain rfl := Option.some.inj h
    exact toRat_of_natAbs rfl rfl rfl
  · cases h

theorem exists_ofInt?_eq_some (h : z.natAbs ≤ maxMantissa) : ∃ d, ofInt? z = some d := by
  rw [ofInt?, dif_pos h]
  exact ⟨_, rfl⟩

theorem natAbs_le_of_inInt64 (h : InInt64 z) : z.natAbs ≤ maxMantissa := by
  obtain ⟨hlow, hhigh⟩ := h
  unfold maxInt64 at hlow hhigh
  unfold maxMantissa
  omega

theorem isZero_eq_false (h : d.toRat = z) (hz : z ≠ 0) : d.isZero = false := by
  rw [← Bool.not_eq_true, ← toRat_eq_zero_iff, h, Int.cast_eq_zero]
  exact hz

/-- Rounding leaves a whole number alone, to however many places. -/
theorem toRat_round (tie : Tie) (places : Nat) (h : d.toRat = z) :
    (d.round tie places).toRat = z := by
  unfold round
  split
  case isTrue hzero =>
    rw [← h, toRat_eq_zero_iff.mpr hzero, toRat_eq_zero_iff]
    rfl
  case isFalse hzero =>
    split
    case isTrue => exact h
    case isFalse hscale =>
      have hplaces : d.scale = places + (d.scale - places) := by omega
      have hmantissa : d.mantissa = z.natAbs * tenTo places * tenTo (d.scale - places) := by
        rw [mantissa_eq_of_toRat h, Nat.mul_assoc, ← tenTo_add, ← hplaces]
      have hround : roundDiv tie d.mantissa (tenTo (d.scale - places)) =
          z.natAbs * tenTo places :=
        roundDiv_of_exact tie (tenTo_pos _) (by rw [hmantissa, Nat.mul_comm])
      have hpos : z.natAbs * tenTo places ≠ 0 := by
        intro hnone
        rw [hnone, Nat.zero_mul] at hmantissa
        exact hzero (beq_iff_eq.mpr hmantissa)
      rw [← h]
      refine (toRat_eq_of_mul (d.scale - places) ?_ hplaces ?_).symm
      · simp [hround, hpos]
      · dsimp only
        rw [hround, hmantissa]

/-! ## Words -/

theorem toInt64?_eq_some_iff {w : Int64} : d.toInt64? = some w ↔ w.toInt = d.toInt := by
  unfold toInt64?
  split
  · next h =>
    rw [Option.some_inj, ← Int64.toInt_inj, h.toInt_ofInt]
    exact eq_comm
  · next h =>
    refine iff_of_false nofun fun hw => h ?_
    rw [← hw]
    exact inInt64_toInt w

theorem toInt64?_eq_none_iff : d.toInt64? = none ↔ ¬InInt64 d.toInt := by
  unfold toInt64?
  split <;> simp_all

end Decimal

namespace Number

open Decimal (toRat)

variable {function : String} {n : Decimal} {z : Int} {w : Int64}

theorem toWhole_eq_ok_iff : toWhole function n = .ok w ↔ n.toRat = w.toInt := by
  unfold toWhole
  cases hwhole : n.isWhole with
  | false =>
    refine iff_of_false nofun fun hw => ?_
    rw [Decimal.isWhole_of_toRat hw] at hwhole
    cases hwhole
  | true =>
    have hvalue := Decimal.toRat_of_isWhole hwhole
    rw [Bool.not_true, if_neg Bool.false_ne_true, hvalue, Int.cast_inj, eq_comm (a := n.toInt),
      ← Decimal.toInt64?_eq_some_iff]
    cases n.toInt64? <;> simp

/-- A whole number that no word holds is an overflow, not a fault of the argument. -/
theorem toWhole_of_not_inInt64 (hz : n.toRat = z) (hword : ¬InInt64 z) :
    toWhole function n = .error (.overflow (.position n)) := by
  have hnone : n.toInt64? = none := by
    rw [Decimal.toInt64?_eq_none_iff, Decimal.toInt_of_toRat hz]
    exact hword
  rw [toWhole, Decimal.isWhole_of_toRat hz, Bool.not_true, if_neg Bool.false_ne_true, hnone]

end Number

namespace Library

variable {function : String} {n : Decimal} {z : Int} {v : Value}

theorem position_eq_ok_iff :
    position function v = .ok z ↔ ∃ n, v = .number n ∧ n.toRat = z ∧ InInt64 z := by
  unfold position
  rw [bind_eq_ok_iff]
  constructor
  · rintro ⟨n, hn, h⟩
    obtain ⟨w, hw, hz⟩ := bind_eq_ok_iff.mp h
    cases v <;> cases hn
    cases hz
    exact ⟨n, rfl, Number.toWhole_eq_ok_iff.mp hw, inInt64_toInt w⟩
  · rintro ⟨n, rfl, hz, hword⟩
    refine ⟨n, rfl, bind_eq_ok_iff.mpr ⟨.ofInt z, ?_, ?_⟩⟩
    · rw [Number.toWhole_eq_ok_iff, hword.toInt_ofInt, hz]
    · rw [hword.toInt_ofInt, pure_eq_ok]

theorem position_number_of_not_inInt64 (hz : n.toRat = z) (hword : ¬InInt64 z) :
    position function (.number n) = .error (.overflow (.position n)) := by
  show (Number.toWhole function n >>= fun w => pure w.toInt) = _
  rw [Number.toWhole_of_not_inInt64 hz hword, error_bind]

end Library
end DecisionModel
