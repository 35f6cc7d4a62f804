import DecisionModel.Decimal.Arithmetic
import DecisionModel.Proofs.Decimal.Text
import DecisionModel.Proofs.Value.Line
import Mathlib.Tactic.FieldSimp
import Mathlib.Tactic.Ring

/-!
# Rounding to decimals

A sum and a quotient are computed from digits, and how many places they start from depends on how
the operands are written. What they denote does not. Both are the decimal nearest to the exact
result, at the largest scale at which it fits, `ofRat?`, so operands may be replaced by others of
the same value. There are two reasons for it: the rounded mantissa depends on the quotient alone,
and not on numerator and denominator, and places beyond those that an exact result needs are filled
with zeros.
-/

namespace DecisionModel

/-! ## Rounded quotients -/

variable {tie : Tie} {num num' den den' c q : Nat}

theorem roundDiv_mul_left (tie : Tie) (num den : Nat) (hc : 0 < c) :
    roundDiv tie (c * num) (c * den) = roundDiv tie num den := by
  have hlt (a b : Nat) : 2 * (c * a) < c * b ↔ 2 * a < b := by
    rw [Nat.mul_left_comm, Nat.mul_lt_mul_left hc]
  have hgt (a b : Nat) : c * b < 2 * (c * a) ↔ b < 2 * a := by
    rw [Nat.mul_left_comm, Nat.mul_lt_mul_left hc]
  simp only [roundDiv, Nat.mul_div_mul_left num den hc, Nat.mul_mod_mul_left, hlt, hgt]

/-- What a quotient is rounded to depends on the quotient only. -/
theorem roundDiv_congr (tie : Tie) (hden : 0 < den) (hden' : 0 < den')
    (h : num * den' = num' * den) : roundDiv tie num den = roundDiv tie num' den' := by
  rw [← roundDiv_mul_left tie num den hden', ← roundDiv_mul_left tie num' den' hden,
    Nat.mul_comm den' num, h, Nat.mul_comm num' den, Nat.mul_comm den' den]

theorem roundDiv_of_exact (tie : Tie) (hden : 0 < den) (h : num = den * q) :
    roundDiv tie num den = q := by
  subst h
  simp [roundDiv, hden]

namespace Decimal

variable {negative : Bool} {mantissa scale places : Nat}

/-! ## The same number at another scale -/

theorem toRat_eq_div (d : Decimal) : d.toRat = (d.signed : Rat) / tenTo d.scale := by
  rw [toRat, Rat.mkRat_eq_div]

theorem tenTo_ne_zero (n : Nat) : (tenTo n : Rat) ≠ 0 :=
  Nat.cast_ne_zero.mpr (Nat.ne_of_gt (tenTo_pos n))

/-- Zeros at the end do not count. -/
theorem toRat_eq_of_mul {d d' : Decimal} (places : Nat) (hsign : d.negative = d'.negative)
    (hscale : d.scale = d'.scale + places) (hmantissa : d.mantissa = d'.mantissa * tenTo places) :
    d.toRat = d'.toRat := by
  have hsigned : d.signed = d'.signed * tenTo places := by
    simp only [signed, hsign, hmantissa]
    split <;> simp
  rw [toRat_eq_div, toRat_eq_div, hsigned, hscale, tenTo_add, Int.cast_mul, Nat.cast_mul,
    Int.cast_natCast, mul_div_mul_right _ _ (tenTo_ne_zero places)]

/-! ## The nearest decimal -/

theorem nearest?_congr {hs : scale ≤ maxScale} (hden : 0 < den) (hden' : 0 < den')
    (h : num * den' = num' * den) :
    nearest? negative num den scale hs = nearest? negative num' den' scale hs := by
  have hround (s : Nat) :
      roundDiv .toEven (num * tenTo s) den = roundDiv .toEven (num' * tenTo s) den' := by
    apply roundDiv_congr .toEven hden hden'
    rw [Nat.mul_right_comm, h, Nat.mul_right_comm]
  induction scale with
  | zero => rw [nearest?, nearest?]; simp only [hround 0]
  | succ scale ih => rw [nearest?, nearest?]; simp only [hround (scale + 1), ih]

/-- One place more than an exact result needs is filled with a zero, or left out. -/
theorem map_toRat_nearest?_succ {hs : scale + 1 ≤ maxScale} (hden : 0 < den)
    (hexact : num * tenTo scale = den * q) :
    (nearest? negative num den (scale + 1) hs).map toRat =
      (nearest? negative num den scale (Nat.le_of_succ_le hs)).map toRat := by
  have hround : roundDiv .toEven (num * tenTo scale) den = q := roundDiv_of_exact _ hden hexact
  have hnext : roundDiv .toEven (num * tenTo (scale + 1)) den = q * 10 := by
    apply roundDiv_of_exact _ hden
    rw [tenTo_succ, ← Nat.mul_assoc, hexact, Nat.mul_assoc]
  rw [nearest?]
  split
  case isTrue hfits =>
    have hfits' : roundDiv .toEven (num * tenTo scale) den ≤ maxMantissa := by omega
    rw [nearest?, dif_pos hfits', Option.map_some, Option.map_some, Option.some_inj]
    exact toRat_eq_of_mul 1 rfl rfl (hnext.trans (congrArg (· * 10) hround.symm))
  case isFalse => rfl

/-- The places beyond those that an exact result needs do not count. -/
theorem map_toRat_nearest?_of_exact (hden : 0 < den) (hexact : den ∣ num * tenTo places)
    (hle : places ≤ scale) (hs : scale ≤ maxScale) :
    (nearest? negative num den scale hs).map toRat =
      (nearest? negative num den places (Nat.le_trans hle hs)).map toRat := by
  induction scale, hle using Nat.le_induction with
  | base => rfl
  | succ scale hle ih =>
    have hexact' : den ∣ num * tenTo scale := by
      obtain ⟨more, rfl⟩ := Nat.exists_eq_add_of_le hle
      rw [tenTo_add, ← Nat.mul_assoc]
      exact Nat.dvd_mul_right_of_dvd hexact _
    obtain ⟨q, hq⟩ := hexact'
    rw [map_toRat_nearest?_succ hden hq, ih]

/-- A result that fits without decimals is not an overflow. -/
theorem isSome_nearest?_of_fits (h : roundDiv .toEven num den ≤ maxMantissa)
    {hs : scale ≤ maxScale} : (nearest? negative num den scale hs).isSome := by
  induction scale with
  | zero =>
    rw [nearest?, dif_pos (by rwa [tenTo_zero, Nat.mul_one])]
    rfl
  | succ scale ih =>
    rw [nearest?]
    split
    · rfl
    · exact ih

/-- A result whose integer part fits is not an overflow. -/
theorem isSome_nearest? (h : num / den < maxMantissa) {hs : scale ≤ maxScale} :
    (nearest? negative num den scale hs).isSome :=
  isSome_nearest?_of_fits (Nat.le_trans (roundDiv_le ..) h)

/-- The decimal nearest to a rational number, at the largest scale at which it fits. -/
def ofRat? (x : Rat) : Option Decimal :=
  nearest? (decide (x < 0)) x.num.natAbs x.den maxScale (Nat.le_refl _)

theorem ofRat?_mkRat {n : Int} (hden : 0 < den) :
    ofRat? (mkRat n den) = nearest? (decide (n < 0)) n.natAbs den maxScale (Nat.le_refl _) := by
  have hcross : (mkRat n den).num * den = n * (mkRat n den).den := by
    rw [← Rat.mkRat_eq_iff (mkRat n den).den_nz (Nat.ne_of_gt hden), Rat.mkRat_self]
  have hsign : mkRat n den < 0 ↔ n < 0 := Rat.mkRat_neg_iff n (Nat.ne_of_gt hden)
  have habs : (mkRat n den).num.natAbs * den = n.natAbs * (mkRat n den).den := by
    simpa [Int.natAbs_mul] using congrArg Int.natAbs hcross
  rw [ofRat?, nearest?_congr (mkRat n den).den_pos hden habs, decide_eq_decide.mpr hsign]

/-- The number `± num / den`. -/
theorem ofRat?_signed (negative : Bool) (hnum : 0 < num) (hden : 0 < den) :
    ofRat? (mkRat ((if negative then -1 else 1) * (num : Int)) den) =
      nearest? negative num den maxScale (Nat.le_refl _) := by
  have hsign : ¬ (num : Int) < 0 := Int.not_lt.mpr (Int.natCast_nonneg num)
  rw [ofRat?_mkRat hden]
  cases negative <;> simp [hnum, hsign]

/-- A number that is a decimal is its own nearest one. -/
theorem ofRat?_toRat (d : Decimal) : (ofRat? d.toRat).map toRat = some d.toRat := by
  have hexact : roundDiv .toEven (d.mantissa * tenTo d.scale) (tenTo d.scale) = d.mantissa :=
    roundDiv_of_exact _ (tenTo_pos _) (Nat.mul_comm ..)
  have habs : d.signed.natAbs = d.mantissa := by
    unfold signed
    split <;> simp
  rw [toRat, ofRat?_mkRat (tenTo_pos _), habs,
    map_toRat_nearest?_of_exact (tenTo_pos _) (Nat.dvd_mul_left ..) d.scale_le, nearest?,
    dif_pos (hexact.le.trans d.mantissa_le), Option.map_some, Option.some_inj, toRat]
  simp only [hexact, signed]
  congr 1
  split <;> simp_all

theorem mantissa_pos_iff {d : Decimal} : 0 < d.mantissa ↔ d.isZero = false := by
  rw [isZero, beq_eq_false_iff_ne, Nat.pos_iff_ne_zero]

theorem toRat_eq_zero_iff {d : Decimal} : d.toRat = 0 ↔ d.isZero = true := by
  rw [toRat, Rat.mkRat_eq_zero (Nat.ne_of_gt (tenTo_pos _)), isZero, beq_iff_eq, signed]
  split <;> omega

/-! ## Sums -/

theorem map_toRat_fit? (negative : Bool) (units places : Nat) :
    (fit? negative units places).map toRat =
      (nearest? negative units (tenTo places) maxScale (Nat.le_refl _)).map toRat := by
  rcases Nat.le_total places maxScale with hle | hle
  · have hfit : fit? negative units places =
        nearest? negative units (tenTo places) places hle := by
      simp only [fit?, Nat.min_eq_left hle]
    rw [hfit, map_toRat_nearest?_of_exact (tenTo_pos _) (Nat.dvd_mul_left ..) hle]
  · simp only [fit?, Nat.min_eq_right hle]

theorem toRat_eq_mkRat_units {d : Decimal} (h : d.scale ≤ places) :
    d.toRat = mkRat (d.units places) (tenTo places) := by
  obtain ⟨more, rfl⟩ := Nat.exists_eq_add_of_le h
  rw [toRat, Rat.mkRat_eq_iff (Nat.ne_of_gt (tenTo_pos _)) (Nat.ne_of_gt (tenTo_pos _)), units,
    Nat.add_sub_cancel_left, tenTo_add]
  push_cast
  ring

/-- **A sum is the decimal nearest to what the operands add up to.** -/
theorem map_toRat_add? (a b : Decimal) :
    (a.add? b).map toRat = (ofRat? (a.toRat + b.toRat)).map toRat := by
  unfold add?
  split
  case isTrue ha => rw [toRat_eq_zero_iff.mpr ha, zero_add, ofRat?_toRat, Option.map_some]
  split
  case isTrue hb => rw [toRat_eq_zero_iff.mpr hb, add_zero, ofRat?_toRat, Option.map_some]
  have hsum : a.toRat + b.toRat =
      mkRat (a.units (max a.scale b.scale) + b.units (max a.scale b.scale))
        (tenTo (max a.scale b.scale)) := by
    rw [toRat_eq_mkRat_units (Nat.le_max_left a.scale b.scale),
      toRat_eq_mkRat_units (Nat.le_max_right a.scale b.scale),
      Rat.mkRat_add_mkRat_of_den _ _ (Nat.ne_of_gt (tenTo_pos _))]
  dsimp only
  split
  case isTrue hzero =>
    rw [Option.map_some, ← ofRat?_toRat, toRat_eq_zero_iff.mpr rfl, hsum, hzero, Rat.zero_mkRat]
  case isFalse => rw [map_toRat_fit?, hsum, ofRat?_mkRat (tenTo_pos _)]

/-! ## Quotients -/

variable {divisor quotient remainder left : Nat}

theorem dvd_mul_of_dvd_mod_mul (h : den ∣ num % den * c) : den ∣ num * c := by
  rw [← Nat.div_add_mod num den, Nat.add_mul, Nat.mul_assoc]
  exact Nat.dvd_add (Nat.dvd_mul_right ..) h

/-- Long division that stops with places left has come to an end in those that it used. -/
theorem placesLeft_spec (hleft : placesLeft divisor quotient remainder left ≠ 0) :
    ∃ used, divisor ∣ remainder * tenTo used ∧
      used + placesLeft divisor quotient remainder left ≤ left := by
  fun_induction placesLeft divisor quotient remainder left with
  | case1 quotient left => exact ⟨0, (Nat.zero_mul _).symm ▸ Nat.dvd_zero _, by omega⟩
  | case2 => exact absurd rfl hleft
  | case3 quotient remainder left hne places scaled next hroom ih =>
    obtain ⟨used, hdvd, hle⟩ := ih hleft
    have hplaces : places ≤ left := by
      have := room_le quotient (min groupSize left)
      omega
    refine ⟨places + used, ?_, by omega⟩
    rw [tenTo_add, ← Nat.mul_assoc]
    exact dvd_mul_of_dvd_mod_mul hdvd

theorem toRat_dropZeros (d : Decimal) : (d.dropZeros places).toRat = d.toRat := by
  unfold dropZeros
  split
  case isTrue h =>
    refine (toRat_eq_of_mul places ?_ ?_ ?_).symm
    · rfl
    · exact (Nat.sub_add_cancel h.1).symm
    · exact (Nat.div_mul_cancel (Nat.dvd_of_mod_eq_zero h.2)).symm
  case isFalse => rfl

theorem toRat_dropEight (d : Decimal) : d.dropEight.toRat = d.toRat := by
  unfold dropEight
  split
  · exact toRat_dropZeros d
  · rfl

theorem toRat_dropPadding (d : Decimal) : d.dropPadding.toRat = d.toRat := by
  simp only [dropPadding, toRat_dropZeros, toRat_dropEight]

theorem toRat_div_toRat (a b : Decimal) : a.toRat / b.toRat =
    mkRat ((if a.negative != b.negative then -1 else 1) * (a.mantissa * tenTo b.scale : Nat))
      (b.mantissa * tenTo a.scale) := by
  rw [toRat_eq_div, toRat_eq_div, Rat.mkRat_eq_div, div_div_div_eq]
  cases ha : a.negative <;> cases hb : b.negative <;> simp [signed, ha, hb, neg_div, div_neg] <;>
    ring

/-- Leaving out the places that long division does not use changes nothing. -/
theorem map_toRat_nearest?_placesLeft {a b : Decimal} (hb : b.isZero = false)
    (hleft : left = placesLeft b.mantissa (a.mantissa / b.mantissa) (a.mantissa % b.mantissa)
      (maxScale + b.scale - a.scale)) :
    (nearest? negative (a.mantissa * tenTo b.scale) (b.mantissa * tenTo a.scale) (maxScale - left)
      (Nat.sub_le ..)).map toRat =
    (nearest? negative (a.mantissa * tenTo b.scale) (b.mantissa * tenTo a.scale) maxScale
      (Nat.le_refl _)).map toRat := by
  have hpos : 0 < b.mantissa := mantissa_pos_iff.mpr hb
  by_cases hzero : left = 0
  · subst hzero
    rfl
  obtain ⟨used, hdvd, hle⟩ := placesLeft_spec (hleft ▸ hzero)
  rw [← hleft] at hle
  refine (map_toRat_nearest?_of_exact (Nat.mul_pos hpos (tenTo_pos _)) ?_ (Nat.sub_le ..) _).symm
  -- the places in use are enough for the digits written and for moving the point by the scales
  have hplaces : a.scale + used ≤ b.scale + (maxScale - left) := by omega
  obtain ⟨more, hmore⟩ := Nat.exists_eq_add_of_le hplaces
  rw [Nat.mul_assoc, ← tenTo_add, hmore, tenTo_add, tenTo_add, Nat.mul_comm (tenTo a.scale),
    ← Nat.mul_assoc, ← Nat.mul_assoc]
  exact Nat.dvd_mul_right_of_dvd (Nat.mul_dvd_mul_right (dvd_mul_of_dvd_mod_mul hdvd) _) _

/-- **A quotient is the decimal nearest to what the operands divide to.** -/
theorem map_toRat_div? {a b : Decimal} (hb : b.isZero = false) :
    (a.div? b).map toRat = (ofRat? (a.toRat / b.toRat)).map toRat := by
  unfold div?
  split
  case isTrue ha =>
    rw [toRat_eq_zero_iff.mpr ha, zero_div, Option.map_some, ← ofRat?_toRat,
      toRat_eq_zero_iff.mpr rfl]
  case isFalse ha =>
    have hnum : 0 < a.mantissa := mantissa_pos_iff.mpr (Bool.eq_false_iff.mpr ha)
    have hden : 0 < b.mantissa := mantissa_pos_iff.mpr hb
    -- what is done to the padding and to the sign of a zero does not change the value
    have hpadding (remainder : Nat) (d : Decimal) :
        (if remainder = 0 then d else d.dropPadding.unsignedZero).toRat = d.toRat := by
      split
      · rfl
      · rw [← same_iff.mp (same_unsignedZero _), toRat_dropPadding]
    rw [Option.map_map, Function.comp_def]
    simp only [hpadding]
    rw [map_toRat_nearest?_placesLeft hb rfl, toRat_div_toRat,
      ofRat?_signed _ (Nat.mul_pos hnum (tenTo_pos _)) (Nat.mul_pos hden (tenTo_pos _))]

/-- Half of a number is a number. -/
theorem isSome_div?_two (d : Decimal) : (d.div? two).isSome := by
  unfold div?
  split
  · rfl
  · rw [Option.isSome_map]
    apply isSome_nearest?
    have hle : d.mantissa * 1 / (2 * tenTo d.scale) ≤ d.mantissa / 2 := by
      rw [Nat.mul_one]
      exact Nat.div_le_div_left (Nat.le_mul_of_pos_right 2 (tenTo_pos _)) (by decide)
    have hmantissa : d.mantissa / 2 < maxMantissa :=
      (Nat.div_le_div_right d.mantissa_le).trans_lt (by decide)
    exact hle.trans_lt hmantissa

/-- Operands may be replaced by others of the same value. -/
theorem map_toRat_add?_congr {a a' b b' : Decimal} (ha : a.same a' = true)
    (hb : b.same b' = true) : (a.add? b).map toRat = (a'.add? b').map toRat := by
  rw [map_toRat_add?, map_toRat_add?, same_iff.mp ha, same_iff.mp hb]

theorem map_toRat_div?_congr {a a' b : Decimal} (ha : a.same a' = true) (hb : b.isZero = false) :
    (a.div? b).map toRat = (a'.div? b).map toRat := by
  rw [map_toRat_div? hb, map_toRat_div? hb, same_iff.mp ha]

end Decimal
end DecisionModel
