import DecisionModel.Proofs.Decimal.Rounding
import Mathlib.Algebra.Order.Field.Basic
import Mathlib.Tactic.Linarith
import Mathlib.Tactic.NormNum

/-!
# Between decimals

Rounding does not pass a decimal: a number that lies on one side of a decimal is rounded to one that
lies on the same side, or to the decimal itself. So bounds that are decimals survive every
operation, and so do signs.

That is clear as long as both are counted in the same unit. But a large number has fewer places, and
then it is rounded to a unit that is ten times larger, although the decimal next to it may still
have the smaller one. Nothing goes wrong because the largest mantissa ends in a five: a number that
has just become too large for a place is rounded up when the place is dropped, and not down, below
the largest number that still has the place.
-/

namespace DecisionModel

/-! ## Rounded quotients -/

theorem roundDiv_cases (tie : Tie) (num den : Nat) :
    (roundDiv tie num den = num / den ∧ 2 * (num % den) ≤ den) ∨
      (roundDiv tie num den = num / den + 1 ∧ den ≤ 2 * (num % den)) := by
  have hparity := Nat.mod_two_eq_zero_or_one (num / den)
  unfold roundDiv
  cases tie <;> dsimp only <;> repeat' split
  all_goals omega

theorem roundDiv_of_lt_half (tie : Tie) {num den : Nat} (h : 2 * num < den) :
    roundDiv tie num den = 0 := by
  have hlt : num < den := by omega
  unfold roundDiv
  rw [Nat.mod_eq_of_lt hlt, Nat.div_eq_of_lt hlt]
  exact if_pos h

/-- Rounding moves a quotient by half a unit at most. -/
theorem abs_div_sub_roundDiv_le (tie : Tie) (num : Nat) {den : Nat} (hden : 0 < den) :
    |(num : Rat) / den - roundDiv tie num den| ≤ 1 / 2 := by
  have hpos : (0 : Rat) < den := Nat.cast_pos.mpr hden
  have hsplit : (num : Rat) / den = (num / den : Nat) + (num % den : Nat) / (den : Rat) := by
    rw [div_eq_iff hpos.ne', add_mul, div_mul_cancel₀ _ hpos.ne', mul_comm]
    exact_mod_cast (Nat.div_add_mod num den).symm
  have hnonneg : (0 : Rat) ≤ (num % den : Nat) / (den : Rat) := by positivity
  have hlt : ((num % den : Nat) : Rat) / den < 1 := by
    rw [div_lt_one hpos]
    exact_mod_cast Nat.mod_lt num hden
  rw [hsplit, abs_le]
  rcases roundDiv_cases tie num den with ⟨hround, hhalf⟩ | ⟨hround, hhalf⟩
  · have hle : ((num % den : Nat) : Rat) / den ≤ 1 / 2 := by
      rw [div_le_div_iff₀ hpos two_pos, one_mul, mul_comm]
      exact_mod_cast hhalf
    rw [hround]
    constructor <;> linarith
  · have hge : (1 : Rat) / 2 ≤ ((num % den : Nat) : Rat) / den := by
      rw [div_le_div_iff₀ two_pos hpos, one_mul, mul_comm]
      exact_mod_cast hhalf
    rw [hround, Nat.cast_add, Nat.cast_one]
    constructor <;> linarith

namespace Decimal

variable {negative : Bool} {num den scale : Nat} {x y : Rat} {a b c d : Decimal}

/-! ## Magnitudes -/

theorem tenTo_cast_pos (n : Nat) : (0 : Rat) < tenTo n := Nat.cast_pos.mpr (tenTo_pos n)

theorem abs_toRat (d : Decimal) : |d.toRat| = d.mantissa / tenTo d.scale := by
  have hsigned : |(d.signed : Rat)| = d.mantissa := by
    unfold signed
    split <;> simp
  rw [toRat_eq_div, abs_div, hsigned, abs_of_pos (tenTo_cast_pos d.scale)]

theorem toRat_neg (d : Decimal) : d.neg.toRat = -d.toRat := by
  rw [toRat_eq_div, toRat_eq_div, ← neg_div]
  cases h : d.negative <;> simp [neg, signed, h]

theorem toRat_ofNat_min (n : Nat) : (ofNat n).toRat = (min n maxMantissa : Nat) := by
  rw [toRat_eq_div]
  simp [ofNat, signed]

theorem toRat_ofNat {n : Nat} (hn : n ≤ maxMantissa) : (ofNat n).toRat = n := by
  rw [toRat_ofNat_min, Nat.min_eq_left hn]

theorem natCast_le_toRat_ofNat {m n : Nat} (hmn : m ≤ n) (hm : m ≤ maxMantissa) :
    m ≤ (ofNat n).toRat := by
  rw [toRat_ofNat_min]
  exact Nat.cast_le.mpr (Nat.le_min.mpr ⟨hmn, hm⟩)

@[simp] theorem toRat_zero : zero.toRat = 0 := toRat_eq_zero_iff.mpr rfl

@[simp] theorem toRat_one : one.toRat = 1 := toRat_ofNat (n := 1) (by decide)

@[simp] theorem toRat_two : two.toRat = 2 := toRat_ofNat (n := 2) (by decide)

theorem toRat_mk {mantissa : Nat} (hmantissa : mantissa ≤ maxMantissa) (hscale : scale ≤ maxScale) :
    toRat ⟨false, mantissa, scale, hmantissa, hscale⟩ = mantissa / tenTo scale := by
  rw [toRat_eq_div]
  simp [signed]

theorem toRat_nonneg (h : d.negative = false) : 0 ≤ d.toRat := by
  rw [toRat_eq_div]
  have hsigned : d.signed = d.mantissa := by simp [signed, h]
  rw [hsigned]
  exact div_nonneg (by simp) (tenTo_cast_pos _).le

theorem toRat_nonpos (h : d.negative = true) : d.toRat ≤ 0 := by
  rw [toRat_eq_div]
  have hsigned : d.signed = -d.mantissa := by simp [signed, h]
  rw [hsigned]
  exact div_nonpos_of_nonpos_of_nonneg (by simp) (tenTo_cast_pos _).le

/-- A magnitude counted in a unit that is not larger than its own is whole. -/
theorem exists_abs_toRat_mul_tenTo {places : Nat} (h : d.scale ≤ places) :
    ∃ n : Nat, |d.toRat| * tenTo places = n := by
  obtain ⟨more, rfl⟩ := Nat.exists_eq_add_of_le h
  refine ⟨d.mantissa * tenTo more, ?_⟩
  rw [abs_toRat, tenTo_add, Nat.cast_mul, Nat.cast_mul, ← mul_assoc,
    div_mul_cancel₀ _ (tenTo_ne_zero d.scale)]

/-- A magnitude counted in one of the larger units is no more than its mantissa. -/
theorem abs_toRat_mul_tenTo_le {places : Nat} (h : places ≤ d.scale) :
    |d.toRat| * tenTo places ≤ maxMantissa := by
  have hle : (tenTo places : Rat) ≤ tenTo d.scale :=
    Nat.cast_le.mpr (Nat.pow_le_pow_right (by decide) h)
  calc |d.toRat| * tenTo places ≤ |d.toRat| * tenTo d.scale :=
        mul_le_mul_of_nonneg_left hle (abs_nonneg _)
    _ = d.mantissa := by rw [abs_toRat, div_mul_cancel₀ _ (tenTo_ne_zero d.scale)]
    _ ≤ maxMantissa := Nat.cast_le.mpr d.mantissa_le

theorem abs_toRat_le_maxMantissa (d : Decimal) : |d.toRat| ≤ maxMantissa := by
  have hle := abs_toRat_mul_tenTo_le (d := d) (Nat.zero_le _)
  rwa [tenTo_zero, Nat.cast_one, mul_one] at hle

/-! ## What is rounded -/

theorem nearest?_eq_some {hs : scale ≤ maxScale}
    (h : nearest? negative num den scale hs = some a) :
    a.negative = negative ∧ a.mantissa = roundDiv .toEven (num * tenTo a.scale) den ∧
      a.scale ≤ scale ∧
      (a.scale < scale → maxMantissa < roundDiv .toEven (num * tenTo (a.scale + 1)) den) := by
  induction scale with
  | zero =>
    rw [nearest?] at h
    split at h
    · obtain rfl := Option.some.inj h
      exact ⟨rfl, rfl, Nat.le_refl _, fun hlt => absurd hlt (Nat.lt_irrefl _)⟩
    · cases h
  | succ scale ih =>
    rw [nearest?] at h
    split at h
    case isTrue =>
      obtain rfl := Option.some.inj h
      exact ⟨rfl, rfl, Nat.le_refl _, fun hlt => absurd hlt (Nat.lt_irrefl _)⟩
    case isFalse hlarge =>
      obtain ⟨hnegative, hmantissa, hscale, htight⟩ := ih h
      refine ⟨hnegative, hmantissa, Nat.le_succ_of_le hscale, fun _ => ?_⟩
      rcases Nat.lt_or_eq_of_le hscale with hlt | heq
      · exact htight hlt
      · exact heq ▸ Nat.lt_of_not_le hlarge

theorem abs_eq_natAbs_div (x : Rat) : |x| = (x.num.natAbs : Rat) / x.den := by
  conv_lhs => rw [← Rat.num_div_den x]
  rw [abs_div, Nat.cast_natAbs, Int.cast_abs, Nat.abs_cast]

/-- What a number is rounded to: it is nearest in its unit, and the next smaller unit is too small.
-/
structure Represents (x : Rat) (a : Decimal) : Prop where
  negative : a.negative = decide (x < 0)
  near : |(|x| * tenTo a.scale) - a.mantissa| ≤ 1 / 2
  tight : a.scale < maxScale → (maxMantissa : Rat) + 1 / 2 ≤ |x| * tenTo (a.scale + 1)

theorem represents_of_ofRat? (h : ofRat? x = some a) : Represents x a := by
  obtain ⟨hnegative, hmantissa, -, htight⟩ := nearest?_eq_some h
  have hnear (places : Nat) :
      |(|x| * tenTo places) - roundDiv .toEven (x.num.natAbs * tenTo places) x.den| ≤ 1 / 2 := by
    rw [abs_eq_natAbs_div x, div_mul_eq_mul_div, ← Nat.cast_mul]
    exact abs_div_sub_roundDiv_le .toEven _ x.den_pos
  refine ⟨hnegative, hmantissa ▸ hnear a.scale, fun hlt => ?_⟩
  have hlarge : (maxMantissa : Rat) + 1 ≤
      roundDiv .toEven (x.num.natAbs * tenTo (a.scale + 1)) x.den := by
    exact_mod_cast htight hlt
  have := (abs_le.mp (hnear (a.scale + 1))).1
  linarith

namespace Represents

theorem mantissa_le (h : Represents x a) : (a.mantissa : Rat) ≤ |x| * tenTo a.scale + 1 / 2 := by
  have := (abs_le.mp h.near).1
  linarith

theorem le_mantissa (h : Represents x a) : |x| * tenTo a.scale ≤ a.mantissa + 1 / 2 := by
  have := (abs_le.mp h.near).2
  linarith

/-- Just above a whole number of units is not above it when rounded. -/
theorem mantissa_le_of_le (h : Represents x a) {n : Nat} (hle : |x| * tenTo a.scale ≤ n) :
    a.mantissa ≤ n := by
  have hlt : (a.mantissa : Rat) < n + 1 := by linarith [h.mantissa_le]
  exact Nat.lt_succ_iff.mp (by exact_mod_cast hlt)

theorem le_mantissa_of_le (h : Represents x a) {n : Nat} (hle : (n : Rat) ≤ |x| * tenTo a.scale) :
    n ≤ a.mantissa := by
  have hlt : (n : Rat) < a.mantissa + 1 := by linarith [h.le_mantissa]
  exact Nat.lt_succ_iff.mp (by exact_mod_cast hlt)

theorem abs_le_of_abs_le (h : Represents x a) (hd : |x| ≤ |d.toRat|) : |a.toRat| ≤ |d.toRat| := by
  have hunit := tenTo_cast_pos a.scale
  rcases Nat.lt_or_ge a.scale d.scale with hlt | hge
  · -- a decimal with more places bounds what is too large for one more place
    have htight := h.tight (Nat.lt_of_lt_of_le hlt d.scale_le)
    have hmax := abs_toRat_mul_tenTo_le (Nat.succ_le_of_lt hlt)
    have := mul_le_mul_of_nonneg_right hd (tenTo_cast_pos (a.scale + 1)).le
    linarith
  · obtain ⟨n, hn⟩ := exists_abs_toRat_mul_tenTo hge
    have hle : |x| * tenTo a.scale ≤ n := hn ▸ mul_le_mul_of_nonneg_right hd hunit.le
    rw [abs_toRat a, div_le_iff₀ hunit, hn]
    exact_mod_cast h.mantissa_le_of_le hle

theorem le_abs_of_le_abs (h : Represents x a) (hd : |d.toRat| ≤ |x|) : |d.toRat| ≤ |a.toRat| := by
  have hunit := tenTo_cast_pos a.scale
  rw [abs_toRat a, le_div_iff₀ hunit]
  rcases Nat.lt_or_ge a.scale d.scale with hlt | hge
  · -- the largest mantissa is five more than a multiple of ten, and the number is rounded up
    have htight := h.tight (Nat.lt_of_lt_of_le hlt d.scale_le)
    have hmax := abs_toRat_mul_tenTo_le (Nat.succ_le_of_lt hlt)
    obtain ⟨tens, hfive⟩ : ∃ tens : Nat, maxMantissa = tens * 10 + 5 :=
      ⟨7922816251426433759354395033, by decide⟩
    rw [tenTo_succ, Nat.cast_mul, Nat.cast_ofNat, ← mul_assoc, hfive] at htight hmax
    push_cast at htight hmax
    have hbelow : (tens : Rat) < a.mantissa := by linarith [h.le_mantissa]
    have habove : (tens : Rat) + 1 ≤ a.mantissa := by exact_mod_cast hbelow
    linarith
  · obtain ⟨n, hn⟩ := exists_abs_toRat_mul_tenTo hge
    rw [hn]
    exact_mod_cast h.le_mantissa_of_le (hn ▸ mul_le_mul_of_nonneg_right hd hunit.le)

theorem nonneg (h : Represents x a) (hx : 0 ≤ x) : 0 ≤ a.toRat :=
  toRat_nonneg (h.negative.trans (decide_eq_false (not_lt.mpr hx)))

theorem nonpos (h : Represents x a) (hx : x < 0) : a.toRat ≤ 0 :=
  toRat_nonpos (h.negative.trans (decide_eq_true hx))

theorem toRat_le (h : Represents x a) (hd : x ≤ d.toRat) : a.toRat ≤ d.toRat := by
  rcases lt_or_ge x 0 with hneg | hpos
  · have ha : a.toRat ≤ 0 := h.nonpos hneg
    rcases lt_or_ge d.toRat 0 with hd0 | hd0
    · have hle := h.le_abs_of_le_abs (d := d) (by rw [abs_of_neg hd0, abs_of_neg hneg]; linarith)
      rw [abs_of_neg hd0, abs_of_nonpos ha] at hle
      linarith
    · exact ha.trans hd0
  · have ha : 0 ≤ a.toRat := h.nonneg hpos
    have hd0 : 0 ≤ d.toRat := hpos.trans hd
    have hle := h.abs_le_of_abs_le (d := d) (by rwa [abs_of_nonneg hpos, abs_of_nonneg hd0])
    rwa [abs_of_nonneg ha, abs_of_nonneg hd0] at hle

theorem le_toRat (h : Represents x a) (hd : d.toRat ≤ x) : d.toRat ≤ a.toRat := by
  rcases lt_or_ge x 0 with hneg | hpos
  · have ha : a.toRat ≤ 0 := h.nonpos hneg
    have hd0 : d.toRat < 0 := hd.trans_lt hneg
    have hle := h.abs_le_of_abs_le (d := d) (by rw [abs_of_neg hd0, abs_of_neg hneg]; linarith)
    rw [abs_of_nonpos ha, abs_of_neg hd0] at hle
    linarith
  · have ha : 0 ≤ a.toRat := h.nonneg hpos
    rcases lt_or_ge d.toRat 0 with hd0 | hd0
    · exact hd0.le.trans ha
    · have hle := h.le_abs_of_le_abs (d := d) (by rwa [abs_of_nonneg hpos, abs_of_nonneg hd0])
      rwa [abs_of_nonneg ha, abs_of_nonneg hd0] at hle

end Represents

/-! ## Values of rounded results -/

/-- A decimal has the value that a number is rounded to, however it is written. -/
def IsNearest (x : Rat) (a : Decimal) : Prop := (ofRat? x).map toRat = some a.toRat

theorem IsNearest.exists_represents (h : IsNearest x a) :
    ∃ c, Represents x c ∧ c.toRat = a.toRat := by
  obtain ⟨c, hc, hvalue⟩ := Option.map_eq_some_iff.mp h
  exact ⟨c, represents_of_ofRat? hc, hvalue⟩

namespace IsNearest

/-- **Rounding does not pass a decimal** that is not below the number. -/
theorem toRat_le (h : IsNearest x a) (hd : x ≤ d.toRat) : a.toRat ≤ d.toRat := by
  obtain ⟨c, hc, hvalue⟩ := h.exists_represents
  exact hvalue ▸ hc.toRat_le hd

/-- **Rounding does not pass a decimal** that is not above the number. -/
theorem le_toRat (h : IsNearest x a) (hd : d.toRat ≤ x) : d.toRat ≤ a.toRat := by
  obtain ⟨c, hc, hvalue⟩ := h.exists_represents
  exact hvalue ▸ hc.le_toRat hd

theorem toRat_eq (h : IsNearest x a) (hd : x = d.toRat) : a.toRat = d.toRat :=
  le_antisymm (h.toRat_le hd.le) (h.le_toRat hd.ge)

theorem abs_toRat_le (h : IsNearest x a) (hd : |x| ≤ |d.toRat|) : |a.toRat| ≤ |d.toRat| := by
  obtain ⟨c, hc, hvalue⟩ := h.exists_represents
  exact hvalue ▸ hc.abs_le_of_abs_le hd

theorem toRat_le_natCast {n : Nat} (h : IsNearest x a) (hn : n ≤ maxMantissa) (hx : x ≤ n) :
    a.toRat ≤ n := by
  rw [← toRat_ofNat hn] at hx ⊢
  exact h.toRat_le hx

theorem natCast_le_toRat {n : Nat} (h : IsNearest x a) (hn : n ≤ maxMantissa) (hx : n ≤ x) :
    n ≤ a.toRat := by
  rw [← toRat_ofNat hn] at hx ⊢
  exact h.le_toRat hx

/-- What is not rounded to zero is rounded down by a third at most. -/
theorem abs_le_of_ne_zero (h : IsNearest x a) (ha : a.toRat ≠ 0) : |x| ≤ 3 / 2 * |a.toRat| := by
  obtain ⟨c, hc, hvalue⟩ := h.exists_represents
  have hone : (1 : Rat) ≤ c.mantissa := by
    rw [← hvalue, Ne, toRat_eq_zero_iff, Bool.not_eq_true] at ha
    exact_mod_cast mantissa_pos_iff.mpr ha
  rw [← hvalue, abs_toRat, ← mul_div_assoc, le_div_iff₀ (tenTo_cast_pos _)]
  linarith [hc.le_mantissa]

theorem nonneg (h : IsNearest x a) (hx : 0 ≤ x) : 0 ≤ a.toRat := by
  rw [← toRat_zero] at hx ⊢
  exact h.le_toRat hx

theorem nonpos (h : IsNearest x a) (hx : x ≤ 0) : a.toRat ≤ 0 := by
  rw [← toRat_zero] at hx ⊢
  exact h.toRat_le hx

end IsNearest

/-- What is not above the largest mantissa is rounded to a decimal. -/
theorem isSome_ofRat? (hx : |x| ≤ maxMantissa) : (ofRat? x).isSome := by
  have hround := (abs_le.mp (abs_div_sub_roundDiv_le .toEven x.num.natAbs x.den_pos)).1
  rw [← abs_eq_natAbs_div] at hround
  have hlt : (roundDiv .toEven x.num.natAbs x.den : Rat) < maxMantissa + 1 := by linarith
  exact isSome_nearest?_of_fits (Nat.lt_succ_iff.mp (by exact_mod_cast hlt))

section Result

variable {result : Option Decimal} (hresult : result.map toRat = (ofRat? x).map toRat)
include hresult

theorem isNearest_of_eq_some (h : result = some a) : IsNearest x a := by
  rw [IsNearest, ← hresult, h, Option.map_some]

theorem exists_isNearest (hx : |x| ≤ maxMantissa) : ∃ a, result = some a ∧ IsNearest x a := by
  have hsome := isSome_ofRat? hx
  rw [← Option.isSome_map (f := toRat), ← hresult, Option.isSome_map] at hsome
  obtain ⟨a, ha⟩ := Option.isSome_iff_exists.mp hsome
  exact ⟨a, ha, isNearest_of_eq_some hresult ha⟩

end Result

/-! ## Whole numbers -/

theorem exists_toRat_eq_intCast {z : Int} (hz : z.natAbs ≤ maxMantissa) :
    ∃ d : Decimal, d.toRat = z := by
  refine ⟨⟨decide (z < 0), z.natAbs, 0, hz, by decide⟩, ?_⟩
  have hsigned : signed ⟨decide (z < 0), z.natAbs, 0, hz, by decide⟩ = z := by
    unfold signed
    dsimp only
    split
    case isTrue h => have := of_decide_eq_true h; omega
    case isFalse h => have := of_decide_eq_false (Bool.eq_false_iff.mpr h); omega
  rw [toRat_eq_div, hsigned, tenTo_zero, Nat.cast_one, div_one]

theorem natAbs_le_iff {z : Int} : z.natAbs ≤ maxMantissa ↔ |(z : Rat)| ≤ maxMantissa := by
  rw [← Int.cast_abs, Int.abs_eq_natAbs, Int.cast_natCast, Nat.cast_le]

/-- A whole number is rounded only to itself: when it is too large for a mantissa, it overflows. -/
theorem IsNearest.natAbs_le {z : Int} (h : IsNearest z a) : z.natAbs ≤ maxMantissa := by
  obtain ⟨c, hc, -⟩ := h.exists_represents
  by_contra hlarge
  have hz : (maxMantissa : Rat) + 1 ≤ |(z : Rat)| := by
    rw [← Int.cast_abs, Int.abs_eq_natAbs, Int.cast_natCast]
    exact_mod_cast Nat.lt_of_not_le hlarge
  have hunit : (1 : Rat) ≤ tenTo c.scale := by exact_mod_cast tenTo_pos c.scale
  have hmantissa : (c.mantissa : Rat) ≤ maxMantissa := Nat.cast_le.mpr c.mantissa_le
  have hmul : |(z : Rat)| ≤ |(z : Rat)| * tenTo c.scale :=
    le_mul_of_one_le_right (abs_nonneg _) hunit
  linarith [hc.le_mantissa]

theorem IsNearest.toRat_eq_intCast {z : Int} (h : IsNearest z a) : a.toRat = z := by
  obtain ⟨d, hd⟩ := exists_toRat_eq_intCast h.natAbs_le
  rw [h.toRat_eq hd.symm, hd]

/-! ## Differences and products -/

theorem map_toRat_sub? (a b : Decimal) :
    (a.sub? b).map toRat = (ofRat? (a.toRat - b.toRat)).map toRat := by
  unfold sub?
  split
  case isTrue hb =>
    have hb0 := toRat_eq_zero_iff.mpr hb
    rw [hb0, sub_zero, ofRat?_toRat]
    split
    case isTrue ha => rw [Option.map_some, hb0, toRat_eq_zero_iff.mpr ha]
    case isFalse => rfl
  case isFalse => rw [map_toRat_add?, toRat_neg, sub_eq_add_neg]

theorem toRat_mul_toRat (a b : Decimal) : a.toRat * b.toRat =
    mkRat ((if a.negative != b.negative then -1 else 1) * (a.mantissa * b.mantissa : Nat))
      (tenTo (a.scale + b.scale)) := by
  rw [toRat_eq_div, toRat_eq_div, Rat.mkRat_eq_div, div_mul_div_comm, tenTo_add]
  cases ha : a.negative <;> cases hb : b.negative <;> simp [signed, ha, hb]

/-- A product of two short mantissas with more decimals than are rounded away rounds to zero. -/
theorem map_toRat_nearest?_short {product places : Nat}
    (hproduct : product < wordSize32 * wordSize32) (hplaces : maxScale + shortDigits < places) :
    (nearest? negative product (tenTo places) maxScale (Nat.le_refl _)).map toRat = some 0 := by
  obtain ⟨more, rfl⟩ := Nat.exists_eq_add_of_lt hplaces
  have hhalf : 2 * (product * tenTo maxScale) < tenTo (maxScale + shortDigits + more + 1) := by
    calc 2 * (product * tenTo maxScale)
        ≤ 2 * (wordSize32 * wordSize32 * tenTo maxScale) :=
          Nat.mul_le_mul_left 2 (Nat.mul_le_mul_right _ hproduct.le)
      _ < tenTo (maxScale + shortDigits + 1) := by decide
      _ ≤ tenTo (maxScale + shortDigits + more + 1) :=
          Nat.pow_le_pow_right (by decide) (by omega)
  have hround := roundDiv_of_lt_half .toEven hhalf
  rw [nearest?, dif_pos (hround.le.trans (Nat.zero_le _)), Option.map_some, Option.some_inj,
    toRat_eq_zero_iff]
  exact beq_iff_eq.mpr hround

/-- **A product is the decimal nearest to what the factors multiply to.** -/
theorem map_toRat_mul? (a b : Decimal) :
    (a.mul? b).map toRat = (ofRat? (a.toRat * b.toRat)).map toRat := by
  unfold mul?
  split
  case isTrue h =>
    have hproduct : a.toRat * b.toRat = zero.toRat := by
      rw [toRat_zero, mul_eq_zero, toRat_eq_zero_iff, toRat_eq_zero_iff, ← Bool.or_eq_true]
      exact h
    rw [hproduct, ofRat?_toRat, Option.map_some]
  case isFalse h =>
    rw [Bool.or_eq_true, not_or, Bool.not_eq_true, Bool.not_eq_true] at h
    have hpos := Nat.mul_pos (mantissa_pos_iff.mpr h.1) (mantissa_pos_iff.mpr h.2)
    have hexact : (fit? (a.negative != b.negative) (a.mantissa * b.mantissa)
        (a.scale + b.scale)).map toRat = (ofRat? (a.toRat * b.toRat)).map toRat := by
      rw [map_toRat_fit?, toRat_mul_toRat, ofRat?_signed _ hpos (tenTo_pos _)]
    dsimp only
    split
    case isTrue => exact hexact
    case isFalse hshort =>
      split
      case isTrue hplaces =>
        have hshort' : a.isShort = true ∧ b.isShort = true := by simpa using hshort
        have hproduct : a.mantissa * b.mantissa < wordSize32 * wordSize32 :=
          Nat.mul_lt_mul'' (of_decide_eq_true hshort'.1) (of_decide_eq_true hshort'.2)
        rw [← hexact, map_toRat_fit?, map_toRat_nearest?_short hproduct hplaces, Option.map_some,
          toRat_zero]
      case isFalse =>
        rw [Option.map_map, ← hexact]
        congr 1
        funext d
        exact (same_iff.mp (same_unsignedZero d)).symm

end Decimal
end DecisionModel
