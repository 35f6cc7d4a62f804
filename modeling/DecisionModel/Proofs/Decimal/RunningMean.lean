import DecisionModel.Proofs.Decimal.Nearest

/-!
# The running mean

A mean that is kept while numbers are seen moves towards each of them, by the part of the distance
that one of so many numbers has in the mean. Exactly, it does not move past the number, so that the
distance after the move has the same sign as the one before.

Every step of it is rounded. The increment is the rounded quotient of a rounded distance, so it
could be larger than the distance itself. From the second number on it is half of the rounded
distance at most, and half of what a distance is rounded to is no more than the distance, or than a
decimal that is not more. The first number is where the mean moves to.
-/

namespace DecisionModel.Decimal

variable {a b c number mean delta step mean' residual : Decimal} {x k : Rat}

/-! ## Half of a rounded distance -/

/-- A difference counted in units of the last place is whole. -/
theorem exists_abs_sub_mul_tenTo (a b : Decimal) :
    ∃ n : Nat, |a.toRat - b.toRat| * tenTo maxScale = n := by
  refine ⟨(a.units maxScale - b.units maxScale).natAbs, ?_⟩
  rw [toRat_eq_mkRat_units a.scale_le, toRat_eq_mkRat_units b.scale_le, Rat.mkRat_eq_div,
    Rat.mkRat_eq_div, ← sub_div, abs_div, abs_of_pos (tenTo_cast_pos maxScale),
    div_mul_cancel₀ _ (tenTo_ne_zero maxScale), Nat.cast_natAbs, Int.cast_abs, Int.cast_sub]

/-- Only in the last place is a number rounded to a single unit, or to none. -/
theorem Represents.scale_eq_maxScale (h : Represents x c) (hc : c.mantissa ≤ 1) :
    c.scale = maxScale := by
  by_contra hne
  have htight := h.tight (lt_of_le_of_ne c.scale_le hne)
  have hle := h.le_mantissa
  have hone : (c.mantissa : Rat) ≤ 1 := by exact_mod_cast hc
  rw [tenTo_succ, Nat.cast_mul, Nat.cast_ofNat, ← mul_assoc] at htight
  norm_num [maxMantissa] at htight
  linarith

/-- Half of what a number is rounded to, rounded up to whole units, is not more than the number. The
number must be whole in the last place, so that a single unit was not rounded up. -/
theorem Represents.half_le (h : Represents x c) (hwhole : ∃ n : Nat, |x| * tenTo maxScale = n) :
    (((c.mantissa + 1) / 2 : Nat) : Rat) ≤ |x| * tenTo c.scale := by
  have hmantissa := h.mantissa_le
  by_cases hsmall : c.mantissa ≤ 1
  · obtain ⟨n, hn⟩ := hwhole
    rw [h.scale_eq_maxScale hsmall, hn] at hmantissa ⊢
    have hlt : c.mantissa < n + 1 := by
      have : (c.mantissa : Rat) < n + 1 := by linarith
      exact_mod_cast this
    have hle : (c.mantissa + 1) / 2 ≤ n := by omega
    exact_mod_cast hle
  · have htwice : 2 * ((c.mantissa + 1) / 2) + 1 ≤ 2 * c.mantissa := by omega
    have htwice' : 2 * (((c.mantissa + 1) / 2 : Nat) : Rat) + 1 ≤ 2 * c.mantissa := by
      exact_mod_cast htwice
    linarith

/-- Between half of what a number is rounded to and the number itself there is a decimal. -/
theorem Represents.exists_between (h : Represents x c)
    (hwhole : ∃ n : Nat, |x| * tenTo maxScale = n) :
    ∃ d : Decimal, |c.toRat| / 2 ≤ |d.toRat| ∧ |d.toRat| ≤ |x| := by
  have hunit := tenTo_cast_pos c.scale
  have hfits : (c.mantissa + 1) / 2 ≤ maxMantissa := by
    have := c.mantissa_le
    have : 1 ≤ maxMantissa := by decide
    omega
  refine ⟨⟨false, (c.mantissa + 1) / 2, c.scale, hfits, c.scale_le⟩, ?_, ?_⟩
  · rw [abs_toRat, abs_toRat, div_right_comm]
    apply div_le_div_of_nonneg_right _ hunit.le
    have htwice : (c.mantissa : Rat) ≤ 2 * ((c.mantissa + 1) / 2 : Nat) := by
      exact_mod_cast (by omega : c.mantissa ≤ 2 * ((c.mantissa + 1) / 2))
    dsimp only
    linarith
  · rw [abs_toRat, div_le_iff₀ hunit]
    exact h.half_le hwhole

/-! ## The next mean -/

/-- The number of values seen, this one included, as what the increment is divided by: two at least,
or one, and then there is no mean yet. -/
def Divides (k : Rat) (mean : Decimal) : Prop := 2 ≤ k ∨ k = 1 ∧ mean.toRat = 0

theorem Divides.pos (h : Divides k mean) : 0 < k := by
  rcases h with htwo | ⟨rfl, -⟩
  · linarith
  · exact one_pos

/-- **The increment** of the mean is not larger than the distance of the number from it, although
both are rounded. -/
theorem abs_increment_le (hk : Divides k mean)
    (hdelta : IsNearest (number.toRat - mean.toRat) delta)
    (hstep : IsNearest (delta.toRat / k) step) :
    |step.toRat| ≤ |number.toRat - mean.toRat| := by
  rcases hk with htwo | ⟨rfl, hmean⟩
  · obtain ⟨c, hc, hvalue⟩ := hdelta.exists_represents
    obtain ⟨d, hhalf, hle⟩ := hc.exists_between (exists_abs_sub_mul_tenTo number mean)
    refine (hstep.abs_toRat_le ?_).trans hle
    rw [abs_div, abs_of_pos (zero_lt_two.trans_le htwo), ← hvalue]
    exact (div_le_div_of_nonneg_left (abs_nonneg _) zero_lt_two htwo).trans hhalf
  · rw [hmean, sub_zero] at hdelta ⊢
    rw [div_one] at hstep
    rw [hstep.toRat_eq rfl, hdelta.toRat_eq rfl]

/-- **The mean does not pass the number**, so the distances before and after have one sign. -/
theorem mul_residual_nonneg (hk : Divides k mean)
    (hdelta : IsNearest (number.toRat - mean.toRat) delta)
    (hstep : IsNearest (delta.toRat / k) step)
    (hmean : IsNearest (mean.toRat + step.toRat) mean')
    (hresidual : IsNearest (number.toRat - mean'.toRat) residual) :
    0 ≤ delta.toRat * residual.toRat := by
  have hle := abs_increment_le hk hdelta hstep
  rcases le_total mean.toRat number.toRat with hup | hdown
  · have hdelta0 := hdelta.nonneg (sub_nonneg.mpr hup)
    have hstep0 := hstep.nonneg (div_nonneg hdelta0 hk.pos.le)
    rw [abs_of_nonneg hstep0, abs_of_nonneg (sub_nonneg.mpr hup)] at hle
    have hmean' := hmean.toRat_le (d := number) (by linarith)
    exact mul_nonneg hdelta0 (hresidual.nonneg (sub_nonneg.mpr hmean'))
  · have hdelta0 := hdelta.nonpos (sub_nonpos.mpr hdown)
    have hstep0 := hstep.nonpos (div_nonpos_of_nonpos_of_nonneg hdelta0 hk.pos.le)
    rw [abs_of_nonpos hstep0, abs_of_nonpos (sub_nonpos.mpr hdown)] at hle
    have hmean' := hmean.le_toRat (d := number) (by linarith)
    exact mul_nonneg_of_nonpos_of_nonpos hdelta0 (hresidual.nonpos (sub_nonpos.mpr hmean'))

end DecisionModel.Decimal
