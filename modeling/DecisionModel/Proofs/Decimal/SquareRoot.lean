import DecisionModel.Proofs.Decimal.Nearest

/-!
# Square roots

Newton's iteration divides by what it has reached, so its steps could fail in two ways: what it has
reached could be rounded to zero, or be so small that the quotient is too large for a decimal. Neither
happens. It starts well above the root or next to it, and from there on a next member that is small
has both a small member and a small quotient before it, whose product is the number under the root.

That does not make it come to an end. Near the root a step is little more than rounding, and members
may go round in a circle for ever. So a number that is not negative has a root unless its iteration is
`Unsettled`, and then the search is given up.
-/

namespace DecisionModel.Decimal

variable {x root quotient sum next d : Decimal}

/-! ## The smallest decimals -/

/-- So many units of the last place. -/
def lastPlaces (n : Nat) (hn : n ≤ maxMantissa) : Decimal := ⟨false, n, maxScale, hn, Nat.le_refl _⟩

theorem toRat_lastPlaces {n : Nat} (hn : n ≤ maxMantissa) :
    (lastPlaces n hn).toRat = n / tenTo maxScale := toRat_mk ..

theorem isZero_eq_false_of_pos (h : 0 < d.toRat) : d.isZero = false := by
  rw [← Bool.not_eq_true, ← toRat_eq_zero_iff]
  exact h.ne'

theorem lastPlace_le_toRat (h : 0 < d.toRat) : 1 / (tenTo maxScale : Rat) ≤ d.toRat := by
  have hmantissa : (1 : Rat) ≤ d.mantissa := by
    exact_mod_cast mantissa_pos_iff.mpr (isZero_eq_false_of_pos h)
  have hunit : (tenTo d.scale : Rat) ≤ tenTo maxScale :=
    Nat.cast_le.mpr (Nat.pow_le_pow_right (by decide) d.scale_le)
  rw [← abs_of_pos h, abs_toRat]
  exact div_le_div₀ (Nat.cast_nonneg _) hmantissa (tenTo_cast_pos _) hunit

/-- Only what is small is rounded to zero. -/
theorem IsNearest.lt_one {y : Rat} (h : IsNearest y d) (hd : d.toRat = 0) : y < 1 := by
  by_contra! hone
  have hle := h.natCast_le_toRat (n := 1) (by decide) (by rwa [Nat.cast_one])
  rw [hd, Nat.cast_one] at hle
  linarith

theorem isNearest_half (h : x.div? two = some next) : IsNearest (x.toRat / 2) next := by
  rw [← toRat_two]
  exact isNearest_of_eq_some (map_toRat_div? rfl) h

/-! ## One step -/

/-- The range in which the iteration for the root of `x` stays. -/
structure Reaches (x root : Decimal) : Prop where
  pos : 0 < root.toRat
  le : root.toRat ≤ (2 ^ 95 : Nat)
  covers : x.toRat ≤ 16 * (root.toRat * (root.toRat + 1))

namespace Reaches

/-- The quotient is in range: a member below four has a number under the root that is small too. -/
theorem div_le (h : Reaches x root) : x.toRat / root.toRat ≤ (2 ^ 94 : Nat) := by
  rw [div_le_iff₀ h.pos]
  rcases le_or_gt 4 root.toRat with hlarge | hsmall
  · calc x.toRat ≤ maxMantissa := (abs_le.mp (abs_toRat_le_maxMantissa x)).2
      _ ≤ (2 ^ 94 : Nat) * 4 := by norm_num [maxMantissa]
      _ ≤ (2 ^ 94 : Nat) * root.toRat := mul_le_mul_of_nonneg_left hlarge (Nat.cast_nonneg _)
  · calc x.toRat ≤ 16 * (root.toRat * (root.toRat + 1)) := h.covers
      _ = 16 * (root.toRat + 1) * root.toRat := by ring
      _ ≤ (2 ^ 94 : Nat) * root.toRat := by
        apply mul_le_mul_of_nonneg_right _ h.pos.le
        norm_num
        linarith

/-- Rounding takes little from the quotient, or the quotient is small. -/
theorem div_le_of_isNearest (hx : 0 ≤ x.toRat / root.toRat)
    (h : IsNearest (x.toRat / root.toRat) quotient) :
    x.toRat / root.toRat ≤ 3 / 2 * quotient.toRat + 1 := by
  have hquotient := h.nonneg hx
  rcases eq_or_ne quotient.toRat 0 with hzero | hne
  · linarith [h.lt_one hzero]
  · have hle := h.abs_le_of_ne_zero hne
    rw [abs_of_nonneg hx, abs_of_nonneg hquotient] at hle
    linarith

/-- Half the sum is not rounded to zero: what is reached and the quotient are not both of the last
place. -/
theorem half_pos (h : Reaches x root) (hx : 0 < x.toRat)
    (hquotient : IsNearest (x.toRat / root.toRat) quotient) (hroot : root.toRat ≤ sum.toRat)
    (hsum : quotient.toRat ≤ sum.toRat) (hnext : IsNearest (sum.toRat / 2) next) :
    0 < next.toRat := by
  have hunit : 0 < 1 / (tenTo maxScale : Rat) := one_div_pos.mpr (tenTo_cast_pos _)
  have hone : (lastPlaces 1 (by decide)).toRat = 1 / tenTo maxScale := by
    rw [toRat_lastPlaces, Nat.cast_one]
  have htwo : (lastPlaces 2 (by decide)).toRat = 2 * (1 / tenTo maxScale) := by
    rw [toRat_lastPlaces, Nat.cast_ofNat, mul_one_div]
  have hlarge : 2 * (1 / (tenTo maxScale : Rat)) ≤ sum.toRat := by
    rcases le_or_gt (2 * (1 / (tenTo maxScale : Rat))) root.toRat with hle | hlt
    · exact hle.trans hroot
    · refine le_trans ?_ hsum
      rw [← htwo]
      apply hquotient.le_toRat
      have hhalf : 1 / 2 ≤ x.toRat / root.toRat := by
        rw [le_div_iff₀ h.pos]
        linarith [lastPlace_le_toRat hx]
      refine le_trans ?_ hhalf
      rw [htwo]
      norm_num [tenTo, maxScale]
  have hle := hnext.le_toRat (d := lastPlaces 1 (by decide)) (by rw [hone]; linarith)
  rw [hone] at hle
  exact hunit.trans_le hle

/-- Neither part of the sum is much larger than half of it. -/
theorem covers_next (h : Reaches x root) (hx : 0 < x.toRat)
    (hquotient : IsNearest (x.toRat / root.toRat) quotient) (hroot : root.toRat ≤ sum.toRat)
    (hsum : quotient.toRat ≤ sum.toRat) (hhalf : sum.toRat / 2 ≤ 3 / 2 * next.toRat)
    (hnext : 0 < next.toRat) : x.toRat ≤ 16 * (next.toRat * (next.toRat + 1)) := by
  have hdiv := div_le_of_isNearest (div_pos hx h.pos).le hquotient
  calc x.toRat = x.toRat / root.toRat * root.toRat := (div_mul_cancel₀ _ h.pos.ne').symm
    _ ≤ (9 / 2 * next.toRat + 1) * (3 * next.toRat) := by
      apply mul_le_mul _ _ h.pos.le _ <;> linarith
    _ ≤ 16 * (next.toRat * (next.toRat + 1)) := by nlinarith

/-- **One step.** From within the range no operation fails, and the next member is in it again. -/
theorem step (h : Reaches x root) (hx : 0 < x.toRat) :
    ∃ next, newtonStep? x root = some next ∧ Reaches x next := by
  have hpos := div_pos hx h.pos
  have hsmall := h.div_le
  obtain ⟨quotient, hdiv, hquotient⟩ :=
    exists_isNearest (map_toRat_div? (a := x) (isZero_eq_false_of_pos h.pos)) (by
      rw [abs_of_pos hpos]
      exact hsmall.trans (by norm_num [maxMantissa]))
  have hquotientPos := hquotient.nonneg hpos.le
  have hquotientLe := hquotient.toRat_le_natCast (by decide) hsmall
  have hrootLe := h.le
  have hrootPos := h.pos
  push_cast at hquotientLe hrootLe
  have hsumLe : root.toRat + quotient.toRat ≤ (2 ^ 95 + 2 ^ 94 : Nat) := by
    push_cast
    linarith
  obtain ⟨sum, hadd, hsum⟩ := exists_isNearest (map_toRat_add? root quotient) (by
    rw [abs_of_nonneg (by linarith)]
    exact hsumLe.trans (by norm_num [maxMantissa]))
  have hle := hsum.toRat_le_natCast (by decide) hsumLe
  have hroot := hsum.le_toRat (d := root) (by linarith)
  have hquotientSum := hsum.le_toRat (d := quotient) (by linarith)
  obtain ⟨next, hhalf⟩ := Option.isSome_iff_exists.mp (isSome_div?_two sum)
  have hnext := isNearest_half hhalf
  have hnextPos := h.half_pos hx hquotient hroot hquotientSum hnext
  have hnextLe := hnext.abs_le_of_ne_zero hnextPos.ne'
  rw [abs_of_pos hnextPos, abs_of_nonneg (by linarith)] at hnextLe
  have hstep : newtonStep? x root = some next := by
    rw [newtonStep?, hdiv, Option.bind_eq_bind, Option.bind_some, hadd, Option.bind_some, hhalf]
  refine ⟨next, hstep, hnextPos, ?_, ?_⟩
  · apply hnext.toRat_le_natCast (by decide)
    push_cast at hle ⊢
    linarith
  · exact h.covers_next hx hquotient hroot hquotientSum hnextLe hnextPos

end Reaches

/-! ## The iteration -/

/-- The members of the iteration for the root of a number. -/
def rootMember? (x : Decimal) : Nat → Option Decimal
  | 0 => rootStart? x
  | n + 1 => rootMember? x n >>= newtonStep? x

/-- In all the rounds that the iteration may take, no member repeats the one before it. -/
def Unsettled (x : Decimal) : Prop :=
  ∀ n < rootRounds, ∃ a b, rootMember? x n = some a ∧ rootMember? x (n + 1) = some b ∧
    a.same b = false

theorem newton?_reaches {rounds : Nat} {last r : Decimal} (h : Reaches x root) (hx : 0 < x.toRat)
    (hr : newton? x rounds last root = some r) : Reaches x r := by
  induction rounds generalizing last root with
  | zero =>
    rw [newton?] at hr
    split at hr
    · exact Option.some.inj hr ▸ h
    · cases hr
  | succ rounds ih =>
    obtain ⟨next, hstep, hnext⟩ := h.step hx
    rw [newton?, hstep] at hr
    split at hr
    · exact Option.some.inj hr ▸ h
    · exact ih hnext hr

/-- What the search that is given up has gone through, from its member with the number `k` on. -/
theorem members_of_newton? {rounds k : Nat} {last : Decimal} (h : Reaches x root)
    (hx : 0 < x.toRat) (hk : rootMember? x k = some root)
    (hnone : newton? x rounds last root = none) :
    last.same root = false ∧ ∀ n, k ≤ n → n < k + rounds →
      ∃ a b, rootMember? x n = some a ∧ rootMember? x (n + 1) = some b ∧ a.same b = false := by
  induction rounds generalizing k last root with
  | zero =>
    rw [newton?, ite_eq_right_iff] at hnone
    exact ⟨by simpa using hnone, fun n hle hlt => absurd hlt (Nat.not_lt.mpr hle)⟩
  | succ rounds ih =>
    obtain ⟨next, hstep, hnext⟩ := h.step hx
    rw [newton?, hstep] at hnone
    split at hnone
    · cases hnone
    · next hdiffer =>
      have hmember : rootMember? x (k + 1) = some next := by
        rw [rootMember?, hk]
        exact hstep
      obtain ⟨hfirst, hrest⟩ := ih hnext hmember hnone
      refine ⟨by simpa using hdiffer, fun n hle hlt => ?_⟩
      rcases Nat.eq_or_lt_of_le hle with rfl | hlater
      · exact ⟨root, next, hk, hmember, hfirst⟩
      · exact hrest n hlater (by omega)

/-- The iteration starts in the range, from half the number, or from the number itself when half of
it is rounded to zero. -/
theorem reaches_start (hx : 0 < x.toRat) (hhalf : IsNearest (x.toRat / 2) root) :
    Reaches x (if root.isZero then x else root) := by
  have hmax := (abs_le.mp (abs_toRat_le_maxMantissa x)).2
  have hroot := hhalf.nonneg (by linarith)
  split
  case isTrue hzero =>
    have hsmall : x.toRat ≤ 2 := by linarith [hhalf.lt_one (toRat_eq_zero_iff.mpr hzero)]
    refine ⟨hx, hsmall.trans (by norm_num), ?_⟩
    nlinarith
  case isFalse hne =>
    rw [← toRat_eq_zero_iff] at hne
    have hpos := lt_of_le_of_ne hroot (Ne.symm hne)
    have hle := hhalf.abs_le_of_ne_zero hne
    rw [abs_of_pos hpos, abs_of_pos (by linarith)] at hle
    refine ⟨hpos, hhalf.toRat_le_natCast (by decide) ?_, by nlinarith⟩
    norm_num [maxMantissa] at hmax ⊢
    linarith

theorem exists_rootStart? (hx : 0 < x.toRat) :
    ∃ start other, rootStart? x = some start ∧ start.add? one = some other ∧ Reaches x start := by
  obtain ⟨half, hhalf⟩ := Option.isSome_iff_exists.mp (isSome_div?_two x)
  have hstart := reaches_start hx (isNearest_half hhalf)
  -- the number before the first one is there only to be another one
  obtain ⟨other, hother, -⟩ :=
    exists_isNearest (map_toRat_add? (if half.isZero then x else half) one) (by
      have hle := hstart.le
      rw [toRat_one, abs_of_pos (by linarith [hstart.pos])]
      norm_num [maxMantissa] at hle ⊢
      linarith)
  refine ⟨_, other, ?_, hother, hstart⟩
  rw [rootStart?, hhalf]
  rfl

/-- **Every number that is not negative has a square root, which is not negative either, unless its
iteration does not settle.** No operation on the way leaves the range of decimals. -/
theorem exists_sqrt?_or_unsettled (hx : 0 ≤ x.toRat) :
    (∃ root, x.sqrt? = some root ∧ 0 ≤ root.toRat) ∨ x.sqrt? = none ∧ x.Unsettled := by
  unfold sqrt?
  split
  case isTrue => exact .inl ⟨zero, rfl, toRat_nonneg rfl⟩
  case isFalse hzero =>
    have hpos : 0 < x.toRat := lt_of_le_of_ne hx fun h => hzero (toRat_eq_zero_iff.mp h.symm)
    obtain ⟨start, other, hstart, hother, hreaches⟩ := exists_rootStart? hpos
    rw [hstart, Option.bind_eq_bind, Option.bind_some, hother, Option.bind_some]
    cases hroot : newton? x rootRounds other start with
    | some root => exact .inl ⟨root, rfl, (newton?_reaches hreaches hpos hroot).pos.le⟩
    | none =>
      have hfirst : rootMember? x 0 = some start := hstart
      obtain ⟨-, hmembers⟩ := members_of_newton? hreaches hpos hfirst hroot
      exact .inr ⟨rfl, fun n hn => hmembers n (Nat.zero_le n) (by rwa [Nat.zero_add])⟩

/-- The least decimal above two, and the fourth one above four. -/
def aboveTwo : Decimal := ⟨false, 20000000000000000000000000001, 28, by decide, Nat.le_refl _⟩
def aboveFour : Decimal := ⟨false, 40000000000000000000000000003, 28, by decide, Nat.le_refl _⟩

/-- The iteration for the root of `aboveFour` goes back and forth between two and `aboveTwo`. -/
example : newtonStep? aboveFour two = some aboveTwo ∧
    (newtonStep? aboveFour aboveTwo).any (·.same two) = true ∧ two.same aboveTwo = false := by
  decide +kernel

end DecisionModel.Decimal
