import DecisionModel.Operator.Number
import DecisionModel.Proofs.Bind
import DecisionModel.Proofs.Decimal.Nearest
import Mathlib.Algebra.Order.Ring.Abs

/-!
# Whole powers

Products of whole numbers are exact or overflow, since rounding has nothing to take off a whole
number, however many zeros it is written with. So a whole power of a whole number is exact as soon
as every product on the way to it fits.

Repeated squaring takes only products that the power needs: before round `k` the factor is the power
of the base whose exponent is `2 ^ k`, and what is multiplied so far is the one whose exponent is
the part of the whole exponent below `2 ^ k`. Both are divisors of the power. The last square is not
taken, because it would be one too many.
-/

namespace DecisionModel

namespace Decimal

variable {a b c base p : Decimal} {x y z : Int} {n k : Nat}

/-! ## Products of whole numbers -/

/-- A product of whole numbers that is there is exact. -/
theorem toRat_of_mul?_eq_some (ha : a.toRat = x) (hb : b.toRat = y) (h : a.mul? b = some c) :
    c.toRat = (x * y : Int) := by
  have hnearest := isNearest_of_eq_some (map_toRat_mul? a b) h
  rw [ha, hb, ← Int.cast_mul] at hnearest
  exact hnearest.toRat_eq_intCast

/-- A product of whole numbers that fits is there. -/
theorem exists_mul?_eq_some (ha : a.toRat = x) (hb : b.toRat = y)
    (hfits : (x * y).natAbs ≤ maxMantissa) :
    ∃ c, a.mul? b = some c ∧ c.toRat = (x * y : Int) := by
  have hle : |a.toRat * b.toRat| ≤ maxMantissa := by
    rw [ha, hb, ← Int.cast_mul, ← natAbs_le_iff]
    exact hfits
  obtain ⟨c, hc, -⟩ := exists_isNearest (map_toRat_mul? a b) hle
  exact ⟨c, hc, toRat_of_mul?_eq_some ha hb hc⟩

theorem natAbs_le_of_toRat (ha : a.toRat = x) : x.natAbs ≤ maxMantissa := by
  rw [natAbs_le_iff, ← ha]
  exact abs_toRat_le_maxMantissa a

/-- Smaller exponents have smaller powers, but for those of zero, which are small anyway. -/
theorem natAbs_pow_le (hle : k ≤ n) (hfits : (x ^ n).natAbs ≤ maxMantissa) :
    (x ^ k).natAbs ≤ maxMantissa := by
  rw [Int.natAbs_pow] at *
  rcases Nat.eq_zero_or_pos x.natAbs with hzero | hpos
  · have hone : 0 ^ k ≤ 1 := pow_le_one₀ (le_refl 0) zero_le_one
    rw [hzero]
    exact hone.trans (by decide)
  · exact (Nat.pow_le_pow_right hpos hle).trans hfits

/-! ## Rounds -/

/-- What is multiplied so far after one more bit of the exponent. -/
def multiplied? (result factor : Decimal) (exponent : Nat) : Option Decimal :=
  if exponent % 2 = 1 then result.mul? factor else some result

theorem powerFrom?_eq {result factor : Decimal} {exponent : Nat} (hne : exponent ≠ 0) :
    powerFrom? result factor exponent = (multiplied? result factor exponent).bind fun product =>
      if exponent / 2 = 0 then some product
      else (factor.mul? factor).bind fun square => powerFrom? product square (exponent / 2) := by
  rw [powerFrom?, dif_neg hne, multiplied?]
  by_cases hbit : exponent % 2 = 1
  · simp only [if_pos hbit]
    rfl
  · simp only [if_neg hbit]
    rfl

/-- What repeated squaring has before a round. -/
structure Squaring where
  result : Decimal
  factor : Decimal
  exponent : Nat

namespace Squaring

/-- One round that is not the last one. -/
def next? (s : Squaring) : Option Squaring := do
  let result ← multiplied? s.result s.factor s.exponent
  return ⟨result, ← s.factor.mul? s.factor, s.exponent / 2⟩

/-- What repeated squaring has after so many rounds. -/
def after? (s : Squaring) : Nat → Option Squaring
  | 0 => some s
  | rounds + 1 => do (← s.after? rounds).next?

/-- The power that the rounds from here on come to. -/
def finish? (s : Squaring) : Option Decimal := powerFrom? s.result s.factor s.exponent

variable {s s' : Squaring}

theorem finish?_next (hbits : s.exponent / 2 ≠ 0) (h : s.next? = some s') :
    s.finish? = s'.finish? := by
  obtain ⟨result, hresult, h⟩ := Option.bind_eq_some_iff.mp h
  obtain ⟨factor, hfactor, h⟩ := Option.bind_eq_some_iff.mp h
  obtain rfl := Option.some.inj h
  rw [finish?, powerFrom?_eq (fun hzero => hbits (by rw [hzero])), hresult, Option.bind_some,
    if_neg hbits, hfactor, Option.bind_some, finish?]

/-- The powers that there are before round `k`. -/
structure Holds (s : Squaring) (x : Int) (n k : Nat) : Prop where
  exponent : s.exponent = n / 2 ^ k
  factor : s.factor.toRat = (x ^ 2 ^ k : Int)
  result : s.result.toRat = (x ^ (n % 2 ^ k) : Int)

namespace Holds

theorem mod_of_bit (h : s.Holds x n k) (hbit : s.exponent % 2 = 1) :
    x ^ (n % 2 ^ k) * x ^ 2 ^ k = x ^ (n % 2 ^ (k + 1)) := by
  rw [Nat.mod_pow_succ, ← h.exponent, hbit, Nat.mul_one, pow_add]

theorem mod_of_no_bit (h : s.Holds x n k) (hbit : ¬s.exponent % 2 = 1) :
    x ^ (n % 2 ^ k) = x ^ (n % 2 ^ (k + 1)) := by
  have hzero : s.exponent % 2 = 0 := by omega
  rw [Nat.mod_pow_succ, ← h.exponent, hzero, Nat.mul_zero, Nat.add_zero]

/-- The product that a round takes when its bit is set fits, and so what is multiplied so far is the
next power that the round before needs. -/
theorem exists_result (h : s.Holds x n k) (hfits : (x ^ n).natAbs ≤ maxMantissa) :
    ∃ r, multiplied? s.result s.factor s.exponent = some r ∧
      r.toRat = (x ^ (n % 2 ^ (k + 1)) : Int) := by
  unfold multiplied?
  split
  case isTrue hbit =>
    rw [← h.mod_of_bit hbit]
    refine exists_mul?_eq_some h.result h.factor ?_
    rw [h.mod_of_bit hbit]
    exact natAbs_pow_le (Nat.mod_le n _) hfits
  case isFalse hbit => exact ⟨s.result, rfl, by rw [h.result, h.mod_of_no_bit hbit]⟩

/-- The square that a round takes while bits remain fits. -/
theorem exists_square (h : s.Holds x n k) (hbits : n / 2 ^ (k + 1) ≠ 0)
    (hfits : (x ^ n).natAbs ≤ maxMantissa) :
    ∃ f, s.factor.mul? s.factor = some f ∧ f.toRat = (x ^ 2 ^ (k + 1) : Int) := by
  have hsquare : x ^ 2 ^ k * x ^ 2 ^ k = x ^ 2 ^ (k + 1) := by
    rw [← pow_add, ← two_mul, ← pow_succ']
  have hle : 2 ^ (k + 1) ≤ n := by
    by_contra hlt
    exact hbits (Nat.div_eq_of_lt (Nat.lt_of_not_le hlt))
  rw [← hsquare]
  refine exists_mul?_eq_some h.factor h.factor ?_
  rw [hsquare]
  exact natAbs_pow_le hle hfits

/-- **One round.** -/
theorem next (h : s.Holds x n k) (hbits : n / 2 ^ (k + 1) ≠ 0)
    (hfits : (x ^ n).natAbs ≤ maxMantissa) :
    ∃ s', s.next? = some s' ∧ s'.Holds x n (k + 1) ∧ s.finish? = s'.finish? := by
  obtain ⟨result, hresult, hresultValue⟩ := h.exists_result hfits
  obtain ⟨factor, hfactor, hfactorValue⟩ := h.exists_square hbits hfits
  have hhalf : s.exponent / 2 = n / 2 ^ (k + 1) := by
    rw [h.exponent, Nat.div_div_eq_div_mul, pow_succ]
  have hnext : s.next? = some ⟨result, factor, s.exponent / 2⟩ := by
    rw [next?, hresult, hfactor]
    rfl
  exact ⟨_, hnext, ⟨hhalf, hfactorValue, hresultValue⟩, finish?_next (hhalf ▸ hbits) hnext⟩

end Holds

/-- The state from which the power of a base is computed. -/
def start (base : Decimal) (n : Nat) : Squaring := ⟨one, base, n⟩

theorem holds_start (hbase : base.toRat = x) (n : Nat) : (start base n).Holds x n 0 where
  exponent := by rw [pow_zero, Nat.div_one]; rfl
  factor := by rw [pow_zero, pow_one]; exact hbase
  result := by
    rw [pow_zero, Nat.mod_one, pow_zero]
    exact toRat_one.trans Int.cast_one.symm

/-- **The rounds.** While bits remain there is a next round, and it goes on to the same power. -/
theorem exists_after (hbase : base.toRat = x) (hfits : (x ^ n).natAbs ≤ maxMantissa)
    (hbits : n / 2 ^ k ≠ 0) :
    ∃ s, (start base n).after? k = some s ∧ s.Holds x n k ∧ base.power? n = s.finish? := by
  induction k with
  | zero => exact ⟨_, rfl, holds_start hbase n, rfl⟩
  | succ k ih =>
    have hbits' : n / 2 ^ k ≠ 0 := fun hzero => hbits (by
      rw [pow_succ, ← Nat.div_div_eq_div_mul, hzero])
    obtain ⟨s, hafter, hholds, hpower⟩ := ih hbits'
    obtain ⟨s', hnext, hholds', hfinish⟩ := hholds.next hbits hfits
    refine ⟨s', ?_, hholds', hpower.trans hfinish⟩
    rw [after?, hafter]
    exact hnext

end Squaring

/-! ## Powers -/

/-- The last round multiplies the two powers that make up the whole one. -/
theorem exists_power?_eq_some (hbase : base.toRat = x) (hfits : (x ^ n).natAbs ≤ maxMantissa) :
    ∃ p, base.power? n = some p ∧ p.toRat = (x ^ n : Int) := by
  rcases Nat.eq_zero_or_pos n with rfl | hpos
  · have hone := (Squaring.holds_start hbase 0).result
    exact ⟨one, by rw [power?, powerFrom?, dif_pos rfl], hone⟩
  · -- the highest bit of the exponent is left
    have hlast : n / 2 ^ n.log2 = 1 := by
      rw [Nat.div_eq_iff (Nat.two_pow_pos _)]
      have := Nat.log2_self_le hpos.ne'
      have := Nat.lt_log2_self (n := n)
      omega
    obtain ⟨s, -, hholds, hpower⟩ :=
      Squaring.exists_after (k := n.log2) hbase hfits (by rw [hlast]; exact one_ne_zero)
    obtain ⟨p, hp, hvalue⟩ := hholds.exists_result hfits
    have hmod : n % 2 ^ (n.log2 + 1) = n := Nat.mod_eq_of_lt Nat.lt_log2_self
    refine ⟨p, ?_, by rw [hvalue, hmod]⟩
    have hone : s.exponent = 1 := hholds.exponent.trans hlast
    rw [hpower, Squaring.finish?, powerFrom?_eq (by rw [hone]; exact one_ne_zero), hp,
      Option.bind_some, hone]
    rfl

/-- A power of a whole number that is there is exact. -/
theorem toRat_of_powerFrom?_eq_some (ha : a.toRat = x) (hb : b.toRat = y)
    (h : powerFrom? a b n = some p) : p.toRat = (x * y ^ n : Int) := by
  induction n using Nat.strong_induction_on generalizing a b x y with
  | _ n ih =>
    by_cases hzero : n = 0
    · rw [powerFrom?, dif_pos hzero] at h
      obtain rfl := Option.some.inj h
      rw [ha, hzero, pow_zero, mul_one]
    · rw [powerFrom?_eq hzero] at h
      obtain ⟨product, hproduct, h⟩ := Option.bind_eq_some_iff.mp h
      -- the bit that is looked at and those that are left make up the exponent
      have hvalue : product.toRat = (x * y ^ (n % 2) : Int) := by
        unfold multiplied? at hproduct
        split at hproduct
        case isTrue hbit => rw [hbit, pow_one, toRat_of_mul?_eq_some ha hb hproduct]
        case isFalse hbit =>
          have hnone : n % 2 = 0 := by omega
          obtain rfl := Option.some.inj hproduct
          rw [hnone, pow_zero, mul_one, ha]
      have hsplit : x * y ^ n = x * y ^ (n % 2) * (y * y) ^ (n / 2) := by
        rw [mul_assoc, ← pow_two, ← pow_mul, ← pow_add, Nat.mod_add_div]
      split at h
      case isTrue hlast =>
        obtain rfl := Option.some.inj h
        rw [hsplit, hlast, pow_zero, mul_one, hvalue]
      case isFalse =>
        obtain ⟨square, hsquare, h⟩ := Option.bind_eq_some_iff.mp h
        rw [hsplit]
        exact ih (n / 2) (Nat.div_lt_self (Nat.pos_of_ne_zero hzero) (by decide)) hvalue
          (toRat_of_mul?_eq_some hb hb hsquare) h

theorem power?_eq_none (hbase : base.toRat = x) (hlarge : maxMantissa < (x ^ n).natAbs) :
    base.power? n = none := by
  rw [Option.eq_none_iff_forall_ne_some]
  intro p hp
  have hvalue := toRat_of_powerFrom?_eq_some (toRat_one.trans Int.cast_one.symm) hbase hp
  rw [one_mul] at hvalue
  exact absurd (natAbs_le_of_toRat hvalue) (Nat.not_le_of_lt hlarge)

/-! ## Whole exponents -/

/-- A whole number has nothing but zeros after the point. -/
theorem mantissa_eq_of_toRat (ha : a.toRat = x) : a.mantissa = x.natAbs * tenTo a.scale := by
  have habs := abs_toRat a
  rw [ha, ← Int.cast_abs, Int.abs_eq_natAbs, Int.cast_natCast, eq_div_iff (tenTo_ne_zero _)] at habs
  exact_mod_cast habs.symm

theorem isWhole_of_toRat (ha : a.toRat = x) : a.isWhole = true := by
  rw [isWhole, beq_iff_eq, mantissa_eq_of_toRat ha, Nat.mul_mod_left]

theorem toInt_of_toRat (ha : a.toRat = x) : a.toInt = x := by
  have htrunc : a.mantissa / tenTo a.scale = x.natAbs := by
    rw [mantissa_eq_of_toRat ha, Nat.mul_div_cancel _ (tenTo_pos _)]
  simp only [toInt, trunc, signed, htrunc]
  cases hsign : a.negative with
  | true =>
    have hx : x ≤ 0 := by exact_mod_cast ha ▸ toRat_nonpos hsign
    rw [if_pos rfl]
    omega
  | false =>
    have hx : 0 ≤ x := by exact_mod_cast ha ▸ toRat_nonneg hsign
    rw [if_neg (by decide)]
    omega

end Decimal

namespace Number

open Decimal (Squaring maxMantissa one powerFrom?)

variable {base exponent : Decimal} {n : Nat}

/-- Under a whole exponent that is not negative, a power is a product and nothing else. -/
theorem power_of_natural (hn : exponent.toRat = n) (hword : n ≤ maxInt64) :
    power base exponent = orOverflow .pow base exponent (base.power? n) := by
  have hint : exponent.toRat = ((n : Int) : Rat) := by rw [hn, Int.cast_natCast]
  have hrange : InInt64 n := by
    unfold InInt64
    omega
  have hwhole : exponent.toInt64? = some (Int64.ofInt n) := by
    rw [Decimal.toInt64?, Decimal.toInt_of_toRat hint, if_pos hrange]
  rw [power, if_pos (Decimal.isWhole_of_toRat hint), hwhole]
  dsimp only
  have hsign : ¬(n : Int) < 0 := Int.not_lt.mpr (Int.natCast_nonneg n)
  simp only [hrange.toInt_ofInt, Int.natAbs_natCast, if_neg hsign]
  cases base.power? n with
  | none => rfl
  | some p => rfl

/-- **Whole powers of whole numbers are exact, or overflow.** However base and exponent are written,
the power is the integer it should be if a mantissa can hold it, and otherwise an overflow that
shows both. When a mantissa can hold it, no round of repeated squaring on the way overflows: as long
as bits of the exponent are left, the rounds before have been gone through, the factor is the square
of the one before, and what remains to be done comes to the same power. -/
theorem whole_power_exact (base exponent : Decimal) (b : Int) (n : Nat) (hb : base.toRat = b)
    (hn : exponent.toRat = n) (hword : n ≤ maxInt64) :
    ((b ^ n).natAbs ≤ maxMantissa →
      (∃ p, power base exponent = .ok p ∧ p.toRat = (b ^ n : Int)) ∧
      ∀ k, n / 2 ^ k ≠ 0 → ∃ s, (Squaring.start base n).after? k = some s ∧
        s.exponent = n / 2 ^ k ∧ s.factor.toRat = (b ^ 2 ^ k : Int) ∧
        s.result.toRat = (b ^ (n % 2 ^ k) : Int) ∧
        base.power? n = powerFrom? s.result s.factor s.exponent) ∧
    (maxMantissa < (b ^ n).natAbs →
      power base exponent = .error (.overflow (.numbers .pow base exponent))) := by
  rw [power_of_natural hn hword]
  refine ⟨fun hfits => ⟨?_, fun k hbits => ?_⟩, fun hlarge => ?_⟩
  · obtain ⟨p, hp, hvalue⟩ := Decimal.exists_power?_eq_some hb hfits
    exact ⟨p, by rw [hp, orOverflow], hvalue⟩
  · obtain ⟨s, hafter, hholds, hpower⟩ := Squaring.exists_after hb hfits hbits
    exact ⟨s, hafter, hholds.exponent, hholds.factor, hholds.result, hpower⟩
  · rw [Decimal.power?_eq_none hb hlarge, orOverflow]

/-- `2.0 ** 95` has a mantissa, and `2.0 ** 96` would be the first power of two without one. -/
theorem powers_of_two_at_the_limit :
    let two : Decimal := ⟨false, 20, 1, by decide, by decide⟩
    (∃ p, power two (.ofNat 95) = .ok p ∧ p.toRat = (2 ^ 95 : Int)) ∧
      (∃ s, (Squaring.start two 95).after? 6 = some s ∧ s.factor.toRat = (2 ^ 2 ^ 6 : Int)) ∧
      power two (.ofNat 96) = .error (.overflow (.numbers .pow two (.ofNat 96))) := by
  intro two
  have htwo : two.toRat = ((2 : Int) : Rat) := by
    rw [Decimal.toRat_eq_div]
    norm_num [two, Decimal.signed, tenTo]
  obtain ⟨hexact, -⟩ :=
    whole_power_exact two (.ofNat 95) 2 95 htwo (Decimal.toRat_ofNat (by decide)) (by decide)
  obtain ⟨hpower, hrounds⟩ := hexact (by decide)
  obtain ⟨-, hoverflow⟩ :=
    whole_power_exact two (.ofNat 96) 2 96 htwo (Decimal.toRat_ofNat (by decide)) (by decide)
  obtain ⟨s, hafter, -, hfactor, -⟩ := hrounds 6 (by decide)
  exact ⟨hpower, ⟨s, hafter, hfactor⟩, hoverflow (by decide)⟩

end Number
end DecisionModel
