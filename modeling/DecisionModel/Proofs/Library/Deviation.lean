import DecisionModel.Proofs.Bind
import DecisionModel.Proofs.Decimal.RunningMean
import DecisionModel.Proofs.Decimal.SquareRoot
import DecisionModel.Proofs.Library.Median

/-!
# The standard deviation

The deviation is accumulated in one pass, in which each number makes the sum of squares grow by the
product of its distances from the mean before it and from the mean after it. A negative sum would
have no root. It does not come about, since the mean does not pass the number however the steps are
rounded. So what can go wrong with two numbers or more is that a result is out of range, or that the
search for the root of a variance that is not negative does not settle, and nothing else.
-/

namespace DecisionModel.Library

open Decimal (IsNearest Divides ofRat? toRat)

variable {α β : Type} {a b n : Decimal}

/-! ## Results in range -/

/-- A result is as it should be, or an operation on numbers has left their range. -/
inductive Yields (P : α → Prop) : Result α → Prop
  | value {a : α} (h : P a) : Yields P (.ok a)
  | overflow (op : ArithmeticOp) (left right : Decimal) :
    Yields P (.error (.overflow (.numbers op left right)))

theorem Yields.imp {P Q : α → Prop} {x : Result α} (hx : Yields P x) (h : ∀ a, P a → Q a) :
    Yields Q x := by
  cases hx with
  | value ha => exact .value (h _ ha)
  | overflow op left right => exact .overflow op left right

theorem Yields.bind {P : α → Prop} {Q : β → Prop} {x : Result α} {f : α → Result β}
    (hx : Yields P x) (hf : ∀ a, P a → Yields Q (f a)) : Yields Q (x >>= f) := by
  cases hx with
  | value h => exact hf _ h
  | overflow op left right => exact .overflow op left right

theorem Yields.foldlM {P : β → Prop} {f : β → α → Result β} {b : β} (items : List α) (h : P b)
    (hstep : ∀ b a, P b → Yields P (f b a)) : Yields P (items.foldlM f b) := by
  induction items generalizing b with
  | nil => exact .value h
  | cons item items ih => exact (hstep b item h).bind fun b' hb' => ih hb'

theorem Yields.of_ok {P : α → Prop} {a : α} (h : Yields P (.ok a)) : P a := by
  cases h with
  | value h => exact h

theorem yields_orOverflow {x : Rat} {result : Option Decimal} (op : ArithmeticOp)
    (hresult : result.map toRat = (ofRat? x).map toRat) :
    Yields (IsNearest x) (Number.orOverflow op a b result) := by
  cases result with
  | none => exact .overflow op a b
  | some d => exact .value (Decimal.isNearest_of_eq_some hresult rfl)

theorem yields_add (a b : Decimal) : Yields (IsNearest (a.toRat + b.toRat)) (Number.add a b) :=
  yields_orOverflow .add (Decimal.map_toRat_add? a b)

theorem yields_sub (a b : Decimal) : Yields (IsNearest (a.toRat - b.toRat)) (Number.sub a b) :=
  yields_orOverflow .sub (Decimal.map_toRat_sub? a b)

theorem yields_mul (a b : Decimal) : Yields (IsNearest (a.toRat * b.toRat)) (Number.mul a b) :=
  yields_orOverflow .mul (Decimal.map_toRat_mul? a b)

theorem yields_div (a : Decimal) (hb : 0 < b.toRat) :
    Yields (IsNearest (a.toRat / b.toRat)) (Number.div a b) := by
  have hzero := Decimal.isZero_eq_false_of_pos hb
  rw [Number.div, if_neg (by rw [hzero]; decide)]
  exact yields_orOverflow .div (Decimal.map_toRat_div? hzero)

/-! ## The pass over the numbers -/

/-- What the pass has after some of the numbers: how many there were, their mean and the sum of the
squared distances from it. -/
structure Spread where
  count : Nat
  mean : Decimal
  sum : Decimal
  deriving DecidableEq

namespace Spread

/-- One more number. -/
def add (s : Spread) (n : Decimal) : Result Spread := do
  let delta ← Number.sub n s.mean
  let mean ← Number.add s.mean (← Number.div delta (.ofNat (s.count + 1)))
  let sum ← Number.add s.sum (← Number.mul delta (← Number.sub n mean))
  return ⟨s.count + 1, mean, sum⟩

/-- What the pass has after these numbers. -/
def of (ns : List Decimal) : Result Spread := ns.foldlM add ⟨0, .zero, .zero⟩

/-- The sum is not negative, and there is no mean before the first number. -/
structure Sound (s : Spread) : Prop where
  mean_zero : s.count = 0 → s.mean.toRat = 0
  sum_nonneg : 0 ≤ s.sum.toRat

variable {s : Spread}

theorem Sound.divides (h : s.Sound) : Divides (Decimal.ofNat (s.count + 1)).toRat s.mean := by
  rcases Nat.eq_zero_or_pos s.count with hzero | hpos
  · refine .inr ⟨?_, h.mean_zero hzero⟩
    rw [hzero]
    exact Decimal.toRat_one
  · have htwo := Decimal.natCast_le_toRat_ofNat (show 2 ≤ s.count + 1 by omega) (by decide)
    exact .inl (by exact_mod_cast htwo)

/-- **One number** more leaves a sum that is not negative. -/
theorem Sound.add (h : s.Sound) (n : Decimal) : Yields Sound (s.add n) := by
  have hk := h.divides
  unfold Spread.add
  refine (yields_sub n s.mean).bind fun delta hdelta => ?_
  refine (yields_div delta hk.pos).bind fun step hstep => ?_
  refine (yields_add s.mean step).bind fun mean hmean => ?_
  refine (yields_sub n mean).bind fun residual hresidual => ?_
  refine (yields_mul delta residual).bind fun product hproduct => ?_
  refine (yields_add s.sum product).bind fun sum hsum => ?_
  have hproduct0 :=
    hproduct.nonneg (Decimal.mul_residual_nonneg hk hdelta hstep hmean hresidual)
  have hsum0 := hsum.nonneg (add_nonneg h.sum_nonneg hproduct0)
  exact .value ⟨fun hzero => absurd hzero (Nat.succ_ne_zero _), hsum0⟩

/-- **All numbers.** -/
theorem sound_of (ns : List Decimal) : Yields Sound (of ns) :=
  Yields.foldlM ns ⟨fun _ => Decimal.toRat_zero, Decimal.toRat_zero.ge⟩ fun _ n h => h.add n

end Spread

/-- The pass over all numbers is the pass over the first of them and that over the others. -/
theorem squaredDistances_append (s : Spread) (seen rest : List Decimal) :
    squaredDistances s.count s.mean s.sum (seen ++ rest) = (do
      let s ← seen.foldlM Spread.add s
      squaredDistances s.count s.mean s.sum rest) := by
  induction seen generalizing s with
  | nil => rfl
  | cons n seen ih =>
    rw [List.cons_append, squaredDistances, List.foldlM_cons, Spread.add]
    simp only [bind_assoc, pure_bind, ← ih]

/-- The whole pass. -/
theorem squaredDistances_eq (ns : List Decimal) :
    squaredDistances 0 .zero .zero ns = (do return (← Spread.of ns).sum) := by
  have happend := squaredDistances_append ⟨0, .zero, .zero⟩ ns []
  rw [List.append_nil] at happend
  exact happend

/-! ## The deviation -/

theorem yields_squaredDistances (ns : List Decimal) :
    Yields (0 ≤ ·.toRat) (squaredDistances 0 .zero .zero ns) := by
  rw [squaredDistances_eq]
  exact (Spread.sound_of ns).bind fun s hs => .value hs.sum_nonneg

theorem yields_variance {ns : List Decimal} (hns : 2 ≤ ns.length) :
    Yields (0 ≤ ·.toRat) (variance ns) := by
  have hcount : 0 < (Decimal.ofNat (ns.length - 1)).toRat := by
    have hone := Decimal.natCast_le_toRat_ofNat (show 1 ≤ ns.length - 1 by omega) (by decide)
    exact zero_lt_one.trans_le (by exact_mod_cast hone)
  unfold variance
  refine (yields_squaredDistances ns).bind fun sum hsum => ?_
  exact (yields_div sum hcount).imp fun v hv => hv.nonneg (div_nonneg hsum hcount.le)

theorem not_negative_of_nonneg (ha : 0 ≤ a.toRat) : ¬(a.negative && !a.isZero) = true := by
  intro h
  rw [Bool.and_eq_true, Bool.not_eq_true', ← Bool.not_eq_true] at h
  exact h.2 (Decimal.toRat_eq_zero_iff.mp (le_antisymm (Decimal.toRat_nonpos h.1) ha))

/-- The root of a number that is not negative is taken without an error, or its search is given
up. -/
theorem squareRoot_of_nonneg (ha : 0 ≤ a.toRat) :
    (∃ root, Number.squareRoot a = .ok root ∧ 0 ≤ root.toRat) ∨
      a.Unsettled ∧ Number.squareRoot a = .error (.brokenOff .unsettledRoot) := by
  rw [Number.squareRoot, if_neg (not_negative_of_nonneg ha)]
  rcases Decimal.exists_sqrt?_or_unsettled ha with ⟨root, hroot, hnonneg⟩ | ⟨hnone, hunsettled⟩
  · exact .inl ⟨root, Breakdown.unless_eq_ok_iff.mpr hroot, hnonneg⟩
  · exact .inr ⟨hunsettled, Breakdown.unless_eq_error_iff.mpr ⟨rfl, hnone⟩⟩

/-- **The deviation of two numbers or more is defined.** The sum of squares is not negative after
any of them, so whether the numbers are the elements of a list or the arguments themselves, the
result is a number that is not negative, or an overflow of an operation on numbers, and never the
error that a negative number has no root. The one way to come to no result at all is a variance, not
negative either, for which the search for a root does not settle. -/
theorem deviation_defined (ns : List Decimal) (hns : 2 ≤ ns.length) :
    (∀ seen rest, ns = seen ++ rest →
      squaredDistances 0 .zero .zero ns = (do
        let s ← Spread.of seen
        squaredDistances s.count s.mean s.sum rest) ∧
      ∀ s, Spread.of seen = .ok s → 0 ≤ s.sum.toRat) ∧
    Builtin.stddev.call [.list (ns.map .number)] = Builtin.stddev.call (ns.map .number) ∧
    ((∃ root, Builtin.stddev.call (ns.map .number) = .ok (.number root) ∧ 0 ≤ root.toRat) ∨
      (∃ op left right,
        Builtin.stddev.call (ns.map .number) = .error (.overflow (.numbers op left right))) ∨
      ∃ v, variance ns = .ok v ∧ 0 ≤ v.toRat ∧ v.Unsettled ∧
        Builtin.stddev.call (ns.map .number) = .error (.brokenOff .unsettledRoot)) := by
  obtain ⟨hlist, harguments⟩ := aggregateNumbers_numbers "stddev"
    (fun ns => (standardDeviation ns).map .number) ns
  have hcall : Builtin.stddev.call (ns.map .number) = (standardDeviation ns).map .number :=
    harguments
  refine ⟨?_, hlist.trans harguments.symm, ?_⟩
  · rintro seen rest rfl
    refine ⟨squaredDistances_append ⟨0, .zero, .zero⟩ seen rest, fun s hs => ?_⟩
    exact (hs ▸ Spread.sound_of seen).of_ok.sum_nonneg
  · have hfew : ¬ns.length < 2 := Nat.not_lt.mpr hns
    have hyields := yields_variance hns
    rw [hcall, standardDeviation, if_neg hfew]
    generalize variance ns = result at hyields
    cases hyields with
    | overflow op left right => exact .inr (.inl ⟨op, left, right, rfl⟩)
    | @value v hv =>
      rw [ok_bind]
      rcases squareRoot_of_nonneg hv with ⟨root, hroot, hnonneg⟩ | ⟨hunsettled, hbroken⟩
      · rw [hroot]
        exact .inl ⟨root, rfl, hnonneg⟩
      · rw [hbroken]
        exact .inr (.inr ⟨v, rfl, hv, hunsettled, rfl⟩)

def fourSamples : List Decimal := [.ofNat 2, .ofNat 4, .ofNat 7, .ofNat 5]

/-- The root of thirteen thirds. -/
def fourSamplesDeviation : Decimal :=
  ⟨false, 2081665999466132735282297707, 27, by decide, by decide⟩

/-- After `2` and `4` the sum is two, and the deviation of `2`, `4`, `7` and `5` is defined. -/
theorem deviation_of_four_samples :
    2 ≤ fourSamples.length ∧
      Spread.of (fourSamples.take 2) = .ok ⟨2, .ofNat 3, .two⟩ ∧ 0 ≤ Decimal.two.toRat ∧
      Builtin.stddev.call [.list (fourSamples.map .number)] = .ok (.number fourSamplesDeviation) ∧
      0 ≤ fourSamplesDeviation.toRat := by
  have hlength : 2 ≤ fourSamples.length := by decide
  have hspread : Spread.of (fourSamples.take 2) = .ok ⟨2, .ofNat 3, .two⟩ := by decide +kernel
  have hresult : standardDeviation fourSamples = .ok fourSamplesDeviation := by decide +kernel
  have hcall :
      Builtin.stddev.call (fourSamples.map .number) = .ok (.number fourSamplesDeviation) := by
    refine (aggregateNumbers_numbers "stddev" _ fourSamples).2.trans ?_
    rw [hresult]
    rfl
  obtain ⟨hpass, hlist, hdefined⟩ := deviation_defined fourSamples hlength
  refine ⟨hlength, hspread, ?_, hlist.trans hcall, ?_⟩
  · exact (hpass (fourSamples.take 2) (fourSamples.drop 2) rfl).2 _ hspread
  · rw [hcall] at hdefined
    rcases hdefined with ⟨root, hroot, hnonneg⟩ | ⟨op, left, right, herror⟩ | ⟨v, -, -, -, hbroken⟩
    · cases hroot
      exact hnonneg
    · cases herror
    · cases hbroken

end DecisionModel.Library
