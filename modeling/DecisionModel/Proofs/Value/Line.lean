import DecisionModel.Proofs.Value.Equality
import DecisionModel.Proofs.Value.Order
import Mathlib.Algebra.Order.Field.Rat
import Mathlib.Data.Rat.Cast.Order
import Mathlib.Data.String.Basic

/-!
# Values on a line

Numbers, strings, dates and the two plain kinds of durations are ordered like points on a line: each
of these values has a point, and comparing two of one kind is comparing their points. So their orders
are total and transitive, which the order of times is not, as a reading wraps around midnight, and
that of date-times only where no comparison leaves the calendar.

The line is another one for every kind. What follows from there being one is stated without a word
about which it is (`exists_line`).
-/

namespace DecisionModel

/-- The kinds whose values are ordered like points on a line. -/
def Kind.isLinear : Kind → Bool
  | .number | .string | .date | .months | .elapsed => true
  | _ => false

theorem Decimal.toRat_lt_iff {a b : Decimal} : a.toRat < b.toRat ↔ a.order b = .lt := by
  have ha : (0 : Rat) < tenTo a.scale := Nat.cast_pos.mpr (tenTo_pos _)
  have hb : (0 : Rat) < tenTo b.scale := Nat.cast_pos.mpr (tenTo_pos _)
  rw [order, Int.compare_eq_lt, toRat, toRat, Rat.mkRat_eq_div, Rat.mkRat_eq_div,
    div_lt_div_iff₀ ha hb]
  exact_mod_cast Iff.rfl

/-- Numbers are ordered as what they denote. -/
theorem Decimal.order_eq_compare (a b : Decimal) : a.order b = Ord.compare a.toRat b.toRat := by
  cases h : a.order b with
  | lt => exact (compare_lt_iff_lt.mpr (toRat_lt_iff.mpr h)).symm
  | eq =>
    have hsame : a.toRat = b.toRat := same_iff.mp (by rw [same, h]; rfl)
    exact (compare_eq_iff_eq.mpr hsame).symm
  | gt =>
    have hswap : b.order a = .lt := by rw [← order_swap, h]; rfl
    exact (compare_gt_iff_gt.mpr (toRat_lt_iff.mpr hswap)).symm

namespace Value

variable {a b : Value} {o : Ordering} {op : ComparisonOp}

theorem Ordered.left_present (h : Ordered a b o) : a.isAbsent = false := by
  cases h <;> rfl

theorem Ordered.right_present (h : Ordered a b o) : b.isAbsent = false := by
  cases h <;> rfl

/-- An operator that asks for an order holds as the order says. -/
theorem Ordered.compare_eq (h : Ordered a b o) (hop : op ≠ .eq ∧ op ≠ .ne) :
    a.compare op b = .ok (.bool (op.holds o)) := by
  obtain ⟨heq, hne⟩ := hop
  have horder : a.order op b = .ok (some o) := order_eq_some_iff.mpr h
  have hpresent : (a.isAbsent || b.isAbsent) = false := by
    rw [h.left_present, h.right_present]
    rfl
  cases op with
  | eq => exact absurd rfl heq
  | ne => exact absurd rfl hne
  | _ =>
    simp only [compare, hpresent, horder]
    rfl

section Point

variable {α : Type} [LinearOrder α] {x y : α}

theorem Ordered.compare_lt_eq (h : Ordered a b (Ord.compare x y)) :
    a.compare .lt b = .ok (.bool (decide (x < y))) := by
  have hholds : ComparisonOp.lt.holds (Ord.compare x y) = decide (x < y) := by
    rw [Bool.eq_iff_iff, decide_eq_true_iff, ComparisonOp.holds, beq_iff_eq, compare_lt_iff_lt]
  rw [h.compare_eq (by decide), hholds]

theorem Ordered.compare_le_eq (h : Ordered a b (Ord.compare x y)) :
    a.compare .le b = .ok (.bool (decide (x ≤ y))) := by
  have hholds : ComparisonOp.le.holds (Ord.compare x y) = decide (x ≤ y) := by
    rw [Bool.eq_iff_iff, decide_eq_true_iff, ComparisonOp.holds, bne_iff_ne, compare_le_iff_le]
  rw [h.compare_eq (by decide), hholds]

theorem Ordered.compare_ge_eq (h : Ordered a b (Ord.compare x y)) :
    a.compare .ge b = .ok (.bool (decide (y ≤ x))) := by
  have hholds : ComparisonOp.ge.holds (Ord.compare x y) = decide (y ≤ x) := by
    rw [Bool.eq_iff_iff, decide_eq_true_iff, ComparisonOp.holds, bne_iff_ne, compare_ge_iff_ge]
  rw [h.compare_eq (by decide), hholds]

end Point

/-- The number that a value denotes. -/
def rationalPoint : Value → Rat
  | .number n => n.toRat
  | _ => 0

def textPoint : Value → String
  | .string s => s
  | _ => ""

/-- How many days, months or nanoseconds a value counts. -/
def wholePoint : Value → Int
  | .date d => d.dayNumber
  | .months m => m.toInt
  | .elapsed d => d.nanos
  | _ => 0

/-- **The values of some kinds lie on a line.** -/
theorem exists_line {k : Kind} (hk : k.isLinear = true) :
    ∃ (α : Type) (_ : LinearOrder α) (point : Value → α), ∀ a b : Value, a.kind = k → b.kind = k →
      Ordered a b (Ord.compare (point a) (point b)) := by
  cases k with
  | number =>
    refine ⟨Rat, inferInstance, rationalPoint, fun a b ha hb => ?_⟩
    cases a with
    | number m => cases b with
      | number n => exact Decimal.order_eq_compare m n ▸ .number m n
      | _ => cases hb
    | _ => cases ha
  | string =>
    refine ⟨String, inferInstance, textPoint, fun a b ha hb => ?_⟩
    cases a with
    | string s => cases b with
      | string t => exact .string s t
      | _ => cases hb
    | _ => cases ha
  | date =>
    refine ⟨Int, inferInstance, wholePoint, fun a b ha hb => ?_⟩
    cases a with
    | date d => cases b with
      | date e => exact Date.order_eq_compare d e ▸ .date d e
      | _ => cases hb
    | _ => cases ha
  | months =>
    refine ⟨Int, inferInstance, wholePoint, fun a b ha hb => ?_⟩
    cases a with
    | months m => cases b with
      | months n => exact .months m n
      | _ => cases hb
    | _ => cases ha
  | elapsed =>
    refine ⟨Int, inferInstance, wholePoint, fun a b ha hb => ?_⟩
    cases a with
    | elapsed d => cases b with
      | elapsed e => exact .elapsed d e
      | _ => cases hb
    | _ => cases ha
  | _ => cases hk

end Value
end DecisionModel
