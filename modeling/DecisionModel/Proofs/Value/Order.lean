import DecisionModel.Operator.Comparison
import DecisionModel.Proofs.Calendar.Instant

/-!
# Order

Exchanging the operands reverses the order of two values, with one exception. A time that is brought
to the offset of another one may pass midnight, and then it reads as one of the same day. Where the
two readings of a comparison pass a different number of midnights, each operand comes out on the
same side of the other, whichever of them is the left one.
-/

namespace DecisionModel

open Calendar

/-! ## Numbers and date-times -/

theorem Decimal.order_swap (a b : Decimal) : (a.order b).swap = b.order a := Int.compare_swap _ _

theorem DateTime.order?_swap {a b : DateTime} {o o' : Ordering} (h : a.order? b = some o)
    (h' : b.order? a = some o') : o' = o.swap := by
  obtain ⟨-, rfl⟩ := order?_eq_some_iff.mp h
  obtain ⟨-, rfl⟩ := order?_eq_some_iff.mp h'
  have hshift := Offset.shift_swap a.offset b.offset
  have hnanos : compare b.localNanos (a.localNanos + Offset.shift a.offset b.offset) =
      compare (b.localNanos + Offset.shift b.offset a.offset) a.localNanos := by
    rw [hshift, ← compare_add_left (Offset.shift a.offset b.offset) (b.localNanos + _)]
    congr 1 <;> omega
  rw [Ordering.swap_then, Int.compare_swap, ← Std.OrientedOrd.eq_swap, hnanos]

/-! ## Times -/

namespace Time

/-- The midnights that a time passes when it is brought to another offset; those that it passes
backwards count negative. -/
def midnights (t : Time) (target : Option Offset) : Int :=
  (t.clock.nanos + Offset.shift t.offset target) / nanosPerDay

variable {a b : Time}

/-- The order of two times, with the shifted reading put back by the midnights that it passed. -/
theorem order_eq_compare_midnights (a b : Time) :
    a.order b = (compare (a.clock.nanos : Int) (b.clock.nanos + Offset.shift b.offset a.offset -
      nanosPerDay * b.midnights a.offset)).then (compare a.offset.isSome b.offset.isSome) := by
  rw [order_eq, Int.emod_def, midnights]

/-- What `midnights` counts: so many days after midnight, and less than a day more. -/
theorem midnights_spec (t : Time) (target : Option Offset) :
    nanosPerDay * t.midnights target ≤ t.clock.nanos + Offset.shift t.offset target ∧
      t.clock.nanos + Offset.shift t.offset target < nanosPerDay * t.midnights target + nanosPerDay :=
  ⟨Int.mul_ediv_self_le (by decide), Int.lt_mul_ediv_self_add (by decide)⟩

theorem order_swap_of_midnights (h : a.midnights b.offset + b.midnights a.offset = 0) :
    b.order a = (a.order b).swap := by
  have hcancel : nanosPerDay * a.midnights b.offset = -(nanosPerDay * b.midnights a.offset) := by
    rw [← Int.mul_neg]
    exact congrArg _ (by omega)
  -- The shift and the midnights can go to the other side, where they change their sign.
  have hnanos : compare (b.clock.nanos : Int) (a.clock.nanos + Offset.shift a.offset b.offset -
        nanosPerDay * a.midnights b.offset) =
      compare (b.clock.nanos + Offset.shift b.offset a.offset -
        nanosPerDay * b.midnights a.offset) (a.clock.nanos : Int) := by
    rw [Offset.shift_swap b.offset a.offset, hcancel,
      ← compare_add_left (Offset.shift b.offset a.offset - nanosPerDay * b.midnights a.offset)]
    congr 1 <;> omega
  rw [order_eq_compare_midnights, order_eq_compare_midnights, hnanos, Ordering.swap_then,
    Int.compare_swap, ← Std.OrientedOrd.eq_swap]

theorem order_eq_gt_of_midnights (h : 0 < a.midnights b.offset + b.midnights a.offset) :
    a.order b = .gt := by
  obtain ⟨hlow, -⟩ := midnights_spec a b.offset
  have hb := b.clock.nanos_lt
  have hday : nanosPerDay * 1 ≤
      nanosPerDay * a.midnights b.offset + nanosPerDay * b.midnights a.offset := by
    rw [← Int.mul_add]
    exact Int.mul_le_mul_of_nonneg_left h (by decide)
  rw [Offset.shift_swap b.offset a.offset] at hlow
  rw [order_eq_compare_midnights, Int.compare_eq_gt.mpr (by omega)]
  rfl

theorem order_eq_lt_of_midnights (h : a.midnights b.offset + b.midnights a.offset < 0) :
    a.order b = .lt := by
  obtain ⟨-, hhigh⟩ := midnights_spec a b.offset
  have hday : nanosPerDay * a.midnights b.offset + nanosPerDay * b.midnights a.offset ≤
      nanosPerDay * -1 := by
    rw [← Int.mul_add]
    exact Int.mul_le_mul_of_nonneg_left (by omega) (by decide)
  rw [Offset.shift_swap b.offset a.offset] at hhigh
  rw [order_eq_compare_midnights, Int.compare_eq_lt.mpr (by omega)]
  rfl

theorem midnights_eq_zero {target : Option Offset} (h : Offset.shift a.offset target = 0) :
    a.midnights target = 0 := by
  have hlt := a.clock.nanos_lt
  rw [midnights, h, Int.add_zero]
  exact Int.ediv_eq_zero_of_lt (by omega) (by omega)

/-- Only between two offsets are there midnights that do not cancel out. -/
theorem exists_offsets_of_midnights (h : a.midnights b.offset + b.midnights a.offset ≠ 0) :
    ∃ own other, a.offset = some own ∧ b.offset = some other ∧ own ≠ other := by
  have hshift : Offset.shift a.offset b.offset ≠ 0 := by
    intro hzero
    have hback : Offset.shift b.offset a.offset = 0 := by
      rw [Offset.shift_swap, hzero, Int.neg_zero]
    exact h (by rw [midnights_eq_zero hzero, midnights_eq_zero hback, Int.add_zero])
  cases ha : a.offset with
  | none => simp [ha] at hshift
  | some own =>
    cases hb : b.offset with
    | none => simp [hb] at hshift
    | some other =>
      refine ⟨own, other, rfl, rfl, ?_⟩
      rintro rfl
      exact hshift (by rw [ha, hb, Offset.shift_self])

end Time

/-! ## Values -/

namespace Value

/-- The values that have an order, kind by kind. -/
inductive Ordered : Value → Value → Ordering → Prop where
  | number (m n : Decimal) : Ordered (.number m) (.number n) (m.order n)
  | string (s t : String) : Ordered (.string s) (.string t) (Ord.compare s t)
  | date (d e : Date) : Ordered (.date d) (.date e) (d.order e)
  | time (t u : Time) : Ordered (.time t) (.time u) (t.order u)
  | dateTime {dt du : DateTime} {o : Ordering} (h : dt.order? du = some o) :
    Ordered (.dateTime dt) (.dateTime du) o
  | months (m n : Months) : Ordered (.months m) (.months n) (Ord.compare m.toInt n.toInt)
  | elapsed (d e : Elapsed) : Ordered (.elapsed d) (.elapsed e) (Ord.compare d.nanos e.nanos)

variable {a b : Value} {op : ComparisonOp} {o o' : Ordering}

/-- The operator that asks for an order shows only in errors. -/
theorem order_eq_some_iff : a.order op b = .ok (some o) ↔ Ordered a b o := by
  constructor
  · intro h
    unfold order at h
    split at h
    · cases h
    · split at h
      case h_5 dt du =>
        unfold orderDateTimes at h
        split at h
        · next horder =>
          cases h
          exact .dateTime horder
        · cases h
      all_goals cases h
      all_goals constructor
  · intro h
    cases h with
    | dateTime h => simp only [order, isNull, orderDateTimes, h, Except.map]; rfl
    | _ => rfl

/-- Whether bringing two times to each other's offset passes as many midnights forwards as
backwards. Other values have no midnight to pass. -/
def MidnightsCancel : Value → Value → Prop
  | .time t, .time u => t.midnights u.offset + u.midnights t.offset = 0
  | _, _ => True

theorem Ordered.swap (h : Ordered a b o) (h' : Ordered b a o') (hcancel : a.MidnightsCancel b) :
    o' = o.swap := by
  cases h with
  | number m n => cases h'; exact (Decimal.order_swap m n).symm
  | string s t => cases h'; exact Std.OrientedOrd.eq_swap
  | date d e => cases h'; exact (Date.order_swap d e).symm
  | time t u => cases h'; exact Time.order_swap_of_midnights hcancel
  | dateTime h => cases h' with | dateTime h' => exact DateTime.order?_swap h h'
  | months m n => cases h'; exact Std.OrientedOrd.eq_swap
  | elapsed d e => cases h'; exact Std.OrientedOrd.eq_swap

/-- Where the midnights do not cancel out, both directions come to the same side. -/
theorem Ordered.eq_of_not_cancel (h : Ordered a b o) (h' : Ordered b a o')
    (hcancel : ¬a.MidnightsCancel b) : o' = o ∧ o ≠ .eq := by
  cases h with
  | time t u =>
    cases h'
    rcases Int.lt_or_gt_of_ne hcancel with hlt | hgt
    · rw [Time.order_eq_lt_of_midnights hlt,
        Time.order_eq_lt_of_midnights (by rwa [Int.add_comm])]
      exact ⟨rfl, nofun⟩
    · rw [Time.order_eq_gt_of_midnights hgt,
        Time.order_eq_gt_of_midnights (by rwa [Int.add_comm])]
      exact ⟨rfl, nofun⟩
  | _ => exact absurd trivial hcancel

theorem exists_times_of_not_cancel (hcancel : ¬a.MidnightsCancel b) :
    ∃ clock clock' own other, a = .time ⟨clock, some own⟩ ∧ b = .time ⟨clock', some other⟩ ∧
      own ≠ other := by
  unfold MidnightsCancel at hcancel
  split at hcancel
  · next t u =>
    obtain ⟨own, other, ht, hu, hne⟩ := Time.exists_offsets_of_midnights hcancel
    exact ⟨t.clock, u.clock, own, other, ht ▸ rfl, hu ▸ rfl, hne⟩
  · exact absurd trivial hcancel

theorem Ordered.compare_lt (h : Ordered a b o) : a.compare .lt b = .ok (.bool (o == .lt)) := by
  have horder : a.order .lt b = .ok (some o) := order_eq_some_iff.mpr h
  cases h <;> simp only [compare, isAbsent, horder] <;> rfl

theorem Ordered.compare_gt (h : Ordered a b o) : a.compare .gt b = .ok (.bool (o == .gt)) := by
  have horder : a.order .gt b = .ok (some o) := order_eq_some_iff.mpr h
  cases h <;> simp only [compare, isAbsent, horder] <;> rfl

/-- **Exchanging the operands reverses the order, unless midnights get in between.** Of two values
that have an order both ways, the one is the reverse of the other exactly if the midnights cancel
out, and then `a < b` is the same as `b > a` and excludes `b < a`. Otherwise both orders are the same
one, the values are not equal, and they are times at different offsets. -/
theorem order_reversed_iff (a b : Value) (op : ComparisonOp) (o o' : Ordering)
    (h : a.order op b = .ok (some o)) (h' : b.order op a = .ok (some o')) :
    (o' = o.swap ↔ a.MidnightsCancel b) ∧
    (a.MidnightsCancel b → a.compare .lt b = b.compare .gt a ∧
      ¬(a.compare .lt b = .ok (.bool true) ∧ b.compare .lt a = .ok (.bool true))) ∧
    (¬a.MidnightsCancel b → o' = o ∧ o ≠ .eq ∧ ∃ clock clock' own other,
      a = .time ⟨clock, some own⟩ ∧ b = .time ⟨clock', some other⟩ ∧ own ≠ other) := by
  rw [order_eq_some_iff] at h h'
  refine ⟨⟨fun hswap => ?_, h.swap h'⟩, fun hcancel => ?_, fun hcancel => ?_⟩
  · by_contra hcancel
    obtain ⟨rfl, hne⟩ := h.eq_of_not_cancel h' hcancel
    cases o' with
    | lt | gt => cases hswap
    | eq => exact hne rfl
  · have hsame : a.compare .lt b = b.compare .gt a := by
      rw [h.compare_lt, h'.compare_gt, h.swap h' hcancel]
      cases o <;> rfl
    refine ⟨hsame, ?_⟩
    rw [h.compare_lt, h'.compare_lt, h.swap h' hcancel]
    rintro ⟨hlt, hlt'⟩
    cases o with
    | lt => cases hlt'
    | eq | gt => cases hlt
  · obtain ⟨hsame, hne⟩ := h.eq_of_not_cancel h' hcancel
    exact ⟨hsame, hne, exists_times_of_not_cancel hcancel⟩

/-- Just before midnight in one place, and just after it an hour further east: the midnights that
the two readings pass cancel out. -/
theorem late_evening_reversed :
    let evening : Value := .time ⟨.wrap (1410 * nanosPerMinute), some .utc⟩
    let east : Value := .time ⟨.wrap (15 * nanosPerMinute), some ⟨3600, by decide⟩⟩
    evening.order .lt east = .ok (some .gt) ∧ east.order .lt evening = .ok (some .lt) ∧
      evening.MidnightsCancel east ∧ evening.compare .lt east = east.compare .gt evening := by
  intro evening east
  have h : evening.order .lt east = .ok (some .gt) := rfl
  have h' : east.order .lt evening = .ok (some .lt) := rfl
  obtain ⟨hiff, hcompare, -⟩ := order_reversed_iff evening east .lt .gt .lt h h'
  have hcancel : evening.MidnightsCancel east := hiff.mp rfl
  exact ⟨h, h', hcancel, (hcompare hcancel).1⟩

/-- Half past midnight an hour east of midnight in universal time: each of the two is before the
other one, and so their orders do not reverse each other. -/
theorem times_before_each_other :
    let east : Value := .time ⟨.wrap (30 * nanosPerMinute), some ⟨3600, by decide⟩⟩
    let universal : Value := .time ⟨.midnight, some .utc⟩
    (east.compare .lt universal = .ok (.bool true) ∧
      universal.compare .lt east = .ok (.bool true)) ∧
    ¬∀ (a b : Value) (op : ComparisonOp) (o o' : Ordering), a.order op b = .ok (some o) →
      b.order op a = .ok (some o') → o' = o.swap := by
  intro east universal
  refine ⟨⟨rfl, rfl⟩, fun hreversed => ?_⟩
  have hswap : Ordering.lt = Ordering.lt.swap := hreversed east universal .lt .lt .lt rfl rfl
  cases hswap

end Value
end DecisionModel
