import DecisionModel.Proofs.Duration.Months
import DecisionModel.Proofs.Library.AbsentArgument
import DecisionModel.Proofs.Value.Line

/-!
# Extremes

The functions `min` and `max` go through their operands once and keep the best one so far. Among
values that lie on a line this is the first one at the lowest point, for `max` on the line turned
over: a later operand takes the place of the best one only if it is strictly better, so the first of
several equal ones stays. The lowest point does not depend on the order of the operands, and so the
result does not either, up to how it is written.
-/

namespace DecisionModel

/-! ## Better values -/

namespace Value

variable {a b : Value} {o : Ordering}

/-- Two values that have an order are equal exactly if neither comes before the other one. -/
theorem Ordered.equals_eq (h : Ordered a b o) : a.equals b = .ok (o == .eq) := by
  cases h with
  | number m n => rfl
  | string s t =>
    show Except.ok (s == t) = _
    congr 1
    rw [Bool.eq_iff_iff, beq_iff_eq, beq_iff_eq, compare_eq_iff_eq]
  | date d e =>
    show Except.ok (d == e) = _
    congr 1
    rw [Bool.eq_iff_iff, beq_iff_eq, beq_iff_eq]
    refine ⟨fun heq => ?_, Date.eq_of_order⟩
    rw [heq, Date.order_eq_compare, Int.compare_eq_eq]
  | time t u => rfl
  | dateTime h =>
    simp only [equals, isMissing, isAbsent, isNull, orderDateTimes, h]
    rfl
  | months m n =>
    show Except.ok (m == n) = _
    congr 1
    rw [Bool.eq_iff_iff, beq_iff_eq, beq_iff_eq, Int.compare_eq_eq]
    exact ⟨congrArg Months.toInt, Months.toInt_injective⟩
  | elapsed d e =>
    obtain ⟨d⟩ := d
    obtain ⟨e⟩ := e
    show Except.ok (Elapsed.mk d == Elapsed.mk e) = _
    congr 1
    rw [Bool.eq_iff_iff, beq_iff_eq, beq_iff_eq, Int.compare_eq_eq, Elapsed.mk.injEq]

variable {k : Kind} {op : ComparisonOp} {keep : Ordering}

/-- An operator and the ordering for which alone it holds: "less" or "greater". -/
inductive Prefers : ComparisonOp → Ordering → Prop where
  | less : Prefers .lt .lt
  | greater : Prefers .gt .gt

theorem Prefers.holds_eq (h : Prefers op keep) : op.holds o = (o == keep) := by
  cases h <;> rfl

theorem Prefers.compare_eq (h : Prefers op keep) (hab : Ordered a b o) :
    a.compare op b = .ok (.bool (o == keep)) := by
  have hop : op ≠ .eq ∧ op ≠ .ne := by cases h <;> decide
  rw [hab.compare_eq hop, h.holds_eq]

/-- A line on which the better one of two values of a kind is the lower one. -/
structure IsLine {α : Type} [LinearOrder α] (k : Kind) (keep : Ordering) (point : Value → α) :
    Prop where
  ordered : ∀ {a b : Value}, a.kind = k → b.kind = k → ∃ o, Ordered a b o ∧
    (o = keep ↔ point a < point b) ∧ (o = .eq ↔ point a = point b)

/-- For the greater values the line is turned over. -/
theorem Prefers.exists_isLine (h : Prefers op keep) (hk : k.isLinear = true) :
    ∃ (α : Type) (_ : LinearOrder α) (point : Value → α), IsLine k keep point := by
  obtain ⟨α, hα, point, hpoint⟩ := exists_line hk
  cases h with
  | less =>
    refine ⟨α, hα, point, ⟨fun ha hb => ⟨_, hpoint _ _ ha hb, ?_, ?_⟩⟩⟩
    · exact compare_lt_iff_lt
    · exact compare_eq_iff_eq
  | greater =>
    refine ⟨αᵒᵈ, inferInstance, fun v => OrderDual.toDual (point v),
      ⟨fun ha hb => ⟨_, hpoint _ _ ha hb, ?_, ?_⟩⟩⟩
    · rw [compare_gt_iff_gt, OrderDual.toDual_lt_toDual]
    · rw [compare_eq_iff_eq, OrderDual.toDual_inj]

end Value

namespace Library

open Value (IsLine Prefers Ordered)

/-! ## The first one at the lowest point -/

section Lowest

variable {α : Type} [LinearOrder α] {point : Value → α} {seen seen' : List Value}
  {best best' item : Value}

/-- The first of the values seen that is at the lowest point. -/
structure IsLowest (point : Value → α) (seen : List Value) (best : Value) : Prop where
  le : ∀ v ∈ seen, point best ≤ point v
  first : ∃ before after, seen = before ++ best :: after ∧ ∀ u ∈ before, point best < point u

namespace IsLowest

theorem mem (h : IsLowest point seen best) : best ∈ seen := by
  obtain ⟨before, after, rfl, -⟩ := h.first
  exact List.mem_append_right _ List.mem_cons_self

theorem singleton (point : Value → α) (best : Value) : IsLowest point [best] best where
  le _ hv := List.mem_singleton.mp hv ▸ le_refl _
  first := ⟨[], [], rfl, fun _ hu => absurd hu List.not_mem_nil⟩

/-- A value that is strictly lower than the best one is strictly lower than all. -/
theorem replaced (h : IsLowest point seen best) (hlt : point item < point best) :
    IsLowest point (seen ++ [item]) item where
  le v hv := by
    rcases List.mem_append.mp hv with hv | hv
    · exact hlt.le.trans (h.le v hv)
    · exact List.mem_singleton.mp hv ▸ le_refl _
  first := ⟨seen, [], rfl, fun u hu => hlt.trans_le (h.le u hu)⟩

/-- One that is not leaves the best one where it is. -/
theorem kept (h : IsLowest point seen best) (hle : point best ≤ point item) :
    IsLowest point (seen ++ [item]) best where
  le v hv := by
    rcases List.mem_append.mp hv with hv | hv
    · exact h.le v hv
    · exact List.mem_singleton.mp hv ▸ hle
  first := by
    obtain ⟨before, after, rfl, hbefore⟩ := h.first
    exact ⟨before, after ++ [item], by rw [List.append_assoc, List.cons_append], hbefore⟩

/-- The order of the values does not move the lowest point. -/
theorem point_eq (h : IsLowest point seen best) (h' : IsLowest point seen' best')
    (hperm : seen'.Perm seen) : point best' = point best :=
  le_antisymm (h'.le best (hperm.mem_iff.mpr h.mem)) (h.le best' (hperm.mem_iff.mp h'.mem))

end IsLowest

/-! ## The search -/

variable {k : Kind} {keep : Ordering} {items : List Value}

/-- What the values so far have at the lowest point, and what further ones have there. -/
theorem extremeFrom_isLowest (hline : IsLine k keep point) (hbest : best.kind = k)
    (hitems : ∀ v ∈ items, v.kind = k) (h : IsLowest point seen best) :
    ∃ result, extremeFrom keep best items = .ok result ∧
      IsLowest point (seen ++ items) result := by
  induction items generalizing seen best with
  | nil => exact ⟨best, rfl, by rwa [List.append_nil]⟩
  | cons item items ih =>
    obtain ⟨hitem, hitems⟩ := List.forall_mem_cons.mp hitems
    obtain ⟨o, hordered, hbetter, -⟩ := hline.ordered hitem hbest
    rw [extremeFrom, Value.order_eq_some_iff.mpr hordered, ok_bind, List.append_cons]
    dsimp only
    by_cases ho : o = keep
    · rw [if_pos (beq_iff_eq.mpr ho)]
      exact ih hitem hitems (h.replaced (hbetter.mp ho))
    · rw [if_neg (fun hkeep => ho (beq_iff_eq.mp hkeep))]
      exact ih hbest hitems (h.kept (le_of_not_gt (fun hlt => ho (hbetter.mpr hlt))))

theorem extreme_isLowest (hline : IsLine k keep point) (hne : items ≠ [])
    (hitems : ∀ v ∈ items, v.kind = k) :
    ∃ best, extreme keep items = .ok best ∧ IsLowest point items best := by
  cases items with
  | nil => exact absurd rfl hne
  | cons item items =>
    obtain ⟨hitem, hitems⟩ := List.forall_mem_cons.mp hitems
    exact extremeFrom_isLowest hline hitem hitems (.singleton point item)

end Lowest

/-! ## The functions -/

variable {op : ComparisonOp} {keep : Ordering} {k : Kind} {items items' : List Value}
  {best best' : Value}

/-- The first of the operands that none of them is before, in the sense of the operator. -/
structure IsFirstBest (op : ComparisonOp) (items : List Value) (best : Value) : Prop where
  unbeaten : ∀ v ∈ items, v.compare op best = .ok (.bool false)
  first : ∃ before after, items = before ++ best :: after ∧
    ∀ u ∈ before, ∃ v ∈ items, v.compare op u = .ok (.bool true)

/-- What a function finds among operands, which are given as a list or as arguments. -/
structure FindsBest (b : Builtin) (op : ComparisonOp) (items : List Value) (best : Value) :
    Prop where
  list : b.call [.list items] = .ok best
  arguments : b.call items = .ok best
  isFirstBest : IsFirstBest op items best

section Line

variable {α : Type} [LinearOrder α] {point : Value → α}

theorem IsLowest.isFirstBest (h : IsLowest point items best) (hop : Prefers op keep)
    (hline : IsLine k keep point) (hitems : ∀ v ∈ items, v.kind = k) :
    IsFirstBest op items best where
  unbeaten v hv := by
    obtain ⟨o, hordered, hbetter, -⟩ := hline.ordered (hitems v hv) (hitems best h.mem)
    have ho : ¬o = keep := fun ho => absurd (hbetter.mp ho) (not_lt.mpr (h.le v hv))
    rw [hop.compare_eq hordered, beq_eq_false_iff_ne.mpr ho]
  first := by
    obtain ⟨before, after, hsplit, hbefore⟩ := h.first
    refine ⟨before, after, hsplit, fun u hu => ⟨best, h.mem, ?_⟩⟩
    have humem : u ∈ items := hsplit ▸ List.mem_append_left _ hu
    obtain ⟨o, hordered, hbetter, -⟩ := hline.ordered (hitems best h.mem) (hitems u humem)
    rw [hop.compare_eq hordered, beq_iff_eq.mpr (hbetter.mpr (hbefore u hu))]

end Line

/-- A value that lies on a line is neither missing nor a list, so it can also be the only argument.
-/
theorem aggregate_of_isLinear {f : List Value → Result Value} (hk : k.isLinear = true)
    (hitems : ∀ v ∈ items, v.kind = k) : aggregate f items = f items := by
  by_cases hone : items.length = 1
  · obtain ⟨v, rfl⟩ := List.length_eq_one_iff.mp hone
    obtain rfl := hitems v List.mem_cons_self
    cases v with
    | null | absent | list => cases hk
    | _ => rfl
  · exact aggregate_of_length hone

/-- An extreme of operands of a kind that lies on a line is the first best one, and another order of
the operands leads to an equal value. -/
theorem exists_finds {b : Builtin} (hb : b.call = aggregate (extreme keep)) (hop : Prefers op keep)
    (hk : k.isLinear = true) (hne : items ≠ []) (hitems : ∀ v ∈ items, v.kind = k) :
    ∃ best, FindsBest b op items best ∧ ∀ items' : List Value, items'.Perm items →
      ∃ best', FindsBest b op items' best' ∧ best'.equals best = .ok true := by
  obtain ⟨α, hα, point, hline⟩ := hop.exists_isLine hk
  -- what is found in any order is lowest on the one line that the kind has
  have hfinds (items' : List Value) (hperm : items'.Perm items) :
      ∃ best', FindsBest b op items' best' ∧ IsLowest point items' best' := by
    have hitems' : ∀ v ∈ items', v.kind = k := fun v hv => hitems v (hperm.mem_iff.mp hv)
    have hne' : items' ≠ [] := fun hnil => hne (List.perm_nil.mp (hnil ▸ hperm.symm))
    obtain ⟨best', hbest', hlowest⟩ := extreme_isLowest hline hne' hitems'
    refine ⟨best', ⟨?_, ?_, hlowest.isFirstBest hop hline hitems'⟩, hlowest⟩
    · rw [hb]
      exact hbest'
    · rw [hb, aggregate_of_isLinear hk hitems', hbest']
  obtain ⟨best, hbest, hlowest⟩ := hfinds items (.refl _)
  refine ⟨best, hbest, fun items' hperm => ?_⟩
  obtain ⟨best', hbest', hlowest'⟩ := hfinds items' hperm
  refine ⟨best', hbest', ?_⟩
  have hkind' : best'.kind = k := hitems best' (hperm.mem_iff.mp hlowest'.mem)
  obtain ⟨o, hordered, -, heq⟩ := hline.ordered hkind' (hitems best hlowest.mem)
  rw [hordered.equals_eq, beq_iff_eq.mpr (heq.mpr (hlowest.point_eq hlowest' hperm))]

/-- **Extremes exist, and are the first of their kind.** Of operands that are all numbers, all
strings, all dates, all durations of years and months or all of days and time, `min` returns the
first that none is below, and `max` the first that none is above. It does not matter whether the
operands are the elements of one list or the arguments themselves, and in another order they have an
equal extreme. -/
theorem extremes_found (k : Kind) (hk : k.isLinear = true) (items : List Value) (hne : items ≠ [])
    (hitems : ∀ v ∈ items, v.kind = k) :
    (∃ least, FindsBest .min .lt items least ∧ ∀ items' : List Value, items'.Perm items →
      ∃ least', FindsBest .min .lt items' least' ∧ least'.equals least = .ok true) ∧
    ∃ greatest, FindsBest .max .gt items greatest ∧ ∀ items' : List Value, items'.Perm items →
      ∃ greatest', FindsBest .max .gt items' greatest' ∧ greatest'.equals greatest = .ok true :=
  ⟨exists_finds rfl .less hk hne hitems, exists_finds rfl .greater hk hne hitems⟩

/-- One twice, in two ways of writing it, and two numbers above it. -/
def fourPrices : List Value :=
  [.number (.ofNat 3), .number ⟨false, 1000, 3, by decide, by decide⟩, .number (.ofNat 2),
    .number (.ofNat 1)]

/-- The `1.000` comes first, and where the order is turned around, the `1` does. -/
theorem first_of_equal_prices :
    (∀ v ∈ fourPrices, v.kind = .number) ∧
    FindsBest .min .lt fourPrices (.number ⟨false, 1000, 3, by decide, by decide⟩) ∧
    FindsBest .min .lt fourPrices.reverse (.number (.ofNat 1)) ∧
    (Value.number (.ofNat 1)).equals (.number ⟨false, 1000, 3, by decide, by decide⟩) =
      .ok true := by
  have hkind : ∀ v ∈ fourPrices, v.kind = .number := by simp [fourPrices, Value.kind]
  obtain ⟨⟨least, hleast, horder⟩, -⟩ :=
    extremes_found .number rfl fourPrices (by simp [fourPrices]) hkind
  obtain ⟨least', hleast', hequals⟩ := horder fourPrices.reverse (List.reverse_perm _)
  obtain rfl : .number ⟨false, 1000, 3, by decide, by decide⟩ = least := Except.ok.inj hleast.list
  obtain rfl : .number (.ofNat 1) = least' := Except.ok.inj hleast'.list
  exact ⟨hkind, hleast, hleast', hequals⟩

end Library
end DecisionModel
