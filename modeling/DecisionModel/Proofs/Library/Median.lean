import DecisionModel.Library.Call
import DecisionModel.Proofs.Decimal.Rounding
import DecisionModel.Proofs.Decimal.Selection

/-!
# The median

The median is found without sorting, and is the one that can be read off the sorted numbers: the
middle one, or half the sum of the two in the middle. It does not matter how the numbers are sorted,
nor which of several equal ones is found, since neither a sum nor its half depends on how numbers
are written.
-/

namespace DecisionModel.Library

open Decimal (Arranges select selectWithin select_finds)

variable {a a' b b' : Decimal} {ns sorted : List Decimal}

/-! ## The reference -/

/-- The median of numbers in ascending order. -/
def sortedMedian (sorted : List Decimal) : Result Decimal :=
  let middle := sorted.length / 2
  if sorted.length % 2 = 1 then .ok (sorted.getD middle .zero)
  else do
    let sum ← Number.add (sorted.getD (middle - 1) .zero) (sorted.getD middle .zero)
    Number.div sum .two

/-- Two medians are the same number, or the sum of the two in the middle overflows in both cases. -/
inductive SameMedian : Result Decimal → Result Decimal → Prop
  | number {m m' : Decimal} (h : m.same m' = true) : SameMedian (.ok m) (.ok m')
  | overflow {low high low' high' : Decimal} (hlow : low.same low' = true)
    (hhigh : high.same high' = true) :
    SameMedian (.error (.overflow (.numbers .add low high)))
      (.error (.overflow (.numbers .add low' high')))

/-! ## Half the sum -/

theorem exists_div_two (a : Decimal) :
    ∃ q, a.div? .two = some q ∧ Number.div a .two = .ok q := by
  obtain ⟨q, hq⟩ := Option.isSome_iff_exists.mp (Decimal.isSome_div?_two a)
  refine ⟨q, hq, ?_⟩
  rw [Number.div, if_neg (by decide), hq, Number.orOverflow]

/-- Half a sum overflows where the sum does. -/
theorem sameMedian_half_sum (ha : a.same a' = true) (hb : b.same b' = true) :
    SameMedian (do Number.div (← Number.add a b) .two)
      (do Number.div (← Number.add a' b') .two) := by
  have hsum := Decimal.map_toRat_add?_congr ha hb
  rw [Number.add, Number.add]
  cases hs : a.add? b with
  | none =>
    rw [hs, Option.map_none, eq_comm, Option.map_eq_none_iff] at hsum
    rw [hsum]
    exact .overflow ha hb
  | some s =>
    rw [hs, Option.map_some, eq_comm, Option.map_eq_some_iff] at hsum
    obtain ⟨s', hs', hvalue⟩ := hsum
    obtain ⟨q, hq, hdiv⟩ := exists_div_two s
    obtain ⟨q', hq', hdiv'⟩ := exists_div_two s'
    have hquotient := Decimal.map_toRat_div?_congr (Decimal.same_iff.mpr hvalue.symm)
      (show Decimal.two.isZero = false from rfl)
    rw [hq, hq', Option.map_some, Option.map_some, Option.some_inj] at hquotient
    rw [hs']
    show SameMedian (Number.div s .two) (Number.div s' .two)
    rw [hdiv, hdiv']
    exact .number (Decimal.same_iff.mpr hquotient)

/-! ## The median -/

theorem medianOf_same (hne : ns ≠ []) (hs : Arranges sorted ns) :
    SameMedian (medianOf ns) (sortedMedian sorted) := by
  have hpos : 0 < ns.length := List.length_pos_iff.mpr hne
  have hlength : sorted.length = ns.length := hs.perm.length_eq
  unfold medianOf sortedMedian
  rw [hlength]
  split
  case isTrue =>
    have hmiddle : ns.length / 2 < ns.length := by omega
    exact .number ((select_finds hmiddle).same_getD hs)
  case isFalse =>
    have hlow := select_finds (show ns.length / 2 - 1 < ns.length by omega)
    -- the second search is in the list that the first one leaves
    have hhigh := select_finds (k := ns.length / 2)
      (show ns.length / 2 < (select ns (ns.length / 2 - 1)).values.length by
        rw [hlow.perm.length_eq]; omega)
    exact sameMedian_half_sum (hlow.same_getD hs)
      (hhigh.same_getD ⟨hs.perm.trans hlow.perm.symm, hs.ascending⟩)

theorem mapM_expectNumber_number (function : String) (ns : List Decimal) :
    (ns.map Value.number).mapM (expectNumber function) = .ok ns := by
  induction ns with
  | nil => rfl
  | cons n ns ih =>
    rw [List.map_cons, List.mapM_cons, ih]
    rfl

/-- Numbers are aggregated as the elements of a list or as arguments. -/
theorem aggregateNumbers_numbers (function : String) (f : List Decimal → Result Value)
    (ns : List Decimal) :
    aggregateNumbers function f [.list (ns.map .number)] = f ns ∧
      aggregateNumbers function f (ns.map .number) = f ns := by
  have hbind : (do f (← (ns.map Value.number).mapM (expectNumber function))) = f ns := by
    rw [mapM_expectNumber_number]
    rfl
  have hmissing : missingSubject? (ns.map .number) = none := by
    rcases ns with _ | ⟨m, _ | ⟨n, ns⟩⟩ <;> rfl
  have hoperands : operands (ns.map .number) = ns.map .number := by
    rcases ns with _ | ⟨m, _ | ⟨n, ns⟩⟩ <;> rfl
  refine ⟨hbind, ?_⟩
  rw [aggregateNumbers, aggregate, hmissing, hoperands]
  exact hbind

theorem median_numbers (hne : ns ≠ []) :
    median [.list (ns.map .number)] = (medianOf ns).map .number ∧
      median (ns.map .number) = (medianOf ns).map .number := by
  have hempty : ¬ns.isEmpty = true := by rwa [List.isEmpty_iff]
  unfold median
  obtain ⟨hlist, harguments⟩ := aggregateNumbers_numbers "median" (fun ns =>
    if ns.isEmpty then .ok .absent else (medianOf ns).map .number) ns
  rw [hlist, harguments, if_neg hempty]
  exact ⟨rfl, rfl⟩

/-- **The median is what sorting gives.** However a list of numbers is put into ascending order, its
median is the one read off there, and only where the two numbers in the middle have no sum is there
none. Selection finds the number that stands at a position there, leaves the same numbers behind,
and ends: it takes no more steps than there are numbers. -/
theorem median_agrees_with_sorting :
    (∀ ns sorted : List Decimal, ns ≠ [] → Arranges sorted ns →
      Builtin.median.call [.list (ns.map .number)] = (medianOf ns).map .number ∧
      Builtin.median.call (ns.map .number) = (medianOf ns).map .number ∧
      SameMedian (medianOf ns) (sortedMedian sorted)) ∧
    ∀ (values sorted : List Decimal) (k : Nat), k < values.length → Arranges sorted values →
      (select values k).value.same (sorted.getD k .zero) = true ∧
      (select values k).value ∈ values ∧
      (select values k).values.Perm values ∧
      ∀ steps, values.length < steps → selectWithin steps values k = select values k := by
  constructor
  · intro ns sorted hne hs
    obtain ⟨hlist, hvariadic⟩ := median_numbers hne
    exact ⟨hlist, hvariadic, medianOf_same hne hs⟩
  · intro values sorted k hk hs
    have hfinds := select_finds hk
    exact ⟨hfinds.same_getD hs, hfinds.mem, hfinds.perm, fun steps hsteps =>
      Decimal.selectWithin_congr hsteps (Nat.lt_succ_self _)⟩

/-- Six numbers of four values. -/
def sixNumbers : List Decimal :=
  [.ofNat 3, ⟨false, 10, 1, by decide, by decide⟩, ⟨false, 250, 2, by decide, by decide⟩, .ofNat 9,
    ⟨false, 25, 1, by decide, by decide⟩, .ofNat 1]

def sixInOrder : List Decimal :=
  [.ofNat 1, ⟨false, 10, 1, by decide, by decide⟩, ⟨false, 25, 1, by decide, by decide⟩,
    ⟨false, 250, 2, by decide, by decide⟩, .ofNat 3, .ofNat 9]

/-- Half of `2.5 + 2.50` is their median, and `2.5` or `2.50` the third smallest of them. -/
theorem six_numbers_agree :
    Builtin.median.call (sixNumbers.map .number) = (medianOf sixNumbers).map .number ∧
      SameMedian (medianOf sixNumbers) (.ok ⟨false, 250, 2, by decide, by decide⟩) ∧
      (select sixNumbers 2).value.same ⟨false, 25, 1, by decide, by decide⟩ = true ∧
      (select sixNumbers 2).values.Perm sixNumbers := by
  have hs : Arranges sixInOrder sixNumbers := ⟨by decide, by decide⟩
  obtain ⟨hmedian, hselect⟩ := median_agrees_with_sorting
  obtain ⟨-, hcall, hsame⟩ := hmedian sixNumbers sixInOrder (by decide) hs
  obtain ⟨hvalue, -, hperm, -⟩ := hselect sixNumbers sixInOrder 2 (by decide) hs
  have hreference : sortedMedian sixInOrder = .ok ⟨false, 250, 2, by decide, by decide⟩ := by
    decide +kernel
  exact ⟨hcall, hreference ▸ hsame, hvalue, hperm⟩

end DecisionModel.Library
