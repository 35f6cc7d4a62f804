import DecisionModel.Proofs.Decimal.Selection
import Mathlib.Data.List.Perm.Basic
import Mathlib.Data.List.Sort

/-!
# Sorting in place

Quicksort arranges: it puts the numbers of every list into ascending order. Cutting at a pivot
leaves the same numbers, those that pass the test before those that do not, and the pivot stands
between them. It is one of the numbers, wherever it was looked for, because all stretches in which
it is looked for lie inside the list.

Where the pivot is not above the least number there can be, the numbers that are not above the pivot
are all equal to it. This is why that half is left as it is.
-/

namespace DecisionModel.Decimal

variable {test : Decimal → Bool} {halves : Halves} {pivot x : Decimal}
  {values values' sorted low low' high high' : List Decimal}

/-! ## Arranging parts -/

theorem lt_iff : pivot.lt x = true ↔ pivot.toRat < x.toRat := by
  rw [lt, beq_iff_eq, toRat_lt_iff]

theorem lt_eq_false_iff : pivot.lt x = false ↔ x.toRat ≤ pivot.toRat := by
  rw [← Bool.not_eq_true, lt_iff, not_lt]

theorem Arranges.trans_perm (h : Arranges sorted values) (hperm : values.Perm values') :
    Arranges sorted values' :=
  ⟨h.perm.trans hperm, h.ascending⟩

/-- Equal numbers are in order whichever way they stand. -/
theorem arranges_of_equal (hperm : sorted.Perm values)
    (hequal : ∀ x ∈ values, x.toRat = pivot.toRat) : Arranges sorted values where
  perm := hperm
  ascending := by
    refine List.pairwise_of_forall_mem_list fun x hx y hy => le_iff.mpr ?_
    rw [hequal x (hperm.mem_iff.mp hx), hequal y (hperm.mem_iff.mp hy)]

/-- A pivot between two parts that are in order. -/
theorem Arranges.around (hlow : Arranges low' low) (hhigh : Arranges high' high)
    (hle : ∀ x ∈ low, x.toRat ≤ pivot.toRat) (hge : ∀ x ∈ high, pivot.toRat ≤ x.toRat) :
    Arranges (low' ++ pivot :: high') (pivot :: (low ++ high)) where
  perm := List.perm_middle.trans ((hlow.perm.append hhigh.perm).cons pivot)
  ascending := by
    have hle' (x : Decimal) (hx : x ∈ low') : x.toRat ≤ pivot.toRat :=
      hle x (hlow.perm.mem_iff.mp hx)
    have hge' (x : Decimal) (hx : x ∈ high') : pivot.toRat ≤ x.toRat :=
      hge x (hhigh.perm.mem_iff.mp hx)
    refine List.pairwise_append.mpr ⟨hlow.ascending, List.pairwise_cons.mpr
      ⟨fun x hx => le_iff.mpr (hge' x hx), hhigh.ascending⟩, fun x hx y hy => le_iff.mpr ?_⟩
    rcases List.mem_cons.mp hy with rfl | hy
    · exact hle' x hx
    · exact (hle' x hx).trans (hge' y hy)

/-! ## Halves -/

/-- The numbers of a list that was cut in two stand on their side. -/
structure Halves.CutBy (halves : Halves) (test : Decimal → Bool) : Prop where
  passed : ∀ x ∈ halves.passed, test x = true
  failed : ∀ x ∈ halves.failed, test x = false

theorem Halves.CutBy.add (h : halves.CutBy test) (x : Decimal) :
    (halves.add test x).CutBy test := by
  unfold Halves.add
  split
  case isTrue hx =>
    exact ⟨List.forall_mem_append.mpr ⟨h.passed, List.forall_mem_singleton.mpr hx⟩,
      fun y hy => h.failed y ((firstLast_perm _).mem_iff.mp hy)⟩
  case isFalse hx =>
    exact ⟨h.passed, List.forall_mem_cons.mpr ⟨Bool.eq_false_iff.mpr hx,
      fun y hy => h.failed y ((firstLast_perm _).mem_iff.mp hy)⟩⟩

theorem Halves.add_perm (test : Decimal → Bool) (halves : Halves) (x : Decimal) :
    ((halves.add test x).passed ++ (halves.add test x).failed).Perm
      (x :: (halves.passed ++ halves.failed)) := by
  have hfailed : (firstLast halves.failed).Perm halves.failed := firstLast_perm _
  unfold Halves.add
  split
  · rw [List.append_assoc]
    exact List.perm_middle.trans ((hfailed.append_left _).cons x)
  · exact List.perm_middle.trans ((hfailed.append_left _).cons x)

theorem foldl_add_cutBy (xs : List Decimal) (h : halves.CutBy test) :
    (xs.foldl (Halves.add test) halves).CutBy test := by
  induction xs generalizing halves with
  | nil => exact h
  | cons x xs ih => exact ih (h.add x)

theorem foldl_add_perm (test : Decimal → Bool) (halves : Halves) (xs : List Decimal) :
    ((xs.foldl (Halves.add test) halves).passed ++
      (xs.foldl (Halves.add test) halves).failed).Perm
      (xs ++ (halves.passed ++ halves.failed)) := by
  induction xs generalizing halves with
  | nil => exact .refl _
  | cons x xs ih =>
    rw [List.foldl_cons]
    exact (ih (halves.add test x)).trans
      (((Halves.add_perm test halves x).append_left xs).trans List.perm_middle)

theorem halve_cutBy (test : Decimal → Bool) (values : List Decimal) :
    (halve test values).CutBy test :=
  foldl_add_cutBy _ ⟨by simp, by simp⟩

theorem halve_perm (test : Decimal → Bool) (values : List Decimal) :
    ((halve test values).passed ++ (halve test values).failed).Perm values := by
  refine (foldl_add_perm test ⟨[], []⟩ (firstLast values)).trans ?_
  rw [List.append_nil, List.append_nil]
  exact firstLast_perm values

/-! ## The pivot -/

variable {a b c eighth bound position : Nat}

theorem middlePosition_lt (array : Array Decimal) (ha : a < bound) (hb : b < bound)
    (hc : c < bound) : middlePosition array a b c < bound := by
  unfold middlePosition
  dsimp only
  split
  · exact ha
  · split
    · exact hc
    · exact hb

/-- Three stretches that lie below a bound have the pivot below it. -/
theorem pivotPosition_lt (array : Array Decimal) (hpos : 0 < eighth) (ha : a + eighth ≤ bound)
    (hb : b + eighth ≤ bound) (hc : c + eighth ≤ bound) :
    pivotPosition array a b c eighth < bound := by
  induction eighth using Nat.strong_induction_on generalizing a b c with
  | _ eighth ih =>
    rw [pivotPosition]
    split
    case isTrue height =>
      -- an eighth of a stretch, at its start, in its middle and towards its end, lies inside it
      have hamong (start : Nat) (hstart : start + eighth ≤ bound) :
          pivotPosition array start (start + 4 * (eighth / 8)) (start + 7 * (eighth / 8))
            (eighth / 8) < bound :=
        ih (eighth / 8) (by omega) (by omega) (by omega) (by omega) (by omega)
      exact middlePosition_lt array (hamong a ha) (hamong b hb) (hamong c hc)
    case isFalse => exact middlePosition_lt array (by omega) (by omega) (by omega)

/-- Taking the pivot out: the first number moves to where it stood. -/
theorem pivot_cons_others_perm (hposition : position < values.length) :
    (values.getD position zero :: (values.set position (values.headD zero)).drop 1).Perm
      values := by
  cases values with
  | nil => exact absurd hposition (Nat.not_lt_zero _)
  | cons first rest =>
    cases position with
    | zero => exact .refl _
    | succ position =>
      have hrest : position < rest.length := Nat.lt_of_succ_lt_succ hposition
      show (rest.getD position zero :: rest.set position first).Perm (first :: rest)
      rw [List.getD_eq_getElem _ _ hrest]
      calc rest[position] :: rest.set position first
        _ |>.Perm (rest[position] :: first :: rest.eraseIdx position) :=
            (List.set_perm_cons_eraseIdx hrest first).cons _
        _ |>.Perm (first :: rest[position] :: rest.eraseIdx position) := .swap ..
        _ |>.Perm (first :: rest) := (List.getElem_cons_eraseIdx_perm hrest).cons first

/-! ## Sorting -/

section Cut

variable {others : List Decimal} (hperm : (pivot :: others).Perm values)
include hperm

/-- What is cut at a pivot is in order when both sides are. -/
theorem arranges_halves (hlow : Arranges low' (halve test others).passed)
    (hhigh : Arranges high' (halve test others).failed)
    (hle : ∀ x, test x = true → x.toRat ≤ pivot.toRat)
    (hge : ∀ x, test x = false → pivot.toRat ≤ x.toRat) :
    Arranges (low' ++ pivot :: high') values := by
  have hcut := halve_cutBy test others
  refine (hlow.around hhigh (fun x hx => hle x (hcut.passed x hx))
    (fun x hx => hge x (hcut.failed x hx))).trans_perm ?_
  exact ((halve_perm test others).cons pivot).trans hperm

/-- The numbers below the pivot, and the others. -/
theorem arranges_below (hlow : Arranges low' (halve (fun x => x.lt pivot) others).passed)
    (hhigh : Arranges high' (halve (fun x => x.lt pivot) others).failed) :
    Arranges (low' ++ pivot :: high') values :=
  arranges_halves hperm hlow hhigh (fun _ hx => (lt_iff.mp hx).le)
    (fun _ hx => lt_eq_false_iff.mp hx)

/-- When no number is below the pivot, those that are not above it are equal to it, and may stand as
they are. -/
theorem arranges_not_above (hleast : ∀ x ∈ values, pivot.toRat ≤ x.toRat)
    (hlow : low'.Perm (halve (fun x => !pivot.lt x) others).passed)
    (hhigh : Arranges high' (halve (fun x => !pivot.lt x) others).failed) :
    Arranges (low' ++ pivot :: high') values := by
  have hle (x : Decimal) (hx : (!pivot.lt x) = true) : x.toRat ≤ pivot.toRat :=
    lt_eq_false_iff.mp (Bool.not_eq_true' _ ▸ hx)
  have hge (x : Decimal) (hx : (!pivot.lt x) = false) : pivot.toRat ≤ x.toRat :=
    (lt_iff.mp (Bool.not_eq_false' _ ▸ hx)).le
  have hequal (x : Decimal) (hx : x ∈ (halve (fun x => !pivot.lt x) others).passed) :
      x.toRat = pivot.toRat := by
    have hmem := (halve_perm _ others).mem_iff.mp (List.mem_append_left _ hx)
    exact le_antisymm (hle x ((halve_cutBy _ others).passed x hx))
      (hleast x (hperm.mem_iff.mp (List.mem_cons_of_mem _ hmem)))
  exact arranges_halves hperm (arranges_of_equal hlow hequal) hhigh hle hge

end Cut

/-- **Quicksort arranges**, where no number is below the least one there can be. -/
theorem quickSortWithin_arranges (cuts : Nat) (least : Option Decimal) (values : List Decimal)
    (hleast : ∀ l ∈ least, ∀ x ∈ values, l.toRat ≤ x.toRat) :
    Arranges (quickSortWithin cuts least values) values := by
  induction cuts generalizing least values with
  | zero => exact sort_arranges values
  | succ cuts ih =>
    rw [quickSortWithin]
    split
    case isTrue => exact sort_arranges values
    case isFalse hlong =>
      have hposition : pivotPosition values.toArray 0 (4 * (values.length / 8))
          (7 * (values.length / 8)) (values.length / 8) < values.length :=
        pivotPosition_lt _ (by rw [stableLength] at hlong; omega) (by omega) (by omega) (by omega)
      have hperm := pivot_cons_others_perm hposition
      dsimp only
      generalize values.getD _ zero = pivot at hperm ⊢
      generalize (values.set _ _).drop 1 = others at hperm ⊢
      split
      case isTrue hpivot =>
        obtain ⟨l, hl, hpivot⟩ := (Option.any_eq_true _ _).mp hpivot
        have hle : pivot.toRat ≤ l.toRat := lt_eq_false_iff.mp (Bool.not_eq_true' _ ▸ hpivot)
        exact arranges_not_above hperm (fun x hx => hle.trans (hleast l hl x hx))
          (lastFirst_perm _) (ih none _ (by simp))
      case isFalse hpivot =>
        have hcut := halve_cutBy (fun x => x.lt pivot) others
        have hpassed := lastFirst_perm (halve (fun x => x.lt pivot) others).passed
        have hothers (x : Decimal) (hx : x ∈ (halve (fun x => x.lt pivot) others).passed) :
            x ∈ values :=
          hperm.mem_iff.mp (List.mem_cons_of_mem _
            ((halve_perm _ others).mem_iff.mp (List.mem_append_left _ hx)))
        -- the low side keeps the least number, and the high side has the pivot for one
        have hlow := ih least (lastFirst (halve (fun x => x.lt pivot) others).passed)
          fun l hl x hx => hleast l hl x (hothers x (hpassed.mem_iff.mp hx))
        have hhigh := ih (some pivot) (halve (fun x => x.lt pivot) others).failed
          fun l hl x hx => Option.mem_some_iff.mp hl ▸ lt_eq_false_iff.mp (hcut.failed x hx)
        exact arranges_below hperm (hlow.trans_perm hpassed) hhigh

/-- **What is sorted in place is in ascending order**, and none of the numbers is lost. -/
theorem sortInPlace_arranges (values : List Decimal) : Arranges (sortInPlace values) values := by
  unfold sortInPlace
  split
  · exact sort_arranges values
  · exact quickSortWithin_arranges _ none values (by simp)

/-! ## Short lists -/

/-- A number comes to stand in front of those after it that it is not above, so that it stays in
front of its equals. -/
theorem sort_cons (n : Decimal) (ns : List Decimal) :
    sort (n :: ns) = (sort ns).orderedInsert (fun a b => a.le b = true) n := by
  obtain ⟨front, back, hsorted, hrest, hfront⟩ := @List.mergeSort_cons Decimal le
    (fun a b c hab hbc => le_iff.mpr ((le_iff.mp hab).trans (le_iff.mp hbc)))
    (fun a b => by simpa only [Bool.or_eq_true, le_iff] using le_total a.toRat b.toRat) n ns
  have hordered := (sort_arranges (n :: ns)).ascending
  rw [sort, hsorted, List.pairwise_append, List.pairwise_cons] at hordered
  have hpass : ∀ b ∈ front, decide ¬n.le b = true := by simpa using hfront
  rw [sort, sort, hsorted, hrest, List.orderedInsert_eq_take_drop,
    List.takeWhile_append_of_pos hpass, List.dropWhile_append_of_pos hpass]
  cases back with
  | nil => simp
  | cons b back =>
    have hstop : n.le b = true := hordered.2.1.1 b List.mem_cons_self
    simp [hstop]

/-- As long as the sort is stable it inserts one number after another, the last one first. -/
theorem sortInPlace_of_short (h : values.length ≤ stableLength) :
    sortInPlace values = values.insertionSort (fun a b => a.le b = true) := by
  have hsort (ns : List Decimal) : sort ns = ns.insertionSort (fun a b => a.le b = true) := by
    induction ns with
    | nil => simp [sort]
    | cons n ns ih => rw [sort_cons, ih, List.insertionSort_cons]
  rw [← hsort]
  unfold sortInPlace
  split
  · rfl
  · cases 2 * values.length.log2 with
    | zero => rfl
    | succ cuts => rw [quickSortWithin, if_pos h]

end DecisionModel.Decimal
