import DecisionModel.Decimal.Selection
import DecisionModel.Proofs.Value.Line
import Mathlib.Data.List.GetD

/-!
# Order statistics found

Cutting a list at a pivot rearranges it, and puts the smaller numbers before the equal ones and
these before the greater ones. So the number at a position of the sorted list is at a position of
one of the sorted parts, and the search goes on in the part that has it. It ends because the pivot
is one of the numbers that are cut, which leaves fewer of them on either side, and because there are
fewer medians of groups than numbers.

Lists of equal values need not be equal, since a number can be written in several ways. What their
order determines is the list of what they denote, `ranked`.
-/

namespace DecisionModel.Decimal

variable {a b pivot x : Decimal} {values sorted xs : List Decimal} {runs : Runs} {k steps : Nat}

/-! ## Sorted lists -/

theorem le_iff : a.le b = true ↔ a.toRat ≤ b.toRat := by
  rw [le, bne_iff_ne, order_eq_compare, compare_le_iff_le]

/-- A list in ascending order of the numbers of another one. -/
structure Arranges (sorted values : List Decimal) : Prop where
  perm : sorted.Perm values
  ascending : sorted.Pairwise fun a b => a.le b = true

theorem sort_arranges (values : List Decimal) : Arranges (sort values) values where
  perm := List.mergeSort_perm values le
  ascending := by
    refine List.pairwise_mergeSort (fun a b c hab hbc => ?_) (fun a b => ?_) values
    · exact le_iff.mpr ((le_iff.mp hab).trans (le_iff.mp hbc))
    · rw [Bool.or_eq_true, le_iff, le_iff]
      exact le_total a.toRat b.toRat

/-- What the numbers of a list denote, in ascending order. -/
def ranked (values : List Decimal) : List Rat := (sort values).map toRat

theorem ranked_perm (values : List Decimal) : (ranked values).Perm (values.map toRat) :=
  (sort_arranges values).perm.map toRat

theorem Arranges.pairwise_map_toRat (h : Arranges sorted values) :
    (sorted.map toRat).Pairwise (· ≤ ·) :=
  List.pairwise_map.mpr (h.ascending.imp le_iff.mp)

/-- What is in ascending order is so in one way only. -/
theorem eq_ranked {ranks : List Rat} (hperm : ranks.Perm (values.map toRat))
    (hpairwise : ranks.Pairwise (· ≤ ·)) : ranks = ranked values :=
  List.Perm.eq_of_pairwise (fun _ _ _ _ => le_antisymm) hpairwise
    (sort_arranges values).pairwise_map_toRat (hperm.trans (ranked_perm values).symm)

/-- What sorted numbers denote does not depend on how they were sorted. -/
theorem Arranges.map_toRat (h : Arranges sorted values) : sorted.map toRat = ranked values :=
  eq_ranked (h.perm.map toRat) h.pairwise_map_toRat

theorem ranked_congr {values' : List Decimal} (h : values.Perm values') :
    ranked values = ranked values' :=
  eq_ranked ((ranked_perm values).trans (h.map toRat)) (sort_arranges values).pairwise_map_toRat

theorem exists_of_mem_ranked {r : Rat} (h : r ∈ ranked values) : ∃ x ∈ values, x.toRat = r :=
  List.mem_map.mp ((ranked_perm values).mem_iff.mp h)

theorem length_ranked (values : List Decimal) : (ranked values).length = values.length := by
  rw [(ranked_perm values).length_eq, List.length_map]

/-! ## Cutting -/

theorem lastFirst_perm (xs : List Decimal) : (lastFirst xs).Perm xs := by
  unfold lastFirst
  split
  case h_1 h => rw [List.getLast?_eq_none_iff.mp h]
  case h_2 x h =>
    have hxs : xs.dropLast ++ [x] = xs := List.dropLast_append_getLast? x h
    exact (List.perm_append_singleton x xs.dropLast).symm.trans (.of_eq hxs)

theorem firstLast_perm (xs : List Decimal) : (firstLast xs).Perm xs :=
  List.perm_append_comm.trans (.of_eq (List.take_append_drop 1 xs))

/-- The numbers of a list that was cut stand on their side of the pivot. -/
structure Runs.CutBy (runs : Runs) (pivot : Decimal) : Prop where
  less : ∀ x ∈ runs.less, x.toRat < pivot.toRat
  equal : ∀ x ∈ runs.equal, x.toRat = pivot.toRat
  greater : ∀ x ∈ runs.greater, pivot.toRat < x.toRat

namespace Runs.CutBy

theorem add_less (h : runs.CutBy pivot) (hx : x.order pivot = .lt) :
    CutBy ⟨runs.less ++ [x], firstLast runs.equal, runs.greater⟩ pivot where
  less := List.forall_mem_append.mpr
    ⟨h.less, List.forall_mem_singleton.mpr (toRat_lt_iff.mpr hx)⟩
  equal y hy := h.equal y ((firstLast_perm _).mem_iff.mp hy)
  greater := h.greater

theorem add_equal (h : runs.CutBy pivot) (hx : x.order pivot = .eq) :
    CutBy { runs with equal := runs.equal ++ [x] } pivot where
  less := h.less
  equal := List.forall_mem_append.mpr
    ⟨h.equal, List.forall_mem_singleton.mpr (same_iff.mp (beq_iff_eq.mpr hx))⟩
  greater := h.greater

theorem add_greater (h : runs.CutBy pivot) (hx : x.order pivot = .gt) :
    CutBy { runs with greater := x :: runs.greater } pivot where
  less := h.less
  equal := h.equal
  greater := by
    have hswap : pivot.order x = .lt := by rw [← order_swap, hx]; rfl
    exact List.forall_mem_cons.mpr ⟨toRat_lt_iff.mpr hswap, h.greater⟩

end Runs.CutBy

/-- Every number that is left is put on its side. -/
theorem partitionFrom_cutBy (xs : List Decimal) (h : runs.CutBy pivot) :
    (partitionFrom pivot runs xs).CutBy pivot := by
  fun_induction partitionFrom pivot runs xs with
  | case1 runs => exact h
  | case2 runs x xs hx ih => exact ih (h.add_less hx)
  | case3 runs x xs hx ih => exact ih (h.add_equal hx)
  | case4 runs x xs hx ih => exact ih (h.add_greater hx)

/-- No number gets lost, and none comes in. -/
theorem partitionFrom_perm (pivot : Decimal) (runs : Runs) (xs : List Decimal) :
    (partitionFrom pivot runs xs).toList.Perm (runs.toList ++ xs) := by
  fun_induction partitionFrom pivot runs xs with
  | case1 runs => rw [List.append_nil]
  | case2 runs x xs hx ih =>
    refine ih.trans (List.perm_iff_count.mpr fun y => ?_)
    simp only [Runs.toList, List.count_append, List.count_cons, List.count_nil,
      (firstLast_perm _).count_eq y]
    omega
  | case3 runs x xs hx ih =>
    refine ih.trans (List.perm_iff_count.mpr fun y => ?_)
    simp only [Runs.toList, List.count_append, List.count_cons, List.count_nil]
    omega
  | case4 runs x xs hx ih =>
    refine ih.trans (List.perm_iff_count.mpr fun y => ?_)
    simp only [Runs.toList, List.count_append, List.count_cons, (lastFirst_perm _).count_eq y]
    omega

theorem partition_cutBy (pivot : Decimal) (values : List Decimal) :
    (partition pivot values).CutBy pivot :=
  partitionFrom_cutBy values ⟨by simp, by simp, by simp⟩

theorem partition_perm (pivot : Decimal) (values : List Decimal) :
    (partition pivot values).toList.Perm values :=
  partitionFrom_perm pivot ⟨[], [], []⟩ values

/-- A pivot that is one of the numbers leaves fewer of them on both sides. -/
theorem partition_equal_ne_nil (h : pivot ∈ values) : (partition pivot values).equal ≠ [] := by
  have hcut := partition_cutBy pivot values
  have hmem : pivot ∈ (partition pivot values).toList := (partition_perm pivot values).mem_iff.mpr h
  rw [Runs.toList, List.mem_append, List.mem_append] at hmem
  rcases hmem with (hless | hequal) | hgreater
  · exact absurd (hcut.less pivot hless) (lt_irrefl _)
  · exact List.ne_nil_of_mem hequal
  · exact absurd (hcut.greater pivot hgreater) (lt_irrefl _)

theorem length_partition (pivot : Decimal) (values : List Decimal) :
    (partition pivot values).less.length + (partition pivot values).equal.length +
      (partition pivot values).greater.length = values.length := by
  rw [← (partition_perm pivot values).length_eq, Runs.toList, List.length_append,
    List.length_append]

theorem length_partition_lt (h : pivot ∈ values) :
    (partition pivot values).less.length < values.length ∧
      (partition pivot values).greater.length < values.length := by
  have hlength := length_partition pivot values
  have hequal := List.length_pos_iff.mpr (partition_equal_ne_nil h)
  constructor <;> omega

/-- The sorted parts make up the sorted list. -/
theorem Runs.CutBy.ranked_eq (h : runs.CutBy pivot) :
    ranked runs.toList = ranked runs.less ++ (ranked runs.equal ++ ranked runs.greater) := by
  symm
  apply eq_ranked
  · rw [toList, List.append_assoc, List.map_append, List.map_append]
    exact (ranked_perm _).append ((ranked_perm _).append (ranked_perm _))
  · have hless {r : Rat} (hr : r ∈ ranked runs.less) : r < pivot.toRat := by
      obtain ⟨x, hx, rfl⟩ := exists_of_mem_ranked hr
      exact h.less x hx
    have hequal {r : Rat} (hr : r ∈ ranked runs.equal) : r = pivot.toRat := by
      obtain ⟨x, hx, rfl⟩ := exists_of_mem_ranked hr
      exact h.equal x hx
    have hgreater {r : Rat} (hr : r ∈ ranked runs.greater) : pivot.toRat < r := by
      obtain ⟨x, hx, rfl⟩ := exists_of_mem_ranked hr
      exact h.greater x hx
    refine List.pairwise_append.mpr ⟨(sort_arranges _).pairwise_map_toRat,
      List.pairwise_append.mpr ⟨(sort_arranges _).pairwise_map_toRat,
        (sort_arranges _).pairwise_map_toRat, fun r hr s hs => ?_⟩, fun r hr s hs => ?_⟩
    · exact hequal hr ▸ (hgreater hs).le
    · rcases List.mem_append.mp hs with hs | hs
      · exact hequal hs ▸ (hless hr).le
      · exact ((hless hr).trans (hgreater hs)).le

section Rank

variable (h : runs.CutBy pivot)
include h

theorem Runs.CutBy.rank_less (hk : k < runs.less.length) :
    (ranked runs.toList)[k]? = (ranked runs.less)[k]? := by
  rw [h.ranked_eq, List.getElem?_append_left (by rwa [length_ranked])]

theorem Runs.CutBy.rank_equal (hle : runs.less.length ≤ k)
    (hk : k < runs.less.length + runs.equal.length) :
    (ranked runs.toList)[k]? = some pivot.toRat := by
  have hbound : k - runs.less.length < (ranked runs.equal).length := by
    rw [length_ranked]
    omega
  rw [h.ranked_eq, List.getElem?_append_right (by rwa [length_ranked]), length_ranked,
    List.getElem?_append_left hbound, List.getElem?_eq_getElem hbound]
  obtain ⟨x, hx, hrank⟩ := exists_of_mem_ranked (List.getElem_mem hbound)
  rw [← hrank, h.equal x hx]

theorem Runs.CutBy.rank_greater (hle : runs.less.length + runs.equal.length ≤ k) :
    (ranked runs.toList)[k]? =
      (ranked runs.greater)[k - runs.less.length - runs.equal.length]? := by
  have hequal : runs.equal.length ≤ k - runs.less.length := by omega
  rw [h.ranked_eq, List.getElem?_append_right (by rw [length_ranked]; omega), length_ranked,
    List.getElem?_append_right (by rwa [length_ranked]), length_ranked]

end Rank

/-! ## Medians of groups -/

theorem sort_getD_mem {values : List Decimal} (hk : k < values.length) :
    (sort values).getD k .zero ∈ values := by
  have hk' : k < (sort values).length := (sort_arranges values).perm.length_eq.symm ▸ hk
  rw [List.getD_eq_getElem _ _ hk']
  exact (sort_arranges values).perm.mem_iff.mp (List.getElem_mem _)

theorem middle_mem {group : List Decimal} (h : group ≠ []) : middle group ∈ group :=
  sort_getD_mem (Nat.div_lt_self (List.length_pos_iff.mpr h) (by decide))

theorem flatten_groupsOfFive (values : List Decimal) : (groupsOfFive values).flatten = values := by
  fun_induction groupsOfFive values with
  | case1 => rfl
  | case2 a b c d e rest ih => simp [ih]
  | case3 => simp

theorem ne_nil_of_mem_groupsOfFive {group : List Decimal} (h : group ∈ groupsOfFive values) :
    group ≠ [] := by
  fun_induction groupsOfFive values with
  | case1 => exact absurd h List.not_mem_nil
  | case2 a b c d e rest ih =>
    rcases List.mem_cons.mp h with rfl | h
    · exact List.cons_ne_nil _ _
    · exact ih h
  | case3 rest hne => exact List.mem_singleton.mp h ▸ hne

theorem length_groupsOfFive_le (values : List Decimal) :
    5 * (groupsOfFive values).length ≤ values.length + 4 := by
  fun_induction groupsOfFive values with
  | case1 => exact Nat.zero_le _
  | case2 a b c d e rest ih =>
    simp only [List.length_cons]
    omega
  | case3 rest hne =>
    have := List.length_pos_iff.mpr hne
    simp only [List.length_singleton]
    omega

/-- The numbers of which the pivot is the median. -/
def mediansOfGroups (values : List Decimal) : List Decimal := (groupsOfFive values).map middle

/-- The median of a group is one of the numbers. -/
theorem mem_of_mem_mediansOfGroups (h : x ∈ mediansOfGroups values) : x ∈ values := by
  obtain ⟨group, hgroup, rfl⟩ := List.mem_map.mp h
  rw [← flatten_groupsOfFive values]
  exact List.mem_flatten_of_mem hgroup (middle_mem (ne_nil_of_mem_groupsOfFive hgroup))

theorem length_mediansOfGroups_lt (h : 5 < values.length) :
    (mediansOfGroups values).length < values.length := by
  have := length_groupsOfFive_le values
  rw [mediansOfGroups, List.length_map]
  omega

theorem mediansOfGroups_ne_nil (h : values ≠ []) : mediansOfGroups values ≠ [] := by
  intro hnil
  rw [mediansOfGroups, List.map_eq_nil_iff] at hnil
  exact h (by rw [← flatten_groupsOfFive values, hnil, List.flatten_nil])

/-! ## Selection -/

/-- What a search for the number at position `k` is to find. -/
structure Finds (values : List Decimal) (k : Nat) (found : Selected) : Prop where
  perm : found.values.Perm values
  mem : found.value ∈ values
  rank : (ranked values)[k]? = some found.value.toRat

namespace Finds

variable {found : Selected}

theorem of_sort (hk : k < values.length) :
    Finds values k ⟨(sort values).getD k .zero, sort values⟩ where
  perm := (sort_arranges values).perm
  mem := sort_getD_mem hk
  rank := by
    have hk' : k < (sort values).length := (sort_arranges values).perm.length_eq.symm ▸ hk
    rw [ranked, List.getElem?_map, List.getElem?_eq_getElem hk', List.getD_eq_getElem _ _ hk']
    rfl

section Cut

variable (hcut : runs.CutBy pivot) (hperm : runs.toList.Perm values)
include hcut hperm

/-- What is found among the smaller numbers is found. -/
theorem of_less (hk : k < runs.less.length) (h : Finds runs.less k found) :
    Finds values k ⟨found.value, { runs with less := found.values }.toList⟩ where
  perm := ((h.perm.append_right _).append_right _).trans hperm
  mem := hperm.mem_iff.mp
    (List.mem_append_left _ (List.mem_append_left _ h.mem))
  rank := by rw [← ranked_congr hperm, hcut.rank_less hk, h.rank]

/-- The pivot itself is found among the numbers that equal it. -/
theorem of_equal (hmem : pivot ∈ values) (hle : runs.less.length ≤ k)
    (hk : k < runs.less.length + runs.equal.length) :
    Finds values k ⟨pivot, runs.toList⟩ where
  perm := hperm
  mem := hmem
  rank := by rw [← ranked_congr hperm, hcut.rank_equal hle hk]

/-- What is found among the greater numbers is found. -/
theorem of_greater (hle : runs.less.length + runs.equal.length ≤ k)
    (h : Finds runs.greater (k - runs.less.length - runs.equal.length) found) :
    Finds values k ⟨found.value, { runs with greater := found.values }.toList⟩ where
  perm := (h.perm.append_left _).trans hperm
  mem := hperm.mem_iff.mp (List.mem_append_right _ h.mem)
  rank := by rw [← ranked_congr hperm, hcut.rank_greater hle, h.rank]

end Cut
end Finds

/-- One cut of a search that goes on with `search`. -/
def selectAt (search : List Decimal → Nat → Selected) (pivot : Decimal) (values : List Decimal)
    (k : Nat) : Selected :=
  let runs := partition pivot values
  if k < runs.less.length then
    let found := search runs.less k
    ⟨found.value, { runs with less := found.values }.toList⟩
  else if k < runs.less.length + runs.equal.length then ⟨pivot, runs.toList⟩
  else
    let found := search runs.greater (k - runs.less.length - runs.equal.length)
    ⟨found.value, { runs with greater := found.values }.toList⟩

section Step

variable {search search' : List Decimal → Nat → Selected}

theorem selectAt_finds (hmem : pivot ∈ values) (hk : k < values.length)
    (hsearch : ∀ part j, part.length < values.length → j < part.length →
      Finds part j (search part j)) :
    Finds values k (selectAt search pivot values k) := by
  have hcut := partition_cutBy pivot values
  have hperm := partition_perm pivot values
  have hlength := length_partition pivot values
  obtain ⟨hless, hgreater⟩ := length_partition_lt hmem
  unfold selectAt
  dsimp only
  split
  case isTrue hk => exact .of_less hcut hperm hk (hsearch _ k hless hk)
  case isFalse hle =>
    split
    case isTrue hk => exact .of_equal hcut hperm hmem (Nat.le_of_not_lt hle) hk
    case isFalse hle =>
      exact .of_greater hcut hperm (Nat.le_of_not_lt hle) (hsearch _ _ hgreater (by omega))

/-- The search goes on in a shorter list. -/
theorem selectAt_congr (hmem : pivot ∈ values)
    (hsearch : ∀ part j, part.length < values.length → search part j = search' part j) :
    selectAt search pivot values k = selectAt search' pivot values k := by
  obtain ⟨hless, hgreater⟩ := length_partition_lt hmem
  simp only [selectAt, hsearch _ _ hless, hsearch _ _ hgreater]

/-- The pivot that a search finds with `search`. -/
def pivotOf (search : List Decimal → Nat → Selected) (values : List Decimal) : Decimal :=
  (search (mediansOfGroups values) ((mediansOfGroups values).length / 2)).value

/-- There are fewer medians than numbers, and a search among them finds one of them. -/
theorem pivotOf_mem (hlong : ¬ values.length ≤ 5)
    (hfinds : ∀ part j, part.length < values.length → j < part.length →
      Finds part j (search part j)) : pivotOf search values ∈ values := by
  have hpos : 0 < (mediansOfGroups values).length :=
    List.length_pos_iff.mpr (mediansOfGroups_ne_nil (List.ne_nil_of_length_pos (by omega)))
  exact mem_of_mem_mediansOfGroups (hfinds _ _ (length_mediansOfGroups_lt (Nat.lt_of_not_le hlong))
    (Nat.div_lt_self hpos (by decide))).mem

/-- Searches that agree on shorter lists cut at the same pivot and go on in the same way. -/
theorem selectAt_pivotOf_congr (hlong : ¬ values.length ≤ 5)
    (hfinds : ∀ part j, part.length < values.length → j < part.length →
      Finds part j (search part j))
    (hsearch : ∀ part j, part.length < values.length → search part j = search' part j) :
    selectAt search (pivotOf search values) values k =
      selectAt search' (pivotOf search' values) values k := by
  have hpivot : pivotOf search values = pivotOf search' values :=
    congrArg Selected.value (hsearch _ _ (length_mediansOfGroups_lt (Nat.lt_of_not_le hlong)))
  rw [selectAt_congr (pivotOf_mem hlong hfinds) hsearch, hpivot]

end Step

theorem selectWithin_succ (steps : Nat) (values : List Decimal) (k : Nat) :
    selectWithin (steps + 1) values k =
      if values.length ≤ 5 then ⟨(sort values).getD k .zero, sort values⟩
      else selectAt (selectWithin steps) (pivotOf (selectWithin steps) values) values k := rfl

/-- **The search finds.** -/
theorem selectWithin_finds (hsteps : values.length < steps) (hk : k < values.length) :
    Finds values k (selectWithin steps values k) := by
  induction steps generalizing values k with
  | zero => exact absurd hsteps (Nat.not_lt_zero _)
  | succ steps ih =>
    rw [selectWithin_succ]
    split
    case isTrue => exact .of_sort hk
    case isFalse hlong =>
      -- both the pivot and the rest are looked for in shorter lists, which the steps left suffice for
      have hsearch (part : List Decimal) (j : Nat) (hpart : part.length < values.length)
          (hj : j < part.length) : Finds part j (selectWithin steps part j) :=
        ih (by omega) hj
      exact selectAt_finds (pivotOf_mem hlong hsearch) hk hsearch

/-- **The search ends.** More steps than there are numbers make no difference. -/
theorem selectWithin_congr {steps' : Nat} (hsteps : values.length < steps)
    (hsteps' : values.length < steps') :
    selectWithin steps values k = selectWithin steps' values k := by
  induction steps generalizing steps' values k with
  | zero => exact absurd hsteps (Nat.not_lt_zero _)
  | succ steps ih =>
    cases steps' with
    | zero => exact absurd hsteps' (Nat.not_lt_zero _)
    | succ steps' =>
      have hsearch (part : List Decimal) (j : Nat) (hpart : part.length < values.length) :
          selectWithin steps part j = selectWithin steps' part j := ih (by omega) (by omega)
      rw [selectWithin_succ, selectWithin_succ]
      split
      case isTrue => rfl
      case isFalse hlong =>
        exact selectAt_pivotOf_congr hlong
          (fun part j hpart hj => selectWithin_finds (by omega) hj) hsearch

/-- The search as it is, without a bound on its steps. -/
theorem select_eq (values : List Decimal) (k : Nat) :
    select values k =
      if values.length ≤ 5 then ⟨(sort values).getD k .zero, sort values⟩
      else selectAt select (pivotOf select values) values k := by
  have hsearch (part : List Decimal) (j : Nat) (hpart : part.length < values.length) :
      selectWithin values.length part j = select part j :=
    selectWithin_congr hpart (Nat.lt_succ_self _)
  rw [select, selectWithin_succ]
  split
  case isTrue => rfl
  case isFalse hlong =>
    exact selectAt_pivotOf_congr hlong (fun part j hpart hj => selectWithin_finds hpart hj) hsearch

/-- **Selection finds the number that sorting puts at a position.** -/
theorem select_finds (hk : k < values.length) : Finds values k (select values k) :=
  selectWithin_finds (Nat.lt_succ_self _) hk

theorem Finds.same_getD {found : Selected} (h : Finds values k found)
    (hs : Arranges sorted values) : found.value.same (sorted.getD k .zero) = true := by
  have hrank : (sorted.map toRat)[k]? = some found.value.toRat := hs.map_toRat ▸ h.rank
  rw [List.getElem?_map, Option.map_eq_some_iff] at hrank
  obtain ⟨x, hx, hrank⟩ := hrank
  rw [List.getD, hx, Option.getD_some, same_iff, hrank]

end DecisionModel.Decimal
