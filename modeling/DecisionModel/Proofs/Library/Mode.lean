import DecisionModel.Proofs.Decimal.Sorting
import DecisionModel.Proofs.Library.Median

/-!
# The mode

The numbers that occur most often are found in the sorted list, where equal numbers stand next to
each other, so comparing each number with the run before it is enough to count all its occurrences.
Numbers that are written differently count as one number, and the first of a run stands for it. The
runs ascend strictly, and so do the longest of them.
-/

namespace DecisionModel.Library

open Decimal (Arranges le_iff lt_iff same_iff)

variable {n next : Decimal} {ns sorted : List Decimal} {runs : List (Decimal × Nat)} {count : Nat}

/-! ## Occurrences -/

/-- How many numbers of a list are equal to `n`, however they are written. -/
def occurrences (n : Decimal) (ns : List Decimal) : Nat := ns.countP (·.same n)

theorem occurrences_cons_self (h : n.toRat = next.toRat) (ns : List Decimal) :
    occurrences next (n :: ns) = occurrences next ns + 1 :=
  List.countP_cons_of_pos (same_iff.mpr h)

theorem occurrences_cons_ne (h : n.toRat ≠ next.toRat) (ns : List Decimal) :
    occurrences next (n :: ns) = occurrences next ns :=
  List.countP_cons_of_neg (fun hsame => h (same_iff.mp hsame))

/-- How a number is written does not matter. -/
theorem occurrences_congr (h : n.toRat = next.toRat) (ns : List Decimal) :
    occurrences n ns = occurrences next ns := by
  refine List.countP_congr fun m hm => ?_
  rw [same_iff, same_iff, h]

theorem occurrences_perm (n : Decimal) (h : sorted.Perm ns) :
    occurrences n sorted = occurrences n ns :=
  h.countP_eq _

theorem occurrences_pos_iff : 0 < occurrences n ns ↔ ∃ m ∈ ns, m.toRat = n.toRat := by
  simp only [occurrences, List.countP_pos_iff, same_iff]

/-! ## Runs -/

/-- Numbers with their counts that say how often each number of a list occurs there. -/
structure CountsRuns (ns : List Decimal) (runs : List (Decimal × Nat)) : Prop where
  ascending : runs.Pairwise fun a b => a.1.toRat < b.1.toRat
  mem : ∀ run ∈ runs, run.1 ∈ ns
  count : ∀ run ∈ runs, run.2 = occurrences run.1 ns
  covers : ∀ n ∈ ns, ∃ run ∈ runs, run.1.toRat = n.toRat

namespace CountsRuns

theorem nil : CountsRuns [] [] := ⟨.nil, by simp, by simp, by simp⟩

/-- A number below all others starts a run. -/
theorem started (h : CountsRuns ns runs) (hlt : ∀ run ∈ runs, n.toRat < run.1.toRat) :
    CountsRuns (n :: ns) ((n, 1) :: runs) where
  ascending := List.pairwise_cons.mpr ⟨hlt, h.ascending⟩
  mem := List.forall_mem_cons.mpr
    ⟨List.mem_cons_self, fun run hrun => List.mem_cons_of_mem n (h.mem run hrun)⟩
  count := by
    refine List.forall_mem_cons.mpr ⟨?_, fun run hrun => ?_⟩
    · have hnone : occurrences n ns = 0 := by
        rw [← Nat.le_zero, ← Nat.not_lt, occurrences_pos_iff]
        rintro ⟨m, hm, hequal⟩
        obtain ⟨run, hrun, hvalue⟩ := h.covers m hm
        exact (hlt run hrun).ne (hvalue.trans hequal).symm
      rw [occurrences_cons_self rfl, hnone]
    · rw [occurrences_cons_ne (hlt run hrun).ne, h.count run hrun]
  covers := List.forall_mem_cons.mpr
    ⟨⟨(n, 1), List.mem_cons_self, rfl⟩, fun m hm => by
      obtain ⟨run, hrun, hvalue⟩ := h.covers m hm
      exact ⟨run, List.mem_cons_of_mem _ hrun, hvalue⟩⟩

/-- A number that equals the one of the first run makes it longer, and takes its place. -/
theorem extended (h : CountsRuns ns ((next, count) :: runs)) (hequal : n.toRat = next.toRat) :
    CountsRuns (n :: ns) ((n, count + 1) :: runs) := by
  obtain ⟨hnext, hascending⟩ := List.pairwise_cons.mp h.ascending
  obtain ⟨hcount, hcounts⟩ := List.forall_mem_cons.mp h.count
  have hlt (run : Decimal × Nat) (hrun : run ∈ runs) : n.toRat < run.1.toRat :=
    hequal ▸ hnext run hrun
  refine ⟨List.pairwise_cons.mpr ⟨hlt, hascending⟩, ?_, ?_, ?_⟩
  · exact List.forall_mem_cons.mpr ⟨List.mem_cons_self, fun run hrun =>
      List.mem_cons_of_mem n (h.mem run (List.mem_cons_of_mem _ hrun))⟩
  · refine List.forall_mem_cons.mpr ⟨?_, fun run hrun => ?_⟩
    · rw [occurrences_cons_self rfl, occurrences_congr hequal, ← hcount]
    · rw [occurrences_cons_ne (hlt run hrun).ne, hcounts run hrun]
  · refine List.forall_mem_cons.mpr ⟨⟨(n, count + 1), List.mem_cons_self, rfl⟩, fun m hm => ?_⟩
    obtain ⟨run, hrun, hvalue⟩ := h.covers m hm
    rcases List.mem_cons.mp hrun with rfl | hrun
    · exact ⟨(n, count + 1), List.mem_cons_self, hequal.trans hvalue⟩
    · exact ⟨run, List.mem_cons_of_mem _ hrun, hvalue⟩

end CountsRuns

/-- In a sorted list equal numbers are next to each other, and so every number has one run. -/
theorem frequencies_countsRuns (h : sorted.Pairwise fun a b => a.le b = true) :
    CountsRuns sorted (frequencies sorted) := by
  induction sorted with
  | nil => exact .nil
  | cons n ns ih =>
    obtain ⟨hle, hsorted⟩ := List.pairwise_cons.mp h
    have hruns := ih hsorted
    rw [frequencies]
    generalize frequencies ns = runs at hruns
    cases runs with
    | nil => exact hruns.started (by simp)
    | cons run runs =>
      obtain ⟨next, count⟩ := run
      dsimp only
      split
      case isTrue hsame => exact hruns.extended (same_iff.mp hsame)
      case isFalse hsame =>
        -- the number differs from the next one, and so it is below all that follow
        have hnext : n.toRat < next.toRat :=
          lt_of_le_of_ne (le_iff.mp (hle next (hruns.mem _ List.mem_cons_self)))
            (fun hequal => hsame (same_iff.mpr hequal))
        refine hruns.started (List.forall_mem_cons.mpr ⟨hnext, fun run hrun => ?_⟩)
        exact hnext.trans ((List.pairwise_cons.mp hruns.ascending).1 run hrun)

/-! ## The longest runs -/

/-- The length of the longest runs. -/
def longest (runs : List (Decimal × Nat)) : Nat :=
  runs.foldl (fun top entry => Nat.max top entry.2) 0

/-- Some run is longest, and none is longer. -/
theorem longest_spec (hne : runs ≠ []) :
    (∃ run ∈ runs, run.2 = longest runs) ∧ ∀ run ∈ runs, run.2 ≤ longest runs := by
  have hcounts : (runs.map (·.2)).max? = some (longest runs) := by
    obtain ⟨top, htop⟩ : ∃ top, (runs.map (·.2)).max? = some top :=
      Option.isSome_iff_exists.mp (List.isSome_max?_of_ne_nil (mt List.map_eq_nil_iff.mp hne))
    have hfold : longest runs = (runs.map (·.2)).foldl max 0 := by
      rw [List.foldl_map]
      rfl
    rw [hfold, List.foldl_max, htop, Option.getD_some, Nat.zero_max]
  obtain ⟨hmem, hle⟩ := List.max?_eq_some_iff.mp hcounts
  exact ⟨List.mem_map.mp hmem, fun run hrun => hle _ (List.mem_map_of_mem hrun)⟩

theorem CountsRuns.mem_longest_iff (h : CountsRuns ns runs) :
    (∃ run ∈ runs, run.2 = longest runs ∧ run.1.toRat = n.toRat) ↔
      0 < occurrences n ns ∧ ∀ other, occurrences other ns ≤ occurrences n ns := by
  constructor
  · rintro ⟨run, hrun, hlongest, hvalue⟩
    have hcount : occurrences n ns = longest runs := by
      rw [← occurrences_congr hvalue, ← h.count run hrun, hlongest]
    refine ⟨occurrences_pos_iff.mpr ⟨run.1, h.mem run hrun, hvalue⟩, fun other => ?_⟩
    by_cases hother : 0 < occurrences other ns
    · obtain ⟨m, hm, hequal⟩ := occurrences_pos_iff.mp hother
      obtain ⟨run', hrun', hvalue'⟩ := h.covers m hm
      rw [hcount, ← occurrences_congr (hvalue'.trans hequal), ← h.count run' hrun']
      exact (longest_spec (List.ne_nil_of_mem hrun)).2 run' hrun'
    · omega
  · rintro ⟨hpos, hmost⟩
    obtain ⟨m, hm, hequal⟩ := occurrences_pos_iff.mp hpos
    obtain ⟨run, hrun, hvalue⟩ := h.covers m hm
    obtain ⟨⟨top, htop, hlongest⟩, hle⟩ := longest_spec (List.ne_nil_of_mem hrun)
    refine ⟨run, hrun, le_antisymm (hle run hrun) ?_, hvalue.trans hequal⟩
    -- the longest run belongs to a number, which does not occur more often either
    rw [← hlongest, h.count top htop, h.count run hrun, occurrences_congr (hvalue.trans hequal)]
    exact hmost top.1

/-! ## The mode -/

/-- The runs that are as long as the longest, over the sorted numbers. -/
theorem modeOf_eq (ns : List Decimal) :
    modeOf ns = ((frequencies (Decimal.sortInPlace ns)).filter
      (·.2 == longest (frequencies (Decimal.sortInPlace ns)))).map (·.1) := rfl

theorem countsRuns_sortInPlace (ns : List Decimal) :
    CountsRuns (Decimal.sortInPlace ns) (frequencies (Decimal.sortInPlace ns)) :=
  frequencies_countsRuns (Decimal.sortInPlace_arranges ns).ascending

theorem mem_modeOf_iff : n ∈ modeOf ns ↔ ∃ run ∈ frequencies (Decimal.sortInPlace ns),
    run.2 = longest (frequencies (Decimal.sortInPlace ns)) ∧ run.1 = n := by
  simp only [modeOf_eq, List.mem_map, List.mem_filter, beq_iff_eq, and_assoc]

theorem exists_mem_modeOf_iff : (∃ m ∈ modeOf ns, m.same n = true) ↔
    0 < occurrences n ns ∧ ∀ other, occurrences other ns ≤ occurrences n ns := by
  have hperm := (Decimal.sortInPlace_arranges ns).perm
  simp only [← occurrences_perm _ hperm, ← (countsRuns_sortInPlace ns).mem_longest_iff, same_iff,
    mem_modeOf_iff]
  constructor
  · rintro ⟨m, ⟨run, hrun, hlongest, rfl⟩, hvalue⟩
    exact ⟨run, hrun, hlongest, hvalue⟩
  · rintro ⟨run, hrun, hlongest, hvalue⟩
    exact ⟨run.1, ⟨run, hrun, hlongest, rfl⟩, hvalue⟩

theorem modeOf_ascending (ns : List Decimal) :
    (modeOf ns).Pairwise fun a b => a.lt b = true := by
  rw [modeOf_eq, List.pairwise_map]
  exact ((countsRuns_sortInPlace ns).ascending.filter _).imp lt_iff.mpr

theorem mem_of_mem_modeOf (h : n ∈ modeOf ns) : n ∈ ns := by
  obtain ⟨run, hrun, -, rfl⟩ := mem_modeOf_iff.mp h
  exact (Decimal.sortInPlace_arranges ns).perm.mem_iff.mp
    ((countsRuns_sortInPlace ns).mem run hrun)

/-- **The mode is what occurs most often.** It is a list of numbers, of the list they were looked
for in, that ascend strictly. A number equals one of them exactly if it occurs in that list and no
number occurs there more often, where numbers that are written differently are the same if they are
equal. The numbers may be the elements of one list or the arguments themselves, and there may be
none. -/
theorem mode_is_most_frequent (ns : List Decimal) :
    Builtin.mode.call [.list (ns.map .number)] = .ok (.list ((modeOf ns).map .number)) ∧
    Builtin.mode.call (ns.map .number) = .ok (.list ((modeOf ns).map .number)) ∧
    ((modeOf ns).Pairwise fun a b => a.lt b = true) ∧
    (∀ m ∈ modeOf ns, m ∈ ns) ∧
    (∀ n : Decimal, (∃ m ∈ modeOf ns, m.same n = true) ↔
      0 < occurrences n ns ∧ ∀ other, occurrences other ns ≤ occurrences n ns) ∧
    modeOf [] = [] := by
  obtain ⟨hlist, harguments⟩ := aggregateNumbers_numbers "mode"
    (fun ns => .ok (.list ((modeOf ns).map .number))) ns
  refine ⟨hlist, harguments, modeOf_ascending ns, fun m hm => mem_of_mem_modeOf hm,
    fun n => exists_mem_modeOf_iff, ?_⟩
  exact List.eq_nil_iff_forall_not_mem.mpr fun n hn => List.not_mem_nil (mem_of_mem_modeOf hn)

/-- The `1.0` and the `2.50` stand for the numbers that occur twice. -/
theorem two_numbers_most_frequent :
    modeOf sixNumbers =
        [⟨false, 10, 1, by decide, by decide⟩, ⟨false, 250, 2, by decide, by decide⟩] ∧
      ⟨false, 250, 2, by decide, by decide⟩ ∈ sixNumbers ∧
      occurrences (.ofNat 3) sixNumbers ≤ occurrences .one sixNumbers ∧
      Builtin.mode.call (sixNumbers.map .number) =
        .ok (.list [.number ⟨false, 10, 1, by decide, by decide⟩,
          .number ⟨false, 250, 2, by decide, by decide⟩]) := by
  obtain ⟨-, hcall, -, hmem, hmost, -⟩ := mode_is_most_frequent sixNumbers
  have hmode : modeOf sixNumbers =
      [⟨false, 10, 1, by decide, by decide⟩, ⟨false, 250, 2, by decide, by decide⟩] := by
    rw [modeOf, Decimal.sortInPlace_of_short (by decide)]
    decide +kernel
  rw [hmode] at hcall hmem hmost
  exact ⟨hmode, hmem _ (by simp), ((hmost .one).mp ⟨_, List.mem_cons_self, rfl⟩).2 _, hcall⟩

end DecisionModel.Library
