import DecisionModel.Proofs.Decimal.Selection

/-!
# Cutting up in place

The three runs that `partition` grows need no room besides the list. Three positions mark where one
run ends and the next one begins, and numbers trade places:

    smaller        equal          not looked at        greater
                   ^ equalFrom    ^ next               ^ greaterFrom

A step looks at one number and moves one or two of the marks, so that fewer numbers are left. It has
no result where it would look or exchange outside the list. That does not happen: as long as the
marks are where the runs say, every position is inside, and a step leaves the marks where the longer
runs say.
-/

namespace DecisionModel.Decimal

/-! ## Trading places -/

/-- The list with two of its elements exchanged, if both positions are in it. -/
def exchange? (values : Array Decimal) (i j : Nat) : Option (Array Decimal) :=
  if h : i < values.size ∧ j < values.size then some (values.swap i j h.1 h.2) else none

section Exchange

variable {values : Array Decimal} {before between after xs : List Decimal} {x y : Decimal}
  {i j : Nat}

theorem exchange?_self (h : i < values.size) : exchange? values i i = some values := by
  rw [exchange?, dif_pos ⟨h, h⟩, Option.some_inj]
  simp [Array.swap_def]

theorem set_length_append (before after : List Decimal) (x y : Decimal) :
    (before ++ x :: after).set before.length y = before ++ y :: after := by
  rw [List.set_append_right _ _ le_rfl, Nat.sub_self, List.set_cons_zero]

theorem exchange?_apart (h : values.toList = before ++ x :: (between ++ y :: after))
    (hi : i = before.length) (hj : j = before.length + 1 + between.length) :
    ∃ values', exchange? values i j = some values' ∧
      values'.toList = before ++ y :: (between ++ x :: after) := by
  have hsize : values.size = before.length + 1 + between.length + 1 + after.length := by
    rw [← Array.length_toList, h]
    simp only [List.length_append, List.length_cons]
    omega
  have hfirst : i < values.size := by omega
  have hsecond : j < values.size := by omega
  have hregroup (x y : Decimal) :
      before ++ x :: (between ++ y :: after) = (before ++ x :: between) ++ y :: after := by
    rw [List.append_assoc, List.cons_append]
  have hlength (x : Decimal) : (before ++ x :: between).length = j := by
    rw [List.length_append, List.length_cons, hj]
    omega
  have hx : values[i] = x := by
    rw [← Array.getElem_toList]
    exact List.getElem_of_append h hi.symm
  have hy : values[j] = y := by
    rw [← Array.getElem_toList]
    exact List.getElem_of_append (h.trans (hregroup x y)) (hlength x)
  refine ⟨_, dif_pos ⟨hfirst, hsecond⟩, ?_⟩
  rw [Array.toList_swap, hx, hy, h, hi, set_length_append, hregroup, ← hlength y,
    set_length_append, hregroup]

/-- An element that trades places with the first of those before it gets in front of them. -/
theorem exchange?_firstLast (h : values.toList = before ++ (xs ++ x :: after))
    (hi : i = before.length) (hj : j = before.length + xs.length) :
    ∃ values', exchange? values i j = some values' ∧
      values'.toList = before ++ x :: (firstLast xs ++ after) := by
  cases xs with
  | nil =>
    have hinside : i < values.size := by
      rw [← Array.length_toList, h, hi, List.nil_append, List.length_append, List.length_cons]
      omega
    rw [hj, List.length_nil, Nat.add_zero, ← hi, exchange?_self hinside]
    exact ⟨values, rfl, h⟩
  | cons y ys =>
    have hj' : j = before.length + 1 + ys.length := by
      rw [hj, List.length_cons]
      omega
    obtain ⟨values', hvalues', htoList⟩ := exchange?_apart h hi hj'
    exact ⟨values', hvalues', by simpa [firstLast] using htoList⟩

/-- An element that trades places with the last of those behind it gets behind them. -/
theorem exchange?_lastFirst (h : values.toList = before ++ x :: (xs ++ after))
    (hi : i = before.length) (hj : j = before.length + xs.length) :
    ∃ values', exchange? values i j = some values' ∧
      values'.toList = before ++ (lastFirst xs ++ x :: after) := by
  rcases List.eq_nil_or_concat' xs with rfl | ⟨ys, y, rfl⟩
  · have hinside : i < values.size := by
      rw [← Array.length_toList, h, hi, List.length_append, List.length_cons]
      omega
    rw [hj, List.length_nil, Nat.add_zero, ← hi, exchange?_self hinside]
    exact ⟨values, rfl, h⟩
  · rw [List.append_assoc, List.singleton_append] at h
    have hj' : j = before.length + 1 + ys.length := by
      rw [hj, List.length_append, List.length_singleton]
      omega
    obtain ⟨values', hvalues', htoList⟩ := exchange?_apart h hi hj'
    exact ⟨values', hvalues', by simpa [lastFirst] using htoList⟩

end Exchange

theorem length_firstLast (xs : List Decimal) : (firstLast xs).length = xs.length :=
  (firstLast_perm xs).length_eq

/-! ## One step -/

/-- A list of numbers on the way to being cut up. -/
structure Sweep where
  values : Array Decimal
  equalFrom : Nat
  next : Nat
  greaterFrom : Nat

namespace Sweep

variable {s s' : Sweep} {pivot x : Decimal} {runs final : Runs} {rest : List Decimal}

/-- Nothing was looked at so far. -/
def start (values : Array Decimal) : Sweep := ⟨values, 0, 0, values.size⟩

/-- How many numbers were not looked at. -/
def left (s : Sweep) : Nat := s.greaterFrom - s.next

/-- Looks at the next number. -/
def step? (pivot : Decimal) (s : Sweep) : Option Sweep :=
  match s.values[s.next]? with
  | none => none
  | some x =>
    match x.order pivot with
    | .lt => (exchange? s.values s.equalFrom s.next).map fun values =>
        ⟨values, s.equalFrom + 1, s.next + 1, s.greaterFrom⟩
    | .eq => some { s with next := s.next + 1 }
    | .gt => (exchange? s.values s.next (s.greaterFrom - 1)).map fun values =>
        ⟨values, s.equalFrom, s.next, s.greaterFrom - 1⟩

/-- Every step leaves fewer numbers. -/
theorem left_lt_of_step? (hleft : s.next < s.greaterFrom) (h : s.step? pivot = some s') :
    s'.left < s.left := by
  unfold step? at h
  unfold left
  split at h
  · cases h
  · split at h
    · obtain ⟨values, -, rfl⟩ := Option.map_eq_some_iff.mp h
      dsimp only
      omega
    · cases h
      dsimp only
      omega
    · obtain ⟨values, -, rfl⟩ := Option.map_eq_some_iff.mp h
      dsimp only
      omega

/-- Looks at all numbers that are left. -/
def run? (pivot : Decimal) (s : Sweep) : Option Sweep :=
  if _ : s.next < s.greaterFrom then
    match _ : s.step? pivot with
    | none => none
    | some s' => run? pivot s'
  else some s
termination_by s.left
decreasing_by exact left_lt_of_step? ‹_› ‹_›

theorem run?_of_step? (hleft : s.next < s.greaterFrom) (h : s.step? pivot = some s') :
    s.run? pivot = s'.run? pivot := by
  rw [run?, dif_pos hleft]
  split
  · next hnone => cases h.symm.trans hnone
  · next hsome =>
    cases h.symm.trans hsome
    rfl

/-! ## What the marks mean -/

/-- The marks stand where the runs end, and the numbers between the runs are left. -/
structure Shows (s : Sweep) (runs : Runs) (rest : List Decimal) : Prop where
  toList : s.values.toList = runs.less ++ (runs.equal ++ (rest ++ runs.greater))
  equalFrom : s.equalFrom = runs.less.length
  next : s.next = runs.less.length + runs.equal.length
  greaterFrom : s.greaterFrom = runs.less.length + runs.equal.length + rest.length

theorem shows_start (values : Array Decimal) : (start values).Shows ⟨[], [], []⟩ values.toList where
  toList := (List.append_nil _).symm
  equalFrom := rfl
  next := rfl
  greaterFrom := (Nat.zero_add _).symm

namespace Shows

theorem next_lt (h : s.Shows runs (x :: rest)) : s.next < s.greaterFrom := by
  rw [h.next, h.greaterFrom, List.length_cons]
  omega

theorem getElem?_next (h : s.Shows runs (x :: rest)) : s.values[s.next]? = some x := by
  rw [← Array.getElem?_toList, h.toList, ← List.append_assoc, h.next, ← List.length_append,
    List.getElem?_append_right le_rfl, Nat.sub_self]
  rfl

/-- A smaller number trades places with the first of the equal ones. -/
theorem step_less (h : s.Shows runs (x :: rest)) (hx : x.order pivot = .lt) :
    ∃ s', s.step? pivot = some s' ∧
      s'.Shows ⟨runs.less ++ [x], firstLast runs.equal, runs.greater⟩ rest := by
  have hlist : s.values.toList = runs.less ++ (runs.equal ++ x :: (rest ++ runs.greater)) :=
    h.toList
  obtain ⟨values, hvalues, htoList⟩ := exchange?_firstLast hlist h.equalFrom h.next
  have hstep : s.step? pivot = some ⟨values, s.equalFrom + 1, s.next + 1, s.greaterFrom⟩ := by
    simp only [step?, h.getElem?_next, hx]
    rw [hvalues]
    rfl
  refine ⟨_, hstep, ?_, ?_, ?_, ?_⟩
  · rw [htoList, List.append_assoc, List.singleton_append]
  · rw [h.equalFrom, List.length_append, List.length_singleton]
  · rw [h.next, List.length_append, List.length_singleton, length_firstLast, Nat.add_right_comm]
  · rw [h.greaterFrom, List.length_append, List.length_singleton, length_firstLast,
      List.length_cons]
    omega

/-- An equal number is where it belongs. -/
theorem step_equal (h : s.Shows runs (x :: rest)) (hx : x.order pivot = .eq) :
    ∃ s', s.step? pivot = some s' ∧ s'.Shows { runs with equal := runs.equal ++ [x] } rest := by
  have hstep : s.step? pivot = some { s with next := s.next + 1 } := by
    simp only [step?, h.getElem?_next, hx]
  refine ⟨_, hstep, ?_, h.equalFrom, ?_, ?_⟩
  · rw [h.toList, List.append_assoc, List.singleton_append, List.cons_append]
  · rw [h.next, List.length_append, List.length_singleton, Nat.add_assoc]
  · rw [h.greaterFrom, List.length_append, List.length_singleton, List.length_cons, Nat.add_assoc,
      Nat.add_assoc, Nat.add_assoc, Nat.add_comm 1]

/-- A greater number trades places with the last that is left. -/
theorem step_greater (h : s.Shows runs (x :: rest)) (hx : x.order pivot = .gt) :
    ∃ s', s.step? pivot = some s' ∧
      s'.Shows { runs with greater := x :: runs.greater } (lastFirst rest) := by
  have hlist : s.values.toList = (runs.less ++ runs.equal) ++ x :: (rest ++ runs.greater) := by
    rw [h.toList, List.append_assoc, List.cons_append]
  have hnext : s.next = (runs.less ++ runs.equal).length := by rw [h.next, List.length_append]
  have hlast : s.greaterFrom - 1 = (runs.less ++ runs.equal).length + rest.length := by
    rw [h.greaterFrom, List.length_append, List.length_cons]
    omega
  obtain ⟨values, hvalues, htoList⟩ := exchange?_lastFirst hlist hnext hlast
  have hstep : s.step? pivot = some ⟨values, s.equalFrom, s.next, s.greaterFrom - 1⟩ := by
    simp only [step?, h.getElem?_next, hx]
    rw [hvalues]
    rfl
  refine ⟨_, hstep, ?_, h.equalFrom, h.next, ?_⟩
  · rw [htoList, List.append_assoc]
  · rw [hlast, List.length_append, length_lastFirst]

end Shows

/-! ## The whole sweep -/

/-- The sweep comes to its end, with nothing left but these runs. -/
def EndsWith (pivot : Decimal) (s : Sweep) (final : Runs) : Prop :=
  ∃ s', s.run? pivot = some s' ∧ s'.Shows final []

theorem EndsWith.of_step (h : s.Shows runs (x :: rest)) (hstep : s.step? pivot = some s')
    (hs' : s'.EndsWith pivot final) : s.EndsWith pivot final := by
  obtain ⟨s'', hrun, hshows⟩ := hs'
  exact ⟨s'', (run?_of_step? h.next_lt hstep).trans hrun, hshows⟩

/-- **The sweep grows the runs**, from any runs on, and never looks outside the list. -/
theorem Shows.endsWith (h : s.Shows runs rest) :
    s.EndsWith pivot (partitionFrom pivot runs rest) := by
  fun_induction partitionFrom pivot runs rest generalizing s with
  | case1 runs =>
    have hend : ¬s.next < s.greaterFrom := by
      rw [h.next, h.greaterFrom, List.length_nil]
      omega
    exact ⟨s, by rw [run?, dif_neg hend], h⟩
  | case2 runs x xs hx ih =>
    obtain ⟨s', hstep, hs'⟩ := h.step_less hx
    exact (ih hs').of_step h hstep
  | case3 runs x xs hx ih =>
    obtain ⟨s', hstep, hs'⟩ := h.step_equal hx
    exact (ih hs').of_step h hstep
  | case4 runs x xs hx ih =>
    obtain ⟨s', hstep, hs'⟩ := h.step_greater hx
    exact (ih hs').of_step h hstep

end Sweep

/-! ## A list that was cut up -/

/-- A list that was cut up in place, and how many numbers are in its first two runs. -/
structure Cut where
  values : Array Decimal
  less : Nat
  equal : Nat

/-- The runs one behind the other. -/
def Runs.toCut (runs : Runs) : Cut := ⟨runs.toList.toArray, runs.less.length, runs.equal.length⟩

/-- Exactly the numbers below the pivot are in the first run, those that equal it in the second one
and those above it behind. -/
structure Cut.Separates (cut : Cut) (pivot : Decimal) : Prop where
  within : cut.less + cut.equal ≤ cut.values.size
  less_iff (k : Nat) (hk : k < cut.values.size) :
    k < cut.less ↔ cut.values[k].toRat < pivot.toRat
  equal_iff (k : Nat) (hk : k < cut.values.size) :
    cut.less ≤ k ∧ k < cut.less + cut.equal ↔ cut.values[k].toRat = pivot.toRat
  greater_iff (k : Nat) (hk : k < cut.values.size) :
    cut.less + cut.equal ≤ k ↔ pivot.toRat < cut.values[k].toRat

section Runs

variable {pivot : Decimal} {runs : Runs} {k : Nat}

/-- The run that a position is in tells on which side of the pivot its number is. -/
theorem Runs.CutBy.side (h : runs.CutBy pivot) (hk : k < runs.toCut.values.size) :
    (k < runs.toCut.less ∧ runs.toCut.values[k].toRat < pivot.toRat) ∨
    ((runs.toCut.less ≤ k ∧ k < runs.toCut.less + runs.toCut.equal) ∧
      runs.toCut.values[k].toRat = pivot.toRat) ∨
    (runs.toCut.less + runs.toCut.equal ≤ k ∧ pivot.toRat < runs.toCut.values[k].toRat) := by
  dsimp only [toCut]
  by_cases hless : k < runs.less.length
  · refine .inl ⟨hless, h.less _ ?_⟩
    simp [toList, hless]
  · by_cases hequal : k < runs.less.length + runs.equal.length
    · have hrun : k - runs.less.length < runs.equal.length := by omega
      refine .inr (.inl ⟨⟨by omega, hequal⟩, h.equal _ ?_⟩)
      simp [toList, List.getElem_append, hless, hrun]
    · have hrun : ¬k - runs.less.length < runs.equal.length := by omega
      refine .inr (.inr ⟨by omega, h.greater _ ?_⟩)
      simp [toList, List.getElem_append, hless, hrun]

theorem Runs.CutBy.separates (h : runs.CutBy pivot) : runs.toCut.Separates pivot where
  within := by
    rw [toCut, List.size_toArray, toList, List.length_append, List.length_append]
    exact Nat.le_add_right _ _
  less_iff k hk := by
    rcases h.side hk with ⟨hplace, hvalue⟩ | ⟨hplace, hvalue⟩ | ⟨hplace, hvalue⟩
    · exact iff_of_true hplace hvalue
    · exact iff_of_false (by omega) hvalue.not_lt
    · exact iff_of_false (by omega) hvalue.not_gt
  equal_iff k hk := by
    rcases h.side hk with ⟨hplace, hvalue⟩ | ⟨hplace, hvalue⟩ | ⟨hplace, hvalue⟩
    · exact iff_of_false (by omega) hvalue.ne
    · exact iff_of_true hplace hvalue
    · exact iff_of_false (by omega) hvalue.ne'
  greater_iff k hk := by
    rcases h.side hk with ⟨hplace, hvalue⟩ | ⟨hplace, hvalue⟩ | ⟨hplace, hvalue⟩
    · exact iff_of_false (by omega) hvalue.not_gt
    · exact iff_of_false (by omega) hvalue.not_gt
    · exact iff_of_true hplace hvalue

/-- What the marks say when nothing is left. -/
def Sweep.toCut (s : Sweep) : Cut := ⟨s.values, s.equalFrom, s.greaterFrom - s.equalFrom⟩

theorem Sweep.Shows.toCut_eq {s : Sweep} (h : s.Shows runs []) : s.toCut = runs.toCut := by
  have hvalues : s.values = runs.toList.toArray := by
    rw [← Array.toList_inj, h.toList, List.nil_append, ← List.append_assoc]
    rfl
  have hequal : s.greaterFrom - s.equalFrom = runs.equal.length := by
    rw [h.greaterFrom, h.equalFrom, List.length_nil, Nat.add_zero, Nat.add_sub_cancel_left]
  rw [toCut, hvalues, hequal, h.equalFrom, Runs.toCut]

/-- Cuts up a list in place. -/
def partitionInPlace? (pivot : Decimal) (values : Array Decimal) : Option Cut :=
  ((Sweep.start values).run? pivot).map Sweep.toCut

/-- Cutting up in place gives the runs. -/
theorem partitionInPlace?_eq (pivot : Decimal) (values : Array Decimal) :
    partitionInPlace? pivot values = some (partition pivot values.toList).toCut := by
  have hends : (Sweep.start values).EndsWith pivot (partition pivot values.toList) :=
    (Sweep.shows_start values).endsWith
  obtain ⟨s, hrun, hend⟩ := hends
  rw [partitionInPlace?, hrun, Option.map_some, hend.toCut_eq]

end Runs

/-- **A list is cut up in place.** With any pivot the sweep comes to its end and looks at no
position outside the list. It leaves the numbers of the list, first all those below the pivot, then
those that equal it and then those above it, and says how many the first two runs have. These are
the runs that the search for an order statistic goes on with. -/
theorem partition_in_place (pivot : Decimal) (values : Array Decimal) :
    ∃ cut, partitionInPlace? pivot values = some cut ∧
      cut.values.Perm values ∧ cut.Separates pivot ∧
      (partition pivot values.toList).toList = cut.values.toList ∧
      (partition pivot values.toList).less.length = cut.less ∧
      (partition pivot values.toList).equal.length = cut.equal := by
  refine ⟨_, partitionInPlace?_eq pivot values, ?_, (partition_cutBy _ _).separates, rfl, rfl, rfl⟩
  exact Array.perm_iff_toList_perm.mpr (partition_perm pivot values.toList)

end DecisionModel.Decimal
