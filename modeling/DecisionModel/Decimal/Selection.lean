import DecisionModel.Decimal.Sorting

/-!
# Order statistics

The k-th smallest of a list of numbers, without sorting the list: a pivot splits it into the
smaller, the equal and the greater numbers, and only the part that holds the one looked for is
searched on.
The pivot is the median of the medians of groups of five, which keeps both outer parts well below
the whole.

Numbers of equal value may still be written differently, so it matters which of them is found. That
depends on how the search rearranges the list, and a second search goes on from the list that the
first one leaves. Every rearrangement is a permutation.
-/

namespace DecisionModel.Decimal

/-! ## Cutting up a list -/

/-- A list cut up by a pivot. -/
structure Runs where
  less : List Decimal
  equal : List Decimal
  greater : List Decimal

def Runs.toList (runs : Runs) : List Decimal := runs.less ++ runs.equal ++ runs.greater

/-- Cuts up the numbers that are left, in place: the smaller and the equal ones grow from the front
of the list and the greater ones from its end. A smaller number trades places with the first of the
equal ones. A greater one trades places with the last that is left, which is looked at next. -/
def partitionFrom (pivot : Decimal) (runs : Runs) : List Decimal → Runs
  | [] => runs
  | x :: xs =>
    match x.order pivot with
    | .lt =>
      partitionFrom pivot ⟨runs.less ++ [x], firstLast runs.equal, runs.greater⟩ xs
    | .eq => partitionFrom pivot { runs with equal := runs.equal ++ [x] } xs
    | .gt => partitionFrom pivot { runs with greater := x :: runs.greater } (lastFirst xs)
termination_by xs => xs.length
decreasing_by all_goals simp [length_lastFirst]

def partition (pivot : Decimal) (values : List Decimal) : Runs :=
  partitionFrom pivot ⟨[], [], []⟩ values

/-- Groups of five, and one of what is left. -/
def groupsOfFive : List Decimal → List (List Decimal)
  | [] => []
  | a :: b :: c :: d :: e :: rest => [a, b, c, d, e] :: groupsOfFive rest
  | rest => [rest]

/-- The middle number of a group, the upper one of two. -/
def middle (group : List Decimal) : Decimal := (sort group).getD (group.length / 2) .zero

/-! ## Selection -/

/-- A number that was looked for, and the list as the search leaves it. -/
structure Selected where
  value : Decimal
  values : List Decimal

/-- The number at position `k` of the sorted list. `steps` bounds how often the list is cut; as
every cut leaves out the pivot, the length of the list is enough. -/
def selectWithin : (steps : Nat) → List Decimal → Nat → Selected
  | 0, values, _ => ⟨.zero, values⟩
  | steps + 1, values, k =>
    if values.length ≤ 5 then ⟨(sort values).getD k .zero, sort values⟩
    else
      let medians := (groupsOfFive values).map middle
      let pivot := (selectWithin steps medians (medians.length / 2)).value
      let runs := partition pivot values
      if k < runs.less.length then
        let found := selectWithin steps runs.less k
        ⟨found.value, { runs with less := found.values }.toList⟩
      else if k < runs.less.length + runs.equal.length then ⟨pivot, runs.toList⟩
      else
        let found := selectWithin steps runs.greater (k - runs.less.length - runs.equal.length)
        ⟨found.value, { runs with greater := found.values }.toList⟩

def select (values : List Decimal) (k : Nat) : Selected :=
  selectWithin (values.length + 1) values k

end DecisionModel.Decimal
