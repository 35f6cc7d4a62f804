import DecisionModel.Decimal.Basic

/-!
# Sorting decimals

Numbers of equal value may be written differently, so which of them comes first can be seen. Short
lists, and long ones that are in order already or in exactly the opposite one, are sorted stably.
Other long lists are sorted by exchanging elements in place, the way quicksort does it, which
mixes up equal numbers. That way is described here by what it does to a list: a pivot is taken
out, `halve` puts what passes a test before what does not, and the pivot goes between the two.
-/

namespace DecisionModel.Decimal

/-- Numeric order as a test. -/
def le (a b : Decimal) : Bool := a.order b != .gt

def lt (a b : Decimal) : Bool := a.order b == .lt

/-- Sorts by value; numbers of equal value stay in their order. -/
def sort (values : List Decimal) : List Decimal := values.mergeSort le

/-! ## Moving elements -/

/-- The list with its last element moved to the front. -/
def lastFirst (xs : List Decimal) : List Decimal :=
  match xs.getLast? with
  | none => []
  | some x => x :: xs.dropLast

/-- The list with its first element moved to the end. -/
def firstLast (xs : List Decimal) : List Decimal := xs.drop 1 ++ xs.take 1

theorem length_lastFirst (xs : List Decimal) : (lastFirst xs).length = xs.length := by
  cases h : xs.getLast? with
  | none => simp_all [lastFirst]
  | some x =>
    have : xs ≠ [] := by rintro rfl; simp at h
    have := List.length_pos_iff.2 this
    simp [lastFirst, h]
    omega

/-- A list cut in two by a test. -/
structure Halves where
  passed : List Decimal
  failed : List Decimal

/-- Takes in one more element, for which the first of those that failed makes room at the end. -/
def Halves.add (test : Decimal → Bool) (halves : Halves) (x : Decimal) : Halves :=
  if test x then ⟨halves.passed ++ [x], firstLast halves.failed⟩
  else ⟨halves.passed, x :: firstLast halves.failed⟩

/-- Cuts a list in two. The first element is put aside and taken in last. -/
def halve (test : Decimal → Bool) (values : List Decimal) : Halves :=
  (firstLast values).foldl (Halves.add test) ⟨[], []⟩

/-! ## Choosing a pivot -/

/-- Of three positions the one that holds the middle number. -/
def middlePosition (values : Array Decimal) (a b c : Nat) : Nat :=
  let isLess (i j : Nat) : Bool := (values.getD i zero).lt (values.getD j zero)
  if isLess a b != isLess a c then a
  else if isLess b c != isLess a b then c
  else b

/-- Three numbers represent a short stretch of a list. In a long one each of the three is in turn
the middle of three, in stretches an eighth as long. -/
def pivotPosition (values : Array Decimal) (a b c eighth : Nat) : Nat :=
  if 8 ≤ eighth then
    let next := eighth / 8
    let among (start : Nat) : Nat :=
      pivotPosition values start (start + 4 * next) (start + 7 * next) next
    middlePosition values (among a) (among b) (among c)
  else middlePosition values a b c
termination_by eighth
decreasing_by omega

/-! ## Sorting in place -/

/-- Up to this length a list is sorted stably. -/
def stableLength : Nat := 32

/-- Sorts by cutting the list at a pivot, for at most `cuts` times one after another. A number that
equals the pivot of the cut before is the smallest there is; those that equal it need no sorting. -/
def quickSortWithin : (cuts : Nat) → (least : Option Decimal) → List Decimal → List Decimal
  | 0, _, values => sort values
  | cuts + 1, least, values =>
    if values.length ≤ stableLength then sort values
    else
      let eighth := values.length / 8
      let position := pivotPosition values.toArray 0 (4 * eighth) (7 * eighth) eighth
      let pivot := values.getD position zero
      let others := (values.set position (values.headD zero)).drop 1
      if least.any (!·.lt pivot) then
        let halves := halve (fun x => !pivot.lt x) others
        lastFirst halves.passed ++ pivot :: quickSortWithin cuts none halves.failed
      else
        let halves := halve (·.lt pivot) others
        quickSortWithin cuts least (lastFirst halves.passed)
          ++ pivot :: quickSortWithin cuts (some pivot) halves.failed

/-- Whether every element stands to the next one as the test says. -/
def isChain (test : Decimal → Decimal → Bool) (values : List Decimal) : Bool :=
  (values.zip (values.drop 1)).all fun (a, b) => test a b

/-- Sorts by value; numbers of equal value may change places in a long list. -/
def sortInPlace (values : List Decimal) : List Decimal :=
  if isChain le values || isChain (fun a b => b.lt a) values then sort values
  else quickSortWithin (2 * values.length.log2) none values

end DecisionModel.Decimal
