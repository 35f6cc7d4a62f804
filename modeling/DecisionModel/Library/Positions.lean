import DecisionModel.Library.Arguments
import DecisionModel.Operator.Number

/-!
# Positions in sequences

Lists and texts are sequences, and functions of either take a part of one. Where the part begins is
given by a position, which counts from one, or from the end if it is negative; a position within the
sequence falls on an offset, which counts from zero. What is taken lies between two offsets. They are
computed from the position and the length that is asked for, and a part that goes beyond the sequence
breaks the evaluation off.
-/

namespace DecisionModel.Library

variable {α : Type}

/-- A number as a position, for the function that asks for one. -/
def position (function : String) (v : Value) : Result Int := do
  return (← Number.toWhole function (← expectNumber function v)).toInt

/-- The length that is asked for, if any is. -/
def askedLength? (function : String) (v : Value) : Result (Option Int) :=
  if v.isMissing then .ok none else (position function v).map some

/-- The offset on which a position falls among `count` elements. -/
def offset? (count : Nat) (place : Int) : Option Int :=
  if place = 0 ∨ count < place.natAbs then none
  else some (if place < 0 then count + place else place - 1)

/-- The offset of a position, for the function that asks for it. -/
def startOffset (function : String) (outside : Int → Nat → ArgumentFault) (count : Nat)
    (place : Int) : Result Int :=
  match offset? count place with
  | none => .error (.invalidArgument function (outside place count))
  | some first => .ok first

/-- How many elements to take of those that are there; all of them unless it is said. -/
def takeCount (function : String) (available : Int) : Option Int → Result Int
  | none => .ok available
  | some n =>
    if n < 0 then .error (.invalidArgument function (.negativeLength n))
    else .ok (min n available)

/-- The elements from the offset `first` up to the offset `last`, which is not among them. -/
def slice (items : List α) (first last : Int) : Result (List α) :=
  if 0 ≤ first ∧ first ≤ last ∧ last ≤ items.length then
    .ok ((items.drop first.toNat).take (last - first).toNat)
  else .error (.brokenOff .sliceBounds)

theorem slice_eq_ok_iff {items part : List α} {first last : Int} :
    slice items first last = .ok part ↔ (0 ≤ first ∧ first ≤ last ∧ last ≤ items.length) ∧
      (items.drop first.toNat).take (last - first).toNat = part := by
  unfold slice
  split <;> simp [*]

/-- The elements from an offset on, as many as are asked for. -/
def takeFrom (function : String) (items : List α) (first : Int) (length? : Option Int) :
    Result (List α) := do
  let count ← takeCount function (items.length - first) length?
  slice items first (first + count)

end DecisionModel.Library
