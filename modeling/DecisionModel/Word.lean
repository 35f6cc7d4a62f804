/-!
# Machine words

The ranges of the fixed-width integers that limit what can be written or counted: whole JSON
numbers, months, seconds, years and places to round to. Nothing wraps around: an integer outside its
range is refused where it arises, or where nobody looks at it, the evaluation is broken off.
-/

namespace DecisionModel

/-- The number of values of a 32-bit word, one more than the largest unsigned one. -/
def wordSize32 : Nat := 4294967296

/-- The number of values of a 64-bit word, one more than the largest unsigned one. -/
def wordSize64 : Nat := 18446744073709551616

/-- The largest signed 64-bit word. -/
def maxInt64 : Nat := 9223372036854775807

/-- The largest signed 128-bit word. -/
def maxInt128 : Nat := 170141183460469231731687303715884105727

/-- The largest signed 32-bit word. -/
def maxInt32 : Nat := 2147483647

/-- Whether an integer is a signed 64-bit word. -/
def InInt64 (n : Int) : Prop := -(maxInt64 + 1 : Int) ≤ n ∧ n ≤ maxInt64

instance (n : Int) : Decidable (InInt64 n) := inferInstanceAs (Decidable (_ ∧ _))

/-- Whether an integer is a signed 32-bit word. -/
def InInt32 (n : Int) : Prop := -(maxInt32 + 1 : Int) ≤ n ∧ n ≤ maxInt32

instance (n : Int) : Decidable (InInt32 n) := inferInstanceAs (Decidable (_ ∧ _))

/-- Reducing an integer of the range to a word loses nothing. -/
theorem InInt64.toInt_ofInt {n : Int} (h : InInt64 n) : (Int64.ofInt n).toInt = n := by
  unfold InInt64 maxInt64 at h
  exact Int64.toInt_ofInt_of_le (by omega) (by omega)

/-- Every word is in the range. -/
theorem inInt64_toInt (n : Int64) : InInt64 n.toInt := by
  have := n.toInt_lt
  have := n.le_toInt
  unfold InInt64 maxInt64
  omega

end DecisionModel
