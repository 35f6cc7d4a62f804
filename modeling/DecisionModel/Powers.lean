/-!
# Powers of the two bases

Numbers are written in base ten and stored in base two, so scales and exponents stand for powers of
these two and no others. Both are positive, which is what a division by them needs, and the
laws below are what moving a point by several places rests on.
-/

namespace DecisionModel

/-- The value of the decimal place that `n` zeros follow. -/
def tenTo (n : Nat) : Nat := Nat.pow 10 n

/-- The value of the binary place that `n` zeros follow. -/
def twoTo (n : Nat) : Nat := Nat.pow 2 n

@[simp] theorem tenTo_zero : tenTo 0 = 1 := rfl

theorem tenTo_succ (n : Nat) : tenTo (n + 1) = tenTo n * 10 := rfl

theorem tenTo_pos (n : Nat) : 0 < tenTo n := Nat.pow_pos (by decide)

/-- Moving a point by `m` and then by `n` places moves it by `m + n`. -/
theorem tenTo_add (m n : Nat) : tenTo (m + n) = tenTo m * tenTo n := Nat.pow_add 10 m n

end DecisionModel
