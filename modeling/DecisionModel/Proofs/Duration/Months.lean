import DecisionModel.Duration.Basic

/-!
# Months as integers

A duration of years and months is a word, and what is done to it is done to the integer that the word
stands for. A sum, a difference or an opposite is there exactly if a word holds it, and the only word
whose opposite is none is the smallest.
-/

namespace DecisionModel

namespace Months

variable {m a b : Months} {n : Int}

/-- The longest duration backwards. There is none of the same length forwards. -/
def smallest : Months := ⟨.minValue⟩

theorem toInt_injective (h : a.toInt = b.toInt) : a = b := by
  cases a
  cases b
  exact congrArg Months.mk (Int64.toInt_inj.mp h)

theorem inInt64_toInt (m : Months) : InInt64 m.toInt := DecisionModel.inInt64_toInt m.count

theorem ofInt?_eq_some_iff : ofInt? n = some m ↔ m.toInt = n := by
  unfold ofInt?
  constructor
  · intro h
    split at h
    · next hword =>
      obtain rfl := Option.some.inj h
      exact hword.toInt_ofInt
    · cases h
  · rintro rfl
    rw [if_pos m.inInt64_toInt]
    exact congrArg some (toInt_injective m.inInt64_toInt.toInt_ofInt)

theorem ofInt?_eq_none_iff : ofInt? n = none ↔ ¬InInt64 n := by
  unfold ofInt?
  split <;> simp_all

/-! ## Opposites -/

theorem toInt_smallest : smallest.toInt = -(maxInt64 + 1 : Int) := rfl

theorem eq_smallest_iff : m = smallest ↔ m.toInt = -(maxInt64 + 1 : Int) :=
  ⟨by rintro rfl; rfl, fun h => toInt_injective (h.trans toInt_smallest.symm)⟩

theorem ne_smallest_iff : m ≠ smallest ↔ -(maxInt64 : Int) ≤ m.toInt := by
  obtain ⟨hlow, -⟩ := m.inInt64_toInt
  rw [ne_eq, eq_smallest_iff]
  omega

theorem neg?_eq_some_iff : a.neg? = some b ↔ b.toInt = -a.toInt := ofInt?_eq_some_iff

theorem neg?_eq_none_iff : m.neg? = none ↔ m = smallest := by
  obtain ⟨hlow, hhigh⟩ := m.inInt64_toInt
  rw [neg?, ofInt?_eq_none_iff, eq_smallest_iff]
  unfold InInt64
  omega

theorem exists_neg? (h : m ≠ smallest) : ∃ n : Months, m.neg? = some n ∧ n.toInt = -m.toInt := by
  obtain ⟨n, hn⟩ := Option.ne_none_iff_exists'.mp (mt neg?_eq_none_iff.mp h)
  exact ⟨n, hn, neg?_eq_some_iff.mp hn⟩

end Months

end DecisionModel
