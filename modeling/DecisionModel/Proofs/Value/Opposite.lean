import DecisionModel.Library.Number
import DecisionModel.Proofs.Breakdown
import DecisionModel.Proofs.Duration.Months

/-!
# Durations without an opposite

A duration is turned around without a look at what comes out. Months are a word, and of the smallest
word there is no opposite; time that has elapsed is counted in seconds, and its seconds may be the
smallest word. Such a duration is `Unopposed`, and wherever it is to be turned around, the evaluation
is broken off: that happens to the operand of a sign, to a duration that a date or a date-time is
moved back by, and to one of which the magnitude is asked for. Every other operation comes to a result
or to an error.
-/

namespace DecisionModel

/-! ## Opposites -/

theorem Elapsed.neg?_eq_some_iff {e back : Elapsed} :
    e.neg? = some back ↔ Elapsed.inRange (-e.nanos) = true ∧ back.nanos = -e.nanos := by
  obtain ⟨nanos⟩ := back
  unfold neg? ofNanos?
  split <;> simp [eq_comm, *]

/-- Time of as many nanoseconds as a word can hold has an opposite. -/
theorem Elapsed.exists_neg? {e : Elapsed} (h : e.nanos.natAbs ≤ maxInt64 + 1) :
    ∃ back : Elapsed, e.neg? = some back := by
  refine ⟨⟨-e.nanos⟩, neg?_eq_some_iff.mpr ⟨decide_eq_true ?_, rfl⟩⟩
  have hseconds : (Int.tdiv (-e.nanos) Calendar.nanosPerSecond).natAbs =
      e.nanos.natAbs / Calendar.nanosPerSecond := by
    rw [Int.natAbs_tdiv, Int.natAbs_neg]
    rfl
  unfold Calendar.nanosPerSecond InInt64 maxInt64 at *
  omega

namespace Value

/-- A duration that has no opposite, and what is to blame for it. Of a duration of both families the
months are turned around first. -/
inductive Unopposed : Value → Breakdown → Prop
  | months {d : Months} : d.neg? = none → Unopposed (.months d) .negatedMonths
  | elapsed {d : Elapsed} : d.neg? = none → Unopposed (.elapsed d) .negatedElapsed
  | monthsOfBoth {d : Composite} : d.months.neg? = none → Unopposed (.composite d) .negatedMonths
  | elapsedOfBoth {d : Composite} : d.months.neg? ≠ none → d.elapsed.neg? = none →
    Unopposed (.composite d) .negatedElapsed

variable {v a b : Value} {cause : Breakdown} {m : Months} {e : Elapsed} {c : Composite}

/-- What a duration is taken from by turning it around. -/
def IsDated : Value → Prop
  | .date _ | .dateTime _ => True
  | _ => False

/-- A duration of one family that runs backwards. -/
def IsBackward : Value → Prop
  | .months m => m.isNegative = true
  | .elapsed e => e.isNegative = true
  | _ => False

end Value

end DecisionModel
