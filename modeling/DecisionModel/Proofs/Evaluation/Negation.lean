import DecisionModel.Proofs.Evaluation.Verdict

/-!
# Tests and their negation

A list of tests and the same list under `not` are evaluated alike, test by test, and differ only in
what is made of the disjunction in the end. So both fail in the same cases and with the same error,
of the expressions or of a candidate, and where they come to a verdict each is the complement of the
other: what one leaves open the other leaves open in the same way.

A list without tests stands apart. It is the sign for "any value", and it remains that sign under
`not`.
-/

namespace DecisionModel

/-- Of a verdict nothing is lost by negating it. -/
theorem Value.IsVerdict.not3_not3 {v : Value} (h : v.IsVerdict) : v.not3.not3 = v := by
  cases h with
  | bool b => rw [not3, not3, Bool.not_not]
  | null => rfl
  | absent => rfl

namespace Predicate

theorem test_negate (p : Predicate) (candidate : Value) :
    (negate p).test candidate = (p.test candidate).map Value.not3 := by
  rw [test]

theorem test_eq_map_negate (p : Predicate) (candidate : Value) :
    p.test candidate = ((negate p).test candidate).map Value.not3 := by
  rw [test_negate]
  cases h : p.test candidate with
  | error e => rfl
  | ok v => exact congrArg Except.ok (isVerdict_of_test h).not3_not3.symm

/-- Of a candidate for which a test holds its negation comes to false. -/
theorem not_both_hold (p : Predicate) (candidate : Value) :
    ¬(p.test candidate = .ok (.bool true) ∧ (negate p).test candidate = .ok (.bool true)) := by
  rintro ⟨h, hnegated⟩
  rw [test_negate, h] at hnegated
  cases hnegated

end Predicate

namespace Expr

/-- Under `not` the tests are evaluated as they are without. -/
theorem evaluate_unaryTests {tests : List Expr} (htests : tests ≠ []) (negated : Bool) (s : Scope) :
    (unaryTests tests negated).evaluate s =
      (evaluateAll (Function.invokeWithin s.callsLeft) 1 tests s).map fun values =>
        .predicate (if negated then .negate (.anyOf (values.map .ofValue))
          else .anyOf (values.map .ofValue)) := by
  cases tests with
  | nil => exact absurd rfl htests
  | cons e es =>
    rw [evaluate, evaluateWith]
    cases evaluateAll (Function.invokeWithin s.callsLeft) 1 (e :: es) s <;> rfl

/-- **Tests and their negation are complements.** Either evaluation fails in both forms, or both are
predicates, which fail for the same candidates and come to opposite verdicts for all others. Without
any tests both forms hold of every candidate. -/
theorem negated_tests_complement (tests : List Expr) (s : Scope) :
    let plain := (unaryTests tests false).evaluate s
    let negated := (unaryTests tests true).evaluate s
    (tests ≠ [] →
      (∃ e, plain = .error e ∧ negated = .error e) ∨
      ∃ p q, plain = .ok (.predicate p) ∧ negated = .ok (.predicate q) ∧ ∀ candidate,
        q.test candidate = (p.test candidate).map Value.not3 ∧
        p.test candidate = (q.test candidate).map Value.not3 ∧
        ¬(p.test candidate = .ok (.bool true) ∧ q.test candidate = .ok (.bool true))) ∧
    (tests = [] → ∃ p, plain = .ok (.predicate p) ∧ negated = .ok (.predicate p) ∧
      ∀ candidate, p.test candidate = .ok (.bool true)) := by
  intro plain negated
  constructor
  · intro htests
    have hplain : plain = _ := evaluate_unaryTests htests false s
    have hnegated : negated = _ := evaluate_unaryTests htests true s
    cases hvalues : evaluateAll (Function.invokeWithin s.callsLeft) 1 tests s with
    | error e =>
      rw [hvalues] at hplain hnegated
      exact .inl ⟨e, hplain, hnegated⟩
    | ok values =>
      rw [hvalues] at hplain hnegated
      refine .inr ⟨_, _, hplain, hnegated, fun candidate => ⟨?_, ?_, ?_⟩⟩
      · exact Predicate.test_negate _ candidate
      · exact Predicate.test_eq_map_negate _ candidate
      · exact Predicate.not_both_hold _ candidate
  · rintro rfl
    refine ⟨.constant true, rfl, rfl, fun candidate => ?_⟩
    rw [Predicate.test]

/-- The sign for any value is no test that could be negated. -/
theorem any_value_matches_under_not :
    let s : Scope := .root [] 64 []
    ∃ p q, (unaryTests [] false).evaluate s = .ok (.predicate p) ∧
      (unaryTests [] true).evaluate s = .ok (.predicate q) ∧
      p.test (.ofNat 5) = .ok (.bool true) ∧ q.test (.ofNat 5) = .ok (.bool true) ∧
      q.test (.ofNat 5) ≠ (p.test (.ofNat 5)).map Value.not3 :=
  ⟨.constant true, .constant true, rfl, rfl, rfl, rfl, nofun⟩

/-- Below ten, or equal to a limit that is not known. -/
theorem below_ten_or_limit_negated :
    let s : Scope := .root [] 64 []
    let tests : List Expr := [.unaryTest (some .lt) (.number (.ofNat 10)), .name "limit"]
    tests ≠ [] ∧ ∃ p q, (unaryTests tests false).evaluate s = .ok (.predicate p) ∧
      (unaryTests tests true).evaluate s = .ok (.predicate q) ∧
      q.test (.ofNat 5) = .ok (.bool false) ∧ q.test (.ofNat 12) = .ok .absent := by
  intro s tests
  have hne : tests ≠ [] := List.cons_ne_nil _ _
  have hplain : (unaryTests tests false).evaluate s =
    .ok (.predicate (.anyOf [.compare .lt (.ofNat 10), .compare .eq .absent])) := rfl
  refine ⟨hne, ?_⟩
  rcases (negated_tests_complement tests s).1 hne with ⟨e, he, -⟩ | ⟨p, q, hp, hq, hcomplement⟩
  · cases hplain.symm.trans he
  · cases hplain.symm.trans hp
    refine ⟨_, q, hp, hq, ?_, ?_⟩
    · exact (hcomplement (.ofNat 5)).1.trans rfl
    · exact (hcomplement (.ofNat 12)).1.trans rfl

end Expr
end DecisionModel
