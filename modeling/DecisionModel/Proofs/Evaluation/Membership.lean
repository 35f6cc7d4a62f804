import DecisionModel.Proofs.Evaluation.Negation

/-!
# Membership

A candidate is asked for among tests in two places. A table cell has all its tests evaluated before
the first of them is put to the candidate, and `in` goes through them one by one, so that a test
that holds ends it before the rest is even evaluated. `testMember_eq_testAny` takes the one to the
other. What is left of the difference is that `in` may come to true where the cell would have met an
error later on.

`between` compares with its two ends directly, where `in` has a closed interval to test. An interval
looks for absent ends first, and `testInterval_eq` says that it does nothing else besides.
-/

namespace DecisionModel

/-- Disjunction with false leaves a verdict as it is. -/
theorem Value.IsVerdict.false_or3 {v : Value} (h : v.IsVerdict) : (Value.bool false).or3 v = v := by
  cases h with
  | bool b => cases b <;> rfl
  | null => rfl
  | absent => rfl

/-- What is no list stands for the same test behind `in` as in a table cell. -/
theorem Predicate.ofMemberTest_eq {v : Value} (h : ∀ items, v ≠ .list items) :
    Predicate.ofMemberTest v = .ofValue v := by
  cases v with
  | list items => exact absurd rfl (h items)
  | _ => rfl

namespace Expr

variable {invoke : Invoke} {candidate outcome r v : Value} {index : Nat} {e : Expr}
  {es tests : List Expr} {s : Scope}

/-! ## One test after the other -/

/-- No test has a list for its value, where the tests are parts that are numbered from `index`
on. -/
def NoLists (invoke : Invoke) (index : Nat) (tests : List Expr) (s : Scope) : Prop :=
  ∀ i (e : Expr) items, tests[i]? = some e →
    e.evaluateWith invoke (s.part (index + i)) ≠ .ok (.list items)

theorem NoLists.head (h : NoLists invoke index (e :: es) s) (items : List Value) :
    e.evaluateWith invoke (s.part index) ≠ .ok (.list items) :=
  h 0 e items rfl

theorem NoLists.tail (h : NoLists invoke index (e :: es) s) : NoLists invoke (index + 1) es s := by
  intro i e' items he'
  rw [Nat.add_right_comm]
  exact h (i + 1) e' items he'

theorem testMember_cons (hv : e.evaluateWith invoke (s.part index) = .ok v)
    (hlist : ∀ items, v ≠ .list items) :
    testMember invoke candidate index outcome (e :: es) s = (do
      let joined := outcome.or3 (← (Predicate.ofValue v).test candidate)
      if joined.truth = some true then return joined
      else testMember invoke candidate (index + 1) joined es s) := by
  rw [testMember, hv, ok_bind, Predicate.ofMemberTest_eq hlist]

/-- **Where all tests have values, going through them one by one is testing their disjunction.** -/
theorem testMember_eq_testAny {values : List Value} (hlists : NoLists invoke index tests s)
    (hvalues : evaluateAll invoke index tests s = .ok values) :
    testMember invoke candidate index outcome tests s =
      Predicate.testAny outcome (values.map .ofValue) candidate := by
  induction tests generalizing index outcome values with
  | nil =>
    cases hvalues
    rw [testMember, List.map_nil, Predicate.testAny]
  | cons e es ih =>
    rw [evaluateAll] at hvalues
    obtain ⟨v, hv, hvalues⟩ := bind_eq_ok_iff.mp hvalues
    obtain ⟨vs, hvs, hvalues⟩ := bind_eq_ok_iff.mp hvalues
    cases hvalues
    have hlist : ∀ items, v ≠ .list items := by
      rintro items rfl
      exact hlists.head items hv
    rw [testMember_cons hv hlist, List.map_cons, Predicate.testAny]
    cases (Predicate.ofValue v).test candidate with
    | error fault => rfl
    | ok next => simp only [ok_bind, ih hlists.tail hvs]

/-- Unless `in` comes to true it has been through all tests. -/
theorem exists_values_of_testMember (hlists : NoLists invoke index tests s)
    (h : testMember invoke candidate index outcome tests s = .ok r) (hr : r ≠ .bool true) :
    ∃ values, evaluateAll invoke index tests s = .ok values := by
  induction tests generalizing index outcome with
  | nil => exact ⟨[], rfl⟩
  | cons e es ih =>
    cases hv : e.evaluateWith invoke (s.part index) with
    | error fault =>
      rw [testMember, hv] at h
      cases h
    | ok v =>
      have hlist : ∀ items, v ≠ .list items := by
        rintro items rfl
        exact hlists.head items hv
      rw [testMember_cons hv hlist] at h
      obtain ⟨next, -, h⟩ := bind_eq_ok_iff.mp h
      dsimp only at h
      split at h
      · next htrue =>
        cases h
        exact absurd (Value.truth_eq_some_iff.mp htrue) hr
      · obtain ⟨vs, hvs⟩ := ih hlists.tail h
        exact ⟨v :: vs, by rw [evaluateAll, hv, ok_bind, hvs]; rfl⟩

theorem evaluateTest_unaryTests (htests : tests ≠ []) (s : Scope) :
    (unaryTests tests false).evaluateTest s =
      (evaluateAll (Function.invokeWithin s.callsLeft) 1 tests s).map fun values =>
        .anyOf (values.map .ofValue) := by
  rw [evaluateTest, evaluate_unaryTests htests]
  cases evaluateAll (Function.invokeWithin s.callsLeft) 1 tests s <;> rfl

theorem evaluate_member {value : Expr} (hvalue : value.evaluate (s.part 0) = .ok candidate) :
    (member value tests).evaluate s =
      testMember (Function.invokeWithin s.callsLeft) candidate 1 (.bool false) tests s := by
  have hvalue' : value.evaluateWith (Function.invokeWithin s.callsLeft) (s.part 0) = .ok candidate :=
    hvalue
  rw [evaluate, evaluateWith, hvalue', ok_bind]

/-- **`in` agrees with the tests of a table cell.** Where the tests, none of which is a list, can be
built into one, `in` makes of the value what this test makes of it: the same verdict or the same
error. The other way round, where `in` comes to anything but true the tests can be built, and the
test comes to the same. -/
theorem member_agrees_with_tests (value : Expr) (tests : List Expr) (s : Scope)
    (htests : tests ≠ [])
    (hlists : ∀ i (e : Expr) items, tests[i]? = some e →
      e.evaluate (s.part (1 + i)) ≠ .ok (.list items)) :
    (∀ p candidate, (unaryTests tests false).evaluateTest s = .ok p →
      value.evaluate (s.part 0) = .ok candidate →
      (member value tests).evaluate s = p.test candidate) ∧
    (∀ r, (member value tests).evaluate s = .ok r → r ≠ .bool true →
      ∃ p candidate, (unaryTests tests false).evaluateTest s = .ok p ∧
        value.evaluate (s.part 0) = .ok candidate ∧ p.test candidate = .ok r) := by
  have hnone : NoLists (Function.invokeWithin s.callsLeft) 1 tests s := hlists
  rw [evaluateTest_unaryTests htests]
  constructor
  · intro p candidate hp hvalue
    obtain ⟨values, hvalues, rfl⟩ := map_eq_ok_iff.mp hp
    rw [evaluate_member hvalue, testMember_eq_testAny hnone hvalues, Predicate.test]
  · intro r h hr
    cases hvalue : value.evaluate (s.part 0) with
    | error fault =>
      have hvalue' : value.evaluateWith (Function.invokeWithin s.callsLeft) (s.part 0) =
        .error fault := hvalue
      rw [evaluate, evaluateWith, hvalue'] at h
      cases h
    | ok candidate =>
      rw [evaluate_member hvalue] at h
      obtain ⟨values, hvalues⟩ := exists_values_of_testMember hnone h hr
      refine ⟨.anyOf (values.map .ofValue), candidate, by rw [hvalues]; rfl, rfl, ?_⟩
      rw [Predicate.test, ← testMember_eq_testAny hnone hvalues, h]

/-- Whether a number is seven, or below a limit that is not known, or small: of seven no more is
asked after the first test, and of nine all of it remains open. -/
theorem seven_or_small_agrees :
    let s (n : Nat) : Scope := .root [("n", .ofNat n), ("small", .predicate (.constant false))] 64 []
    let tests : List Expr := [.number (.ofNat 7), .unaryTest (some .lt) (.name "limit"), .name "small"]
    tests ≠ [] ∧ (member (.name "n") tests).evaluate (s 7) = .ok (.bool true) ∧
      (member (.name "n") tests).evaluate (s 9) = .ok .absent ∧
      ∃ p, (unaryTests tests false).evaluateTest (s 9) = .ok p ∧ p.test (.ofNat 9) = .ok .absent := by
  intro s tests
  let p : Predicate := .anyOf [.compare .eq (.ofNat 7), .compare .lt .absent, .constant false]
  have hne : tests ≠ [] := List.cons_ne_nil _ _
  have hlists (n : Nat) : ∀ i (e : Expr) items, tests[i]? = some e →
      e.evaluate ((s n).part (1 + i)) ≠ .ok (.list items) := by
    intro i e items he
    match i with
    | 0 | 1 | 2 => cases he; exact nofun
    | i + 3 => cases he
  have hp (n : Nat) : (unaryTests tests false).evaluateTest (s n) = .ok p := rfl
  have hagree (n : Nat) : (member (.name "n") tests).evaluate (s n) = p.test (.ofNat n) :=
    (member_agrees_with_tests (.name "n") tests (s n) hne (hlists n)).1 p _ (hp n) rfl
  exact ⟨hne, (hagree 7).trans rfl, (hagree 9).trans rfl, p, hp 9, rfl⟩

end Expr

/-! ## Between two ends -/

/-- A comparison is absent exactly if an operand is. -/
theorem Value.isAbsent_of_compare {op : ComparisonOp} {v w u : Value} (h : v.compare op w = .ok u) :
    u.isAbsent = (v.isAbsent || w.isAbsent) := by
  unfold compare at h
  split at h
  · next habsent =>
    cases h
    exact habsent.symm
  · next hpresent =>
    rw [Bool.not_eq_true] at hpresent
    rw [hpresent]
    split at h
    · obtain ⟨equal, -, rfl⟩ := map_eq_ok_iff.mp h
      rfl
    · obtain ⟨equal, -, rfl⟩ := map_eq_ok_iff.mp h
      rfl
    · obtain ⟨o, -, rfl⟩ := map_eq_ok_iff.mp h
      cases o <;> rfl

theorem Value.eq_absent_of_isAbsent {v : Value} (h : v.isAbsent = true) : v = .absent := by
  cases v with
  | absent => rfl
  | _ => cases h

namespace Predicate

variable {low high candidate : Value} {lowBound highBound : Bound}

/-- With both ends at hand, an interval is the conjunction of two comparisons: these are both absent
or neither is, for only the candidate is left to be. -/
theorem testInterval_eq (hlow : low.isAbsent = false) (hhigh : high.isAbsent = false) :
    testInterval lowBound low high highBound candidate = (do
      let above ← candidate.compare (lowOp lowBound) low
      let below ← candidate.compare (highOp highBound) high
      return above.and3 below) := by
  rw [testInterval, hlow, hhigh, if_neg (by decide)]
  cases habove : candidate.compare (lowOp lowBound) low with
  | error fault => rfl
  | ok above =>
    cases hbelow : candidate.compare (highOp highBound) high with
    | error fault => rfl
    | ok below =>
      have habsent := Value.isAbsent_of_compare habove
      have habsent' := Value.isAbsent_of_compare hbelow
      rw [hlow, Bool.or_false] at habsent
      rw [hhigh, Bool.or_false] at habsent'
      simp only [ok_bind, pure_eq_ok, habsent, habsent', Bool.or_self]
      split
      · next h =>
        rw [Value.eq_absent_of_isAbsent (habsent.trans h),
          Value.eq_absent_of_isAbsent (habsent'.trans h)]
        rfl
      · rfl

end Predicate

namespace Expr

theorem evaluate_member_singleton (value e : Expr) (s : Scope) :
    (member value [e]).evaluate s = (do
      let candidate ← value.evaluate (s.part 0)
      let v ← e.evaluate (s.part 1)
      (Predicate.ofMemberTest v).test candidate) := by
  show (do
    let candidate ← value.evaluate (s.part 0)
    testMember (Function.invokeWithin s.callsLeft) candidate 1 (.bool false) [e] s) = _
  congr
  funext candidate
  show _ = (do
    let v ← e.evaluateWith (Function.invokeWithin s.callsLeft) (s.part 1)
    (Predicate.ofMemberTest v).test candidate)
  rw [testMember]
  congr
  funext v
  cases hnext : (Predicate.ofMemberTest v).test candidate with
  | error fault => rfl
  | ok next =>
    simp only [ok_bind, (Predicate.isVerdict_of_test hnext).false_or3, testMember, pure_eq_ok,
      ite_self]

/-- **`between` is membership in a closed interval**, unless an end of it is absent: of the same
value and the same ends both come to the same verdict or to the same error. -/
theorem between_eq_member_interval (value low high : Expr) (s : Scope)
    (hlow : low.evaluate ((s.part 1).part 0) ≠ .ok .absent)
    (hhigh : high.evaluate ((s.part 1).part 1) ≠ .ok .absent) :
    (between value low high).evaluate s =
      (member value [.interval .included low high .included]).evaluate s := by
  rw [evaluate_member_singleton]
  show (do
    let v ← value.evaluate (s.part 0)
    let a ← low.evaluate ((s.part 1).part 0)
    let b ← high.evaluate ((s.part 1).part 1)
    let above ← v.compare .ge a
    let below ← v.compare .le b
    return above.and3 below) = (do
      let candidate ← value.evaluate (s.part 0)
      let v ← (do
        let a ← low.evaluate ((s.part 1).part 0)
        let b ← high.evaluate ((s.part 1).part 1)
        return .predicate (.interval .included a b .included))
      (Predicate.ofMemberTest v).test candidate)
  congr
  funext candidate
  cases ha : low.evaluate ((s.part 1).part 0) with
  | error fault => rfl
  | ok a =>
    cases hb : high.evaluate ((s.part 1).part 1) with
    | error fault => rfl
    | ok b =>
      have ha' : a.isAbsent = false := by
        rw [← Bool.not_eq_true]
        intro h
        exact hlow (Value.eq_absent_of_isAbsent h ▸ ha)
      have hb' : b.isAbsent = false := by
        rw [← Bool.not_eq_true]
        intro h
        exact hhigh (Value.eq_absent_of_isAbsent h ▸ hb)
      simp only [ok_bind, pure_eq_ok, Predicate.ofMemberTest, Predicate.ofValue, Predicate.test,
        Predicate.testInterval_eq ha' hb']
      rfl

/-- Between a floor that is null and ten: open for five, and settled for twelve, which is above ten
whatever the floor is. -/
theorem between_null_and_ten :
    let s (n : Nat) : Scope := .root [("floor", .null), ("n", .ofNat n)] 64 []
    let ten : Expr := .number (.ofNat 10)
    let within : Expr := .member (.name "n") [.interval .included (.name "floor") ten .included]
    (∀ n, (name "floor").evaluate (((s n).part 1).part 0) ≠ .ok .absent) ∧
      (∀ n, ten.evaluate (((s n).part 1).part 1) ≠ .ok .absent) ∧
      within.evaluate (s 5) = .ok .null ∧ within.evaluate (s 12) = .ok (.bool false) := by
  intro s ten within
  have hfloor (n : Nat) : (name "floor").evaluate (((s n).part 1).part 0) ≠ .ok .absent := nofun
  have hten (n : Nat) : ten.evaluate (((s n).part 1).part 1) ≠ .ok .absent := nofun
  have hsame (n : Nat) : (between (.name "n") (.name "floor") ten).evaluate (s n) =
      within.evaluate (s n) :=
    between_eq_member_interval (.name "n") (.name "floor") ten (s n) (hfloor n) (hten n)
  exact ⟨hfloor, hten, (hsame 5).symm.trans rfl, (hsame 12).symm.trans rfl⟩

end Expr
end DecisionModel
