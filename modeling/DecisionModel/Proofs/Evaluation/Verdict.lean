import DecisionModel.Evaluation
import DecisionModel.Proofs.Bind

/-!
# What tests come to

A test is a predicate that was built from comparisons, intervals and constants by disjunction and
negation, and the type of predicates has no others: those that a context brings along, that a
function returns or that a list holds are built in the same ways. So what holds of all tests is
shown by induction on how a test is built.

A test comes to true or false, or leaves it open with null or absent. Of an absent candidate it
never fails, because every comparison looks for absent operands before it looks at kinds. What it
says then rests on constants alone, which is why no candidate that turns up later changes it.
-/

namespace DecisionModel

namespace Value

/-! ## Verdicts -/

/-- What a test can come to. -/
inductive IsVerdict : Value → Prop where
  | bool (b : Bool) : IsVerdict (.bool b)
  | null : IsVerdict .null
  | absent : IsVerdict .absent

theorem isVerdict_undecided (v w : Value) : (undecided v w).IsVerdict := by
  unfold undecided
  split
  · exact .absent
  · exact .null

theorem isVerdict_or3 (v w : Value) : (v.or3 w).IsVerdict := by
  unfold or3
  split
  · exact .bool true
  · exact .bool true
  · exact .bool false
  · exact isVerdict_undecided v w

theorem isVerdict_and3 (v w : Value) : (v.and3 w).IsVerdict := by
  unfold and3
  split
  · exact .bool false
  · exact .bool false
  · exact .bool true
  · exact isVerdict_undecided v w

theorem isVerdict_not3 (v : Value) : v.not3.IsVerdict := by
  cases v with
  | bool b => exact .bool !b
  | absent => exact .absent
  | _ => exact .null

theorem isVerdict_of_compare {op : ComparisonOp} {v w u : Value} (h : v.compare op w = .ok u) :
    u.IsVerdict := by
  unfold compare at h
  split at h
  · cases h
    exact .absent
  · split at h
    · obtain ⟨equal, _, rfl⟩ := map_eq_ok_iff.mp h
      exact .bool equal
    · obtain ⟨equal, _, rfl⟩ := map_eq_ok_iff.mp h
      exact .bool !equal
    · obtain ⟨o, _, rfl⟩ := map_eq_ok_iff.mp h
      cases o with
      | none => exact .null
      | some ordering => exact .bool (op.holds ordering)

/-! ## Truth that is kept -/

theorem truth_eq_some_iff {v : Value} {b : Bool} : v.truth = some b ↔ v = .bool b := by
  cases v <;> simp [truth]

theorem undecided_ne_bool (v w : Value) (b : Bool) : undecided v w ≠ .bool b := by
  unfold undecided
  split <;> simp

theorem or3_eq_true_iff {v w : Value} :
    v.or3 w = .bool true ↔ v = .bool true ∨ w = .bool true := by
  rw [← truth_eq_some_iff (v := v), ← truth_eq_some_iff (v := w)]
  unfold or3
  split <;> simp_all [undecided_ne_bool]

theorem or3_eq_false_iff {v w : Value} :
    v.or3 w = .bool false ↔ v = .bool false ∧ w = .bool false := by
  rw [← truth_eq_some_iff (v := v), ← truth_eq_some_iff (v := w)]
  unfold or3
  split <;> simp_all [undecided_ne_bool]

/-- Two values that are open at most by being absent leave no more than that open. -/
theorem or3_ne_null {v w : Value} (hv : v.IsVerdict) (hv' : v ≠ .null) (hw : w.IsVerdict)
    (hw' : w ≠ .null) : v.or3 w ≠ .null := by
  cases hv with
  | null => exact absurd rfl hv'
  | absent => cases hw with
    | null => exact absurd rfl hw'
    | absent => exact nofun
    | bool b => cases b <;> exact nofun
  | bool a => cases hw with
    | null => exact absurd rfl hw'
    | absent => cases a <;> exact nofun
    | bool b => cases a <;> cases b <;> exact nofun

/-- If `v` is a truth value, `w` is the same one. -/
def KeptBy (v w : Value) : Prop := ∀ b, v = .bool b → w = .bool b

theorem or3_keptBy {v v' w w' : Value} (h : v.KeptBy w) (h' : v'.KeptBy w') :
    (v.or3 v').KeptBy (w.or3 w') := by
  intro b hb
  cases b with
  | true =>
    rcases or3_eq_true_iff.mp hb with hv | hv
    · exact or3_eq_true_iff.mpr (.inl (h true hv))
    · exact or3_eq_true_iff.mpr (.inr (h' true hv))
  | false =>
    obtain ⟨hv, hv'⟩ := or3_eq_false_iff.mp hb
    exact or3_eq_false_iff.mpr ⟨h false hv, h' false hv'⟩

theorem not3_keptBy {v w : Value} (h : v.KeptBy w) : v.not3.KeptBy w.not3 := by
  intro b hb
  cases v with
  | bool a =>
    rw [h a rfl]
    exact hb
  | _ => cases hb

end Value

/-! ## Tests -/

namespace Predicate

variable {candidate v w : Value} {tests : List Predicate} {result result' : Value}

theorem testAny_cons {p : Predicate} {outcome : Value} (h : p.test candidate = .ok outcome) :
    testAny result (p :: tests) candidate =
      if (result.or3 outcome).truth = some true then .ok (result.or3 outcome)
      else testAny (result.or3 outcome) tests candidate := by
  rw [testAny, h]
  rfl

/-- A disjunction has come to a result because its next test holds, or by going on after it. -/
theorem of_testAny_cons {p : Predicate} (h : testAny result (p :: tests) candidate = .ok v) :
    ∃ outcome, p.test candidate = .ok outcome ∧
      (result.or3 outcome = .bool true ∧ v = .bool true ∨
        testAny (result.or3 outcome) tests candidate = .ok v) := by
  cases hp : p.test candidate with
  | error e =>
    rw [testAny, hp] at h
    cases h
  | ok outcome =>
    rw [testAny_cons hp] at h
    refine ⟨outcome, rfl, ?_⟩
    split at h
    · next htrue =>
      have hjoined := Value.truth_eq_some_iff.mp htrue
      cases h
      exact .inl ⟨hjoined, hjoined⟩
    · exact .inr h

theorem isVerdict_of_testAny (hresult : result.IsVerdict)
    (h : testAny result tests candidate = .ok v) : v.IsVerdict := by
  induction tests generalizing result with
  | nil =>
    rw [testAny] at h
    cases h
    exact hresult
  | cons p tests ih =>
    obtain ⟨outcome, _, ⟨_, rfl⟩ | h⟩ := of_testAny_cons h
    · exact .bool true
    · exact ih (Value.isVerdict_or3 _ _) h

theorem isVerdict_of_test {p : Predicate} (h : p.test candidate = .ok v) : v.IsVerdict := by
  cases p with
  | compare op bound =>
    rw [test] at h
    exact Value.isVerdict_of_compare h
  | interval lowBound low high highBound =>
    rw [test, testInterval] at h
    split at h
    · cases h
      exact .absent
    · obtain ⟨above, _, h⟩ := bind_eq_ok_iff.mp h
      obtain ⟨below, _, h⟩ := bind_eq_ok_iff.mp h
      split at h
      · cases h
        exact .absent
      · cases h
        exact Value.isVerdict_and3 above below
  | constant b =>
    rw [test] at h
    cases h
    exact .bool b
  | anyOf tests =>
    rw [test] at h
    exact isVerdict_of_testAny (.bool false) h
  | negate p =>
    rw [test] at h
    obtain ⟨outcome, _, rfl⟩ := map_eq_ok_iff.mp h
    exact Value.isVerdict_not3 outcome

/-! ## Absent candidates -/

theorem testInterval_absent (lowBound : Bound) (low high : Value) (highBound : Bound) :
    testInterval lowBound low high highBound .absent = .ok .absent := by
  unfold testInterval
  split
  · rfl
  · rfl

mutual

theorem test_absent : ∀ p : Predicate, ∃ v, p.test .absent = .ok v ∧ v ≠ .null
  | .compare op bound => ⟨.absent, by rw [test]; rfl, nofun⟩
  | .interval lowBound low high highBound =>
    ⟨.absent, by rw [test, testInterval_absent], nofun⟩
  | .constant b => ⟨.bool b, by rw [test], nofun⟩
  | .anyOf tests => by
    rw [test]
    exact testAny_absent tests (.bool false) (.bool false) nofun
  | .negate p => by
    obtain ⟨v, hv, hnull⟩ := test_absent p
    refine ⟨v.not3, by rw [test, hv]; rfl, ?_⟩
    have hverdict := isVerdict_of_test hv
    cases hverdict with
    | null => exact absurd rfl hnull
    | absent => exact nofun
    | bool b => exact nofun

theorem testAny_absent : ∀ (tests : List Predicate) (result : Value), result.IsVerdict →
    result ≠ .null → ∃ v, testAny result tests .absent = .ok v ∧ v ≠ .null
  | [], result, _, hnull => ⟨result, by rw [testAny], hnull⟩
  | p :: tests, result, hresult, hnull => by
    obtain ⟨outcome, houtcome, hnull'⟩ := test_absent p
    have hjoined := Value.or3_ne_null hresult hnull (isVerdict_of_test houtcome) hnull'
    rw [testAny_cons houtcome]
    split
    · exact ⟨_, rfl, hjoined⟩
    · exact testAny_absent tests _ (Value.isVerdict_or3 _ _) hjoined

end

/-! ## What later candidates change -/

/-- A disjunction comes to false only from false. -/
theorem eq_false_of_testAny (h : testAny result tests candidate = .ok (.bool false)) :
    result = .bool false := by
  induction tests generalizing result with
  | nil =>
    rw [testAny] at h
    cases h
    rfl
  | cons p tests ih =>
    obtain ⟨outcome, _, ⟨_, hfalse⟩ | h⟩ := of_testAny_cons h
    · cases hfalse
    · exact (Value.or3_eq_false_iff.mp (ih h)).1

/-- A disjunction that has come to true stays there. -/
theorem testAny_true (h : testAny (.bool true) tests candidate = .ok v) : v = .bool true := by
  induction tests with
  | nil =>
    rw [testAny] at h
    cases h
    rfl
  | cons p tests ih =>
    obtain ⟨outcome, _, ⟨_, rfl⟩ | h⟩ := of_testAny_cons h
    · rfl
    · rw [Value.or3_eq_true_iff.mpr (.inl rfl)] at h
      exact ih h

mutual

theorem test_keptBy : ∀ (p : Predicate) {v w : Value}, p.test .absent = .ok v →
    p.test candidate = .ok w → v.KeptBy w
  | .compare op bound, v, w, h, _ => by
    rw [test] at h
    cases h
    exact nofun
  | .interval lowBound low high highBound, v, w, h, _ => by
    rw [test, testInterval_absent] at h
    cases h
    exact nofun
  | .constant b, v, w, h, h' => by
    rw [test] at h h'
    cases h
    cases h'
    exact fun _ hb => hb
  | .anyOf tests, v, w, h, h' => by
    rw [test] at h h'
    exact testAny_keptBy tests (fun _ hb => hb) h h'
  | .negate p, v, w, h, h' => by
    rw [test] at h h'
    obtain ⟨v, hv, rfl⟩ := map_eq_ok_iff.mp h
    obtain ⟨w, hw, rfl⟩ := map_eq_ok_iff.mp h'
    exact Value.not3_keptBy (test_keptBy p hv hw)

theorem testAny_keptBy : ∀ (tests : List Predicate) {result result' v w : Value},
    result.KeptBy result' → testAny result tests .absent = .ok v →
    testAny result' tests candidate = .ok w → v.KeptBy w
  | [], result, result', v, w, hkept, h, h' => by
    rw [testAny] at h h'
    cases h
    cases h'
    exact hkept
  | p :: tests, result, result', v, w, hkept, h, h' => by
    obtain ⟨x, hx, h⟩ := of_testAny_cons h
    obtain ⟨y, hy, h'⟩ := of_testAny_cons h'
    have hjoined := Value.or3_keptBy hkept (test_keptBy p hx hy)
    -- the two disjunctions need not stop at the same test
    rcases h with ⟨htrue, rfl⟩ | h
    · rw [hjoined true htrue] at h'
      rcases h' with ⟨_, rfl⟩ | h'
      · exact fun _ hb => hb
      · rw [testAny_true h']
        exact fun _ hb => hb
    · rcases h' with ⟨htrue, rfl⟩ | h'
      · intro b hb
        cases b with
        | true => rfl
        | false =>
          rw [hb] at h
          rw [hjoined false (eq_false_of_testAny h)] at htrue
          cases htrue
      · exact testAny_keptBy tests hjoined h h'

end

end Predicate

namespace Expr

/-- **What an evaluated test comes to.** Of an absent candidate it never fails. Of any candidate of
which it does not fail it says true or false, or leaves it open; and if it says true or false of an
absent one, it says the same of every other. -/
theorem evaluated_test_gives_verdict (e : Expr) (s : Scope) (p : Predicate)
    (_ : e.evaluate s = .ok (.predicate p) ∨ e.evaluateTest s = .ok p) :
    (∃ v, p.test .absent = .ok v ∧ v ≠ .null) ∧
    (∀ candidate v, p.test candidate = .ok v →
      v = .bool true ∨ v = .bool false ∨ v = .null ∨ v = .absent) ∧
    (∀ b candidate v, p.test .absent = .ok (.bool b) → p.test candidate = .ok v → v = .bool b) := by
  refine ⟨p.test_absent, fun candidate v h => ?_, fun b candidate v h h' => ?_⟩
  · cases Predicate.isVerdict_of_test h with
    | bool b => cases b <;> simp
    | null => simp
    | absent => simp
  · exact p.test_keptBy h h' b rfl

/-- Neither from ten to below twenty, nor what is known, nor anything. -/
def unlisted : Expr :=
  .notTests [.interval .included (.number (.ofNat 10)) (.number (.ofNat 20)) .excluded,
    .name "known", .any]

theorem unlisted_rejects_every_candidate :
    let s : Scope := .root [("known", .predicate (.compare .eq (.ofNat 7)))] 64 []
    ∃ p, unlisted.evaluateTest s = .ok p ∧ (∃ v, p.test .absent = .ok v ∧ v ≠ .null) ∧
      p.test .absent = .ok (.bool false) ∧ p.test (.ofNat 30) = .ok (.bool false) ∧
      ∀ candidate v, p.test candidate = .ok v → v = .bool false := by
  intro s
  let p : Predicate := .negate (.anyOf [.interval .included (.ofNat 10) (.ofNat 20) .excluded,
    .compare .eq (.ofNat 7), .constant true])
  have hp : unlisted.evaluateTest s = .ok p := rfl
  obtain ⟨hsome, _, hkept⟩ := evaluated_test_gives_verdict unlisted s p (.inr hp)
  have habsent : p.test .absent = .ok (.bool false) := rfl
  exact ⟨p, hp, hsome, habsent, rfl, fun candidate v => hkept false candidate v habsent⟩

end Expr
end DecisionModel
