import DecisionModel.Proofs.Table.Scan

/-!
# Cells that test the input variable by a call

A cell may say of its column's input variable that it starts or ends with a text, or contains one.
The call gives a truth value and not one to compare the candidate with, so a true result is turned
into a comparison of the candidate with the argument, which is the candidate, and a false one into a
test that nothing passes. `reading_eq_verdict` goes through what becomes of the other results. One
of them is not what the cell asks for: of null the call gives null, null is then compared with the
candidate, and so null passes.
-/

namespace DecisionModel

/-- The built-in functions that test one text against another. -/
inductive TextTest where
  | startsWith
  | endsWith
  | contains

namespace TextTest

def builtin : TextTest → Builtin
  | .startsWith => .startsWith
  | .endsWith => .endsWith
  | .contains => .contains

/-- How a part has to stand in a text. -/
def Holds : TextTest → (part text : List Char) → Prop
  | .startsWith, part, text => part <+: text
  | .endsWith, part, text => part <:+ text
  | .contains, part, text => part <:+: text

def test : TextTest → (part text : List Char) → Bool
  | .startsWith, part, text => part.isPrefixOf text
  | .endsWith, part, text => part.isSuffixOf text
  | .contains, part, text => Text.contains part text

theorem contains_iff {part text : List Char} :
    Text.contains part text = true ↔ part <:+: text := by
  induction text with
  | nil => simp [Text.contains]
  | cons c text ih =>
    rw [Text.contains, Bool.or_eq_true, List.isPrefixOf_iff_prefix, ih, List.infix_cons_iff]

theorem test_iff {f : TextTest} {part text : List Char} :
    f.test part text = true ↔ f.Holds part text := by
  cases f with
  | startsWith => exact List.isPrefixOf_iff_prefix
  | endsWith => exact List.isSuffixOf_iff_suffix
  | contains => exact contains_iff

/-- What a cell gives that has the input variable tested, by what the variable stands for. -/
def verdict (f : TextTest) (part : String) : Value → Result Value
  | .string text => .ok (.bool (f.test part.toList text.toList))
  | .null => .ok (.bool true)
  | .absent => .ok .absent
  | v => .error (.unsupported (.function f.builtin.name) [v.kind])

/-- The call itself leaves null as null. -/
theorem call_eq (f : TextTest) (part : String) (v : Value) :
    f.builtin.call [v, .string part] =
      if v.isNull then .ok .null else f.verdict part v := by
  cases f <;> cases v <;> rfl

end TextTest

/-! ## Evaluation of the cell -/

theorem Scope.resolve_forColumn (s : Scope) (name : Option String) (path : List String) :
    (s.forColumn name).resolve path = s.resolve path := by
  cases path with
  | nil => rfl
  | cons n path =>
    have hlookup : (s.forColumn name).lookup n = s.lookup n := by
      simp only [lookup, forColumn, push, List.findSome?_cons, Entries.get?_nil]
    simp only [resolve, hlookup]

namespace Expr

variable {invoke : Invoke} {s : Scope} {v : Expr} {text : String} {path : List String}

theorem evaluateWith_of_qualifiedName? (h : v.qualifiedName? = some (text, path)) :
    v.evaluateWith invoke s = .ok (s.resolve path) := by
  cases v with
  | name n =>
    cases h
    rw [evaluateWith]
  | path ns =>
    cases h
    rw [evaluateWith]
  | _ => cases h

/-- A call of a built-in function by its name, where nothing else is bound to the name. -/
theorem evaluateWith_call {calls : Nat} {b : Builtin} {params : List Expr}
    (h : s.lookup b.name = some (.function (.builtin b))) :
    (call b.name params).evaluateWith (Function.invokeWithin calls) s = (do
      let args ← evaluateAll (Function.invokeWithin calls) 1 params s
      b.call args) := by
  have hcallee : (s.part 0).resolve [b.name] = .function (.builtin b) := by
    show ((s.lookup b.name).getD .absent).follow [] = _
    rw [h]
    rfl
  have hinvoke : ∀ args, Function.invokeWithin calls (.builtin b) args s = b.call args := by
    intro args
    cases calls <;> rw [Function.invokeWithin]
  simp only [call, evaluateWith, hcallee, ok_bind, hinvoke]

theorem argumentNamed?_call (function : String) (params : List Expr)
    (h : v.qualifiedName? = some (text, path)) :
    (call function (v :: params)).argumentNamed? text = some path := by
  simp only [call, argumentNamed?, List.findSome?_cons, h, if_true]

theorem evaluateWith_tests (e : Expr) :
    (tests [e]).evaluateWith invoke s = (do
      let value ← e.evaluateWith invoke (s.part 1)
      return .predicate (.anyOf [.ofValue value])) := by
  simp only [tests, evaluateWith, evaluateAll]
  cases e.evaluateWith invoke (s.part 1) <;> rfl

end Expr

theorem Predicate.test_anyOf_singleton (p : Predicate) (candidate : Value) :
    (anyOf [p]).test candidate = (p.test candidate).map (Value.or3 (.bool false)) := by
  rw [test, testAny]
  cases p.test candidate with
  | error e => rfl
  | ok outcome =>
    show (if _ then _ else testAny _ [] _) = _
    rw [testAny]
    split <;> rfl

namespace Table

variable {t : Table} {s : Scope} {v entry : Expr} {text : String} {path : List String}

/-- A cell with a single test in a list of tests decides as the test does, which stands one step
further down. -/
theorem testCell_tests (s : Scope) (column : Column) (entry : Expr) :
    testCell s column (.tests [entry]) =
      (testCell (s.part 1) column entry).map (Value.or3 (.bool false)) := by
  show (do
    let p ← ((Expr.tests [entry]).evaluateWith _ (s.forColumn column.inputVariable)).map
      Predicate.ofValue
    p.test column.candidate) = Except.map _ (do
    let p ← (entry.evaluateWith _ ((s.forColumn column.inputVariable).part 1)).map Predicate.ofValue
    p.test column.candidate)
  rw [Expr.evaluateWith_tests]
  show _ = Except.map _ (do
    let p ← (entry.evaluateWith (Function.invokeWithin (s.forColumn column.inputVariable).callsLeft)
      ((s.forColumn column.inputVariable).part 1)).map Predicate.ofValue
    p.test column.candidate)
  cases entry.evaluateWith _ ((s.forColumn column.inputVariable).part 1) with
  | error e => rfl
  | ok value => exact Predicate.test_anyOf_singleton _ _

/-- The equality test on an operand: alone, or as the only one in a list of tests. -/
def IsEqualityTest (entry operand : Expr) : Prop :=
  ∃ op : Option ComparisonOp, op.getD .eq = .eq ∧
    (entry = .unaryTest op operand ∨ entry = .tests [.unaryTest op operand])

theorem testCell_textTest {f : TextTest} (part : String) {op : Option ComparisonOp}
    (hop : op.getD .eq = .eq) (hv : v.qualifiedName? = some (text, path))
    (hf : s.lookup f.builtin.name = some (.function (.builtin f.builtin))) :
    testCell s ⟨v.qualifiedText?, s.resolve path⟩
        (.unaryTest op (.call f.builtin.name [v, .string part])) =
      f.verdict part (s.resolve path) := by
  have htext : v.qualifiedText? = some text := by
    rw [Expr.qualifiedText?, hv]
    rfl
  rw [htext]
  have hresolve : (s.forColumn (some text)).resolve path = s.resolve path :=
    s.resolve_forColumn _ _
  have hlookup : ((s.forColumn (some text)).part 0).lookup f.builtin.name =
      some (.function (.builtin f.builtin)) := hf
  have hargs : ∀ calls, evaluateAll (Function.invokeWithin calls) 1 [v, .string part]
      ((s.forColumn (some text)).part 0) = .ok [s.resolve path, .string part] := by
    intro calls
    simp only [evaluateAll, Expr.evaluateWith_of_qualifiedName? hv, Expr.string, Expr.evaluateWith]
    show Except.ok [(s.forColumn (some text)).resolve path, _] = _
    rw [hresolve]
    rfl
  have harg := Expr.argumentNamed?_call f.builtin.name [.string part] hv
  unfold testCell Expr.evaluateTest Expr.evaluate
  unfold Expr.evaluateWith
  simp only [Expr.evaluateWith_call hlookup, hargs, ok_bind, f.call_eq, hop]
  -- what the call gives is looked at together with the candidate, which is its argument
  have hcell : (s.forColumn (some text)).inputVariable.bind
      (Expr.call f.builtin.name [v, .string part]).argumentNamed? = some path := harg
  cases hcandidate : s.resolve path with
  | string whole =>
    simp only [Value.isNull, Bool.false_eq_true, if_false, TextTest.verdict, ok_bind]
    cases f.test part.toList whole.toList with
    | true =>
      simp only [Scope.cellTest, hcell, hresolve, hcandidate]
      simp [Except.map, Predicate.ofValue, Predicate.test, Value.compare, Value.equals,
        Value.isMissing, Value.isAbsent, Value.isNull]
    | false =>
      simp only [Scope.cellTest, hcell]
      rfl
  | null =>
    simp only [Scope.cellTest, hcell]
    rfl
  | absent =>
    simp only [Scope.cellTest, hcell]
    rfl
  | _ => rfl

/-- **What such a cell gives.** -/
theorem reading_eq_verdict {f : TextTest} {part : String} {i j : Nat} {rule : Rule}
    (hinput : t.inputs[i]? = some v) (hrule : t.rules[j]? = some rule)
    (hentry : rule.inputEntries[i]? = some entry) (hv : v.qualifiedName? = some (text, path))
    (htest : IsEqualityTest entry (.call f.builtin.name [v, .string part]))
    (hf : s.lookup f.builtin.name = some (.function (.builtin f.builtin))) :
    t.reading s ⟨some (1 + j), 1 + i⟩ = f.verdict part (s.resolve path) := by
  have hhead : t.reading s ⟨none, 1 + i⟩ = .ok (s.resolve path) := by
    rw [← reading_head hinput]
    exact Expr.evaluateWith_of_qualifiedName? hv
  rw [← reading_test hrule hinput hentry hhead]
  obtain ⟨op, hop, rfl | rfl⟩ := htest
  · exact testCell_textTest (s := cellScope s (1 + j) (1 + i)) part hop hv hf
  · have hcell := testCell_textTest (s := (cellScope s (1 + j) (1 + i)).part 1) part hop hv hf
    rw [testCell_tests]
    show Except.map _ (testCell _ ⟨_, (((cellScope s (1 + j) (1 + i)).part 1).resolve path)⟩ _) = _
    rw [hcell]
    show Except.map _ (f.verdict part (s.resolve path)) = _
    cases s.resolve path with
    | string whole =>
      simp only [TextTest.verdict]
      cases f.test part.toList whole.toList <;> rfl
    | _ => rfl

/-- **A cell that has the input variable tested for a part of its text** matches exactly if the
variable stands for a text which passes, unless it stands for null, and then it matches as well. -/
theorem text_test_matches_iff (t : Table) (s : Scope) {f : TextTest} {part : String} {i j : Nat}
    {rule : Rule} (hinput : t.inputs[i]? = some v) (hrule : t.rules[j]? = some rule)
    (hentry : rule.inputEntries[i]? = some entry) (hv : v.qualifiedName? = some (text, path))
    (htest : IsEqualityTest entry (.call f.builtin.name [v, .string part]))
    (hf : s.lookup f.builtin.name = some (.function (.builtin f.builtin))) :
    let outcome := t.reading s ⟨some (1 + j), 1 + i⟩
    (s.resolve path ≠ .null → (outcome = .ok (.bool true) ↔
      ∃ whole, s.resolve path = .string whole ∧ f.Holds part.toList whole.toList)) ∧
    (∀ whole, s.resolve path = .string whole → ¬f.Holds part.toList whole.toList →
      outcome = .ok (.bool false)) ∧
    (s.resolve path = .absent → outcome = .ok .absent) ∧
    (s.resolve path = .null → outcome = .ok (.bool true)) := by
  intro outcome
  have houtcome : outcome = f.verdict part (s.resolve path) :=
    reading_eq_verdict hinput hrule hentry hv htest hf
  rw [houtcome]
  refine ⟨fun hnull => ?_, ?_, ?_, ?_⟩
  · constructor
    · intro hmatch
      cases hvalue : s.resolve path with
      | string whole =>
        rw [hvalue] at hmatch
        simp only [TextTest.verdict, Except.ok.injEq, Value.bool.injEq] at hmatch
        exact ⟨whole, rfl, TextTest.test_iff.mp hmatch⟩
      | null => exact absurd hvalue hnull
      | _ =>
        rw [hvalue] at hmatch
        cases hmatch
    · rintro ⟨whole, hvalue, hholds⟩
      rw [hvalue, TextTest.verdict, TextTest.test_iff.mpr hholds]
  · intro whole hvalue hnot
    have : f.test part.toList whole.toList = false := by
      rw [← Bool.not_eq_true, TextTest.test_iff]
      exact hnot
    rw [hvalue, TextTest.verdict, this]
  · intro hvalue
    rw [hvalue]
    rfl
  · intro hvalue
    rw [hvalue]
    rfl

/-- A greeting for callers whose name starts in one way. -/
def greeting : Table where
  hitPolicy := .first
  inputs := [.path ["caller", "name"]]
  outputs := ["greeting"]
  rules := [
    ⟨[.tests [.unaryTest none (.call "starts with" [.path ["caller", "name"], .string "Jo"])]],
      [.string "hello Jo"]⟩,
    ⟨[.any], [.string "hello stranger"]⟩]
  outputs_ne := by decide
  outputs_named := by decide
  rules_fit := by decide

theorem null_caller_greeted :
    let s : Scope := .root [("caller", .context [("name", .null)])] 64 []
    s.resolve ["caller", "name"] = .null ∧ greeting.reading s ⟨some 1, 1⟩ = .ok (.bool true) ∧
      greeting.evaluate s = .ok (.context [("greeting", .string "hello Jo")]) :=
  ⟨rfl, rfl, rfl⟩

theorem john_greeted_and_mary_not :
    let s (name : Value) : Scope := .root [("caller", .context [("name", name)])] 64 []
    greeting.reading (s (.string "John")) ⟨some 1, 1⟩ = .ok (.bool true) ∧
      greeting.reading (s (.string "Mary")) ⟨some 1, 1⟩ = .ok (.bool false) ∧
      greeting.reading (s .absent) ⟨some 1, 1⟩ = .ok .absent := by
  intro s
  have htest : IsEqualityTest
      (.tests [.unaryTest none (.call "starts with" [.path ["caller", "name"], .string "Jo"])])
      (.call TextTest.startsWith.builtin.name [.path ["caller", "name"], .string "Jo"]) :=
    ⟨none, rfl, .inr rfl⟩
  have hcell (name : Value) := text_test_matches_iff greeting (s name) (i := 0) (j := 0)
    rfl rfl rfl rfl htest rfl
  refine ⟨?_, ?_, ?_⟩
  · refine ((hcell (.string "John")).1 nofun).mpr ⟨"John", rfl, ?_⟩
    exact TextTest.test_iff.mp (by decide)
  · refine (hcell (.string "Mary")).2.1 "Mary" rfl fun hholds => ?_
    exact absurd (TextTest.test_iff.mpr hholds) (by decide)
  · exact (hcell .absent).2.2.1 rfl

end Table
end DecisionModel
