import DecisionModel.Proofs.Evaluation.Membership
import DecisionModel.Proofs.Table.InputVariable
import DecisionModel.Proofs.Value.Line
import Mathlib.Data.List.Chain

/-!
# Tables of windows

Bounds that increase cut a line into windows. A window takes in its lower bound and not its upper
one, so neighbours neither overlap nor leave a gap: of every point from the first bound on and below
the last one, exactly one window has it.

A table whose rules ask for these windows one after the other is therefore unambiguous, whatever the
candidate. That rests on the kinds of values that lie on a line (`Value.exists_line`), on what a cell
makes of a half-open interval (`IsWindow.testCell_eq`), and on what UNIQUE makes of rules of which at
most one matches (`onlyHit_of_match`, `onlyHit_of_no_match`).
-/

namespace DecisionModel

/-! ## Windows on a line -/

section Line

variable {α : Type} [LinearOrder α] {first last point : α} {points : List α} {i j : Nat}

/-- The position of a window that has a point: from one of the bounds on and below the next. -/
def HasWindow (points : List α) (point : α) (i : Nat) : Prop :=
  ∃ low high, points[i]? = some low ∧ points[i + 1]? = some high ∧ low ≤ point ∧ point < high

theorem le_of_increasing {low high : α} (h : points.Pairwise (· < ·)) (hi : points[i]? = some low)
    (hj : points[j]? = some high) (hle : i ≤ j) : low ≤ high := by
  obtain ⟨hilen, rfl⟩ := List.getElem?_eq_some_iff.mp hi
  obtain ⟨hjlen, rfl⟩ := List.getElem?_eq_some_iff.mp hj
  rcases Nat.lt_or_eq_of_le hle with hlt | rfl
  · exact le_of_lt (List.pairwise_iff_getElem.mp h i j hilen hjlen hlt)
  · exact le_refl _

theorem not_lt_of_hasWindow (h : points.Pairwise (· < ·)) (hi : HasWindow points point i)
    (hj : HasWindow points point j) : ¬i < j := by
  intro hlt
  obtain ⟨-, high, -, hhigh, -, hbelow⟩ := hi
  obtain ⟨low, -, hlow, -, habove, -⟩ := hj
  exact absurd (le_of_increasing h hhigh hlow hlt) (not_le.mpr (lt_of_le_of_lt habove hbelow))

/-- Windows do not overlap. -/
theorem HasWindow.unique (h : points.Pairwise (· < ·)) (hi : HasWindow points point i)
    (hj : HasWindow points point j) : i = j :=
  Nat.le_antisymm (Nat.le_of_not_lt (not_lt_of_hasWindow h hj hi))
    (Nat.le_of_not_lt (not_lt_of_hasWindow h hi hj))

/-- Windows leave no gap. -/
theorem exists_hasWindow (hfirst : first ≤ point) (hlast : (first :: points).getLast? = some last)
    (hbelow : point < last) : ∃ i, HasWindow (first :: points) point i := by
  induction points generalizing first with
  | nil =>
    cases hlast
    exact absurd hbelow (not_lt.mpr hfirst)
  | cons next points ih =>
    by_cases hnext : point < next
    · exact ⟨0, first, next, rfl, rfl, hfirst, hnext⟩
    · rw [List.getLast?_cons_cons] at hlast
      obtain ⟨i, hi⟩ := ih (not_lt.mp hnext) hlast
      exact ⟨i + 1, hi⟩

/-- **A point has a window exactly if it is not below the first bound and is below the last.** -/
theorem exists_hasWindow_iff (h : (first :: points).Pairwise (· < ·))
    (hlast : (first :: points).getLast? = some last) :
    (∃ i, HasWindow (first :: points) point i) ↔ first ≤ point ∧ point < last := by
  constructor
  · rintro ⟨i, low, high, hlow, hhigh, habove, hbelow⟩
    rw [List.getLast?_eq_getElem?] at hlast
    have hend : i + 1 ≤ (first :: points).length - 1 := by
      obtain ⟨hlt, -⟩ := List.getElem?_eq_some_iff.mp hhigh
      omega
    exact ⟨le_trans (le_of_increasing h rfl hlow (Nat.zero_le i)) habove,
      lt_of_lt_of_le hbelow (le_of_increasing h hhigh hlast hend)⟩
  · rintro ⟨hfirst, hbelow⟩
    exact exists_hasWindow hfirst hlast hbelow

end Line

/-! ## Windows of values -/

namespace Value

/-- The position of a window that has a candidate, as the comparisons of the language say it. -/
def InWindow (bounds : List Value) (candidate : Value) (i : Nat) : Prop :=
  ∃ low high, bounds[i]? = some low ∧ bounds[i + 1]? = some high ∧
    low.compare .le candidate = .ok (.bool true) ∧ candidate.compare .lt high = .ok (.bool true)

/-- Whether a candidate is below the first bound, or not below the last. -/
def Outside (bounds : List Value) (candidate : Value) : Prop :=
  ∃ first last, bounds.head? = some first ∧ bounds.getLast? = some last ∧
    (candidate.compare .lt first = .ok (.bool true) ∨
      candidate.compare .lt last = .ok (.bool false))

/-- Bounds that increase, and a candidate, all of one kind of values that lie on a line. -/
structure Increasing (bounds : List Value) (candidate : Value) : Prop where
  linear : candidate.kind.isLinear = true
  sameKind : ∀ b ∈ bounds, b.kind = candidate.kind
  chain : bounds.IsChain fun a b => a.compare .lt b = .ok (.bool true)

/-- What windows of values are on the line of their kind. -/
structure OnLine {α : Type} [LinearOrder α] (point : Value → α) (bounds : List Value)
    (candidate : Value) : Prop where
  increasing : (bounds.map point).Pairwise (· < ·)
  below : ∀ b ∈ bounds, Ordered b candidate (Ord.compare (point b) (point candidate))
  above : ∀ b ∈ bounds, Ordered candidate b (Ord.compare (point candidate) (point b))

variable {bounds : List Value} {candidate low high : Value} {i : Nat}

theorem Increasing.exists_onLine (h : Increasing bounds candidate) :
    ∃ (α : Type) (_ : LinearOrder α) (point : Value → α), OnLine point bounds candidate := by
  obtain ⟨α, _, point, hpoint⟩ := exists_line h.linear
  refine ⟨α, inferInstance, point, ⟨?_, fun b hb => hpoint b candidate (h.sameKind b hb) rfl,
    fun b hb => hpoint candidate b rfl (h.sameKind b hb)⟩⟩
  rw [← List.isChain_iff_pairwise, List.isChain_map]
  refine h.chain.imp_of_mem_imp fun a b ha hb hlt => ?_
  rw [(hpoint a b (h.sameKind a ha) (h.sameKind b hb)).compare_lt_eq] at hlt
  simpa using hlt

namespace OnLine

variable {α : Type} [LinearOrder α] {point : Value → α}

theorem inWindow_iff (h : OnLine point bounds candidate) :
    InWindow bounds candidate i ↔ HasWindow (bounds.map point) (point candidate) i := by
  simp only [InWindow, HasWindow, List.getElem?_map]
  constructor
  · rintro ⟨low, high, hlow, hhigh, habove, hbelow⟩
    rw [(h.below low (List.mem_of_getElem? hlow)).compare_le_eq] at habove
    rw [(h.above high (List.mem_of_getElem? hhigh)).compare_lt_eq] at hbelow
    exact ⟨point low, point high, by rw [hlow]; rfl, by rw [hhigh]; rfl, by simpa using habove,
      by simpa using hbelow⟩
  · rintro ⟨x, y, hx, hy, habove, hbelow⟩
    obtain ⟨low, hlow, rfl⟩ := Option.map_eq_some_iff.mp hx
    obtain ⟨high, hhigh, rfl⟩ := Option.map_eq_some_iff.mp hy
    refine ⟨low, high, hlow, hhigh, ?_, ?_⟩
    · rw [(h.below low (List.mem_of_getElem? hlow)).compare_le_eq, decide_eq_true habove]
    · rw [(h.above high (List.mem_of_getElem? hhigh)).compare_lt_eq, decide_eq_true hbelow]

theorem outside_iff (h : OnLine point bounds candidate) (hbounds : bounds ≠ []) :
    Outside bounds candidate ↔ ∀ i, ¬InWindow bounds candidate i := by
  obtain ⟨first, rest, rfl⟩ := List.exists_cons_of_ne_nil hbounds
  obtain ⟨last, hlast⟩ : ∃ last, (first :: rest).getLast? = some last := by
    cases hget : (first :: rest).getLast? with
    | none => exact absurd (List.getLast?_eq_none_iff.mp hget) hbounds
    | some last => exact ⟨last, rfl⟩
  have hmap : (point first :: rest.map point).getLast? = some (point last) := by
    rw [← List.map_cons, List.getLast?_map, hlast]
    rfl
  have hinside : (∃ i, InWindow (first :: rest) candidate i) ↔
      point first ≤ point candidate ∧ point candidate < point last := by
    simp only [h.inWindow_iff]
    exact exists_hasWindow_iff h.increasing hmap
  have hfirst := (h.above first List.mem_cons_self).compare_lt_eq
  have hbelow := (h.above last (List.mem_of_getLast? hlast)).compare_lt_eq
  rw [← not_exists, hinside, not_and_or, not_le, not_lt]
  constructor
  · rintro ⟨first', last', hfirst', hlast', h⟩
    cases hfirst'
    cases hlast.symm.trans hlast'
    rw [hfirst, hbelow] at h
    simpa using h
  · intro h
    refine ⟨first, last, rfl, hlast, ?_⟩
    rw [hfirst, hbelow]
    simpa using h

end OnLine

end Value

/-! ## Cells that ask for a window -/

/-- The half-open interval from one value to another, as an expression in a scope: by itself, or as
the only test in a list of tests. -/
inductive Expr.IsWindow (low high : Value) : Scope → Expr → Prop where
  | interval {s : Scope} {lowEnd highEnd : Expr} : lowEnd.evaluate (s.part 0) = .ok low →
      highEnd.evaluate (s.part 1) = .ok high →
      IsWindow low high s (.interval .included lowEnd highEnd .excluded)
  | tests {s : Scope} {e : Expr} : IsWindow low high (s.part 1) e → IsWindow low high s (.tests [e])

namespace Expr.IsWindow

variable {low high candidate : Value} {s : Scope} {e : Expr}

/-- Around an interval a list of tests makes no difference. -/
theorem exists_test (h : e.IsWindow low high s) : ∃ p, e.evaluateTest s = .ok p ∧
    ∀ candidate, p.test candidate =
      Predicate.testInterval .included low high .excluded candidate := by
  induction h with
  | @interval s lowEnd highEnd hlow hhigh =>
    refine ⟨.interval .included low high .excluded, ?_, fun candidate => by rw [Predicate.test]⟩
    show Except.map Predicate.ofValue (do
      let a ← lowEnd.evaluate (s.part 0)
      let b ← highEnd.evaluate (s.part 1)
      return .predicate (.interval .included a b .excluded)) = _
    rw [hlow, hhigh]
    rfl
  | @tests s e _ ih =>
    obtain ⟨p, hp, htest⟩ := ih
    obtain ⟨v, hv, rfl⟩ := map_eq_ok_iff.mp hp
    refine ⟨.anyOf [.ofValue v], ?_, fun candidate => ?_⟩
    · have hv' : e.evaluateWith (Function.invokeWithin s.callsLeft) (s.part 1) = .ok v := hv
      rw [evaluateTest, evaluate, evaluateWith_tests, hv']
      rfl
    · rw [Predicate.test_anyOf_singleton, ← htest candidate]
      cases houtcome : (Predicate.ofValue v).test candidate with
      | error fault => rfl
      | ok outcome =>
        exact congrArg Except.ok (Predicate.isVerdict_of_test houtcome).false_or3

/-- Of a candidate on the line of its ends, a window says whether it has it. -/
theorem testCell_eq {α : Type} [LinearOrder α] {point : Value → α} (column : Column)
    (h : e.IsWindow low high (s.forColumn column.inputVariable))
    (hlow : Value.Ordered column.candidate low (Ord.compare (point column.candidate) (point low)))
    (hhigh : Value.Ordered column.candidate high
      (Ord.compare (point column.candidate) (point high))) :
    Table.testCell s column e = .ok (.bool
      (decide (point low ≤ point column.candidate ∧ point column.candidate < point high))) := by
  obtain ⟨p, hp, htest⟩ := h.exists_test
  rw [Table.testCell, hp, ok_bind, htest,
    Predicate.testInterval_eq hlow.right_present hhigh.right_present, Predicate.lowOp,
    Predicate.highOp, hlow.compare_ge_eq, hhigh.compare_lt_eq, ok_bind, ok_bind, Bool.decide_and]
  cases decide (point low ≤ point column.candidate) <;>
    cases decide (point column.candidate < point high) <;> rfl

end Expr.IsWindow

/-! ## Rules of which one matches -/

namespace Table

/-- Whether the rule at a position matches: every test of it is exactly true. -/
def Matches (t : Table) (s : Scope) (i : Nat) : Prop :=
  ∃ columns rule, columnsFrom 1 s t.inputs = .ok columns ∧ t.rules[i]? = some rule ∧
    matchesFrom (1 + i) 1 s columns rule.inputEntries = .ok true

/-- Whether the rule at a position is the only one that matches. -/
def Chooses (t : Table) (s : Scope) (i : Nat) : Prop := ∀ j, t.Matches s j ↔ j = i

/-- Whether the scan ends without a row, so that the row of absent outputs is put in its place. -/
def FallsBack (t : Table) (s : Scope) : Prop :=
  ∃ columns, columnsFrom 1 s t.inputs = .ok columns ∧
    t.onlyHit columns s 1 none t.rules = .ok none

variable {t : Table} {columns : List Column} {s : Scope} {number i : Nat} {rules : List Rule}
  {rule : Rule}

theorem onlyHit_of_no_match {found : Option Context}
    (h : ∀ j r, rules[j]? = some r →
      matchesFrom (number + j) 1 s columns r.inputEntries = .ok false) :
    t.onlyHit columns s number found rules = .ok found := by
  induction rules generalizing number with
  | nil => rfl
  | cons r rules ih =>
    have hr : matchesFrom number 1 s columns r.inputEntries = .ok false := h 0 r rfl
    have htail : t.onlyHit columns s (number + 1) found rules = .ok found := ih fun j r' hr' => by
      rw [Nat.add_right_comm]
      exact h (j + 1) r' hr'
    cases found with
    | none => rw [onlyHit_none_cons, hit?_of_not_matches hr, ok_bind, htail]
    | some row =>
      rw [onlyHit_some_cons, hr, ok_bind]
      exact htail

/-- Of rules that are all settled and of which one matches, its row is the result, or the error of
its outputs. -/
theorem onlyHit_of_match (hrule : rules[i]? = some rule)
    (h : ∀ j r, rules[j]? = some r →
      matchesFrom (number + j) 1 s columns r.inputEntries = .ok (decide (j = i))) :
    t.onlyHit columns s number none rules = (t.row s (number + i) rule).map some := by
  induction rules generalizing number i with
  | nil => cases hrule
  | cons r rules ih =>
    have hr : matchesFrom number 1 s columns r.inputEntries = .ok (decide (0 = i)) := h 0 r rfl
    cases i with
    | zero =>
      cases hrule
      rw [onlyHit_none_cons, hit?, hr, ok_bind, decide_eq_true rfl, if_pos rfl]
      cases t.row s number rule with
      | error e => rfl
      | ok row =>
        refine onlyHit_of_no_match fun j r' hr' => ?_
        rw [Nat.add_right_comm]
        exact h (j + 1) r' hr'
    | succ i =>
      rw [onlyHit_none_cons, hit?_of_not_matches hr, ok_bind, ← Nat.add_assoc,
        Nat.add_right_comm number i 1]
      refine ih hrule fun j r' hr' => ?_
      rw [Nat.add_right_comm, Nat.add_assoc, h (j + 1) r' hr']
      simp

theorem outputsFrom_ne_notUnique {column : Nat} {row : Context} {names : List String}
    {entries : List Expr} :
    outputsFrom number column s row names entries ≠ .error .notUnique := by
  intro h
  induction names generalizing column row entries with
  | nil => cases h
  | cons name names ih =>
    cases entries with
    | nil => cases h
    | cons entry entries =>
      rw [outputsFrom] at h
      cases hresult : entry.evaluate (cellScope s number column) with
      | ok result =>
        rw [hresult] at h
        exact ih h
      | error source =>
        rw [hresult] at h
        cases h

/-! ## Tables of windows -/

/-- A table with a single column, in which the rule at position `i` asks for the half-open interval
between the bounds at `i` and `i + 1`. -/
structure IsWindows (t : Table) (s : Scope) (input : Expr) (bounds : List Value)
    (candidate : Value) : Prop where
  unique : t.hitPolicy = .unique
  inputs : t.inputs = [input]
  candidate : input.evaluate (cellScope s 0 1) = .ok candidate
  length : bounds.length = t.rules.length + 1
  cell : ∀ i rule, t.rules[i]? = some rule → ∃ low high entry, bounds[i]? = some low ∧
    bounds[i + 1]? = some high ∧ rule.inputEntries = [entry] ∧
    entry.IsWindow low high ((cellScope s (1 + i) 1).forColumn input.qualifiedText?)

namespace IsWindows

variable {input : Expr} {bounds : List Value} {candidate : Value}

theorem columnsFrom_eq (h : t.IsWindows s input bounds candidate) :
    columnsFrom 1 s t.inputs = .ok [⟨input.qualifiedText?, candidate⟩] := by
  rw [h.inputs, columnsFrom, h.candidate]
  rfl

theorem evaluate_eq (h : t.IsWindows s input bounds candidate) :
    t.evaluate s = (do
      let hit ← t.onlyHit [⟨input.qualifiedText?, candidate⟩] s 1 none t.rules
      return .context (hit.getD t.emptyRow)) := by
  rw [evaluate, h.columnsFrom_eq, h.unique]
  rfl

theorem fallsBack_iff (h : t.IsWindows s input bounds candidate) :
    t.FallsBack s ↔ t.onlyHit [⟨input.qualifiedText?, candidate⟩] s 1 none t.rules = .ok none := by
  simp [FallsBack, h.columnsFrom_eq]

theorem evaluate_of_fallsBack (h : t.IsWindows s input bounds candidate) (hback : t.FallsBack s) :
    t.evaluate s = .ok (.context t.emptyRow) := by
  rw [h.evaluate_eq, h.fallsBack_iff.mp hback]
  rfl

section Line

variable (h : t.IsWindows s input bounds candidate) {α : Type} [LinearOrder α] {point : Value → α}
  (hline : Value.OnLine point bounds candidate)
include h hline

/-- Every rule of such a table says whether its window has the candidate. -/
theorem matchesFrom_eq [Decidable (Value.InWindow bounds candidate i)]
    (hrule : t.rules[i]? = some rule) :
    matchesFrom (1 + i) 1 s [⟨input.qualifiedText?, candidate⟩] rule.inputEntries =
      .ok (decide (Value.InWindow bounds candidate i)) := by
  obtain ⟨low, high, entry, hlow, hhigh, hentry, hwindow⟩ := h.cell i rule hrule
  have htest := hwindow.testCell_eq ⟨input.qualifiedText?, candidate⟩
    (hline.above low (List.mem_of_getElem? hlow)) (hline.above high (List.mem_of_getElem? hhigh))
  have hiff : Value.InWindow bounds candidate i ↔
      point low ≤ point candidate ∧ point candidate < point high := by
    rw [hline.inWindow_iff, HasWindow]
    simp only [List.getElem?_map, hlow, hhigh, Option.map_some, Option.some.injEq]
    simp
  rw [hentry, matchesFrom, htest, decide_eq_decide.mpr hiff]
  cases decide (point low ≤ point candidate ∧ point candidate < point high) <;> rfl

theorem matches_iff : t.Matches s i ↔ Value.InWindow bounds candidate i := by
  classical
  constructor
  · rintro ⟨columns, rule, hcolumns, hrule, hmatch⟩
    cases h.columnsFrom_eq.symm.trans hcolumns
    rw [h.matchesFrom_eq hline hrule] at hmatch
    simpa using hmatch
  · intro hwindow
    -- There is one bound more than there are rules, so the window is that of a rule.
    have hlt : i < t.rules.length := by
      obtain ⟨low, high, -, hhigh, -⟩ := hwindow
      obtain ⟨hlt, -⟩ := List.getElem?_eq_some_iff.mp hhigh
      have := h.length
      omega
    refine ⟨_, t.rules[i], h.columnsFrom_eq, List.getElem?_eq_getElem hlt, ?_⟩
    rw [h.matchesFrom_eq hline (List.getElem?_eq_getElem hlt)]
    exact congrArg Except.ok (decide_eq_true hwindow)

theorem chooses_iff : t.Chooses s i ↔ Value.InWindow bounds candidate i := by
  simp only [Chooses, h.matches_iff hline]
  constructor
  · exact fun hall => (hall i).mpr rfl
  · intro hi j
    constructor
    · intro hj
      rw [hline.inWindow_iff] at hi hj
      exact hj.unique hline.increasing hi
    · rintro rfl
      exact hi

theorem exists_rule (hwindow : Value.InWindow bounds candidate i) :
    ∃ rule, t.rules[i]? = some rule := by
  obtain ⟨-, rule, -, hrule, -⟩ := (h.matches_iff hline).mpr hwindow
  exact ⟨rule, hrule⟩

/-- The rule whose window has the candidate gives the row. -/
theorem onlyHit_of_inWindow (hrule : t.rules[i]? = some rule)
    (hwindow : Value.InWindow bounds candidate i) :
    t.onlyHit [⟨input.qualifiedText?, candidate⟩] s 1 none t.rules =
      (t.row s (1 + i) rule).map some := by
  classical
  have honly : ∀ j, Value.InWindow bounds candidate j ↔ j = i := fun j => by
    rw [← h.matches_iff hline]
    exact (h.chooses_iff hline).mpr hwindow j
  exact onlyHit_of_match hrule fun j r hr => by
    rw [h.matchesFrom_eq hline hr, decide_eq_decide.mpr (honly j)]

theorem evaluate_of_inWindow (hrule : t.rules[i]? = some rule)
    (hwindow : Value.InWindow bounds candidate i) :
    t.evaluate s = (t.row s (1 + i) rule).map .context := by
  rw [h.evaluate_eq, h.onlyHit_of_inWindow hline hrule hwindow]
  cases t.row s (1 + i) rule <;> rfl

/-- Where no window has the candidate, there is no row. -/
theorem fallsBack_of_not_inWindow (hnone : ∀ i, ¬Value.InWindow bounds candidate i) :
    t.FallsBack s := by
  classical
  rw [h.fallsBack_iff]
  exact onlyHit_of_no_match fun j r hr => by
    rw [h.matchesFrom_eq hline hr, decide_eq_false (hnone j)]

theorem fallsBack_iff_outside : t.FallsBack s ↔ Value.Outside bounds candidate := by
  have hbounds : bounds ≠ [] := by
    rintro rfl
    cases h.length
  rw [hline.outside_iff hbounds]
  refine ⟨fun hback i hwindow => ?_, h.fallsBack_of_not_inWindow hline⟩
  obtain ⟨rule, hrule⟩ := h.exists_rule hline hwindow
  rw [h.fallsBack_iff, h.onlyHit_of_inWindow hline hrule hwindow] at hback
  obtain ⟨row, -, hsome⟩ := map_eq_ok_iff.mp hback
  cases hsome

/-- A rule of such a table is chosen, or there is no row. -/
theorem chooses_or_fallsBack :
    (∃ i rule, t.rules[i]? = some rule ∧ t.Chooses s i ∧
      t.evaluate s = (t.row s (1 + i) rule).map .context) ∨
    t.FallsBack s ∧ t.evaluate s = .ok (.context t.emptyRow) := by
  by_cases hsome : ∃ i, Value.InWindow bounds candidate i
  · obtain ⟨i, hwindow⟩ := hsome
    obtain ⟨rule, hrule⟩ := h.exists_rule hline hwindow
    exact .inl ⟨i, rule, hrule, (h.chooses_iff hline).mpr hwindow,
      h.evaluate_of_inWindow hline hrule hwindow⟩
  · have hback := h.fallsBack_of_not_inWindow hline (not_exists.mp hsome)
    exact .inr ⟨hback, h.evaluate_of_fallsBack hback⟩

end Line

end IsWindows

theorem row_ne_notUnique : t.row s number rule ≠ .error .notUnique := outputsFrom_ne_notUnique

/-- **A table of windows chooses by them.** With bounds that increase, of one of the kinds that lie
on a line, two rules never match at once. The rule at a position is the one that matches exactly if
the candidate is from the bound at that position on and below the next, and the result is then its
row, or the error of its outputs. Exactly if the candidate is below the first bound or not below the
last, no rule matches, there is no row, and every output is absent; which otherwise is so only if
that is what the chosen rule's own outputs give. -/
theorem windows_choose {t : Table} {s : Scope} {input : Expr} {bounds : List Value}
    {candidate : Value} (h : t.IsWindows s input bounds candidate)
    (hincr : Value.Increasing bounds candidate) :
    t.evaluate s ≠ .error .notUnique ∧
    (∀ i, t.Chooses s i ↔ Value.InWindow bounds candidate i) ∧
    (∀ i rule, t.rules[i]? = some rule → t.Chooses s i →
      t.evaluate s = (t.row s (1 + i) rule).map .context) ∧
    ((∀ i, ¬t.Matches s i) ↔ Value.Outside bounds candidate) ∧
    (t.FallsBack s ↔ Value.Outside bounds candidate) ∧
    (t.evaluate s = .ok (.context t.emptyRow) ↔ Value.Outside bounds candidate ∨
      ∃ i rule, t.rules[i]? = some rule ∧ t.Chooses s i ∧
        t.row s (1 + i) rule = .ok t.emptyRow) := by
  obtain ⟨α, _, point, hline⟩ := hincr.exists_onLine
  have hback := h.fallsBack_iff_outside hline
  have hchosen : ∀ i rule, t.rules[i]? = some rule → t.Chooses s i →
      t.evaluate s = (t.row s (1 + i) rule).map .context := fun i rule hrule hchosen =>
    h.evaluate_of_inWindow hline hrule ((h.chooses_iff hline).mp hchosen)
  have hbounds : bounds ≠ [] := by
    rintro rfl
    cases h.length
  refine ⟨?_, fun i => h.chooses_iff hline, hchosen, ?_, hback, ?_⟩
  · rcases h.chooses_or_fallsBack hline with ⟨i, rule, -, -, hresult⟩ | ⟨-, hresult⟩
    · rw [hresult]
      cases hrow : t.row s (1 + i) rule with
      | ok row => exact nofun
      | error fault =>
        rintro ⟨⟩
        exact row_ne_notUnique hrow
    · rw [hresult]
      exact nofun
  · rw [hline.outside_iff hbounds]
    exact forall_congr' fun i => not_congr (h.matches_iff hline)
  · constructor
    · intro hempty
      rcases h.chooses_or_fallsBack hline with ⟨i, rule, hrule, hchooses, hresult⟩ | ⟨hnone, -⟩
      · rw [hresult] at hempty
        obtain ⟨row, hrow, hrowEmpty⟩ := map_eq_ok_iff.mp hempty
        cases hrowEmpty
        exact .inr ⟨i, rule, hrule, hchooses, hrow⟩
      · exact .inl (hback.mp hnone)
    · rintro (hout | ⟨i, rule, hrule, hchooses, hrow⟩)
      · exact h.evaluate_of_fallsBack (hback.mpr hout)
      · rw [hchosen i rule hrule hchooses, hrow]
        rfl

/-- Two windows of years, the second one written as a list of one test. -/
def ages : Table where
  hitPolicy := .unique
  inputs := [.name "age"]
  outputs := ["group"]
  rules := [
    ⟨[.interval .included (.number (.ofNat 0)) (.number (.ofNat 18)) .excluded],
      [.string "minor"]⟩,
    ⟨[.tests [.interval .included (.number (.ofNat 18)) (.number (.ofNat 65)) .excluded]],
      [.string "adult"]⟩]
  outputs_ne := by decide
  outputs_named := by decide
  rules_fit := by decide

theorem ages_isWindows (age : Value) :
    ages.IsWindows (.root [("age", age)] 0 []) (.name "age") [.ofNat 0, .ofNat 18, .ofNat 65]
      age where
  unique := rfl
  inputs := rfl
  candidate := rfl
  length := rfl
  cell
    | 0, _, rfl => ⟨_, _, _, rfl, rfl, rfl, .interval rfl rfl⟩
    | 1, _, rfl => ⟨_, _, _, rfl, rfl, rfl, .tests (.interval rfl rfl)⟩

/-- `18.0` lies on the bound between the windows, and `65` on the last one. -/
theorem ages_choose :
    let bounds : List Value := [.ofNat 0, .ofNat 18, .ofNat 65]
    let s (age : Value) : Scope := .root [("age", age)] 0 []
    let eighteen : Value := .number ⟨false, 180, 1, by decide, by decide⟩
    (Value.Increasing bounds eighteen ∧ ages.Chooses (s eighteen) 1 ∧
      ages.evaluate (s eighteen) = .ok (.context [("group", .string "adult")])) ∧
    (Value.Increasing bounds (.ofNat 65) ∧ Value.Outside bounds (.ofNat 65) ∧
      ages.evaluate (s (.ofNat 65)) = .ok (.context [("group", .absent)])) := by
  intro bounds s eighteen
  have hincr : ∀ n, Value.Increasing bounds (.number n) := fun n =>
    ⟨rfl, by simp [bounds, Value.ofNat, Value.kind],
      .cons_cons rfl (.cons_cons rfl (.singleton _))⟩
  have hinside := windows_choose (ages_isWindows eighteen) (hincr _)
  have houtside := windows_choose (ages_isWindows (.ofNat 65)) (hincr _)
  have hchosen : ages.Chooses (s eighteen) 1 :=
    (hinside.2.1 1).mpr ⟨.ofNat 18, .ofNat 65, rfl, rfl, rfl, rfl⟩
  have hout : Value.Outside bounds (.ofNat 65) := ⟨.ofNat 0, .ofNat 65, rfl, rfl, .inr rfl⟩
  exact ⟨⟨hincr _, hchosen, hinside.2.2.1 1 _ rfl hchosen⟩,
    hincr _, hout, houtside.2.2.2.2.2.mpr (.inl hout)⟩

end Table
end DecisionModel
