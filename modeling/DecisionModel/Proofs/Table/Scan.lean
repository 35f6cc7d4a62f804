import DecisionModel.Proofs.Table.HitPolicy
import DecisionModel.Proofs.Table.Reading

/-!
# The order in which cells are looked at

`Layout` is what is left of a table without its expressions, and the scan order is a function of a
layout and a reading. `evaluate_eq_outcome` says that evaluation is nothing but this: the error of
the first cell of the scan that fails, and if none does, what the hit policy makes of the rows of the
rules that match. Each function of the evaluation is brought into the form `after cells x` for it, by
induction on the list that it goes through.
-/

namespace DecisionModel

/-- A table without its expressions. -/
structure Layout where
  hitPolicy : HitPolicy
  inputs : Nat
  outputs : List String
  rules : Nat

/-- The cells of a rule in `count` columns from `column` on. -/
def ruleCells (rule column count : Nat) : List Cell :=
  (List.range' column count).map (⟨some rule, ·⟩)

/-- The heads of `count` columns from `column` on. -/
def headCells (column count : Nat) : List Cell := (List.range' column count).map (⟨none, ·⟩)

/-! ## Scans -/

namespace Layout

/-- The input expressions. -/
def heads (l : Layout) : List Cell := headCells 1 l.inputs

/-- The tests of a rule. -/
def tests (l : Layout) (rule : Nat) : List Cell := ruleCells rule 1 l.inputs

/-- The outputs of a rule, whose columns go on from the inputs. -/
def results (l : Layout) (rule : Nat) : List Cell :=
  ruleCells rule (l.inputs + 1) l.outputs.length

/-- The tests of a rule that are looked at: those up to the first that is not exactly true. -/
def tried (l : Layout) (reading : Reading) (rule : Nat) : List Cell :=
  upTo reading.holds (l.tests rule)

/-- Whether every test of a rule is exactly true. -/
def hits (l : Layout) (reading : Reading) (rule : Nat) : Bool := (l.tests rule).all reading.holds

/-- The cells of the rules in scan order, where `found` says whether a rule before them matches:
the tests of a rule, and if it matches, its outputs. FIRST stops after the first rule that matches,
and UNIQUE after the tests of the second one. -/
def scanRules (l : Layout) (reading : Reading) (found : Bool) : List Nat → List Cell
  | [] => []
  | rule :: rules => l.tried reading rule ++
      if l.hits reading rule then
        match l.hitPolicy with
        | .first => l.results rule
        | .unique => if found then [] else l.results rule ++ l.scanRules reading true rules
        | .collect | .ruleOrder => l.results rule ++ l.scanRules reading true rules
      else l.scanRules reading found rules

/-- The numbers of the rules. -/
def numbers (l : Layout) : List Nat := List.range' 1 l.rules

/-- All cells in scan order: the input expressions, and then the rules. -/
def scan (l : Layout) (reading : Reading) : List Cell :=
  l.heads ++ l.scanRules reading false l.numbers

/-! ## Rows -/

/-- A row with the values of output cells put in, from `column` on. -/
def fill (reading : Reading) (rule column : Nat) (row : Context) : List String → Context
  | [] => row
  | name :: names =>
    fill reading rule (column + 1)
      (row.setPath (outputPath name) (reading.value ⟨some rule, column⟩)) names

/-- A row in which every output is absent. -/
def blankRow (l : Layout) : Context :=
  l.outputs.foldl (fun row name => Context.setPath row (outputPath name) .absent) []

/-- The row of a rule. -/
def row (l : Layout) (reading : Reading) (rule : Nat) : Context :=
  fill reading rule (l.inputs + 1) l.blankRow l.outputs

/-- The rows of those rules that match. -/
def rows (l : Layout) (reading : Reading) (rules : List Nat) : List Context :=
  (rules.filter (l.hits reading)).map (l.row reading)

/-- What the hit policy makes of the rows of the rules that match. -/
def settle (l : Layout) (rows : List Context) : Except TableError Value :=
  match l.hitPolicy with
  | .first => .ok (.context (rows.head?.getD l.blankRow))
  | .unique => do
    let row ← Table.atMostOne rows
    return .context (row.getD l.blankRow)
  | .collect | .ruleOrder => .ok (.list (rows.map .context))

/-- The result of a table, unless a cell of the scan fails. -/
def outcome (l : Layout) (reading : Reading) : Except TableError Value :=
  reading.after (l.scan reading) (l.settle (l.rows reading l.numbers))

end Layout

namespace Table

def layout (t : Table) : Layout := ⟨t.hitPolicy, t.inputs.length, t.outputs, t.rules.length⟩

/-- What a cell gives. A test is put to the candidate of its column, which is what the head of the
column gives; a place that is not in the table gives nothing. -/
def reading (t : Table) (s : Scope) : Reading
  | ⟨none, column⟩ => match t.inputs[column - 1]? with
    | some input => input.evaluate (cellScope s 0 column)
    | none => .ok .absent
  | ⟨some number, column⟩ => match t.rules[number - 1]? with
    | none => .ok .absent
    | some rule =>
      if column ≤ t.inputs.length then
        match t.inputs[column - 1]?, rule.inputEntries[column - 1]? with
        | some input, some entry => do
          let candidate ← input.evaluate (cellScope s 0 column)
          testCell (cellScope s number column) ⟨input.qualifiedText?, candidate⟩ entry
        | _, _ => .ok .absent
      else match rule.outputEntries[column - t.inputs.length - 1]? with
        | some entry => do
          let result ← entry.evaluate (cellScope s number column)
          return outputValue entry result
        | none => .ok .absent

end Table

variable {t : Table} {s : Scope} {reading : Reading} {rule column number : Nat}

/-! ## One rule -/

namespace Reading

/-- The columns of the input expressions, numbered from `column` on, with the values of their
heads. -/
def columns (reading : Reading) (column : Nat) (inputs : List Expr) : List Column :=
  (inputs.zipIdx column).map fun p => ⟨p.1.qualifiedText?, reading.value ⟨none, p.2⟩⟩

end Reading

namespace Table

theorem ruleCells_succ (count : Nat) :
    ruleCells rule column (count + 1) = ⟨some rule, column⟩ :: ruleCells rule (column + 1) count :=
  rfl

theorem columnsFrom_eq {inputs : List Expr}
    (h : ∀ i input, inputs[i]? = some input →
      input.evaluate (cellScope s 0 (column + i)) = reading ⟨none, column + i⟩) :
    columnsFrom column s inputs =
      reading.after (headCells column inputs.length) (.ok (reading.columns column inputs)) := by
  induction inputs generalizing column with
  | nil => rfl
  | cons input inputs ih =>
    have hhead : input.evaluate (cellScope s 0 column) = reading ⟨none, column⟩ := h 0 input rfl
    have htail : columnsFrom (column + 1) s inputs =
        reading.after (headCells (column + 1) inputs.length)
          (.ok (reading.columns (column + 1) inputs)) := ih fun i input hi => by
      rw [Nat.add_right_comm]
      exact h (i + 1) input hi
    rw [columnsFrom, hhead, Reading.run_bind_eq_after, htail, Reading.after_bind]
    exact (Reading.after_append _).symm

/-- The tests of a rule, where a reading gives what its cells give. -/
theorem matchesFrom_eq {columns : List Column} {entries : List Expr}
    (hlen : columns.length = entries.length)
    (h : ∀ i c entry, columns[i]? = some c → entries[i]? = some entry →
      testCell (cellScope s rule (column + i)) c entry = reading ⟨some rule, column + i⟩) :
    matchesFrom rule column s columns entries =
      reading.after (upTo reading.holds (ruleCells rule column columns.length))
        (.ok ((ruleCells rule column columns.length).all reading.holds)) := by
  induction columns generalizing column entries with
  | nil => rfl
  | cons c columns ih =>
    cases entries with
    | nil => cases hlen
    | cons entry entries =>
      have hcell : testCell (cellScope s rule column) c entry = reading ⟨some rule, column⟩ :=
        h 0 c entry rfl rfl
      have htail : matchesFrom rule (column + 1) s columns entries =
          reading.after (upTo reading.holds (ruleCells rule (column + 1) columns.length))
            (.ok ((ruleCells rule (column + 1) columns.length).all reading.holds)) :=
        ih (Nat.succ.inj hlen) fun i c entry hc he => by
          rw [Nat.add_right_comm]
          exact h (i + 1) c entry hc he
      rw [List.length_cons, ruleCells_succ, upTo, Reading.after_cons, List.all_cons, matchesFrom,
        hcell, Reading.run_bind_eq_after]
      refine Reading.after_congr fun hok => ?_
      obtain ⟨v, hv⟩ := hok _ List.mem_cons_self
      simp only [Reading.value, hv]
      -- a test that is not exactly true ends both sides
      split
      · rw [Reading.holds_eq_true hv, if_pos rfl, Bool.true_and]
        exact htail
      · next hne =>
        rw [Reading.holds_eq_false hv hne]
        rfl

/-- The outputs of a rule, where a reading gives what its cells give. -/
theorem outputsFrom_eq {names : List String} {entries : List Expr} {row : Context}
    (hlen : names.length = entries.length)
    (h : ∀ i entry, entries[i]? = some entry →
      (do let result ← entry.evaluate (cellScope s rule (column + i))
          return outputValue entry result) = reading ⟨some rule, column + i⟩) :
    outputsFrom rule column s row names entries =
      reading.after (ruleCells rule column names.length)
        (.ok (Layout.fill reading rule column row names)) := by
  induction names generalizing column entries row with
  | nil => rfl
  | cons name names ih =>
    cases entries with
    | nil => cases hlen
    | cons entry entries =>
      have hcell : (do
          let result ← entry.evaluate (cellScope s rule column)
          return outputValue entry result) = reading ⟨some rule, column⟩ := h 0 entry rfl
      have htail (row : Context) : outputsFrom rule (column + 1) s row names entries =
          reading.after (ruleCells rule (column + 1) names.length)
            (.ok (Layout.fill reading rule (column + 1) row names)) :=
        ih (Nat.succ.inj hlen) fun i entry he => by
          rw [Nat.add_right_comm]
          exact h (i + 1) entry he
      rw [List.length_cons, ruleCells_succ, Reading.after_cons, Layout.fill, ← htail,
        outputsFrom]
      have hrun : (Cell.run ⟨some rule, column⟩ (reading ⟨some rule, column⟩) >>= fun v =>
          outputsFrom rule (column + 1) s (row.setPath (outputPath name) v) names entries) = _ :=
        Reading.run_bind_eq_after
      rw [← hrun, ← hcell]
      cases entry.evaluate (cellScope s rule column) <;> rfl

end Table

/-! ## The rules under a hit policy -/

namespace Layout

variable {l : Layout} {found : Bool} {rules : List Nat}

theorem scanRules_of_not_hits (h : l.hits reading rule = false) :
    l.scanRules reading found (rule :: rules) =
      l.tried reading rule ++ l.scanRules reading found rules := by
  simp only [scanRules, h, Bool.false_eq_true, if_false]

theorem scanRules_of_first (h : l.hits reading rule = true) (hpolicy : l.hitPolicy = .first) :
    l.scanRules reading found (rule :: rules) = l.tried reading rule ++ l.results rule := by
  simp only [scanRules, h, hpolicy, if_true]

theorem scanRules_of_second (h : l.hits reading rule = true) (hpolicy : l.hitPolicy = .unique) :
    l.scanRules reading true (rule :: rules) = l.tried reading rule := by
  simp only [scanRules, h, hpolicy, if_true, List.append_nil]

/-- Otherwise the scan goes on after a match. -/
theorem scanRules_of_hits (h : l.hits reading rule = true) (hfirst : l.hitPolicy ≠ .first)
    (hsecond : l.hitPolicy = .unique → found = false) :
    l.scanRules reading found (rule :: rules) =
      l.tried reading rule ++ (l.results rule ++ l.scanRules reading true rules) := by
  cases hpolicy : l.hitPolicy with
  | first => exact absurd hpolicy hfirst
  | unique =>
    simp only [scanRules, h, hpolicy, hsecond hpolicy, if_true, Bool.false_eq_true, if_false]
  | collect | ruleOrder => simp only [scanRules, h, hpolicy, if_true]

theorem rows_of_not_hits (h : l.hits reading rule = false) :
    l.rows reading (rule :: rules) = l.rows reading rules := by
  rw [rows, List.filter_cons_of_neg (by rw [h]; exact Bool.false_ne_true)]
  rfl

theorem rows_of_hits (h : l.hits reading rule = true) :
    l.rows reading (rule :: rules) = l.row reading rule :: l.rows reading rules := by
  rw [rows, List.filter_cons_of_pos h]
  rfl

end Layout

namespace Table

/-- A rule under its number gives what a reading says: its tests, and the row of its outputs. -/
structure Follows (t : Table) (columns : List Column) (s : Scope) (reading : Reading)
    (number : Nat) (rule : Rule) : Prop where
  tests : matchesFrom number 1 s columns rule.inputEntries =
    reading.after (t.layout.tried reading number) (.ok (t.layout.hits reading number))
  row : t.row s number rule =
    reading.after (t.layout.results number) (.ok (t.layout.row reading number))

variable {columns : List Column} {rules : List Rule}

theorem Follows.hit?_of_not_hits {r : Rule} (h : t.Follows columns s reading number r)
    (hhits : t.layout.hits reading number = false) :
    t.hit? columns s number r = reading.after (t.layout.tried reading number) (.ok none) := by
  rw [hit?, h.tests, Reading.after_bind, hhits]
  rfl

theorem Follows.hit?_of_hits {r : Rule} (h : t.Follows columns s reading number r)
    (hhits : t.layout.hits reading number = true) :
    t.hit? columns s number r =
      reading.after (t.layout.tried reading number)
        (reading.after (t.layout.results number) (.ok (some (t.layout.row reading number)))) := by
  rw [hit?, h.tests, Reading.after_bind, hhits, ok_bind, if_pos rfl, h.row, Reading.after_bind]
  rfl

theorem follows_tail {r : Rule}
    (h : ∀ i r', (r :: rules)[i]? = some r' → t.Follows columns s reading (number + i) r') :
    ∀ i r', rules[i]? = some r' → t.Follows columns s reading (number + 1 + i) r' := by
  intro i r' hr
  rw [Nat.add_right_comm]
  exact h (i + 1) r' hr

theorem firstHit_eq (hpolicy : t.hitPolicy = .first)
    (h : ∀ i r, rules[i]? = some r → t.Follows columns s reading (number + i) r) :
    t.firstHit columns s number rules =
      reading.after (t.layout.scanRules reading false (List.range' number rules.length))
        (.ok (t.layout.rows reading (List.range' number rules.length)).head?) := by
  induction rules generalizing number with
  | nil => rfl
  | cons r rules ih =>
    have hr : t.Follows columns s reading number r := h 0 r rfl
    rw [List.length_cons, List.range'_succ, firstHit]
    cases hhits : t.layout.hits reading number with
    | false =>
      rw [hr.hit?_of_not_hits hhits, Reading.after_bind, ok_bind, Layout.scanRules_of_not_hits hhits,
        Layout.rows_of_not_hits hhits, Reading.after_append]
      exact congrArg _ (ih (follows_tail h))
    | true =>
      rw [hr.hit?_of_hits hhits, Reading.after_bind, Reading.after_bind, ok_bind,
        Layout.scanRules_of_first hhits hpolicy, Layout.rows_of_hits hhits, Reading.after_append]
      rfl

theorem allHits_eq {found : Bool} (hpolicy : t.hitPolicy.isMultiple = true)
    (h : ∀ i r, rules[i]? = some r → t.Follows columns s reading (number + i) r) :
    t.allHits columns s number rules =
      reading.after (t.layout.scanRules reading found (List.range' number rules.length))
        (.ok (t.layout.rows reading (List.range' number rules.length))) := by
  induction rules generalizing number found with
  | nil => rfl
  | cons r rules ih =>
    have hr : t.Follows columns s reading number r := h 0 r rfl
    rw [List.length_cons, List.range'_succ, allHits]
    cases hhits : t.layout.hits reading number with
    | false =>
      rw [hr.hit?_of_not_hits hhits, Reading.after_bind, ok_bind, Layout.scanRules_of_not_hits hhits,
        Layout.rows_of_not_hits hhits, Reading.after_append, ih (follows_tail h), Reading.after_bind]
      rfl
    | true =>
      have hfirst : t.hitPolicy ≠ .first := fun hp => by simp [hp, HitPolicy.isMultiple] at hpolicy
      have hunique : t.hitPolicy ≠ .unique := fun hp => by simp [hp, HitPolicy.isMultiple] at hpolicy
      rw [hr.hit?_of_hits hhits, Reading.after_bind, Reading.after_bind, ok_bind,
        ih (follows_tail h), Reading.after_bind,
        Layout.scanRules_of_hits hhits hfirst fun hp => absurd hp hunique,
        Layout.rows_of_hits hhits, Reading.after_append, Reading.after_append]
      rfl

theorem onlyHit_eq {found : Option Context} (hpolicy : t.hitPolicy = .unique)
    (h : ∀ i r, rules[i]? = some r → t.Follows columns s reading (number + i) r) :
    t.onlyHit columns s number found rules =
      reading.after (t.layout.scanRules reading found.isSome (List.range' number rules.length))
        (atMostOne
          (found.toList ++ t.layout.rows reading (List.range' number rules.length))) := by
  induction rules generalizing number found with
  | nil => cases found <;> rfl
  | cons r rules ih =>
    have hr : t.Follows columns s reading number r := h 0 r rfl
    rw [List.length_cons, List.range'_succ]
    cases hhits : t.layout.hits reading number with
    | false =>
      rw [Layout.scanRules_of_not_hits hhits, Layout.rows_of_not_hits hhits, Reading.after_append,
        ← ih (follows_tail h)]
      cases found with
      | none => rw [onlyHit_none_cons, hr.hit?_of_not_hits hhits, Reading.after_bind, ok_bind]
      | some row =>
        rw [onlyHit_some_cons, hr.tests, Reading.after_bind, hhits]
        rfl
    | true =>
      cases found with
      | none =>
        have hfirst : t.hitPolicy ≠ .first := fun hp => by simp [hp] at hpolicy
        rw [onlyHit_none_cons, hr.hit?_of_hits hhits, Reading.after_bind, Reading.after_bind,
          ok_bind, ih (follows_tail h), Layout.rows_of_hits hhits, Option.isSome_none,
          Layout.scanRules_of_hits hhits hfirst fun _ => rfl, Reading.after_append,
          Reading.after_append]
        rfl
      | some row =>
        rw [onlyHit_some_cons, hr.tests, Reading.after_bind, hhits, Option.isSome_some,
          Layout.scanRules_of_second hhits hpolicy, Layout.rows_of_hits hhits]
        rfl

/-! ## The reading of a table -/

theorem reading_head {i : Nat} {input : Expr} (hinput : t.inputs[i]? = some input) :
    input.evaluate (cellScope s 0 (1 + i)) = t.reading s ⟨none, 1 + i⟩ := by
  simp only [Table.reading, Nat.add_sub_cancel_left, hinput]

theorem reading_test {i j : Nat} {r : Rule} {input entry : Expr} {v : Value}
    (hr : t.rules[i]? = some r) (hinput : t.inputs[j]? = some input)
    (hentry : r.inputEntries[j]? = some entry) (hv : t.reading s ⟨none, 1 + j⟩ = .ok v) :
    testCell (cellScope s (1 + i) (1 + j)) ⟨input.qualifiedText?, v⟩ entry =
      t.reading s ⟨some (1 + i), 1 + j⟩ := by
  have hj : 1 + j ≤ t.inputs.length := by
    obtain ⟨hj, -⟩ := List.getElem?_eq_some_iff.mp hinput
    omega
  rw [← reading_head hinput] at hv
  simp only [Table.reading, Nat.add_sub_cancel_left, hr, hinput, hentry, if_pos hj, hv, ok_bind]

theorem reading_output {i j : Nat} {r : Rule} {entry : Expr} (hr : t.rules[i]? = some r)
    (hentry : r.outputEntries[j]? = some entry) :
    (do let result ← entry.evaluate (cellScope s (1 + i) (t.inputs.length + 1 + j))
        return outputValue entry result) =
      t.reading s ⟨some (1 + i), t.inputs.length + 1 + j⟩ := by
  have hnot : ¬t.inputs.length + 1 + j ≤ t.inputs.length := by omega
  have hj : t.inputs.length + 1 + j - t.inputs.length - 1 = j := by omega
  simp only [Table.reading, Nat.add_sub_cancel_left, hr, if_neg hnot, hj, hentry]

theorem getElem?_columns {inputs : List Expr} {i : Nat} {c : Column}
    (h : (reading.columns 1 inputs)[i]? = some c) :
    ∃ input, inputs[i]? = some input ∧
      c = ⟨input.qualifiedText?, reading.value ⟨none, 1 + i⟩⟩ := by
  simp only [Reading.columns, List.getElem?_map, List.getElem?_zipIdx, Option.map_map,
    Option.map_eq_some_iff] at h
  obtain ⟨input, hinput, rfl⟩ := h
  exact ⟨input, hinput, rfl⟩

theorem length_columns {inputs : List Expr} :
    (reading.columns column inputs).length = inputs.length := by
  simp [Reading.columns]

/-- Where all heads have values, every rule gives what its cells give by themselves. -/
theorem follows_reading (hheads : ∀ cell ∈ t.layout.heads, ∃ v, t.reading s cell = .ok v) {i : Nat}
    {r : Rule} (hr : t.rules[i]? = some r) :
    t.Follows ((t.reading s).columns 1 t.inputs) s (t.reading s) (1 + i) r := by
  obtain ⟨hinputs, houtputs⟩ := t.rules_fit r (List.mem_of_getElem? hr)
  have htest : ∀ j c entry, ((t.reading s).columns 1 t.inputs)[j]? = some c →
      r.inputEntries[j]? = some entry →
      testCell (cellScope s (1 + i) (1 + j)) c entry = t.reading s ⟨some (1 + i), 1 + j⟩ := by
    intro j c entry hc hentry
    obtain ⟨input, hinput, rfl⟩ := getElem?_columns hc
    have hmem : ⟨none, 1 + j⟩ ∈ t.layout.heads := by
      obtain ⟨hj, -⟩ := List.getElem?_eq_some_iff.mp hinput
      refine List.mem_map.mpr ⟨1 + j, List.mem_range'_1.mpr ?_, rfl⟩
      exact ⟨Nat.le_add_right _ _, Nat.add_lt_add_left hj _⟩
    obtain ⟨v, hv⟩ := hheads _ hmem
    rw [Reading.value_eq hv]
    exact reading_test hr hinput hentry hv
  constructor
  · have htests := matchesFrom_eq (length_columns.trans hinputs.symm) htest
    rw [length_columns] at htests
    exact htests
  · exact outputsFrom_eq houtputs.symm fun j entry hentry => reading_output hr hentry

/-- **Evaluation is the scan of a table.** -/
theorem evaluate_eq_outcome (t : Table) (s : Scope) :
    t.evaluate s = t.layout.outcome (t.reading s) := by
  have hcolumns : columnsFrom 1 s t.inputs =
      (t.reading s).after t.layout.heads (.ok ((t.reading s).columns 1 t.inputs)) :=
    columnsFrom_eq fun i input hinput => reading_head hinput
  rw [evaluate, hcolumns, Reading.after_bind, ok_bind, Layout.outcome, Layout.scan,
    Reading.after_append]
  refine Reading.after_congr fun hheads => ?_
  have hfollows : ∀ i r, t.rules[i]? = some r →
      t.Follows ((t.reading s).columns 1 t.inputs) s (t.reading s) (1 + i) r :=
    fun i r hr => follows_reading hheads hr
  -- each policy goes through the rules by a function of its own
  simp only [Layout.settle, show t.layout.hitPolicy = t.hitPolicy from rfl]
  cases hpolicy : t.hitPolicy with
  | first =>
    simp only [firstHit_eq hpolicy hfollows, Reading.after_bind]
    rfl
  | unique =>
    simp only [onlyHit_eq hpolicy hfollows, Reading.after_bind]
    rfl
  | collect | ruleOrder =>
    have hmultiple : t.hitPolicy.isMultiple = true := by rw [hpolicy]; rfl
    have hall : t.allHits ((t.reading s).columns 1 t.inputs) s 1 t.rules =
        (t.reading s).after (t.layout.scanRules (t.reading s) false t.layout.numbers)
          (.ok (t.layout.rows (t.reading s) t.layout.numbers)) := allHits_eq hmultiple hfollows
    simp only [hall, Reading.after_bind]
    rfl

end Table

/-! ## Errors -/

namespace Layout

variable {l : Layout} {rows : List Context}

theorem settle_eq_error_iff {e : TableError} :
    l.settle rows = .error e ↔ e = .notUnique ∧ l.hitPolicy = .unique ∧ 2 ≤ rows.length := by
  cases hpolicy : l.hitPolicy with
  | first | collect | ruleOrder => simp [settle, hpolicy]
  | unique => match rows with
    | [] | [_] => simp [settle, hpolicy, Table.atMostOne]
    | _ :: _ :: _ => simp [settle, hpolicy, Table.atMostOne, eq_comm]

/-- The error of a cell is that of the first cell of the scan that fails. -/
theorem outcome_eq_cell_error_iff {place : Cell} {source : EvalError} :
    l.outcome reading = .error (.cell place source) ↔
      reading.FailsFirst (l.scan reading) place source :=
  Reading.after_eq_cell_error_iff fun h => by cases (settle_eq_error_iff.mp h).1

theorem outcome_eq_notUnique_iff :
    l.outcome reading = .error .notUnique ↔ l.hitPolicy = .unique ∧
      (∀ cell ∈ l.scan reading, ∃ v, reading cell = .ok v) ∧
      2 ≤ (l.numbers.filter (l.hits reading)).length := by
  rw [outcome, Reading.after_eq_notUnique_iff, settle_eq_error_iff, rows, List.length_map]
  constructor
  · rintro ⟨hcells, -, hpolicy, hlen⟩
    exact ⟨hpolicy, hcells, hlen⟩
  · rintro ⟨hpolicy, hcells, hlen⟩
    exact ⟨hcells, rfl, hpolicy, hlen⟩

end Layout

/-! ## Independence of what is not reached -/

namespace Layout

variable {l : Layout} {other : Reading} {rules : List Nat} {acc : List Context}

theorem fill_congr {names : List String} {row : Context}
    (h : ∀ cell ∈ ruleCells rule column names.length, other cell = reading cell) :
    fill other rule column row names = fill reading rule column row names := by
  induction names generalizing column row with
  | nil => rfl
  | cons name names ih =>
    rw [List.length_cons, Table.ruleCells_succ, List.forall_mem_cons] at h
    rw [fill, fill, Reading.value_congr h.1]
    exact ih h.2

theorem row_congr (h : ∀ cell ∈ l.results rule, other cell = reading cell) :
    l.row other rule = l.row reading rule := fill_congr h

/-- The first row is all that FIRST takes. -/
theorem settle_first (hpolicy : l.hitPolicy = .first) (acc : List Context) (row : Context)
    (rows : List Context) : l.settle (acc ++ row :: rows) = l.settle (acc ++ [row]) := by
  cases acc <;> simp only [settle, hpolicy] <;> rfl

/-- A second row, whichever it is, is one too many for UNIQUE. -/
theorem settle_second (hpolicy : l.hitPolicy = .unique) (hacc : acc ≠ []) (row : Context)
    (rows : List Context) : l.settle (acc ++ row :: rows) = .error .notUnique := by
  obtain ⟨first, acc, rfl⟩ := List.exists_cons_of_ne_nil hacc
  cases acc <;> simp only [settle, hpolicy] <;> rfl

/-- What comes of the rules, where `acc` are the rows of those before them. -/
def proceed (l : Layout) (reading : Reading) (acc : List Context) (rules : List Nat) :
    Except TableError Value :=
  reading.after (l.scanRules reading (!acc.isEmpty) rules) (l.settle (acc ++ l.rows reading rules))

theorem proceed_of_not_hits (h : l.hits reading rule = false) :
    l.proceed reading acc (rule :: rules) =
      reading.after (l.tried reading rule) (l.proceed reading acc rules) := by
  rw [proceed, scanRules_of_not_hits h, rows_of_not_hits h, Reading.after_append]
  rfl

theorem proceed_of_first (h : l.hits reading rule = true) (hpolicy : l.hitPolicy = .first) :
    l.proceed reading acc (rule :: rules) =
      reading.after (l.tried reading rule)
        (reading.after (l.results rule) (l.settle (acc ++ [l.row reading rule]))) := by
  rw [proceed, scanRules_of_first h hpolicy, rows_of_hits h, settle_first hpolicy,
    Reading.after_append]

theorem proceed_of_second (h : l.hits reading rule = true) (hpolicy : l.hitPolicy = .unique)
    (hacc : acc ≠ []) :
    l.proceed reading acc (rule :: rules) =
      reading.after (l.tried reading rule) (.error .notUnique) := by
  have hfound : (!acc.isEmpty) = true := by simpa using hacc
  rw [proceed, hfound, scanRules_of_second h hpolicy, rows_of_hits h, settle_second hpolicy hacc]

theorem proceed_of_hits (h : l.hits reading rule = true) (hfirst : l.hitPolicy ≠ .first)
    (hsecond : l.hitPolicy = .unique → acc = []) :
    l.proceed reading acc (rule :: rules) =
      reading.after (l.tried reading rule)
        (reading.after (l.results rule)
          (l.proceed reading (acc ++ [l.row reading rule]) rules)) := by
  have hfound : l.hitPolicy = .unique → (!acc.isEmpty) = false := fun hp => by
    rw [hsecond hp]
    rfl
  have hnext : (!(acc ++ [l.row reading rule]).isEmpty) = true := by simp
  rw [proceed, proceed, hnext, scanRules_of_hits h hfirst hfound, rows_of_hits h,
    Reading.after_append, Reading.after_append, List.append_cons]

/-- Two readings that agree on the cells up to the first failure make the same of the rules. -/
theorem proceed_congr
    (h : ∀ cell ∈ reading.reached (l.scanRules reading (!acc.isEmpty) rules),
      other cell = reading cell) :
    l.proceed other acc rules = l.proceed reading acc rules := by
  induction rules generalizing acc with
  | nil => rfl
  | cons rule rules ih =>
    -- the tests decide whether the rule matches, and the readings agree on those that are tried
    obtain ⟨htried, hhits⟩ : l.tried other rule = l.tried reading rule ∧
        l.hits other rule = l.hits reading rule := Reading.upTo_holds_congr h
    cases hmatch : l.hits reading rule with
    | false =>
      rw [scanRules_of_not_hits hmatch] at h
      rw [proceed_of_not_hits hmatch, proceed_of_not_hits (hhits.trans hmatch), htried]
      exact Reading.after_append_congr h fun _ hrest => ih hrest
    | true =>
      by_cases hfirst : l.hitPolicy = .first
      · rw [scanRules_of_first hmatch hfirst] at h
        rw [proceed_of_first hmatch hfirst, proceed_of_first (hhits.trans hmatch) hfirst, htried]
        refine Reading.after_append_congr h fun _ hresults => ?_
        rw [← List.append_nil (l.results rule)] at hresults
        refine Reading.after_append_congr hresults fun hcells _ => ?_
        rw [row_congr hcells]
      · by_cases hsecond : l.hitPolicy = .unique ∧ acc ≠ []
        · obtain ⟨hunique, hacc⟩ := hsecond
          have hfound : (!acc.isEmpty) = true := by simpa using hacc
          rw [hfound, scanRules_of_second hmatch hunique, ← List.append_nil (l.tried _ _)] at h
          rw [proceed_of_second hmatch hunique hacc,
            proceed_of_second (hhits.trans hmatch) hunique hacc, htried]
          exact Reading.after_append_congr h fun _ _ => rfl
        · have hacc : l.hitPolicy = .unique → acc = [] := by simpa using hsecond
          have hfound : l.hitPolicy = .unique → (!acc.isEmpty) = false := by simpa using hsecond
          rw [scanRules_of_hits hmatch hfirst hfound] at h
          rw [proceed_of_hits hmatch hfirst hacc, proceed_of_hits (hhits.trans hmatch) hfirst hacc,
            htried]
          refine Reading.after_append_congr h fun _ hresults => ?_
          refine Reading.after_append_congr hresults fun hcells hrest => ?_
          have hnext : (!(acc ++ [l.row reading rule]).isEmpty) = true := by simp
          rw [row_congr hcells]
          exact ih (hnext ▸ hrest)

theorem outcome_eq_after_heads :
    l.outcome reading = reading.after l.heads (l.proceed reading [] l.numbers) := by
  rw [outcome, scan, Reading.after_append]
  rfl

/-- **What is not reached has no part in the result.** -/
theorem outcome_congr (h : ∀ cell ∈ reading.reached (l.scan reading), other cell = reading cell) :
    l.outcome other = l.outcome reading := by
  rw [outcome_eq_after_heads, outcome_eq_after_heads]
  exact Reading.after_append_congr h fun _ hrules => proceed_congr hrules

end Layout
end DecisionModel
