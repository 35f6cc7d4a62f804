import DecisionModel.Proofs.Table.Scan
import DecisionModel.Proofs.Value.Path
import Mathlib.Data.List.Forall2

/-!
# Output names as paths

The outputs of a rule are written into its row one after another, each along the path that its name
stands for. So what a column says can be read back from the row, as long as no column after it has a
name that overlaps with its own; names that only share their first segments do not. Where names
overlap the later one wins: a longer name makes a context of what was there, and a shorter or equal
one writes over it. A row that no rule has filled is absent under every name, except that a name
which goes on from another one makes a context of that one here as well.
-/

namespace DecisionModel

open Value (context_setPath follow_place_self follow_place_of_not_overlap follow_place_absent)

/-! ## Reading a row -/

namespace Layout

variable {l : Layout} {reading : Reading} {rule column : Nat} {row : Context}
  {earlier later names : List String} {name : String}

/-- Names that do not overlap with a path leave alone what is there. -/
theorem follow_fill_of_not_overlap {path : List String}
    (h : ∀ other ∈ names, ¬Overlap path (outputPath other)) :
    (Value.context (fill reading rule column row names)).follow path =
      (Value.context row).follow path := by
  induction names generalizing column row with
  | nil => rfl
  | cons other names ih =>
    obtain ⟨hother, hnames⟩ := List.forall_mem_cons.mp h
    rw [fill, ih hnames, context_setPath _ (outputPath_ne_nil other),
      follow_place_of_not_overlap hother]

theorem follow_fill
    (h : ∀ other ∈ later, ¬Overlap (outputPath name) (outputPath other)) :
    (Value.context (fill reading rule column row (earlier ++ name :: later))).follow
        (outputPath name) =
      reading.value ⟨some rule, column + earlier.length⟩ := by
  induction earlier generalizing column row with
  | nil =>
    rw [List.nil_append, fill, follow_fill_of_not_overlap h,
      context_setPath _ (outputPath_ne_nil name), follow_place_self]
    rfl
  | cons other earlier ih =>
    rw [List.cons_append, fill, ih, List.length_cons, Nat.add_right_comm, Nat.add_assoc]

/-- The induction is on the names that are still to come. -/
theorem follow_foldl_absent
    (hrow : (Value.context row).follow (outputPath name) = .absent)
    (h : ∀ other ∈ names, outputPath name <+: outputPath other →
      outputPath name = outputPath other) :
    (Value.context (names.foldl
      (fun row name => Context.setPath row (outputPath name) .absent) row)).follow
        (outputPath name) = .absent := by
  induction names generalizing row with
  | nil => exact hrow
  | cons other names ih =>
    obtain ⟨hother, hnames⟩ := List.forall_mem_cons.mp h
    apply ih _ hnames
    rw [context_setPath _ (outputPath_ne_nil other)]
    exact follow_place_absent hrow hother

theorem follow_blankRow (houtputs : l.outputs = earlier ++ name :: later)
    (h : ∀ other ∈ later, outputPath name <+: outputPath other →
      outputPath name = outputPath other) :
    (Value.context l.blankRow).follow (outputPath name) = .absent := by
  rw [blankRow, houtputs, List.foldl_append, List.foldl_cons]
  apply follow_foldl_absent _ h
  rw [context_setPath _ (outputPath_ne_nil name), follow_place_self]

/-! ## Rows in results -/

variable {found : Bool} {rules : List Nat}

theorem mem_scanRules_of_hits (hmultiple : l.hitPolicy.isMultiple = true)
    (hrule : rule ∈ rules.filter (l.hits reading)) :
    ∀ cell ∈ l.results rule, cell ∈ l.scanRules reading found rules := by
  have hfirst : l.hitPolicy ≠ .first := fun hp => by simp [hp, HitPolicy.isMultiple] at hmultiple
  have hunique : l.hitPolicy ≠ .unique := fun hp => by simp [hp, HitPolicy.isMultiple] at hmultiple
  induction rules generalizing found with
  | nil => cases hrule
  | cons first rules ih =>
    intro cell hcell
    cases hhits : l.hits reading first with
    | false =>
      rw [List.filter_cons_of_neg (by simp [hhits])] at hrule
      rw [scanRules_of_not_hits hhits]
      exact List.mem_append_right _ (ih hrule cell hcell)
    | true =>
      rw [List.filter_cons_of_pos hhits] at hrule
      rw [scanRules_of_hits hhits hfirst fun hp => absurd hp hunique]
      rcases List.mem_cons.mp hrule with rfl | hrule
      · simp [hcell]
      · simp [ih hrule cell hcell]

/-- Whatever the hit policy is, the outputs of the first rule that matches are evaluated. -/
theorem mem_scanRules_of_head (hrule : (rules.filter (l.hits reading)).head? = some rule) :
    ∀ cell ∈ l.results rule, cell ∈ l.scanRules reading false rules := by
  induction rules with
  | nil => cases hrule
  | cons first rules ih =>
    intro cell hcell
    cases hhits : l.hits reading first with
    | false =>
      rw [List.filter_cons_of_neg (by simp [hhits])] at hrule
      rw [scanRules_of_not_hits hhits]
      exact List.mem_append_right _ (ih hrule cell hcell)
    | true =>
      rw [List.filter_cons_of_pos hhits] at hrule
      cases hrule
      by_cases hpolicy : l.hitPolicy = .first
      · rw [scanRules_of_first hhits hpolicy]
        simp [hcell]
      · rw [scanRules_of_hits hhits hpolicy fun _ => rfl]
        simp [hcell]

end Layout

theorem Reading.after_eq_ok_iff {reading : Reading} {cells : List Cell} {α : Type}
    {x : Except TableError α} {a : α} :
    reading.after cells x = .ok a ↔ (∀ cell ∈ cells, ∃ v, reading cell = .ok v) ∧ x = .ok a := by
  rw [← findSome?_fault?_eq_none_iff, after]
  cases cells.findSome? reading.fault? with
  | none => simp
  | some e => simp

namespace Table

/-- Under every output name a row has what the cell of that column gives in a rule, unless the name
overlaps with a later one. -/
def Shows (t : Table) (reading : Reading) (rule : Nat) (row : Value) : Prop :=
  ∀ earlier name later, t.outputs = earlier ++ name :: later →
    ∃ value, reading ⟨some rule, t.inputs.length + 1 + earlier.length⟩ = .ok value ∧
      ((∀ other ∈ later, ¬Overlap (outputPath name) (outputPath other)) →
        row.follow (outputPath name) = value)

variable {t : Table} {s : Scope} {reading : Reading} {rule : Nat} {v : Value}

theorem shows_row (hcells : ∀ cell ∈ t.layout.results rule, ∃ v, reading cell = .ok v) :
    t.Shows reading rule (.context (t.layout.row reading rule)) := by
  intro earlier name later houtputs
  have hcell : ⟨some rule, t.inputs.length + 1 + earlier.length⟩ ∈ t.layout.results rule := by
    refine List.mem_map.mpr ⟨_, List.mem_range'_1.mpr ⟨Nat.le_add_right _ _, ?_⟩, rfl⟩
    show t.inputs.length + 1 + earlier.length < t.inputs.length + 1 + t.outputs.length
    rw [houtputs, List.length_append, List.length_cons]
    omega
  obtain ⟨value, hvalue⟩ := hcells _ hcell
  refine ⟨value, hvalue, fun hlater => ?_⟩
  show (Value.context (Layout.fill reading rule (t.inputs.length + 1) t.layout.blankRow
    t.outputs)).follow (outputPath name) = value
  rw [houtputs, Layout.follow_fill hlater, Reading.value_eq hvalue]

/-- **Outputs can be read back under their names.** Of a table with several rows the rows are those
of the rules that match, in order; with a single row it is that of the first rule that matches, and
if none does, every name is absent that no later one goes on from. -/
theorem outputs_read_back (t : Table) (s : Scope) (v : Value) (h : t.evaluate s = .ok v) :
    let reading := t.reading s
    let matching := t.layout.numbers.filter (t.layout.hits reading)
    (t.hitPolicy.isMultiple = true →
      ∃ rows, v = .list rows ∧ List.Forall₂ (t.Shows reading) matching rows) ∧
    (t.hitPolicy.isMultiple = false →
      (∀ rule, matching.head? = some rule → t.Shows reading rule v) ∧
      (matching = [] → ∀ earlier name later, t.outputs = earlier ++ name :: later →
        (∀ other ∈ later, outputPath name <+: outputPath other →
          outputPath name = outputPath other) →
        v.follow (outputPath name) = .absent)) := by
  intro reading matching
  rw [evaluate_eq_outcome, Layout.outcome, Reading.after_eq_ok_iff] at h
  obtain ⟨hcells, hsettle⟩ := h
  have hrules : ∀ cell ∈ t.layout.scanRules reading false t.layout.numbers,
      ∃ v, reading cell = .ok v :=
    fun cell hcell => hcells cell (List.mem_append_right _ hcell)
  have hpolicy : t.layout.hitPolicy = t.hitPolicy := rfl
  constructor
  · intro hmultiple
    refine ⟨matching.map fun rule => .context (t.layout.row reading rule), ?_, ?_⟩
    · have : v = .list ((t.layout.rows reading t.layout.numbers).map .context) := by
        cases hp : t.hitPolicy with
        | first | unique => simp [hp, HitPolicy.isMultiple] at hmultiple
        | collect | ruleOrder =>
          simp only [Layout.settle, hpolicy, hp, Except.ok.injEq] at hsettle
          exact hsettle.symm
      rw [this, Layout.rows, List.map_map]
      rfl
    · rw [List.forall₂_map_right_iff, List.forall₂_same]
      intro rule hrule
      apply shows_row
      intro cell hcell
      exact hrules cell (Layout.mem_scanRules_of_hits hmultiple hrule cell hcell)
  · intro hsingle
    -- FIRST and UNIQUE both take the first of the rows that there are
    have hv : v =
        .context ((matching.head?.map (t.layout.row reading)).getD t.layout.blankRow) := by
      rw [← List.head?_map]
      cases hp : t.hitPolicy with
      | collect | ruleOrder => simp [hp, HitPolicy.isMultiple] at hsingle
      | first =>
        simp only [Layout.settle, hpolicy, hp, Except.ok.injEq] at hsettle
        exact hsettle.symm
      | unique =>
        simp only [Layout.settle, hpolicy, hp] at hsettle
        change (atMostOne (matching.map (t.layout.row reading)) >>= _) = _ at hsettle
        cases hrows : matching.map (t.layout.row reading) with
        | nil =>
          rw [hrows] at hsettle
          cases hsettle
          rfl
        | cons row rows =>
          rw [hrows] at hsettle
          cases rows with
          | nil =>
            cases hsettle
            rfl
          | cons second rows => cases hsettle
    constructor
    · intro rule hrule
      rw [hv, hrule]
      apply shows_row
      intro cell hcell
      exact hrules cell (Layout.mem_scanRules_of_head hrule cell hcell)
    · intro hnone earlier name later houtputs hlater
      rw [hv, hnone]
      exact Layout.follow_blankRow houtputs hlater

/-- An invoice with a total and, nested in it by name, the tax. -/
def invoice : Table where
  hitPolicy := .first
  inputs := [.name "paid"]
  outputs := ["total", "total.tax"]
  rules := [⟨[.bool true], [.number (.ofNat 5), .number (.ofNat 1)]⟩]
  outputs_ne := by decide
  outputs_named := by decide
  rules_fit := by decide

/-- The longer name makes a context of the total, whether the rule matches or not. -/
theorem longer_name_takes_over :
    let s (paid : Bool) : Scope := .root [("paid", .bool paid)] 0 []
    let result (tax : Value) : Value := .context [("total", .context [("tax", tax)])]
    (invoice.reading (s true) ⟨some 1, 2⟩ = .ok (.ofNat 5) ∧
      invoice.evaluate (s true) = .ok (result (.ofNat 1)) ∧
      (result (.ofNat 1)).follow (outputPath "total") ≠ .ofNat 5) ∧
    (invoice.evaluate (s false) = .ok (result .absent) ∧
      (result .absent).follow (outputPath "total") ≠ .absent) := by
  refine ⟨⟨rfl, rfl, ?_⟩, rfl, ?_⟩
  · exact nofun
  · exact nofun

/-- The same with a name of its own for the amount: the two share a segment and nothing else. -/
theorem shared_segment_read_back :
    let invoice : Table := { invoice with
      outputs := ["total.net", "total.tax"], outputs_ne := by decide, outputs_named := by decide,
      rules_fit := by decide }
    let s (paid : Bool) : Scope := .root [("paid", .bool paid)] 0 []
    (∃ v, invoice.evaluate (s true) = .ok v ∧ v.follow ["total", "net"] = .ofNat 5) ∧
    (∃ v, invoice.evaluate (s false) = .ok v ∧ v.follow ["total", "net"] = .absent) := by
  intro invoice s
  have hpath : outputPath "total.net" = ["total", "net"] := by decide
  have htrue : invoice.evaluate (s true) =
      .ok (.context [("total", .context [("net", .ofNat 5), ("tax", .ofNat 1)])]) := by rfl
  have hfalse : invoice.evaluate (s false) =
      .ok (.context [("total", .context [("net", .absent), ("tax", .absent)])]) := by rfl
  have hsplit : invoice.outputs = [] ++ "total.net" :: ["total.tax"] := rfl
  refine ⟨⟨_, htrue, ?_⟩, ⟨_, hfalse, ?_⟩⟩
  · obtain ⟨hshows, -⟩ := (outputs_read_back invoice (s true) _ htrue).2 rfl
    obtain ⟨value, hvalue, hfollow⟩ := hshows 1 rfl [] "total.net" ["total.tax"] hsplit
    have hcell : invoice.reading (s true) ⟨some 1, 2⟩ = .ok (.ofNat 5) := by rfl
    cases hcell.symm.trans hvalue
    rw [← hpath]
    apply hfollow
    unfold Overlap
    decide
  · obtain ⟨-, hnone⟩ := (outputs_read_back invoice (s false) _ hfalse).2 rfl
    rw [← hpath]
    refine hnone rfl [] "total.net" ["total.tax"] hsplit ?_
    decide

end Table
end DecisionModel
