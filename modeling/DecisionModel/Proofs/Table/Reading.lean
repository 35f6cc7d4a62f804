import DecisionModel.Proofs.Bind
import DecisionModel.Table.Evaluation

/-!
# Readings of cells

A reading is what every cell of a table gives by itself, no matter whether an evaluation of the
table ever comes to it. Over a list of cells a reading fixes which cell is the first to fail, and
what is `reached` up to there. All functions of the evaluation are brought into one form,
`after cells x`: the result `x`, unless one of the cells fails. Two such forms in sequence join their
cells, which is how the scan of a table is put together from those of its parts.
-/

namespace DecisionModel

/-- What every cell of a table gives by itself. -/
abbrev Reading := Cell → Result Value

/-- The elements up to the first that does not pass, this one included. -/
def upTo (passes : Cell → Bool) : List Cell → List Cell
  | [] => []
  | cell :: cells => cell :: if passes cell then upTo passes cells else []

namespace Reading

variable {reading other : Reading} {cells first second : List Cell} {α β : Type}

/-- Whether a cell is exactly true. -/
def holds (reading : Reading) (cell : Cell) : Bool :=
  match reading cell with
  | .ok (.bool true) => true
  | _ => false

/-- The value of a cell, or absent if it has none. -/
def value (reading : Reading) (cell : Cell) : Value :=
  match reading cell with
  | .ok v => v
  | .error _ => .absent

/-- The error of a cell. -/
def fault? (reading : Reading) (cell : Cell) : Option TableError :=
  match reading cell with
  | .ok _ => none
  | .error source => some (.cell cell source)

/-- The first of the cells to fail is `place`, and its error is `source`. -/
def FailsFirst (reading : Reading) (cells : List Cell) (place : Cell) (source : EvalError) : Prop :=
  ∃ before later, cells = before ++ place :: later ∧ (∀ cell ∈ before, ∃ v, reading cell = .ok v) ∧
    reading place = .error source

/-- The cells that are looked at, where the first that fails ends it. -/
def reached (reading : Reading) (cells : List Cell) : List Cell :=
  upTo (fun cell => (reading cell).isOk) cells

/-- A result that is there unless one of the cells fails. -/
def after (reading : Reading) (cells : List Cell) (result : Except TableError α) :
    Except TableError α :=
  match cells.findSome? reading.fault? with
  | some e => .error e
  | none => result

theorem value_eq {cell : Cell} {v : Value} (h : reading cell = .ok v) : reading.value cell = v := by
  simp only [value, h]

theorem holds_eq_true {cell : Cell} (h : reading cell = .ok (.bool true)) :
    reading.holds cell = true := by
  simp only [holds, h]

theorem holds_eq_false {cell : Cell} {v : Value} (h : reading cell = .ok v)
    (hv : v ≠ .bool true) : reading.holds cell = false := by
  unfold holds
  rw [h]
  split
  · next heq =>
    cases heq
    exact absurd rfl hv
  · rfl

/-! ## Faults -/

theorem fault?_eq_none_iff {cell : Cell} :
    reading.fault? cell = none ↔ ∃ v, reading cell = .ok v := by
  unfold fault?
  cases reading cell <;> simp

theorem fault?_eq_some_iff {cell place : Cell} {source : EvalError} :
    reading.fault? cell = some (.cell place source) ↔
      cell = place ∧ reading place = .error source := by
  unfold fault?
  cases hcell : reading cell with
  | ok v =>
    refine ⟨nofun, ?_⟩
    rintro ⟨rfl, h⟩
    rw [hcell] at h
    cases h
  | error e =>
    constructor
    · intro h
      cases h
      exact ⟨rfl, hcell⟩
    · rintro ⟨rfl, h⟩
      rw [hcell] at h
      cases h
      rfl

theorem findSome?_fault?_eq_some_iff {place : Cell} {source : EvalError} :
    cells.findSome? reading.fault? = some (.cell place source) ↔
      reading.FailsFirst cells place source := by
  simp only [List.findSome?_eq_some_iff, fault?_eq_some_iff, fault?_eq_none_iff]
  constructor
  · rintro ⟨before, cell, later, hsplit, ⟨rfl, hplace⟩, hbefore⟩
    exact ⟨before, later, hsplit, hbefore, hplace⟩
  · rintro ⟨before, later, hsplit, hbefore, hplace⟩
    exact ⟨before, place, later, hsplit, ⟨rfl, hplace⟩, hbefore⟩

theorem findSome?_fault?_eq_none_iff :
    cells.findSome? reading.fault? = none ↔ ∀ cell ∈ cells, ∃ v, reading cell = .ok v := by
  simp only [List.findSome?_eq_none_iff, fault?_eq_none_iff]

/-- Only the hit policy can find a second match. -/
theorem findSome?_fault?_ne_notUnique : cells.findSome? reading.fault? ≠ some .notUnique := by
  intro h
  obtain ⟨-, cell, -, -, hcell, -⟩ := List.findSome?_eq_some_iff.mp h
  unfold fault? at hcell
  split at hcell <;> cases hcell

/-! ## Results after cells -/

theorem after_append (x : Except TableError α) :
    reading.after (first ++ second) x = reading.after first (reading.after second x) := by
  unfold after
  rw [List.findSome?_append]
  cases first.findSome? reading.fault? <;> rfl

theorem after_cons {cell : Cell} (x : Except TableError α) :
    reading.after (cell :: cells) x = reading.after [cell] (reading.after cells x) :=
  @after_append reading [cell] cells α x

theorem after_bind (x : Except TableError α) (f : α → Except TableError β) :
    (reading.after cells x >>= f) = reading.after cells (x >>= f) := by
  unfold after
  cases cells.findSome? reading.fault? <;> rfl

/-- A cell that is run comes before what goes on with its value. -/
theorem run_bind_eq_after {cell : Cell} {f : Value → Except TableError α} :
    (Cell.run cell (reading cell) >>= f) = reading.after [cell] (f (reading.value cell)) := by
  simp only [after, List.findSome?_cons, fault?, value]
  cases reading cell <;> rfl

theorem after_congr {x y : Except TableError α}
    (h : (∀ cell ∈ cells, ∃ v, reading cell = .ok v) → x = y) :
    reading.after cells x = reading.after cells y := by
  unfold after
  cases hfault : cells.findSome? reading.fault? with
  | none => exact h (findSome?_fault?_eq_none_iff.mp hfault)
  | some e => rfl

theorem after_eq_cell_error_iff {x : Except TableError α} {place : Cell} {source : EvalError}
    (hx : x ≠ .error (.cell place source)) :
    reading.after cells x = .error (.cell place source) ↔
      reading.FailsFirst cells place source := by
  rw [← findSome?_fault?_eq_some_iff, after]
  cases cells.findSome? reading.fault? with
  | none => simpa using hx
  | some e => simp

theorem after_eq_notUnique_iff {x : Except TableError α} :
    reading.after cells x = .error .notUnique ↔
      (∀ cell ∈ cells, ∃ v, reading cell = .ok v) ∧ x = .error .notUnique := by
  rw [← findSome?_fault?_eq_none_iff, after]
  cases hfault : cells.findSome? reading.fault? with
  | none => simp
  | some e =>
    have hne : e ≠ .notUnique := fun h => findSome?_fault?_ne_notUnique (h ▸ hfault)
    simpa using hne

/-! ## Cells that are reached -/

theorem reached_cons_of_ok {cell : Cell} {v : Value} (h : reading cell = .ok v) :
    reading.reached (cell :: cells) = cell :: reading.reached cells := by
  simp [reached, upTo, h, Except.isOk, Except.toBool]

/-- Of two readings that agree on the cells up to the first failure, one result depends on the
readings no more than what comes after these cells does. -/
theorem after_append_congr {x y : Except TableError α}
    (hagree : ∀ cell ∈ reading.reached (first ++ second), other cell = reading cell)
    (h : (∀ cell ∈ first, other cell = reading cell) →
      (∀ cell ∈ reading.reached second, other cell = reading cell) → x = y) :
    other.after first x = reading.after first y := by
  induction first with
  | nil => exact h (by simp) hagree
  | cons cell first ih =>
    have hcell : other cell = reading cell := hagree cell (by simp [reached, upTo])
    simp only [after, List.findSome?_cons, fault?, hcell]
    cases hread : reading cell with
    | error e => rfl
    | ok v =>
      rw [List.cons_append, reached_cons_of_ok hread] at hagree
      refine ih (fun c hc => hagree c (List.mem_cons_of_mem _ hc)) fun hfirst hsecond => ?_
      exact h (List.forall_mem_cons.mpr ⟨hcell, hfirst⟩) hsecond

theorem isOk_of_holds {cell : Cell} (h : reading.holds cell = true) :
    ∃ v, reading cell = .ok v := by
  unfold holds at h
  split at h
  · next heq => exact ⟨_, heq⟩
  · cases h

theorem holds_congr {cell : Cell} (h : other cell = reading cell) :
    other.holds cell = reading.holds cell := by
  simp only [holds, h]

theorem value_congr {cell : Cell} (h : other cell = reading cell) :
    other.value cell = reading.value cell := by
  simp only [value, h]

/-- Cells that are gone through as long as they are true: none but the last can fail, so that a
reading which agrees up to a failure comes to the same cells. -/
theorem upTo_holds_congr
    (h : ∀ cell ∈ reading.reached (upTo reading.holds cells ++ second), other cell = reading cell) :
    upTo other.holds cells = upTo reading.holds cells ∧
      cells.all other.holds = cells.all reading.holds := by
  induction cells with
  | nil => exact ⟨rfl, rfl⟩
  | cons cell cells ih =>
    have hcell : other cell = reading cell := h cell (by simp [reached, upTo])
    cases hholds : reading.holds cell with
    | false => simp [upTo, holds_congr hcell, hholds]
    | true =>
      obtain ⟨v, hv⟩ := isOk_of_holds hholds
      rw [upTo, hholds, if_pos rfl, List.cons_append, reached_cons_of_ok hv] at h
      obtain ⟨hupTo, hall⟩ := ih fun c hc => h c (List.mem_cons_of_mem _ hc)
      simp [upTo, holds_congr hcell, hholds, hupTo, hall]

end Reading
end DecisionModel
