import DecisionModel.Proofs.Evaluation.Relocation
import DecisionModel.Proofs.Table.HitPolicy

/-!
# Tables elsewhere

What holds of the evaluation of an expression elsewhere holds of the cells of a table: in another
scope they yield what they yielded, with the functions in it made at other sites. So does a rule
whose cells are evaluated elsewhere, even under another number, and so does a whole table.

The number of a rule is seen in its errors, where a cell is named. What is shown here is therefore
about results: where there is one, there is one elsewhere.
-/

namespace DecisionModel

/-- A column whose candidate has functions that were made at other sites. -/
def Column.relocate (ρ : Site → Site) (c : Column) : Column :=
  { c with candidate := c.candidate.relocate ρ }

namespace Table

variable {ρ : Site → Site} {t : Table} {s s' : Scope} {number number' column : Nat}
  {columns : List Column} {rule : Rule} {rules : List Rule} {hit : Option Context}

/-- Whether what is evaluated in the cells of a rule moves to those of a rule in another scope. -/
structure CellsMove (ρ : Site → Site) (s s' : Scope) (number number' : Nat) : Prop where
  carries : Site.Carries ρ (.part number :: s.site)
  cellScope : ∀ column, (cellScope s number column).relocate ρ = cellScope s' number' column

/-- In the scope that is reached by the move itself, all cells move. -/
theorem cellsMove_relocate (hρ : Site.Carries ρ s.site) (number : Nat) :
    CellsMove ρ s (s.relocate ρ) number number where
  carries site step hwithin := hρ site step ((List.suffix_cons _ _).trans hwithin)
  cellScope column := by
    have hwithin : s.site <:+ (s.part number).site := List.suffix_cons _ _
    rw [Table.cellScope, Table.cellScope, Scope.relocate_part hρ hwithin,
      Scope.relocate_part hρ (List.suffix_refl _)]

section Cells

variable (hinj : ρ.Injective)
include hinj

theorem CellsMove.evaluate (h : CellsMove ρ s s' number number') (e : Expr) :
    e.evaluate (Table.cellScope s' number' column) =
      (e.evaluate (Table.cellScope s number column)).map (Value.relocate ρ) := by
  rw [← h.cellScope]
  exact e.evaluate_relocate hinj h.carries (List.suffix_cons _ _)

theorem CellsMove.columnsFrom (h : CellsMove ρ s s' 0 0) (inputs : List Expr) :
    columnsFrom column s' inputs =
      (columnsFrom column s inputs).map (List.map (Column.relocate ρ)) := by
  induction inputs generalizing column with
  | nil => rfl
  | cons input inputs ih =>
    rw [Table.columnsFrom, Table.columnsFrom, h.evaluate hinj, ih]
    cases input.evaluate (Table.cellScope s 0 column) with
    | error fault => rfl
    | ok v => cases Table.columnsFrom (column + 1) s inputs <;> rfl

theorem CellsMove.testCell (h : CellsMove ρ s s' number number') (c : Column) (entry : Expr) :
    testCell (Table.cellScope s' number' column) (c.relocate ρ) entry =
      testCell (Table.cellScope s number column) c entry := by
  have hscope : ((Table.cellScope s number column).forColumn c.inputVariable).relocate ρ =
      (Table.cellScope s' number' column).forColumn c.inputVariable := by
    rw [← h.cellScope]
    rfl
  have hwithin : (.part number :: s.site : Site) <:+
      ((Table.cellScope s number column).forColumn c.inputVariable).site := List.suffix_cons _ _
  change (entry.evaluateTest ((Table.cellScope s' number' column).forColumn c.inputVariable) >>=
    fun p => p.test (c.candidate.relocate ρ)) = _
  rw [← hscope, entry.evaluateTest_relocate hinj h.carries hwithin, Table.testCell]
  cases entry.evaluateTest ((Table.cellScope s number column).forColumn c.inputVariable) with
  | error fault => rfl
  | ok p => exact p.test_relocate hinj c.candidate

/-- **A rule matches elsewhere if it matched, and does not if it did not.** -/
theorem CellsMove.matchesFrom (h : CellsMove ρ s s' number number') {isMatch : Bool}
    {entries : List Expr} (hmatch : matchesFrom number column s columns entries = .ok isMatch) :
    matchesFrom number' column s' (columns.map (Column.relocate ρ)) entries = .ok isMatch := by
  induction columns generalizing column entries with
  | nil =>
    cases hmatch
    rfl
  | cons c columns ih =>
    cases entries with
    | nil =>
      cases hmatch
      rfl
    | cons entry entries =>
      rw [List.map_cons, Table.matchesFrom, h.testCell hinj]
      rw [Table.matchesFrom] at hmatch
      cases houtcome : Table.testCell (Table.cellScope s number column) c entry with
      | error fault =>
        rw [houtcome] at hmatch
        cases hmatch
      | ok outcome =>
        rw [houtcome] at hmatch
        cases outcome with
        | bool b =>
          cases b with
          | false => exact hmatch
          | true => exact ih hmatch
        | _ => exact hmatch

omit hinj in
theorem outputValue_relocate (entry : Expr) (result : Value) :
    outputValue entry (result.relocate ρ) = (outputValue entry result).relocate ρ := by
  cases entry with
  | expressions items =>
    cases result with
    | list items =>
      rw [Value.relocate_list]
      cases items <;> rfl
    | _ => rfl
  | _ => cases result <;> rfl

theorem CellsMove.outputsFrom (h : CellsMove ρ s s' number number') {row result : Context}
    {names : List String} {entries : List Expr}
    (hresult : outputsFrom number column s row names entries = .ok result) :
    outputsFrom number' column s' (row.relocate ρ) names entries = .ok (result.relocate ρ) := by
  induction names generalizing column row entries with
  | nil =>
    cases hresult
    rfl
  | cons name names ih =>
    cases entries with
    | nil =>
      cases hresult
      rfl
    | cons entry entries =>
      rw [Table.outputsFrom, h.evaluate hinj]
      rw [Table.outputsFrom] at hresult
      cases hvalue : entry.evaluate (Table.cellScope s number column) with
      | error fault =>
        rw [hvalue] at hresult
        cases hresult
      | ok v =>
        rw [hvalue] at hresult
        have hnext := ih hresult
        rw [← Context.setPath_relocate, ← outputValue_relocate] at hnext
        exact hnext

omit hinj in
/-- Absent outputs hold no functions. -/
theorem relocate_emptyRow (t : Table) : t.emptyRow.relocate ρ = t.emptyRow := by
  have hfold : ∀ (names : List String) (row : Context), row.relocate ρ = row →
      (names.foldl (fun row name => Context.setPath row (outputPath name) .absent) row).relocate ρ =
        names.foldl (fun row name => Context.setPath row (outputPath name) .absent) row := by
    intro names
    induction names with
    | nil => exact fun row hrow => hrow
    | cons name names ih =>
      intro row hrow
      refine ih _ ?_
      rw [← Context.setPath_relocate, hrow, Value.relocate_absent]
  exact hfold t.outputs [] rfl

/-- **A rule has elsewhere the row that it had.** -/
theorem CellsMove.hit? (h : CellsMove ρ s s' number number')
    (hhit : t.hit? columns s number rule = .ok hit) :
    t.hit? (columns.map (Column.relocate ρ)) s' number' rule =
      .ok (hit.map (Context.relocate ρ)) := by
  have hmatch := h.matchesFrom hinj (matchesFrom_of_hit? hhit)
  cases hit with
  | none => exact hit?_of_not_matches hmatch
  | some row =>
    rw [Table.hit?, matchesFrom_of_hit? hhit, ok_bind] at hhit
    obtain ⟨row', hrow, hsome⟩ := bind_eq_ok_iff.mp hhit
    cases hsome
    have hmoved := h.outputsFrom hinj hrow
    rw [relocate_emptyRow] at hmoved
    rw [Table.hit?, hmatch, ok_bind, Option.isSome_some, if_pos rfl, Table.row, hmoved]
    rfl

end Cells

/-! ## Whole tables -/

section Scans

variable (hinj : ρ.Injective) (hρ : Site.Carries ρ s.site)
include hinj hρ

theorem firstHit_relocate (h : t.firstHit columns s number rules = .ok hit) :
    t.firstHit (columns.map (Column.relocate ρ)) (s.relocate ρ) number rules =
      .ok (hit.map (Context.relocate ρ)) := by
  induction rules generalizing number with
  | nil =>
    cases h
    rfl
  | cons rule rules ih =>
    rw [firstHit] at h
    obtain ⟨first, hfirst, h⟩ := bind_eq_ok_iff.mp h
    rw [firstHit, (cellsMove_relocate hρ number).hit? hinj hfirst, ok_bind]
    cases first with
    | none => exact ih h
    | some row =>
      cases h
      rfl

theorem onlyHit_relocate {found : Option Context}
    (h : t.onlyHit columns s number found rules = .ok hit) :
    t.onlyHit (columns.map (Column.relocate ρ)) (s.relocate ρ) number
      (found.map (Context.relocate ρ)) rules = .ok (hit.map (Context.relocate ρ)) := by
  induction rules generalizing number found with
  | nil =>
    cases h
    rfl
  | cons rule rules ih =>
    cases found with
    | none =>
      rw [onlyHit_none_cons] at h
      obtain ⟨next, hnext, h⟩ := bind_eq_ok_iff.mp h
      rw [Option.map_none, onlyHit_none_cons,
        (cellsMove_relocate hρ number).hit? hinj hnext, ok_bind]
      exact ih h
    | some row =>
      rw [onlyHit_some_cons] at h
      obtain ⟨isMatch, hmatch, h⟩ := bind_eq_ok_iff.mp h
      rw [Option.map_some, onlyHit_some_cons,
        (cellsMove_relocate hρ number).matchesFrom hinj hmatch, ok_bind]
      cases isMatch with
      | true => cases h
      | false => exact ih h

theorem allHits_relocate {rows : List Context} (h : t.allHits columns s number rules = .ok rows) :
    t.allHits (columns.map (Column.relocate ρ)) (s.relocate ρ) number rules =
      .ok (rows.map (Context.relocate ρ)) := by
  induction rules generalizing number rows with
  | nil =>
    cases h
    rfl
  | cons rule rules ih =>
    rw [allHits] at h
    obtain ⟨first, hfirst, h⟩ := bind_eq_ok_iff.mp h
    obtain ⟨more, hmore, h⟩ := bind_eq_ok_iff.mp h
    cases h
    rw [allHits, (cellsMove_relocate hρ number).hit? hinj hfirst, ok_bind, ih hmore, ok_bind,
      List.map_append]
    cases first <;> rfl

/-- **A table yields elsewhere what it yielded.** -/
theorem evaluate_relocate {v : Value} (h : t.evaluate s = .ok v) :
    t.evaluate (s.relocate ρ) = .ok (v.relocate ρ) := by
  have hrow : ∀ hit : Option Context, .context ((hit.map (Context.relocate ρ)).getD t.emptyRow) =
      (Value.context (hit.getD t.emptyRow)).relocate ρ := by
    intro hit
    rw [Value.relocate_context]
    cases hit with
    | none => exact congrArg Value.context t.relocate_emptyRow.symm
    | some row => rfl
  have hrows : ∀ rows : List Context, .list ((rows.map (Context.relocate ρ)).map .context) =
      (Value.list (rows.map .context)).relocate ρ := by
    intro rows
    rw [Value.relocate_list, List.map_map, List.map_map]
    exact congrArg Value.list (List.map_congr_left fun row _ => (Value.relocate_context row).symm)
  rw [evaluate] at h
  obtain ⟨columns, hcolumns, h⟩ := bind_eq_ok_iff.mp h
  have hmoved : columnsFrom 1 (s.relocate ρ) t.inputs =
      .ok (columns.map (Column.relocate ρ)) := by
    rw [(cellsMove_relocate hρ 0).columnsFrom hinj, hcolumns]
    rfl
  rw [evaluate, hmoved, ok_bind]
  cases hpolicy : t.hitPolicy with
  | first =>
    rw [hpolicy] at h
    obtain ⟨hit, hhit, h⟩ := bind_eq_ok_iff.mp h
    cases h
    dsimp only
    rw [firstHit_relocate hinj hρ hhit, ok_bind, hrow, pure_eq_ok]
  | unique =>
    rw [hpolicy] at h
    obtain ⟨hit, hhit, h⟩ := bind_eq_ok_iff.mp h
    cases h
    have honly := onlyHit_relocate hinj hρ hhit
    rw [Option.map_none] at honly
    dsimp only
    rw [honly, ok_bind, hrow, pure_eq_ok]
  | collect | ruleOrder =>
    rw [hpolicy] at h
    obtain ⟨rows, hall, h⟩ := bind_eq_ok_iff.mp h
    cases h
    dsimp only
    rw [allHits_relocate hinj hρ hall, ok_bind, hrows, pure_eq_ok]

end Scans

end Table

end DecisionModel
