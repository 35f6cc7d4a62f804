import DecisionModel.Proofs.Decision.Fold
import DecisionModel.Proofs.Table.Scan

/-!
# Where errors come from

The error of a cell says in which decision, rule and column it happened. For one table this is the
first cell in scan order that fails. For a decision it is the first table of the fold over its
requirements that has an error, evaluated in the context that the tables before it have left.
-/

namespace DecisionModel

/-! ## One table -/

namespace Table

variable {t : Table} {s : Scope} {decision named : String}

/-- A table has the error of the first cell in scan order that fails. -/
theorem result_eq_evaluation_iff {place : Cell} {source : EvalError} :
    t.result decision s = .error (.evaluation named place source) ↔ named = decision ∧
      (t.reading s).FailsFirst (t.layout.scan (t.reading s)) place source := by
  simp only [result, mapError_eq_error_iff, DecisionError.ofTable_eq_evaluation_iff,
    evaluate_eq_outcome]
  constructor
  · rintro ⟨_, h, rfl, hnamed⟩
    exact ⟨hnamed, Layout.outcome_eq_cell_error_iff.mp h⟩
  · rintro ⟨hnamed, h⟩
    exact ⟨_, Layout.outcome_eq_cell_error_iff.mpr h, rfl, hnamed⟩

theorem result_eq_notUnique_iff :
    t.result decision s = .error (.notUnique named) ↔ named = decision ∧ t.hitPolicy = .unique ∧
      (∀ cell ∈ t.layout.scan (t.reading s), ∃ v, t.reading s cell = .ok v) ∧
      2 ≤ (t.layout.numbers.filter (t.layout.hits (t.reading s))).length := by
  simp only [result, mapError_eq_error_iff, DecisionError.ofTable_eq_notUnique_iff,
    evaluate_eq_outcome]
  constructor
  · rintro ⟨_, h, rfl, hnamed⟩
    exact ⟨hnamed, Layout.outcome_eq_notUnique_iff.mp h⟩
  · rintro ⟨hnamed, h⟩
    exact ⟨_, Layout.outcome_eq_notUnique_iff.mpr h, rfl, hnamed⟩

/-- Where a table with the same layout gives the same in all cells that are reached, it has the same
result, whatever stands in the other cells. -/
theorem result_congr {other : Table} {s' : Scope} (hlayout : other.layout = t.layout)
    (h : ∀ cell ∈ (t.reading s).reached (t.layout.scan (t.reading s)),
      other.reading s' cell = t.reading s cell) :
    other.result decision s' = t.result decision s := by
  rw [result, result, evaluate_eq_outcome, evaluate_eq_outcome, hlayout, Layout.outcome_congr h]

end Table

/-! ## Decisions -/

namespace DecisionSet

open Decision

variable {set : DecisionSet} {id : String} {context : Context}

theorem mem_ids_of_evaluation {named : String} {place : Cell} {source : EvalError}
    (h : set.evaluate id context = .error (.evaluation named place source)) :
    id ∈ set.decisions.map (·.id) := by
  by_contra hid
  have hnone : set.get? id = none := find?_eq_none_iff.mpr hid
  rw [evaluate, find, hnone] at h
  cases h

theorem evaluateTable_eq_result (d : Decision) (limit : Nat) :
    d.evaluateTable limit context = d.table.result d.id (.root context limit [.decision d.id]) := by
  rw [evaluateTable, Table.result]
  cases d.table.evaluate (.root context limit [.decision d.id]) <;> rfl

/-- A decision has the error of a cell in the table of a decision that it requires, directly or not,
or in its own: the first table that fails in the order of the walk. -/
theorem evaluate_eq_evaluation_iff {named : String} {place : Cell} {source : EvalError} :
    set.evaluate id context = .error (.evaluation named place source) ↔
      ∃ earlier later d merged,
        Walk set.decisions [] [id] (earlier ++ named :: later) ∧
        Relation.ReflTransGen (Requires set.decisions) id named ∧
        set.get? named = some d ∧ earlier.foldlM set.mergeNext context = .ok merged ∧
        let reading := d.table.reading (.root merged set.callLimit [.decision named])
        reading.FailsFirst (d.table.layout.scan reading) place source := by
  constructor
  · intro h
    obtain ⟨order, hwalk⟩ := Walk.exists_of_mem set.consistent (mem_ids_of_evaluation h)
    obtain ⟨earlier, x, later, d, merged, rfl, hfind, hmerged, he⟩ :=
      (evaluate_eq_error_iff hwalk).mp h
    rw [evaluateTable_eq_result, Table.result_eq_evaluation_iff] at he
    obtain ⟨rfl, hfails⟩ := he
    cases id_of_find? hfind
    refine ⟨earlier, later, d, merged, hwalk, ?_, hfind, hmerged, hfails⟩
    exact ((hwalk.schedule set.consistent).mem_iff _).mp (by simp)
  · rintro ⟨earlier, later, d, merged, hwalk, -, hfind, hmerged, hfails⟩
    cases id_of_find? hfind
    refine (evaluate_eq_error_iff hwalk).mpr ⟨earlier, _, later, d, merged, rfl, hfind, hmerged, ?_⟩
    rw [evaluateTable_eq_result, Table.result_eq_evaluation_iff]
    exact ⟨rfl, hfails⟩

/-- **An error names the first cell that fails.** -/
theorem evaluation_error_names_first_failing_cell :
    (∀ (t : Table) (decision : String) (s : Scope),
      (∀ named place source,
        t.result decision s = .error (.evaluation named place source) ↔ named = decision ∧
          (t.reading s).FailsFirst (t.layout.scan (t.reading s)) place source) ∧
      (∀ named,
        t.result decision s = .error (.notUnique named) ↔ named = decision ∧
          t.hitPolicy = .unique ∧
          (∀ cell ∈ t.layout.scan (t.reading s), ∃ v, t.reading s cell = .ok v) ∧
          2 ≤ (t.layout.numbers.filter (t.layout.hits (t.reading s))).length) ∧
      ∀ (other : Table) (s' : Scope), other.layout = t.layout →
        (∀ cell ∈ (t.reading s).reached (t.layout.scan (t.reading s)),
          other.reading s' cell = t.reading s cell) →
        other.result decision s' = t.result decision s) ∧
    ∀ (set : DecisionSet) (id : String) (context : Context) (named : String) (place : Cell)
      (source : EvalError),
      set.evaluate id context = .error (.evaluation named place source) ↔
        ∃ earlier later d merged,
          Walk set.decisions [] [id] (earlier ++ named :: later) ∧
          Relation.ReflTransGen (Requires set.decisions) id named ∧
          set.get? named = some d ∧ earlier.foldlM set.mergeNext context = .ok merged ∧
          let reading := d.table.reading (.root merged set.callLimit [.decision named])
          reading.FailsFirst (d.table.layout.scan reading) place source := by
  refine ⟨fun t decision s => ⟨?_, ?_, ?_⟩, ?_⟩
  · exact fun _ _ _ => Table.result_eq_evaluation_iff
  · exact fun _ => Table.result_eq_notUnique_iff
  · exact fun _ _ => Table.result_congr
  · exact fun _ _ _ _ _ _ => evaluate_eq_evaluation_iff

/-- Sizes as a decision that another one requires. -/
def report : DecisionSet :=
  let table : Table := {
    hitPolicy := .first, inputs := [], outputs := ["text"]
    rules := [⟨[], [.name "size"]⟩]
    outputs_ne := by decide, outputs_named := by decide, rules_fit := by decide }
  { decisions := [⟨"report", table, ["size"]⟩, ⟨"size", Table.sizes, []⟩]
    callLimit := 1
    checked := by
      rw [check, checkAcyclic, sortedIds_of_pairwise (by decide)]
      rfl }

/-- The second rule cannot be asked about a text. What the third one says has no part in that, and
the error is not that of the decision which was asked for. -/
theorem report_names_size :
    let s : Scope := .root [("n", .string "x")] 1 [.decision "size"]
    let fault := EvalError.unsupported (.operator "<") [.string, .number]
    let other : Table := { Table.sizes with
      rules := Table.sizes.rules.take 2 ++ [⟨[.unaryTest none .null], [.name "n"]⟩]
      rules_fit := by decide }
    (Table.sizes.reading s).FailsFirst (Table.sizes.layout.scan (Table.sizes.reading s))
      ⟨some 2, 1⟩ fault ∧
    other.result "size" s = Table.sizes.result "size" s ∧
    report.evaluate "report" [("n", .string "x")] =
      .error (.evaluation "size" ⟨some 2, 1⟩ fault) := by
  intro s fault other
  obtain ⟨htable, hset⟩ := evaluation_error_names_first_failing_cell
  obtain ⟨hcell, -, hcongr⟩ := htable Table.sizes "size" s
  have hresult : Table.sizes.result "size" s =
      .error (.evaluation "size" ⟨some 2, 1⟩ fault) := by rfl
  have hfails := ((hcell _ _ _).mp hresult).2
  have hreached : (Table.sizes.reading s).reached (Table.sizes.layout.scan (Table.sizes.reading s)) =
      [⟨none, 1⟩, ⟨some 1, 1⟩, ⟨some 2, 1⟩] := by rfl
  refine ⟨hfails, hcongr other s rfl ?_, ?_⟩
  · rw [hreached]
    simp only [List.forall_mem_cons, List.not_mem_nil, false_implies, implies_true, and_true]
    exact ⟨rfl, rfl, rfl⟩
  · have hwalk : Walk report.decisions [] ["report"] (([] ++ "size" :: []) ++ "report" :: []) :=
      .enter List.not_mem_nil rfl (.enter List.not_mem_nil rfl .nil .nil) .nil
    have hrequires : Requires report.decisions "report" "size" :=
      ⟨_, List.mem_cons_self, rfl, List.mem_cons_self⟩
    exact (hset report "report" _ _ _ _).mpr
      ⟨[], ["report"], _, _, hwalk, .single hrequires, rfl, rfl, hfails⟩

end DecisionSet
end DecisionModel
