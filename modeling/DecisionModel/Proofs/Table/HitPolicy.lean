import DecisionModel.Decision.Evaluation
import DecisionModel.Proofs.Bind
import DecisionModel.Proofs.Value.Path

/-!
# Hit policies side by side

One table under the four hit policies. COLLECT goes through every rule, so the others are measured
against it: FIRST stops where COLLECT would go on, and UNIQUE refuses a second match before COLLECT
would evaluate its outputs. Both are therefore settled by the rows that COLLECT gives, and neither
can fail in a cell where COLLECT does not. The other way round COLLECT may fail after a point that
FIRST and UNIQUE do not reach, which is why only the success of UNIQUE says something about it.
-/

namespace DecisionModel

namespace DecisionError

variable {decision named : String} {e : TableError}

theorem ofTable_eq_evaluation_iff {place : Cell} {source : EvalError} :
    ofTable decision e = .evaluation named place source ↔
      e = .cell place source ∧ named = decision := by
  cases e <;> simp [ofTable, and_comm, eq_comm]

theorem ofTable_eq_notUnique_iff :
    ofTable decision e = .notUnique named ↔ e = .notUnique ∧ named = decision := by
  cases e <;> simp [ofTable, eq_comm]

end DecisionError

/-! ## The row without a rule -/

theorem outputPath_ne_nil (name : String) : outputPath name ≠ [] := by
  have hsplit : ∀ cs, Text.split '.' cs ≠ [] := by
    intro cs
    induction cs with
    | nil => simp [Text.split]
    | cons c cs ih =>
      rw [Text.split]
      split
      · simp
      · split <;> simp
  intro h
  exact hsplit _ (List.map_eq_nil_iff.mp h)

/-- Whether nothing is found in a value: every path ends at absent, or at a context on the way. -/
def Value.IsBlank (v : Value) : Prop :=
  ∀ path, v.follow path = .absent ∨ ∃ entries, v.follow path = .context entries

namespace Value

theorem isBlank_absent : absent.IsBlank := fun path => .inl (absent_follow path)

theorem IsBlank.field {v : Value} (h : v.IsBlank) (name : String) : (v.field name).IsBlank :=
  fun path => h (name :: path)

theorem isBlank_empty : (context []).IsBlank := by
  intro path
  cases path with
  | nil => exact .inr ⟨[], rfl⟩
  | cons name path => exact isBlank_absent path

/-- Absent at the end of a path is nothing to be found. -/
theorem IsBlank.place_absent {v : Value} (h : v.IsBlank) (path : List String) :
    (v.place path absent).IsBlank := by
  induction path generalizing v with
  | nil => exact isBlank_absent
  | cons name rest ih =>
    intro q
    cases q with
    | nil => exact .inr ⟨_, rfl⟩
    | cons other q =>
      rw [follow_cons, field_place]
      split
      · exact ih (h.field name) q
      · exact h.field other q

end Value

namespace Table

theorem isBlank_foldl_setPath {row : Context} (names : List String)
    (h : (Value.context row).IsBlank) :
    (Value.context (names.foldl
      (fun row name => Context.setPath row (outputPath name) .absent) row)).IsBlank := by
  induction names generalizing row with
  | nil => exact h
  | cons name names ih =>
    refine ih ?_
    rw [Value.context_setPath _ (outputPath_ne_nil name)]
    exact h.place_absent _

/-- Where a path is bound there is something under its first name, and as much as before under any
other. -/
theorem isSome_get?_setPath {row : Context} {path : List String} {v : Value} {n : String} :
    (Entries.get? (row.setPath path v) n).isSome = true ↔
      path.head? = some n ∨ (Entries.get? row n).isSome = true := by
  -- one name or more, the entry under the first of them is written
  have hinsert (name : String) (new : Value) :
      (Entries.get? (Entries.insert row name new) n).isSome = true ↔
        some name = some n ∨ (Entries.get? row n).isSome = true := by
    rw [Entries.get?_insert, Option.some_inj]
    split
    · next h => exact iff_of_true rfl (.inl h.symm)
    · next h => exact (or_iff_right (Ne.symm h)).symm
  match path with
  | [] => exact (or_iff_right nofun).symm
  | [name] => exact hinsert name v
  | name :: next :: rest =>
    rw [Context.setPath]
    · exact hinsert name _
    · exact List.cons_ne_nil next rest

theorem isSome_get?_foldl_setPath {row : Context} {names : List String} {n : String} :
    (Entries.get? (names.foldl
        (fun row name => Context.setPath row (outputPath name) .absent) row) n).isSome = true ↔
      (∃ name ∈ names, (outputPath name).head? = some n) ∨
        (Entries.get? row n).isSome = true := by
  induction names generalizing row with
  | nil => simp
  | cons name names ih =>
    rw [List.foldl_cons, ih, isSome_get?_setPath]
    simp only [List.mem_cons, exists_eq_or_imp, or_assoc, or_left_comm]

/-- **The row without a rule has the output names and nothing in it.** -/
theorem emptyRow_binds (t : Table) :
    (∀ n, (Entries.get? t.emptyRow n).isSome = true ↔
      ∃ name ∈ t.outputs, (outputPath name).head? = some n) ∧
    (Value.context t.emptyRow).IsBlank := by
  refine ⟨fun n => isSome_get?_foldl_setPath.trans (or_iff_left nofun), ?_⟩
  exact isBlank_foldl_setPath t.outputs Value.isBlank_empty

end Table

/-! ## Results under a hit policy -/

namespace Table

/-- What a table gives, with errors in the name of a decision. -/
def result (t : Table) (decision : String) (s : Scope) : Except DecisionError Value :=
  (t.evaluate s).mapError (.ofTable decision)

/-- The table with another hit policy. -/
def under (t : Table) (policy : HitPolicy) : Table := { t with hitPolicy := policy }

/-- What the table gives under a hit policy. -/
def resultUnder (t : Table) (policy : HitPolicy) (decision : String) (s : Scope) :
    Except DecisionError Value :=
  (t.under policy).result decision s

/-- The only one of several rows, if there is no second. -/
def atMostOne : List Context → Except TableError (Option Context)
  | [] => .ok none
  | [row] => .ok (some row)
  | _ :: _ :: _ => .error .notUnique

variable {t : Table} {columns : List Column} {s : Scope} {number : Nat} {rules : List Rule}
  {rows : List Context}

/-! ## The rules of a table do not depend on its hit policy -/

theorem under_firstHit (policy : HitPolicy) :
    (t.under policy).firstHit columns s number rules = t.firstHit columns s number rules := by
  induction rules generalizing number with
  | nil => rfl
  | cons rule rules ih =>
    simp only [firstHit, ih]
    rfl

theorem under_onlyHit (policy : HitPolicy) (found : Option Context) :
    (t.under policy).onlyHit columns s number found rules =
      t.onlyHit columns s number found rules := by
  induction rules generalizing number found with
  | nil => rfl
  | cons rule rules ih =>
    simp only [onlyHit, ih]
    rfl

theorem under_allHits (policy : HitPolicy) :
    (t.under policy).allHits columns s number rules = t.allHits columns s number rules := by
  induction rules generalizing number with
  | nil => rfl
  | cons rule rules ih =>
    simp only [allHits, ih]
    rfl

theorem misfit?_eq_none {inputs outputs : Nat} (h : ∀ rule ∈ rules, rule.Fits inputs outputs) :
    misfit? inputs outputs number rules = none := by
  induction rules generalizing number with
  | nil => rfl
  | cons rule rules ih =>
    obtain ⟨hrule, hrules⟩ := List.forall_mem_cons.mp h
    rw [misfit?, if_pos hrule]
    exact ih hrules

/-- The checks of a table have no part in its hit policy either. -/
theorem new_eq_under (t : Table) (policy : HitPolicy) :
    Table.new policy t.inputs t.outputs t.rules = .ok (t.under policy) := by
  have hnamed : t.outputs.find? (!isOutputName ·) = none := by
    simpa using t.outputs_named
  have hfit : misfit? t.inputs.length t.outputs.length 1 t.rules = none :=
    misfit?_eq_none t.rules_fit
  unfold Table.new
  rw [dif_neg t.outputs_ne]
  split
  · next h => rw [hnamed] at h; cases h
  · split
    · next h => rw [hfit] at h; cases h
    · rfl

/-! ## One scan against another -/

theorem firstHit_of_allHits (h : t.allHits columns s number rules = .ok rows) :
    t.firstHit columns s number rules = .ok rows.head? := by
  induction rules generalizing number rows with
  | nil => cases h; rfl
  | cons rule rules ih =>
    rw [allHits] at h
    obtain ⟨hit, hhit, h⟩ := bind_eq_ok_iff.mp h
    obtain ⟨hits, hhits, h⟩ := bind_eq_ok_iff.mp h
    cases h
    rw [firstHit, hhit, ok_bind]
    cases hit with
    | none => exact ih hhits
    | some row => rfl

theorem allHits_eq_error_of_firstHit {e : TableError}
    (h : t.firstHit columns s number rules = .error e) :
    t.allHits columns s number rules = .error e := by
  induction rules generalizing number with
  | nil => cases h
  | cons rule rules ih =>
    rw [firstHit] at h
    rw [allHits]
    rcases bind_eq_error_iff.mp h with hhit | ⟨hit, hhit, h⟩
    · rw [hhit, error_bind]
    · rw [hhit, ok_bind]
      cases hit with
      | none => rw [ih h, error_bind]
      | some row => cases h

/-- A rule has a row exactly if it matches. -/
theorem matchesFrom_of_hit? {rule : Rule} {hit : Option Context}
    (h : t.hit? columns s number rule = .ok hit) :
    matchesFrom number 1 s columns rule.inputEntries = .ok hit.isSome := by
  rw [hit?] at h
  obtain ⟨isMatch, hmatch, h⟩ := bind_eq_ok_iff.mp h
  rw [hmatch]
  cases isMatch with
  | false => cases h; rfl
  | true =>
    obtain ⟨row, -, h⟩ := bind_eq_ok_iff.mp h
    cases h
    rfl

theorem hit?_of_not_matches {rule : Rule}
    (h : matchesFrom number 1 s columns rule.inputEntries = .ok false) :
    t.hit? columns s number rule = .ok none := by
  rw [hit?, h]
  rfl

theorem onlyHit_none_cons {rule : Rule} :
    t.onlyHit columns s number none (rule :: rules) = (do
      let hit ← t.hit? columns s number rule
      t.onlyHit columns s (number + 1) hit rules) := rfl

theorem onlyHit_some_cons {rule : Rule} {row : Context} :
    t.onlyHit columns s number (some row) (rule :: rules) = (do
      let isMatch ← matchesFrom number 1 s columns rule.inputEntries
      if isMatch then .error .notUnique else t.onlyHit columns s (number + 1) (some row) rules) :=
  rfl

theorem onlyHit_of_allHits {found : Option Context}
    (h : t.allHits columns s number rules = .ok rows) :
    t.onlyHit columns s number found rules = atMostOne (found.toList ++ rows) := by
  induction rules generalizing number found rows with
  | nil =>
    cases h
    cases found <;> rfl
  | cons rule rules ih =>
    rw [allHits] at h
    obtain ⟨hit, hhit, h⟩ := bind_eq_ok_iff.mp h
    obtain ⟨hits, hhits, h⟩ := bind_eq_ok_iff.mp h
    cases h
    cases found with
    | none =>
      rw [onlyHit_none_cons, hhit, ok_bind]
      exact ih hhits
    | some row =>
      rw [onlyHit_some_cons, matchesFrom_of_hit? hhit, ok_bind]
      cases hit with
      | none => exact ih hhits
      | some second => rfl

/-- With a row in hand UNIQUE comes to a result only if no rule matches any more. -/
theorem allHits_of_onlyHit_some {row : Context} {result : Option Context}
    (h : t.onlyHit columns s number (some row) rules = .ok result) :
    t.allHits columns s number rules = .ok [] := by
  induction rules generalizing number with
  | nil => rfl
  | cons rule rules ih =>
    rw [onlyHit_some_cons] at h
    obtain ⟨isMatch, hmatch, h⟩ := bind_eq_ok_iff.mp h
    cases isMatch with
    | true => cases h
    | false =>
      rw [allHits, hit?_of_not_matches hmatch, ok_bind, ih h]
      rfl

theorem allHits_of_onlyHit {result : Option Context}
    (h : t.onlyHit columns s number none rules = .ok result) :
    ∃ rows, t.allHits columns s number rules = .ok rows ∧ rows.length ≤ 1 := by
  induction rules generalizing number with
  | nil => exact ⟨[], rfl, Nat.zero_le _⟩
  | cons rule rules ih =>
    rw [onlyHit_none_cons] at h
    obtain ⟨hit, hhit, h⟩ := bind_eq_ok_iff.mp h
    rw [allHits, hhit, ok_bind]
    cases hit with
    | none =>
      obtain ⟨rows, hrows, hle⟩ := ih h
      exact ⟨rows, by rw [hrows]; rfl, hle⟩
    | some row =>
      rw [allHits_of_onlyHit_some h]
      exact ⟨[row], rfl, Nat.le_refl _⟩

/-- Where UNIQUE fails in a cell, COLLECT has come to the same cell. -/
theorem allHits_eq_error_of_onlyHit {found : Option Context} {place : Cell} {source : EvalError}
    (h : t.onlyHit columns s number found rules = .error (.cell place source)) :
    t.allHits columns s number rules = .error (.cell place source) := by
  induction rules generalizing number found with
  | nil => cases h
  | cons rule rules ih =>
    rw [allHits]
    cases found with
    | none =>
      rw [onlyHit_none_cons] at h
      rcases bind_eq_error_iff.mp h with hhit | ⟨hit, hhit, h⟩
      · rw [hhit, error_bind]
      · rw [hhit, ok_bind, ih h, error_bind]
    | some row =>
      rw [onlyHit_some_cons] at h
      rcases bind_eq_error_iff.mp h with hmatch | ⟨isMatch, hmatch, h⟩
      · rw [hit?, hmatch, error_bind, error_bind]
      · cases isMatch with
        | true => cases h
        | false => rw [hit?_of_not_matches hmatch, ok_bind, ih h, error_bind]

/-! ## The four results -/

theorem resultUnder_first (decision : String) :
    t.resultUnder .first decision s = Except.mapError (.ofTable decision) (do
      let columns ← columnsFrom 1 s t.inputs
      let hit ← t.firstHit columns s 1 t.rules
      return .context (hit.getD t.emptyRow)) := by
  simp only [resultUnder, result, evaluate, under_firstHit]
  rfl

theorem resultUnder_unique (decision : String) :
    t.resultUnder .unique decision s = Except.mapError (.ofTable decision) (do
      let columns ← columnsFrom 1 s t.inputs
      let hit ← t.onlyHit columns s 1 none t.rules
      return .context (hit.getD t.emptyRow)) := by
  simp only [resultUnder, result, evaluate, under_onlyHit]
  rfl

theorem resultUnder_collect (decision : String) :
    t.resultUnder .collect decision s = Except.mapError (.ofTable decision) (do
      let columns ← columnsFrom 1 s t.inputs
      let hits ← t.allHits columns s 1 t.rules
      return .list (hits.map .context)) := by
  simp only [resultUnder, result, evaluate, under_allHits]
  rfl

theorem resultUnder_ruleOrder (decision : String) :
    t.resultUnder .ruleOrder decision s = t.resultUnder .collect decision s := by
  simp only [resultUnder, result, evaluate, under_allHits]
  rfl

/-- What COLLECT gives settles what FIRST and UNIQUE give. -/
theorem result_of_collect {decision : String} {v : Value}
    (h : t.resultUnder .collect decision s = .ok v) :
    ∃ rows : List Context, v = .list (rows.map .context) ∧
      t.resultUnder .first decision s = .ok (.context (rows.headD t.emptyRow)) ∧
      t.resultUnder .unique decision s = match rows with
        | [] => .ok (.context t.emptyRow)
        | [row] => .ok (.context row)
        | _ :: _ :: _ => .error (.notUnique decision) := by
  rw [resultUnder_collect, mapError_eq_ok_iff] at h
  obtain ⟨columns, hcolumns, h⟩ := bind_eq_ok_iff.mp h
  obtain ⟨rows, hrows, h⟩ := bind_eq_ok_iff.mp h
  cases h
  refine ⟨rows, rfl, ?_, ?_⟩
  · rw [resultUnder_first, hcolumns, ok_bind, firstHit_of_allHits hrows, ok_bind]
    cases rows <;> rfl
  · rw [resultUnder_unique, hcolumns, ok_bind, onlyHit_of_allHits hrows]
    match rows with
    | [] => rfl
    | [row] => rfl
    | _ :: _ :: _ => rfl

theorem collect_of_unique {decision : String} {v : Value}
    (h : t.resultUnder .unique decision s = .ok v) :
    ∃ rows : List Context, rows.length ≤ 1 ∧
      t.resultUnder .collect decision s = .ok (.list (rows.map .context)) := by
  rw [resultUnder_unique, mapError_eq_ok_iff] at h
  obtain ⟨columns, hcolumns, h⟩ := bind_eq_ok_iff.mp h
  obtain ⟨hit, hhit, -⟩ := bind_eq_ok_iff.mp h
  obtain ⟨rows, hrows, hle⟩ := allHits_of_onlyHit hhit
  refine ⟨rows, hle, ?_⟩
  rw [resultUnder_collect, hcolumns, ok_bind, hrows]
  rfl

theorem collect_of_first_error {decision : String} {e : DecisionError}
    (h : t.resultUnder .first decision s = .error e) :
    t.resultUnder .collect decision s = .error e := by
  rw [resultUnder_first] at h
  obtain ⟨fault, hfault, rfl⟩ := mapError_eq_error_iff.mp h
  rw [resultUnder_collect]
  rcases bind_eq_error_iff.mp hfault with hcolumns | ⟨columns, hcolumns, h⟩
  · rw [hcolumns]
    rfl
  · rcases bind_eq_error_iff.mp h with hhit | ⟨hit, -, h⟩
    · rw [hcolumns, ok_bind, allHits_eq_error_of_firstHit hhit]
      rfl
    · cases h

theorem collect_of_unique_error {decision named : String} {place : Cell} {source : EvalError}
    (h : t.resultUnder .unique decision s = .error (.evaluation named place source)) :
    t.resultUnder .collect decision s = .error (.evaluation named place source) := by
  rw [resultUnder_unique] at h
  obtain ⟨fault, hfault, he⟩ := mapError_eq_error_iff.mp h
  obtain ⟨rfl, rfl⟩ := DecisionError.ofTable_eq_evaluation_iff.mp he
  rw [resultUnder_collect]
  rcases bind_eq_error_iff.mp hfault with hcolumns | ⟨columns, hcolumns, h⟩
  · rw [hcolumns]
    rfl
  · rcases bind_eq_error_iff.mp h with hhit | ⟨hit, -, h⟩
    · rw [hcolumns, ok_bind, allHits_eq_error_of_onlyHit hhit]
      rfl
    · cases h

/-- **The four hit policies agree on every table.** The four tables come from the same parts. RULE
ORDER is COLLECT. The rows of COLLECT, if it has a result, are what FIRST and UNIQUE are settled by;
UNIQUE has a result only if COLLECT has one with no second row; and an error in a cell under FIRST or
UNIQUE is the error of COLLECT. The row that stands for no match has the output names, and all of them
are absent. -/
theorem hit_policies_agree (t : Table) (decision : String) (s : Scope) :
    (∀ policy, Table.new policy t.inputs t.outputs t.rules = .ok (t.under policy)) ∧
    t.resultUnder .ruleOrder decision s = t.resultUnder .collect decision s ∧
    (∀ v, t.resultUnder .collect decision s = .ok v → ∃ rows : List Context,
      v = .list (rows.map .context) ∧
      t.resultUnder .first decision s = .ok (.context (rows.headD t.emptyRow)) ∧
      t.resultUnder .unique decision s = match rows with
        | [] => .ok (.context t.emptyRow)
        | [row] => .ok (.context row)
        | _ :: _ :: _ => .error (.notUnique decision)) ∧
    (∀ v, t.resultUnder .unique decision s = .ok v → ∃ rows : List Context, rows.length ≤ 1 ∧
      t.resultUnder .collect decision s = .ok (.list (rows.map .context))) ∧
    (∀ e, t.resultUnder .first decision s = .error e →
      t.resultUnder .collect decision s = .error e) ∧
    (∀ named place source,
      t.resultUnder .unique decision s = .error (.evaluation named place source) →
      t.resultUnder .collect decision s = .error (.evaluation named place source)) ∧
    (∀ n, (Entries.get? t.emptyRow n).isSome = true ↔
      ∃ name ∈ t.outputs, (outputPath name).head? = some n) ∧
    (Value.context t.emptyRow).IsBlank :=
  ⟨t.new_eq_under, resultUnder_ruleOrder decision, fun _ => result_of_collect,
    fun _ => collect_of_unique, fun _ => collect_of_first_error,
    fun _ _ _ => collect_of_unique_error, t.emptyRow_binds⟩

/-- Three rules about a number, the last two of which overlap. The first one says nothing about
texts, and the second one cannot be asked about them. -/
def sizes : Table where
  hitPolicy := .unique
  inputs := [.name "n"]
  outputs := ["size"]
  rules := [
    ⟨[.unaryTest none .null], [.string "unknown"]⟩,
    ⟨[.unaryTest (some .lt) (.number (.ofNat 5))], [.string "small"]⟩,
    ⟨[.unaryTest (some .lt) (.number (.ofNat 10))], [.string "medium"]⟩]
  outputs_ne := by decide
  outputs_named := by decide
  rules_fit := by decide

/-- Two rows, one row, no row, and an error in the second rule. -/
theorem sizes_hit_policies :
    let result (policy : HitPolicy) (n : Value) :=
      sizes.resultUnder policy "size" (.root [("n", n)] 0 [])
    let row (size : String) : Context := [("size", .string size)]
    let fault := DecisionError.evaluation "size" ⟨some 2, 1⟩
      (.unsupported (.operator "<") [.string, .number])
    (result .collect (.ofNat 3) = .ok (.list [.context (row "small"), .context (row "medium")]) ∧
      result .first (.ofNat 3) = .ok (.context (row "small")) ∧
      result .unique (.ofNat 3) = .error (.notUnique "size")) ∧
    (result .unique (.ofNat 7) = .ok (.context (row "medium")) ∧
      ∃ rows : List Context, rows.length ≤ 1 ∧
        result .collect (.ofNat 7) = .ok (.list (rows.map .context))) ∧
    (result .collect (.ofNat 12) = .ok (.list []) ∧
      result .first (.ofNat 12) = .ok (.context [("size", .absent)]) ∧
      result .unique (.ofNat 12) = .ok (.context [("size", .absent)])) ∧
    (result .first (.string "x") = .error fault ∧ result .unique (.string "x") = .error fault ∧
      result .collect (.string "x") = .error fault) := by
  intro result row fault
  have agree (n : Value) := hit_policies_agree sizes "size" (.root [("n", n)] 0 [])
  have hcollect : result .collect (.ofNat 3) =
      .ok (.list [.context (row "small"), .context (row "medium")]) := by rfl
  have hunique : result .unique (.ofNat 7) = .ok (.context (row "medium")) := by rfl
  have hnone : result .collect (.ofNat 12) = .ok (.list []) := by rfl
  have hfirst : result .first (.string "x") = .error fault := by rfl
  have hfault : result .unique (.string "x") = .error fault := by rfl
  obtain ⟨rows, hrows, hone, honly⟩ := (agree (.ofNat 3)).2.2.1 _ hcollect
  have : rows = [row "small", row "medium"] := by
    simpa [List.map_eq_cons_iff, eq_comm] using hrows
  subst this
  obtain ⟨blank, hblank, hfallback, hunmatched⟩ := (agree (.ofNat 12)).2.2.1 _ hnone
  obtain rfl : blank = [] := by simpa using hblank
  exact ⟨⟨hcollect, hone, honly⟩, ⟨hunique, (agree (.ofNat 7)).2.2.2.1 _ hunique⟩,
    ⟨hnone, hfallback, hunmatched⟩, hfirst, hfault, (agree (.string "x")).2.2.2.2.1 _ hfirst⟩

end Table
end DecisionModel
