import DecisionModel.Decision.Merge
import DecisionModel.Proofs.Table.Noninterference
import DecisionModel.Proofs.Table.Output

/-!
# What a table reads and writes

The names through which a table and a context have to do with each other. A table looks up the names
in its expressions. If one of them is bound to a function, the body can be called, and its names are
looked up as well; so what is looked up depends on the context, and where two contexts agree on that
the table cannot tell them apart. What is written is fixed by the output names alone, of which only
the first segments are names of the context.
-/

namespace DecisionModel

/-! ## Reading -/

/-- What may be looked up in a context by something that has these names: the names themselves, and
those of the functions that are bound to a name which may be looked up. -/
inductive LooksUp (context : Context) (names : List String) : String → Prop where
  | own {n : String} : n ∈ names → LooksUp context names n
  | called {n m : String} {v : Value} {f : Function} : LooksUp context names m →
      Entries.get? context m = some v → f ∈ v.functions → n ∈ f.names → LooksUp context names n

namespace Table

variable {context other : Context}

theorem indistinct_of_lookups_agree (t : Table)
    (hagree : ∀ n, LooksUp context t.names n → Entries.get? other n = Entries.get? context n)
    (limit : Nat) (site : Site) :
    Indistinct (LooksUp context t.names) (.root context limit site) (.root other limit site) where
  alike :=
    { inputVariable := rfl
      lookup := fun n hn => by
        simp only [Scope.lookup, Scope.root, List.findSome?_cons, List.findSome?_nil, hagree n hn]
      covered := fun m hm v hv => by
        simp only [Scope.lookup, Scope.root, List.findSome?_cons, List.findSome?_nil] at hv
        cases hget : Entries.get? context m with
        | none =>
          simp only [hget, Option.map_eq_some_iff] at hv
          obtain ⟨b, -, rfl⟩ := hv
          exact Value.only_function.mpr (View.covers_builtin b)
        | some bound =>
          simp only [hget, Option.some.injEq] at hv
          subst hv
          intro f hf n hn
          exact .called hm hget hf hn
      limit := .inr rfl }
  callsLeft := rfl
  site := rfl

/-- **A table cannot tell contexts apart that agree on what it looks up.** -/
theorem evaluate_eq_of_lookups_agree (t : Table)
    (hagree : ∀ n, LooksUp context t.names n → Entries.get? other n = Entries.get? context n)
    (limit : Nat) (site : Site) :
    t.evaluate (.root other limit site) = t.evaluate (.root context limit site) := by
  rw [evaluate_eq_outcome, evaluate_eq_outcome,
    reading_of_indistinct t (indistinct_of_lookups_agree t hagree limit site) fun _ => .own]

/-! ## Writing -/

/-- The names of the context that a table writes. -/
def written (t : Table) : List String := t.outputs.flatMap fun name => (outputPath name).take 1

end Table

/-- Names that are in the way of no path along which a value is put. -/
theorem get?_setPath_of_not_mem {row : Context} {path : List String} {v : Value} {n : String}
    (hn : n ∉ path.take 1) : Entries.get? (row.setPath path v) n = Entries.get? row n := by
  cases path with
  | nil => rfl
  | cons name rest =>
    have hne : n ≠ name := by simpa using hn
    cases rest with
    | nil => rw [Context.setPath, Entries.get?_insert, if_neg hne]
    | cons next rest =>
      rw [Context.setPath, Entries.get?_insert, if_neg hne]
      exact List.cons_ne_nil next rest

namespace Layout

variable {l : Layout} {reading : Reading} {rule column : Nat} {row : Context} {names : List String}
  {n : String}

theorem get?_fill_of_not_mem (hn : ∀ name ∈ names, n ∉ (outputPath name).take 1) :
    Entries.get? (fill reading rule column row names) n = Entries.get? row n := by
  induction names generalizing column row with
  | nil => rfl
  | cons name names ih =>
    obtain ⟨hname, hnames⟩ := List.forall_mem_cons.mp hn
    rw [fill, ih hnames, get?_setPath_of_not_mem hname]

theorem get?_foldl_setPath_of_not_mem (hn : ∀ name ∈ names, n ∉ (outputPath name).take 1) :
    Entries.get? (names.foldl (fun row name => Context.setPath row (outputPath name) .absent) row)
      n = Entries.get? row n := by
  induction names generalizing row with
  | nil => rfl
  | cons name names ih =>
    obtain ⟨hname, hnames⟩ := List.forall_mem_cons.mp hn
    rw [List.foldl_cons, ih hnames, get?_setPath_of_not_mem hname]

theorem get?_blankRow_of_not_mem (hn : ∀ name ∈ l.outputs, n ∉ (outputPath name).take 1) :
    Entries.get? l.blankRow n = none :=
  get?_foldl_setPath_of_not_mem hn

theorem get?_row_of_not_mem (hn : ∀ name ∈ l.outputs, n ∉ (outputPath name).take 1) :
    Entries.get? (l.row reading rule) n = none := by
  rw [row, get?_fill_of_not_mem hn, get?_blankRow_of_not_mem hn]

end Layout

namespace Context

/-- The entries that a result lays over the context. -/
def contributed : Value → Context
  | .context entries => entries
  | .list rows => gatherRows rows
  | _ => []

theorem mergeResult_eq (context : Context) (result : Value) :
    context.mergeResult result = context.merge (contributed result) := by
  cases result <;> simp only [mergeResult, contributed, merge]

variable {base other entries gathered : Context} {n : String}

/-- What is under a name after merging depends on what was under this name before. -/
theorem get?_merge_congr (h : Entries.get? base n = Entries.get? other n) :
    Entries.get? (base.merge entries) n = Entries.get? (other.merge entries) n := by
  induction entries generalizing base other with
  | nil => simpa only [merge] using h
  | cons entry entries ih =>
    obtain ⟨name, value⟩ := entry
    rw [merge, merge]
    apply ih
    rw [Entries.get?_insert, Entries.get?_insert]
    by_cases hname : n = name
    · subst hname
      rw [h]
    · rw [if_neg hname, if_neg hname, h]

theorem get?_merge_of_get?_eq_none (h : Entries.get? entries n = none) :
    Entries.get? (base.merge entries) n = Entries.get? base n := by
  induction entries generalizing base with
  | nil => rw [merge]
  | cons entry entries ih =>
    obtain ⟨name, value⟩ := entry
    rw [Entries.get?_cons] at h
    split at h
    · cases h
    · next hname => rw [merge, ih h, Entries.get?_insert, if_neg hname]

theorem get?_gather_of_get?_eq_none (h : Entries.get? entries n = none) :
    Entries.get? (gather gathered entries) n = Entries.get? gathered n := by
  induction entries generalizing gathered with
  | nil => rw [gather]
  | cons entry entries ih =>
    obtain ⟨name, value⟩ := entry
    rw [Entries.get?_cons] at h
    split at h
    · cases h
    · next hname => rw [gather, ih h, Entries.get?_insert, if_neg hname]

theorem get?_foldl_gather_of_get?_eq_none {rows : List Context}
    (h : ∀ row ∈ rows, Entries.get? row n = none) :
    Entries.get? (rows.foldl gather gathered) n = Entries.get? gathered n := by
  induction rows generalizing gathered with
  | nil => rfl
  | cons row rows ih =>
    obtain ⟨hrow, hrows⟩ := List.forall_mem_cons.mp h
    rw [List.foldl_cons, ih hrows, get?_gather_of_get?_eq_none hrow]

theorem get?_gatherRows_eq_none {rows : List Context}
    (h : ∀ row ∈ rows, Entries.get? row n = none) :
    Entries.get? (gatherRows (rows.map .context)) n = none := by
  rw [gatherRows, List.foldl_map]
  exact get?_foldl_gather_of_get?_eq_none h

end Context

namespace Table

variable {t : Table} {s : Scope} {v : Value} {n : String}

/-- **The result of a table has nothing to say about a name that the table does not write.** -/
theorem get?_contributed_eq_none (h : t.evaluate s = .ok v) (hn : n ∉ t.written) :
    Entries.get? (Context.contributed v) n = none := by
  have hnames : ∀ name ∈ t.layout.outputs, n ∉ (outputPath name).take 1 :=
    fun name hname hmem => hn (List.mem_flatMap.mpr ⟨name, hname, hmem⟩)
  have hblank : Entries.get? t.layout.blankRow n = none := Layout.get?_blankRow_of_not_mem hnames
  have hrows : ∀ row ∈ t.layout.rows (t.reading s) t.layout.numbers, Entries.get? row n = none := by
    intro row hrow
    obtain ⟨rule, -, rfl⟩ := List.mem_map.mp hrow
    exact Layout.get?_row_of_not_mem hnames
  rw [evaluate_eq_outcome, Layout.outcome, Reading.after_eq_ok_iff] at h
  obtain ⟨-, h⟩ := h
  generalize t.layout.rows (t.reading s) t.layout.numbers = rows at hrows h
  unfold Layout.settle at h
  split at h
  · cases h
    cases rows with
    | nil => exact hblank
    | cons row rows => exact hrows row List.mem_cons_self
  · cases rows with
    | nil =>
      cases h
      exact hblank
    | cons row rows =>
      cases rows with
      | nil =>
        cases h
        exact hrows row List.mem_cons_self
      | cons second rows => cases h
  · cases h
    exact Context.get?_gatherRows_eq_none hrows
  · cases h
    exact Context.get?_gatherRows_eq_none hrows

end Table
end DecisionModel
