import DecisionModel.Proofs.Evaluation.Simulation
import DecisionModel.Proofs.Table.Scan

/-!
# What a table does not mention

A table looks up the names in its expressions, and what it calls may look up others: a body sees the
bindings of whoever calls it. Of the functions that a context can bring in, only the built-in ones
look nothing up. So where the names of the table are bound to values without other functions, every
function that is called was made in the table, its names are names of the table, and the rest of the
context cannot be told.

Cells are compared one by one, through their readings. The table's result follows from these, no
matter in which order the cells are looked at.
-/

namespace DecisionModel

/-- Whether a function is one that every scope offers. -/
def Function.IsBuiltin : Function → Prop
  | .builtin _ => True
  | .lambda .. | .decision .. => False

/-- The names that are looked up in the cells of a rule. -/
def Rule.names (r : Rule) : List String :=
  Expr.namesOfAll r.inputEntries ++ Expr.namesOfAll r.outputEntries

/-- The names that are looked up in the cells of a table. -/
def Table.names (t : Table) : List String := Expr.namesOfAll t.inputs ++ t.rules.flatMap Rule.names

namespace Table

variable {t : Table} {i : Nat}

theorem mem_names_of_input {input : Expr} (h : t.inputs[i]? = some input) {n : String}
    (hn : n ∈ input.names) : n ∈ t.names :=
  List.mem_append_left _ (Expr.mem_namesOfAll.mpr ⟨input, List.mem_of_getElem? h, hn⟩)

theorem mem_names_of_rule {r : Rule} (h : t.rules[i]? = some r) {n : String} (hn : n ∈ r.names) :
    n ∈ t.names :=
  List.mem_append_right _ (List.mem_flatMap.mpr ⟨r, List.mem_of_getElem? h, hn⟩)

end Table

namespace Rule

variable {r : Rule} {i : Nat} {entry : Expr} {n : String}

theorem mem_names_of_inputEntry (h : r.inputEntries[i]? = some entry) (hn : n ∈ entry.names) :
    n ∈ r.names :=
  List.mem_append_left _ (Expr.mem_namesOfAll.mpr ⟨entry, List.mem_of_getElem? h, hn⟩)

theorem mem_names_of_outputEntry (h : r.outputEntries[i]? = some entry) (hn : n ∈ entry.names) :
    n ∈ r.names :=
  List.mem_append_right _ (Expr.mem_namesOfAll.mpr ⟨entry, List.mem_of_getElem? h, hn⟩)

end Rule

/-! ## Scopes that cannot be told apart -/

/-- Two scopes in which everything comes out alike that only looks up some names. -/
structure Indistinct (names : String → Prop) (s s' : Scope) : Prop where
  alike : View.Alike ⟨names, False⟩ s s'
  callsLeft : s'.callsLeft = s.callsLeft
  site : s'.site = s.site

namespace Indistinct

variable {names : String → Prop} {s s' : Scope}

theorem part (h : Indistinct names s s') (index : Nat) :
    Indistinct names (s.part index) (s'.part index) where
  alike := ⟨h.alike.inputVariable, h.alike.lookup, h.alike.covered, h.alike.limit⟩
  callsLeft := h.callsLeft
  site := congrArg (Step.part index :: ·) h.site

theorem cellScope (h : Indistinct names s s') (rule column : Nat) :
    Indistinct names (Table.cellScope s rule column) (Table.cellScope s' rule column) :=
  (h.part rule).part column

theorem forColumn (h : Indistinct names s s') (name : Option String) :
    Indistinct names (s.forColumn name) (s'.forColumn name) :=
  ⟨h.alike.forColumn name, h.callsLeft, h.site⟩

theorem evaluate_eq (h : Indistinct names s s') {e : Expr} (he : ∀ n ∈ e.names, names n) :
    e.evaluate s' = e.evaluate s :=
  have hfollows := View.evaluate_follows h.alike (Nat.le_of_eq h.callsLeft.symm) (.inr h.callsLeft)
    h.site he
  hfollows.eq fun hgive => hgive.1

theorem testCell_eq (h : Indistinct names s s') {entry : Expr} (he : ∀ n ∈ entry.names, names n)
    (column : Column) : Table.testCell s' column entry = Table.testCell s column entry := by
  simp only [Table.testCell, Expr.evaluateTest, (h.forColumn column.inputVariable).evaluate_eq he]

end Indistinct

namespace Table

variable {names : String → Prop} {s s' : Scope}

theorem reading_of_indistinct (t : Table) (h : Indistinct names s s')
    (hnames : ∀ n ∈ t.names, names n) : t.reading s' = t.reading s := by
  funext ⟨rule, column⟩
  cases rule with
  | none =>
    simp only [Table.reading]
    split
    · next input hinput =>
      exact (h.cellScope 0 column).evaluate_eq fun n hn => hnames n (mem_names_of_input hinput hn)
    · rfl
  | some number =>
    simp only [Table.reading]
    split
    · rfl
    · next r hr =>
      have hrule (n : String) (hn : n ∈ r.names) : names n := hnames n (mem_names_of_rule hr hn)
      split
      · split
        · next input entry hinput hentry =>
          -- A test is put to what the head of its column gives.
          have hcandidate := (h.cellScope 0 column).evaluate_eq (e := input)
            fun n hn => hnames n (mem_names_of_input hinput hn)
          have hentries (n : String) (hn : n ∈ entry.names) : names n :=
            hrule n (Rule.mem_names_of_inputEntry hentry hn)
          rw [hcandidate]
          congr
          funext candidate
          exact (h.cellScope number column).testCell_eq hentries _
        · rfl
      · split
        · next entry hentry =>
          have hresult := (h.cellScope number column).evaluate_eq (e := entry)
            fun n hn => hrule n (Rule.mem_names_of_outputEntry hentry hn)
          rw [hresult]
        · rfl

/-- Scopes that agree on the names of a table give every cell the same reading. -/
theorem reading_congr (t : Table) (h : Indistinct (· ∈ t.names) s s') :
    t.reading s' = t.reading s :=
  reading_of_indistinct t h fun _ hn => hn

theorem indistinct_root (t : Table) {context other : Context}
    (hagree : ∀ n ∈ t.names, Entries.get? other n = Entries.get? context n)
    (hplain : ∀ n ∈ t.names, ∀ v, Entries.get? context n = some v → v.Only Function.IsBuiltin)
    (limit : Nat) (site : Site) :
    Indistinct (· ∈ t.names) (.root context limit site) (.root other limit site) where
  alike :=
    { inputVariable := rfl
      lookup := fun n hn => by
        simp only [Scope.lookup, Scope.root, List.findSome?_cons, List.findSome?_nil,
          hagree n hn]
      covered := fun n hn v hv => by
        simp only [Scope.lookup, Scope.root, List.findSome?_cons, List.findSome?_nil] at hv
        cases hget : Entries.get? context n with
        | none =>
          -- A name that is not bound can still be that of a built-in function.
          simp only [hget, Option.map_eq_some_iff] at hv
          obtain ⟨b, -, rfl⟩ := hv
          exact Value.only_function.mpr (View.covers_builtin b)
        | some bound =>
          simp only [hget, Option.some.injEq] at hv
          intro f hf
          have hbuiltin := hplain n hn bound hget f (hv ▸ hf)
          cases f with
          | builtin b => exact View.covers_builtin b
          | lambda | decision => exact hbuiltin.elim
      limit := .inr rfl }
  callsLeft := rfl
  site := rfl

/-- **What a table does not mention does not matter.** Two contexts that bind the names of a table
to the same values, or leave them unbound, give the same result or the same error, if there are no
functions in these values but built-in ones. -/
theorem evaluate_eq_of_names_agree (t : Table) {context other : Context}
    (hagree : ∀ n ∈ t.names, Entries.get? other n = Entries.get? context n)
    (hplain : ∀ n ∈ t.names, ∀ v, Entries.get? context n = some v → v.Only Function.IsBuiltin)
    (limit : Nat) (site : Site) :
    t.evaluate (.root other limit site) = t.evaluate (.root context limit site) := by
  rw [evaluate_eq_outcome, evaluate_eq_outcome,
    reading_congr t (indistinct_root t hagree hplain limit site)]

/-- A table with a function of its own, whose body looks up a name of the context. -/
def surcharge : Table where
  hitPolicy := .unique
  inputs := [.name "weight"]
  outputs := ["price"]
  rules := [⟨[.unaryTest (some .gt) (.call "count" [.name "free"])],
    [.invocation (.lambda ["x"] (.arithmetic .add (.name "x") (.name "fee"))) [.name "weight"]]⟩]
  outputs_ne := by decide
  outputs_named := by decide
  rules_fit := by decide

/-- A context with functions and texts beside what the table asks for. -/
theorem surcharge_ignores_other_names :
    let context : Context := [("fee", .ofNat 2), ("free", .list [.absent]), ("weight", .ofNat 3)]
    let other : Context := [("audit", .function (.lambda (.given 0) [] (.name "weight"))),
      ("fee", .ofNat 2), ("free", .list [.absent]), ("weight", .ofNat 3), ("zone", .string "east")]
    surcharge.evaluate (.root context 64 []) = .ok (.context [("price", .ofNat 5)]) ∧
      surcharge.evaluate (.root other 64 []) = .ok (.context [("price", .ofNat 5)]) := by
  intro context other
  have hprice : surcharge.evaluate (.root context 64 []) =
      .ok (.context [("price", .ofNat 5)]) := by rfl
  have hnames : surcharge.names = ["weight", "count", "free", "x", "fee", "weight"] := by rfl
  have hagree : ∀ n ∈ surcharge.names, Entries.get? other n = Entries.get? context n := by
    simp [hnames, other, context, Entries.get?_cons]
  have hplain : ∀ n ∈ surcharge.names, ∀ v, Entries.get? context n = some v →
      v.Only Function.IsBuiltin := by
    simp [hnames, context, Entries.get?_cons]
  exact ⟨hprice, (surcharge.evaluate_eq_of_names_agree hagree hplain 64 []).trans hprice⟩

end Table
end DecisionModel
