import DecisionModel.Value.Basic

/-!
# Names and functions

What an evaluation can look up, and what it can call. The names of an expression are those that its
evaluation may look up, in the bodies of the functions that it makes as well, since a body is
evaluated wherever the function is called. The functions of a value are those that can be got out of
it by taking lists and contexts apart. A predicate gives nothing out but its verdict, so what it
holds does not count.
-/

namespace DecisionModel

namespace Expr

/-- The expressions that are evaluated for an expression. The body of a function is not, until the
function is called. -/
def operands : Expr → List Expr
  | .literal _ | .name _ | .path _ | .lambda _ _ => []
  | .negation _ operand | .unaryTest _ operand => [operand]
  | .arithmetic _ left right | .comparison _ left right => [left, right]
  | .between value low high => [value, low, high]
  | .member value tests => value :: tests
  | .interval _ low high _ => [low, high]
  | .unaryTests items _ | .expressions items | .temporal _ items | .list items => items
  | .invocation function params => function :: params

theorem sizeOf_lt_of_mem_operands {e operand : Expr} (h : operand ∈ e.operands) :
    sizeOf operand < sizeOf e := by
  cases e with
  | literal | name | path | lambda => cases h
  | negation | unaryTest | arithmetic | comparison | between | interval =>
    simp only [operands, List.mem_cons, List.not_mem_nil, or_false] at h
    rcases h with rfl | rfl | rfl <;> simp <;> omega
  | unaryTests items | expressions items | temporal _ items | list items =>
    have : sizeOf operand < sizeOf items := List.sizeOf_lt_of_mem h
    simp
    omega
  | member value items | invocation value items =>
    rcases List.mem_cons.mp h with rfl | h
    · simp
      omega
    · have := List.sizeOf_lt_of_mem h
      simp
      omega

/-- Induction over what is evaluated. -/
theorem induction_on_operands {motive : Expr → Prop}
    (h : ∀ e, (∀ operand ∈ e.operands, motive operand) → motive e) (e : Expr) : motive e :=
  h e fun operand _ => induction_on_operands h operand
termination_by sizeOf e
decreasing_by exact sizeOf_lt_of_mem_operands ‹_›

mutual

/-- The names that are looked up: bare names, and the first names of paths. -/
def names : Expr → List String
  | .literal _ => []
  | .name n => [n]
  | .path ns => ns.take 1
  | .negation _ operand | .unaryTest _ operand => operand.names
  | .arithmetic _ left right | .comparison _ left right => left.names ++ right.names
  | .between value low high => value.names ++ low.names ++ high.names
  | .member value tests => value.names ++ namesOfAll tests
  | .interval _ low high _ => low.names ++ high.names
  | .unaryTests items _ | .expressions items | .temporal _ items | .list items => namesOfAll items
  | .invocation function params => function.names ++ namesOfAll params
  | .lambda _ body => body.names

def namesOfAll : List Expr → List String
  | [] => []
  | e :: es => e.names ++ namesOfAll es

end

theorem mem_namesOfAll {n : String} {es : List Expr} :
    n ∈ namesOfAll es ↔ ∃ e ∈ es, n ∈ e.names := by
  induction es with
  | nil => simp [namesOfAll]
  | cons e es ih => simp [namesOfAll, ih]

theorem mem_names_of_operand {e operand : Expr} (h : operand ∈ e.operands) {n : String}
    (hn : n ∈ operand.names) : n ∈ e.names := by
  cases e with
  | literal | name | path | lambda => cases h
  | negation | unaryTest | arithmetic | comparison | between | interval =>
    simp only [operands, List.mem_cons, List.not_mem_nil, or_false] at h
    rcases h with rfl | rfl | rfl <;> simp [names, hn]
  | unaryTests items | expressions items | temporal _ items | list items =>
    exact mem_namesOfAll.mpr ⟨operand, h, hn⟩
  | member value items | invocation value items =>
    rcases List.mem_cons.mp h with rfl | h
    · exact List.mem_append_left _ hn
    · exact List.mem_append_right _ (mem_namesOfAll.mpr ⟨operand, h, hn⟩)

/-- The names that a call with an input variable as an argument looks up for it are names of the
call. -/
theorem mem_names_of_argumentNamed? {e : Expr} {text : String} {path : List String}
    (h : e.argumentNamed? text = some path) {n : String} (hn : n ∈ path.take 1) : n ∈ e.names := by
  cases e with
  | invocation function params =>
    obtain ⟨param, hparam, hpath⟩ := List.exists_of_findSome?_eq_some h
    refine List.mem_append_right _ (mem_namesOfAll.mpr ⟨param, hparam, ?_⟩)
    cases param with
    | name name =>
      simp only [qualifiedName?] at hpath
      split at hpath
      · cases hpath
        exact hn
      · cases hpath
    | path names =>
      simp only [qualifiedName?] at hpath
      split at hpath
      · cases hpath
        exact hn
      · cases hpath
    | _ => cases hpath
  | _ => cases h

end Expr

/-! ## Functions in values -/

/-- The names that a function may look up where it is called. -/
def Function.names : Function → List String
  | .builtin _ => []
  | .lambda _ _ body | .decision _ _ body => body.names

namespace Value

mutual

/-- The functions in a value, in lists and contexts at any depth. -/
def functions : Value → List Function
  | .function f => [f]
  | .list items => functionsOfAll items
  | .context entries => functionsOfEntries entries
  | _ => []

def functionsOfAll : List Value → List Function
  | [] => []
  | v :: vs => v.functions ++ functionsOfAll vs

def functionsOfEntries : List (String × Value) → List Function
  | [] => []
  | (_, v) :: entries => v.functions ++ functionsOfEntries entries

end

/-- Whether all functions in a value are of one sort. -/
def Only (P : Function → Prop) (v : Value) : Prop := ∀ f ∈ v.functions, P f

variable {P : Function → Prop}

theorem mem_functionsOfAll {f : Function} {vs : List Value} :
    f ∈ functionsOfAll vs ↔ ∃ v ∈ vs, f ∈ v.functions := by
  induction vs with
  | nil => simp [functionsOfAll]
  | cons v vs ih => simp [functionsOfAll, ih]

theorem mem_functionsOfEntries {f : Function} {entries : List (String × Value)} :
    f ∈ functionsOfEntries entries ↔ ∃ entry ∈ entries, f ∈ entry.2.functions := by
  induction entries with
  | nil => simp [functionsOfEntries]
  | cons entry entries ih => simp [functionsOfEntries, ih]

/-- A value that is neither a function nor nested has no functions. -/
theorem only_of_functions_eq_nil {v : Value} (h : v.functions = []) : v.Only P := by
  simp [Only, h]

@[simp] theorem only_absent : absent.Only P := only_of_functions_eq_nil rfl

@[simp] theorem only_null : null.Only P := only_of_functions_eq_nil rfl

@[simp] theorem only_bool (b : Bool) : (bool b).Only P := only_of_functions_eq_nil rfl

@[simp] theorem only_number (n : Decimal) : (number n).Only P := only_of_functions_eq_nil rfl

@[simp] theorem only_ofNat (n : Nat) : (ofNat n).Only P := only_number _

@[simp] theorem only_string (s : String) : (string s).Only P := only_of_functions_eq_nil rfl

@[simp] theorem only_date (d : Date) : (date d).Only P := only_of_functions_eq_nil rfl

@[simp] theorem only_time (t : Time) : (time t).Only P := only_of_functions_eq_nil rfl

@[simp] theorem only_dateTime (dt : DateTime) : (dateTime dt).Only P := only_of_functions_eq_nil rfl

@[simp] theorem only_months (d : Months) : (months d).Only P := only_of_functions_eq_nil rfl

@[simp] theorem only_elapsed (d : Elapsed) : (elapsed d).Only P := only_of_functions_eq_nil rfl

@[simp] theorem only_composite (d : Composite) : (composite d).Only P :=
  only_of_functions_eq_nil rfl

@[simp] theorem only_predicate (p : Predicate) : (predicate p).Only P :=
  only_of_functions_eq_nil rfl

@[simp] theorem only_function {f : Function} : (function f).Only P ↔ P f := by
  simp [Only, functions]

@[simp] theorem only_list {items : List Value} :
    (list items).Only P ↔ ∀ item ∈ items, item.Only P := by
  simp only [Only, functions, mem_functionsOfAll]
  exact ⟨fun h v hv f hf => h f ⟨v, hv, hf⟩, fun h f ⟨v, hv, hf⟩ => h v hv f hf⟩

theorem only_context {entries : List (String × Value)} :
    (context entries).Only P ↔ ∀ entry ∈ entries, entry.2.Only P := by
  simp only [Only, functions, mem_functionsOfEntries]
  exact ⟨fun h v hv f hf => h f ⟨v, hv, hf⟩, fun h f ⟨v, hv, hf⟩ => h v hv f hf⟩

theorem only_field {v : Value} (h : v.Only P) (name : String) : (v.field name).Only P := by
  cases v with
  | context entries =>
    simp only [field]
    cases hget : Entries.get? entries name with
    | none => exact only_absent
    | some value => exact only_context.mp h (name, value) (Entries.mem_of_get? hget)
  | _ => exact only_absent

theorem only_follow {v : Value} (h : v.Only P) (path : List String) : (v.follow path).Only P := by
  induction path generalizing v with
  | nil => exact h
  | cons name path ih => exact ih (only_field h name)

end Value
end DecisionModel
