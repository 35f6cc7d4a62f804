import DecisionModel.Operator.Arithmetic
import DecisionModel.Operator.Predicate
import DecisionModel.Proofs.Bind
import Mathlib.Logic.Function.Basic

/-!
# Functions made elsewhere

A function is recognised by the site where it was made, and by nothing else. So if every site is
exchanged for another one, and different sites for different ones, no operator can tell: it yields
what it yielded before, with the functions in it made at the other sites.

A map of sites is taken through values (`Value.relocate`), and every operator commutes with it. That
it takes no two sites to one is only asked for where functions are compared.
-/

namespace DecisionModel

/-! ## Values after a move -/

def Identity.relocate (ρ : Site → Site) : Identity → Identity
  | .given index => .given index
  | .made site => .made (ρ site)

def Function.relocate (ρ : Site → Site) : Function → Function
  | .builtin b => .builtin b
  | .lambda identity params body => .lambda (identity.relocate ρ) params body
  | .decision identity name body => .decision (identity.relocate ρ) name body

mutual

/-- A value with the functions in it, at any depth, made at other sites. -/
def Value.relocate (ρ : Site → Site) : Value → Value
  | .null => .null
  | .absent => .absent
  | .bool b => .bool b
  | .number n => .number n
  | .string s => .string s
  | .list items => .list (relocateAll ρ items)
  | .context entries => .context (relocateEntries ρ entries)
  | .date d => .date d
  | .time t => .time t
  | .dateTime dt => .dateTime dt
  | .months d => .months d
  | .elapsed d => .elapsed d
  | .composite d => .composite d
  | .function f => .function (f.relocate ρ)
  | .predicate p => .predicate (p.relocate ρ)

def Predicate.relocate (ρ : Site → Site) : Predicate → Predicate
  | .compare op bound => .compare op (bound.relocate ρ)
  | .interval lowBound low high highBound =>
    .interval lowBound (low.relocate ρ) (high.relocate ρ) highBound
  | .constant result => .constant result
  | .anyOf tests => .anyOf (relocateTests ρ tests)
  | .negate test => .negate (test.relocate ρ)

def relocateAll (ρ : Site → Site) : List Value → List Value
  | [] => []
  | v :: vs => v.relocate ρ :: relocateAll ρ vs

def relocateEntries (ρ : Site → Site) : List (String × Value) → List (String × Value)
  | [] => []
  | (name, v) :: entries => (name, v.relocate ρ) :: relocateEntries ρ entries

def relocateTests (ρ : Site → Site) : List Predicate → List Predicate
  | [] => []
  | p :: tests => p.relocate ρ :: relocateTests ρ tests

end

/-- Bindings with the functions in their values made at other sites. -/
def Context.relocate (ρ : Site → Site) (context : Context) : Context :=
  context.map (Prod.map id (Value.relocate ρ))

variable {ρ : Site → Site}

theorem relocateAll_eq_map (vs : List Value) : relocateAll ρ vs = vs.map (Value.relocate ρ) := by
  induction vs with
  | nil => rfl
  | cons v vs ih => rw [relocateAll, ih, List.map_cons]

theorem relocateEntries_eq (entries : List (String × Value)) :
    relocateEntries ρ entries = Context.relocate ρ entries := by
  induction entries with
  | nil => rfl
  | cons entry entries ih =>
    rw [relocateEntries, ih]
    rfl

theorem relocateTests_eq_map (tests : List Predicate) :
    relocateTests ρ tests = tests.map (Predicate.relocate ρ) := by
  induction tests with
  | nil => rfl
  | cons p tests ih => rw [relocateTests, ih, List.map_cons]

namespace Value

@[simp] theorem relocate_null : null.relocate ρ = null := rfl

@[simp] theorem relocate_absent : absent.relocate ρ = absent := rfl

@[simp] theorem relocate_bool (b : Bool) : (bool b).relocate ρ = bool b := rfl

@[simp] theorem relocate_number (n : Decimal) : (number n).relocate ρ = number n := rfl

@[simp] theorem relocate_string (s : String) : (string s).relocate ρ = string s := rfl

@[simp] theorem relocate_list (items : List Value) :
    (list items).relocate ρ = list (items.map (relocate ρ)) :=
  congrArg list (relocateAll_eq_map items)

@[simp] theorem relocate_context (entries : Context) :
    (context entries).relocate ρ = context (entries.relocate ρ) :=
  congrArg context (relocateEntries_eq entries)

@[simp] theorem relocate_function (f : Function) :
    (function f).relocate ρ = function (f.relocate ρ) := rfl

@[simp] theorem relocate_predicate (p : Predicate) :
    (predicate p).relocate ρ = predicate (p.relocate ρ) := rfl

/-! ## What a value is stays as it is -/

@[simp] theorem kind_relocate (v : Value) : (v.relocate ρ).kind = v.kind := by
  cases v <;> rfl

@[simp] theorem isAbsent_relocate (v : Value) : (v.relocate ρ).isAbsent = v.isAbsent := by
  cases v <;> rfl

@[simp] theorem isNull_relocate (v : Value) : (v.relocate ρ).isNull = v.isNull := by
  cases v <;> rfl

@[simp] theorem isMissing_relocate (v : Value) : (v.relocate ρ).isMissing = v.isMissing := by
  simp only [isMissing, isAbsent_relocate, isNull_relocate]

end Value

/-! ## Bindings -/

namespace Context

theorem get?_relocate (context : Context) (name : String) :
    Entries.get? (context.relocate ρ) name =
      (Entries.get? context name).map (Value.relocate ρ) := by
  induction context with
  | nil => rfl
  | cons entry entries ih =>
    obtain ⟨other, v⟩ := entry
    change Entries.get? ((other, v.relocate ρ) :: Context.relocate ρ entries) name = _
    rw [Entries.get?_cons, Entries.get?_cons, ih]
    split <;> rfl

theorem insert_relocate (context : Context) (name : String) (v : Value) :
    Entries.insert (context.relocate ρ) name (v.relocate ρ) =
      Context.relocate ρ (Entries.insert context name v) := by
  induction context with
  | nil => rfl
  | cons entry entries ih =>
    obtain ⟨other, old⟩ := entry
    change Entries.insert ((other, old.relocate ρ) :: Context.relocate ρ entries) name _ = _
    rw [Entries.insert, Entries.insert, ih]
    split
    · rfl
    · split <;> rfl

theorem ofValue_relocate (v : Value) : ofValue (v.relocate ρ) = (ofValue v).relocate ρ := by
  cases v with
  | context entries => exact relocateEntries_eq entries
  | _ => rfl

theorem setPath_relocate (context : Context) (path : List String) (v : Value) :
    (context.relocate ρ).setPath path (v.relocate ρ) = (context.setPath path v).relocate ρ := by
  induction path generalizing context with
  | nil => rfl
  | cons name path ih =>
    cases path with
    | nil => exact insert_relocate context name v
    | cons next path =>
      have hinner : (Entries.get? (context.relocate ρ) name).getD .absent =
          ((Entries.get? context name).getD .absent).relocate ρ := by
        rw [get?_relocate]
        cases Entries.get? context name <;> rfl
      change Entries.insert _ name (Value.context ((ofValue ((Entries.get? (context.relocate ρ)
        name).getD .absent)).setPath (next :: path) (v.relocate ρ))) = _
      rw [hinner, ofValue_relocate, ih, ← Value.relocate_context, insert_relocate]
      rfl

end Context

namespace Value

theorem field_relocate (v : Value) (name : String) :
    (v.relocate ρ).field name = (v.field name).relocate ρ := by
  cases v with
  | context entries =>
    rw [relocate_context, field, field, Context.get?_relocate]
    cases Entries.get? entries name <;> rfl
  | _ => rfl

theorem follow_relocate (v : Value) (path : List String) :
    (v.relocate ρ).follow path = (v.follow path).relocate ρ := by
  induction path generalizing v with
  | nil => rfl
  | cons name path ih => exact (congrArg (follow · path) (field_relocate v name)).trans (ih _)

end Value

/-! ## Equality and order -/

theorem Identity.relocate_injective (hρ : ρ.Injective) : (Identity.relocate ρ).Injective
  | .given _, .given _, h => h
  | .made _, .made _, h => congrArg made (hρ (made.inj h))

theorem Function.same_relocate (hρ : ρ.Injective) (f g : Function) :
    (f.relocate ρ).same (g.relocate ρ) = f.same g := by
  have hidentity : ∀ i j : Identity, (i.relocate ρ == j.relocate ρ) = (i == j) := fun i j => by
    rw [Bool.eq_iff_iff, beq_iff_eq, beq_iff_eq, (Identity.relocate_injective hρ).eq_iff]
  cases f <;> cases g <;> first | rfl | exact hidentity _ _

namespace Value

mutual

theorem equals_relocate (hρ : ρ.Injective) (a b : Value) :
    (a.relocate ρ).equals (b.relocate ρ) = a.equals b := by
  cases a <;> cases b
  case list.list as bs => exact congrArg Except.ok (agreeAll_relocate hρ as bs)
  case context.context as bs => exact congrArg Except.ok (agreeEntries_relocate hρ as bs)
  case function.function f g => exact congrArg Except.ok (Function.same_relocate hρ f g)
  -- whatever else there is to compare stays as it is, or is refused for its kind
  all_goals rfl

theorem agreeAll_relocate (hρ : ρ.Injective) (as bs : List Value) :
    agreeAll (relocateAll ρ as) (relocateAll ρ bs) = agreeAll as bs := by
  cases as with
  | nil => cases bs <;> rfl
  | cons a as =>
    cases bs with
    | nil => rfl
    | cons b bs =>
      rw [relocateAll, relocateAll, agreeAll, agreeAll, equals_relocate hρ a b,
        agreeAll_relocate hρ as bs]

theorem agreeEntries_relocate (hρ : ρ.Injective) (as bs : List (String × Value)) :
    agreeEntries (relocateEntries ρ as) (relocateEntries ρ bs) = agreeEntries as bs := by
  cases as with
  | nil => cases bs <;> rfl
  | cons entry as =>
    obtain ⟨m, a⟩ := entry
    cases bs with
    | nil => rfl
    | cons entry bs =>
      obtain ⟨n, b⟩ := entry
      rw [relocateEntries, relocateEntries, agreeEntries, agreeEntries, equals_relocate hρ a b,
        agreeEntries_relocate hρ as bs]

end

theorem agrees_relocate (hρ : ρ.Injective) (a b : Value) :
    (a.relocate ρ).agrees (b.relocate ρ) = a.agrees b :=
  congrArg holds (equals_relocate hρ a b)

theorem order_relocate (op : ComparisonOp) (a b : Value) :
    (a.relocate ρ).order op (b.relocate ρ) = a.order op b := by
  cases a <;> cases b <;> rfl

theorem compare_relocate (hρ : ρ.Injective) (op : ComparisonOp) (a b : Value) :
    (a.relocate ρ).compare op (b.relocate ρ) = a.compare op b := by
  simp only [compare, isAbsent_relocate, equals_relocate hρ, order_relocate]

/-! ## Arithmetic -/

theorem arithmetic_relocate (op : ArithmeticOp) (a b : Value) :
    arithmetic op (a.relocate ρ) (b.relocate ρ) = arithmetic op a b := by
  cases op <;> cases a <;> cases b <;> rfl

theorem negate_relocate (v : Value) : (v.relocate ρ).negate = v.negate.map (relocate ρ) := by
  cases v with
  | months d =>
    show d.negate.map .months = (d.negate.map .months).map (relocate ρ)
    cases d.negate <;> rfl
  | elapsed d =>
    show d.negate.map .elapsed = (d.negate.map .elapsed).map (relocate ρ)
    cases d.negate <;> rfl
  | composite d =>
    show d.negate.map .composite = (d.negate.map .composite).map (relocate ρ)
    cases d.negate <;> rfl
  | _ => rfl

end Value

/-! ## Tests -/

namespace Predicate

theorem testInterval_relocate (hρ : ρ.Injective) (lowBound : Bound) (low high : Value)
    (highBound : Bound) (candidate : Value) :
    testInterval lowBound (low.relocate ρ) (high.relocate ρ) highBound (candidate.relocate ρ) =
      testInterval lowBound low high highBound candidate := by
  simp only [testInterval, Value.isAbsent_relocate, Value.compare_relocate hρ]

mutual

/-- A test says of a candidate what it said of it before, if both have moved. -/
theorem test_relocate (hρ : ρ.Injective) (p : Predicate) (candidate : Value) :
    (p.relocate ρ).test (candidate.relocate ρ) = p.test candidate := by
  cases p with
  | compare op bound => exact Value.compare_relocate hρ op candidate bound
  | interval lowBound low high highBound =>
    exact testInterval_relocate hρ lowBound low high highBound candidate
  | constant result => rfl
  | anyOf tests => exact testAny_relocate hρ (.bool false) tests candidate
  | negate p =>
    rw [Predicate.relocate, test, test, test_relocate hρ p candidate]

theorem testAny_relocate (hρ : ρ.Injective) (result : Value) (tests : List Predicate)
    (candidate : Value) :
    testAny result (relocateTests ρ tests) (candidate.relocate ρ) =
      testAny result tests candidate := by
  cases tests with
  | nil => rfl
  | cons p tests =>
    rw [relocateTests, testAny, testAny, test_relocate hρ p candidate]
    cases p.test candidate with
    | error fault => rfl
    | ok outcome =>
      rw [ok_bind, ok_bind]
      dsimp only
      split
      · rfl
      · exact testAny_relocate hρ (result.or3 outcome) tests candidate

end

end Predicate

/-! ## Values that stay -/

/-- The site where a function was made, if it was. -/
def Function.site? : Function → Option Site
  | .lambda (.made site) _ _ | .decision (.made site) _ _ => some site
  | _ => none

mutual

/-- The sites where the functions in a value were made, those in predicates as well. -/
def Value.sites : Value → List Site
  | .list items => sitesOfAll items
  | .context entries => sitesOfEntries entries
  | .function f => f.site?.toList
  | .predicate p => p.sites
  | _ => []

def Predicate.sites : Predicate → List Site
  | .compare _ bound => bound.sites
  | .interval _ low high _ => low.sites ++ high.sites
  | .constant _ => []
  | .anyOf tests => sitesOfTests tests
  | .negate test => test.sites

def sitesOfAll : List Value → List Site
  | [] => []
  | v :: vs => v.sites ++ sitesOfAll vs

def sitesOfEntries : List (String × Value) → List Site
  | [] => []
  | (_, v) :: entries => v.sites ++ sitesOfEntries entries

def sitesOfTests : List Predicate → List Site
  | [] => []
  | p :: tests => p.sites ++ sitesOfTests tests

end

theorem Function.relocate_eq_self_iff {f : Function} :
    f.relocate ρ = f ↔ ∀ site ∈ f.site?, ρ site = site := by
  cases f with
  | builtin b => simp [relocate, site?]
  | lambda identity params body =>
    cases identity <;> simp [relocate, Identity.relocate, site?]
  | decision identity name body =>
    cases identity <;> simp [relocate, Identity.relocate, site?]

mutual

/-- A value stays as it is exactly if no site of a function in it changes. -/
theorem Value.relocate_eq_self_iff (v : Value) :
    v.relocate ρ = v ↔ ∀ site ∈ v.sites, ρ site = site := by
  cases v with
  | list items => rw [Value.relocate, Value.list.injEq, relocateAll_eq_self_iff items, Value.sites]
  | context entries =>
    rw [Value.relocate, Value.context.injEq, relocateEntries_eq_self_iff entries, Value.sites]
  | function f =>
    rw [Value.relocate, Value.function.injEq, f.relocate_eq_self_iff, Value.sites]
    simp
  | predicate p =>
    rw [Value.relocate, Value.predicate.injEq, p.relocate_eq_self_iff, Value.sites]
  | _ => exact iff_of_true rfl nofun

theorem Predicate.relocate_eq_self_iff (p : Predicate) :
    p.relocate ρ = p ↔ ∀ site ∈ p.sites, ρ site = site := by
  cases p with
  | compare op bound =>
    rw [Predicate.relocate, Predicate.compare.injEq, bound.relocate_eq_self_iff, Predicate.sites,
      and_iff_right rfl]
  | interval lowBound low high highBound =>
    rw [Predicate.relocate, Predicate.interval.injEq, low.relocate_eq_self_iff,
      high.relocate_eq_self_iff, Predicate.sites, List.forall_mem_append, and_iff_right rfl,
      and_iff_left rfl]
  | constant result => exact iff_of_true rfl nofun
  | anyOf tests =>
    rw [Predicate.relocate, Predicate.anyOf.injEq, relocateTests_eq_self_iff tests,
      Predicate.sites]
  | negate test =>
    rw [Predicate.relocate, Predicate.negate.injEq, test.relocate_eq_self_iff, Predicate.sites]

theorem relocateAll_eq_self_iff (vs : List Value) :
    relocateAll ρ vs = vs ↔ ∀ site ∈ sitesOfAll vs, ρ site = site := by
  cases vs with
  | nil => exact iff_of_true rfl nofun
  | cons v vs =>
    rw [relocateAll, List.cons.injEq, v.relocate_eq_self_iff, relocateAll_eq_self_iff vs,
      sitesOfAll, List.forall_mem_append]

theorem relocateEntries_eq_self_iff (entries : List (String × Value)) :
    relocateEntries ρ entries = entries ↔ ∀ site ∈ sitesOfEntries entries, ρ site = site := by
  cases entries with
  | nil => exact iff_of_true rfl nofun
  | cons entry entries =>
    obtain ⟨name, v⟩ := entry
    rw [relocateEntries, List.cons.injEq, Prod.mk.injEq, v.relocate_eq_self_iff,
      relocateEntries_eq_self_iff entries, sitesOfEntries, List.forall_mem_append,
      and_iff_right rfl]

theorem relocateTests_eq_self_iff (tests : List Predicate) :
    relocateTests ρ tests = tests ↔ ∀ site ∈ sitesOfTests tests, ρ site = site := by
  cases tests with
  | nil => exact iff_of_true rfl nofun
  | cons p tests =>
    rw [relocateTests, List.cons.injEq, p.relocate_eq_self_iff, relocateTests_eq_self_iff tests,
      sitesOfTests, List.forall_mem_append]

end

theorem Context.relocate_eq_self_iff {context : Context} :
    context.relocate ρ = context ↔ ∀ site ∈ sitesOfEntries context, ρ site = site := by
  rw [← relocateEntries_eq, relocateEntries_eq_self_iff]

end DecisionModel
