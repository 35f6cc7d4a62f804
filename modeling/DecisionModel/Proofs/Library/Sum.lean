import DecisionModel.Proofs.Library.AbsentArgument
import Mathlib.Data.List.Induction

/-!
# Sums

The function `sum` is meant for numbers and for durations, but it does not look at the kinds of its
operands: it adds them up from the left with the operator `+`, which also joins texts and moves
dates and times by durations. So a single operand is its own sum, whatever it is, and among several
a text or a point in time takes up the others. Which kinds go together is a matter of the kinds
alone (`Kind.plus?`), since an addition of two values that go together has a result of one known
kind or overflows.

Operands none of which takes up others are added up only if they are alike.
-/

namespace DecisionModel

namespace Kind

variable {k l r : Kind} {ks : List Kind}

/-! ## Kinds that go together -/

def isDuration : Kind → Bool
  | .months | .elapsed | .composite => true
  | _ => false

/-- The kinds that are added up among themselves: numbers, and the durations of one family. -/
def isSummable : Kind → Bool
  | .number | .months | .elapsed => true
  | _ => false

/-- The kinds that take up others: numbers are joined to a text, and a point in time is moved by
durations. -/
def takesUp : Kind → Bool
  | .string | .date | .time | .dateTime => true
  | _ => false

/-- The kind of the sum of two values. -/
def plus? : Kind → Kind → Option Kind
  | .absent, _ => some .absent
  | _, .absent => some .absent
  | .number, .number => some .number
  | .string, .string => some .string
  | .string, .number => some .string
  | .number, .string => some .string
  | .months, .months => some .months
  | .elapsed, .elapsed => some .elapsed
  | .time, .elapsed => some .time
  | .elapsed, .time => some .time
  | .date, k => if k.isDuration then some .date else none
  | .dateTime, k => if k.isDuration then some .dateTime else none
  | k, .date => if k.isDuration then some .date else none
  | k, .dateTime => if k.isDuration then some .dateTime else none
  | _, _ => none

/-- The kind of the sum of values of these kinds, from the left. -/
def sum? : List Kind → Option Kind
  | [] => some .number
  | k :: ks => ks.foldlM plus? k

theorem sum?_append_singleton (hne : ks ≠ []) (l : Kind) :
    sum? (ks ++ [l]) = (sum? ks).bind (·.plus? l) := by
  cases ks with
  | nil => exact absurd rfl hne
  | cons k ks =>
    rw [List.cons_append, sum?, List.foldlM_append, sum?]
    exact Option.bind_congr fun r _ => bind_pure _

/-- Two kinds that do not take up others go together only if they are the same. -/
theorem plus?_eq_some_of_plain (hk : k.takesUp = false) (hl : l.takesUp = false)
    (h : k.plus? l = some r) :
    (k = .absent ∨ l = .absent) ∧ r = .absent ∨ r.isSummable = true ∧ k = r ∧ l = r := by
  cases k <;> cases hk <;> cases l <;> cases hl <;> cases h
  all_goals first | exact .inr ⟨rfl, rfl, rfl⟩ | exact .inl ⟨by decide, rfl⟩

/-- What takes up another is still of its own kind. -/
theorem plus?_eq_some_of_takesUp (htakes : k.takesUp = true ∨ l.takesUp = true)
    (h : k.plus? l = some r) : r = .absent ∨ r.takesUp = true := by
  rcases htakes with hk | hl
  · cases k <;> cases hk <;> cases l <;> cases h
    all_goals first | exact .inl rfl | exact .inr rfl
  · cases l <;> cases hl <;> cases k <;> cases h
    all_goals first | exact .inl rfl | exact .inr rfl

/-- Kinds that do not take up others add up only if they are all the same, or to absent. -/
theorem sum?_eq_some_of_plain (hne : ks ≠ []) (hplain : ∀ k ∈ ks, k.takesUp = false)
    (h : sum? ks = some r) :
    r = .absent ∨ (∀ k ∈ ks, k = r) ∧ (ks.length = 1 ∨ r.isSummable = true) := by
  induction ks using List.reverseRecOn generalizing r with
  | nil => exact absurd rfl hne
  | append_singleton ks l ih =>
    by_cases hfirst : ks = []
    · subst hfirst
      cases h
      exact .inr ⟨fun k hk => List.mem_singleton.mp hk, .inl rfl⟩
    rw [List.forall_mem_append, List.forall_mem_singleton] at hplain
    obtain ⟨hks, hl⟩ := hplain
    rw [sum?_append_singleton hfirst] at h
    obtain ⟨k, hk, h⟩ := Option.bind_eq_some_iff.mp h
    rcases ih hfirst hks hk with rfl | ⟨hsame, -⟩
    -- what is absent stays so
    · cases l <;> cases h <;> exact .inl rfl
    have htakes : k.takesUp = false := by
      obtain ⟨first, hmem⟩ := List.exists_mem_of_ne_nil ks hfirst
      rw [← hsame first hmem]
      exact hks first hmem
    rcases plus?_eq_some_of_plain htakes hl h with ⟨-, habsent⟩ | ⟨hr, hkr, hlr⟩
    · exact .inl habsent
    · refine .inr ⟨?_, .inr hr⟩
      rw [List.forall_mem_append, List.forall_mem_singleton]
      exact ⟨fun k' hk' => (hsame k' hk').trans hkr, hlr⟩

/-- As soon as one of several kinds takes up others, what they add up to does. -/
theorem sum?_eq_some_of_takesUp (htakes : ∃ k ∈ ks, k.takesUp = true) (h : sum? ks = some r) :
    r = .absent ∨ r.takesUp = true := by
  induction ks using List.reverseRecOn generalizing r with
  | nil =>
    obtain ⟨k, hk, -⟩ := htakes
    exact absurd hk List.not_mem_nil
  | append_singleton ks l ih =>
    by_cases hfirst : ks = []
    · subst hfirst
      cases h
      obtain ⟨k, hk, htakes⟩ := htakes
      exact .inr (List.mem_singleton.mp hk ▸ htakes)
    rw [sum?_append_singleton hfirst] at h
    obtain ⟨k, hk, h⟩ := Option.bind_eq_some_iff.mp h
    obtain ⟨k', hk', hk'takes⟩ := htakes
    rcases List.mem_append.mp hk' with hearlier | hlast
    · rcases ih ⟨k', hearlier, hk'takes⟩ hk with rfl | hktakes
      · cases l <;> cases h <;> exact .inl rfl
      · exact plus?_eq_some_of_takesUp (.inl hktakes) h
    · exact plus?_eq_some_of_takesUp (.inr (List.mem_singleton.mp hlast ▸ hk'takes)) h

end Kind

/-! ## One addition -/

/-- A computation that comes to a result or overflows. -/
def InRangeOrOverflow {α : Type} (r : Result α) : Prop :=
  ∀ e, r = .error e → ∃ cause, e = .overflow cause

namespace InRangeOrOverflow

variable {α β : Type} {r : Result α}

theorem of_ok (a : α) : InRangeOrOverflow (.ok a : Result α) := by
  intro e h
  cases h

theorem of_unless (cause : Overflow) (r : Option α) :
    InRangeOrOverflow (Overflow.unless cause r) := by
  intro e h
  exact ⟨cause, (Overflow.unless_eq_error_iff.mp h).1⟩

theorem of_orOverflow (op : ArithmeticOp) (a b : Decimal) (r : Option Decimal) :
    InRangeOrOverflow (Number.orOverflow op a b r) := by
  intro e h
  cases r with
  | none => exact ⟨_, (Except.error.inj h).symm⟩
  | some d => cases h

theorem bind {f : α → Result β} (h : InRangeOrOverflow r)
    (hf : ∀ a, InRangeOrOverflow (f a)) : InRangeOrOverflow (r >>= f) := by
  intro e he
  rcases bind_eq_error_iff.mp he with herror | ⟨a, -, herror⟩
  · exact h e herror
  · exact hf a e herror

theorem map {f : α → β} (h : InRangeOrOverflow r) : InRangeOrOverflow (r.map f) := by
  cases r with
  | ok a => exact of_ok (f a)
  | error e =>
    intro e' he'
    cases he'
    exact h e rfl

end InRangeOrOverflow

namespace Value

open Kind (plus?)

variable {a b : Value}

/-- What an addition comes to, by the kinds of the two values. -/
inductive Adds (a b : Value) : Result Value → Prop where
  | value {v : Value} (h : a.kind.plus? b.kind = some v.kind) : Adds a b (.ok v)
  | overflow {k : Kind} (h : a.kind.plus? b.kind = some k) (cause : Overflow) :
    Adds a b (.error (.overflow cause))
  | mismatch (h : a.kind.plus? b.kind = none) : Adds a b (.error (mismatch "+" a b))

/-- Values that go together have a sum of their kind, or it is out of range. -/
theorem Adds.of_map {α : Type} {r : Result α} {f : α → Value} {k : Kind}
    (h : a.kind.plus? b.kind = some k) (hr : InRangeOrOverflow r) (hf : ∀ x, (f x).kind = k) :
    Adds a b (r.map f) := by
  cases r with
  | ok x => exact .value (h.trans (congrArg some (hf x).symm))
  | error e =>
    obtain ⟨cause, rfl⟩ := hr e rfl
    exact .overflow h cause

theorem inRangeOrOverflow_plusComposite (d : Date) (c : Composite) :
    InRangeOrOverflow (d.plusComposite c) := .bind (.of_unless _ _) fun _ => .of_unless _ _

theorem inRangeOrOverflow_plusComposite_dateTime (dt : DateTime) (c : Composite) :
    InRangeOrOverflow (dt.plusComposite c) := .bind (.map (.of_unless _ _)) fun _ => .of_unless _ _

/-- **An addition follows the kinds of its operands.** -/
theorem adds_arithmetic (a b : Value) : Adds a b (arithmetic .add a b) := by
  cases a <;> cases b
  case number.number m n => exact .of_map rfl (.of_orOverflow _ _ _ _) fun _ => rfl
  case months.months m n => exact .of_map rfl (.of_unless _ _) fun _ => rfl
  case elapsed.elapsed d e => exact .of_map rfl (.of_unless _ _) fun _ => rfl
  case date.months d m => exact .of_map rfl (.of_unless _ _) fun _ => rfl
  case months.date m d => exact .of_map rfl (.of_unless _ _) fun _ => rfl
  case dateTime.months dt m => exact .of_map rfl (.map (.of_unless _ _)) fun _ => rfl
  case months.dateTime m dt => exact .of_map rfl (.map (.of_unless _ _)) fun _ => rfl
  case date.elapsed d e => exact .of_map rfl (.of_unless _ _) fun _ => rfl
  case elapsed.date e d => exact .of_map rfl (.of_unless _ _) fun _ => rfl
  case dateTime.elapsed dt e => exact .of_map rfl (.of_unless _ _) fun _ => rfl
  case elapsed.dateTime e dt => exact .of_map rfl (.of_unless _ _) fun _ => rfl
  case date.composite d c =>
    exact .of_map rfl (inRangeOrOverflow_plusComposite d c) fun _ => rfl
  case composite.date c d =>
    exact .of_map rfl (inRangeOrOverflow_plusComposite d c) fun _ => rfl
  case dateTime.composite dt c =>
    exact .of_map rfl (inRangeOrOverflow_plusComposite_dateTime dt c) fun _ => rfl
  case composite.dateTime c dt =>
    exact .of_map rfl (inRangeOrOverflow_plusComposite_dateTime dt c) fun _ => rfl
  -- an absent operand, a text or a time; all others do not go together
  all_goals first | exact .value rfl | exact .mismatch rfl

theorem kind_eq_absent_iff {v : Value} : v.kind = .absent ↔ v = .absent := by
  cases v <;> simp [kind]

theorem arithmetic_of_absent (op : ArithmeticOp) (h : a.kind = .absent ∨ b.kind = .absent) :
    arithmetic op a b = .ok .absent := by
  rw [kind_eq_absent_iff, kind_eq_absent_iff] at h
  rcases h with rfl | rfl
  · rfl
  · simp only [arithmetic, isAbsent_absent, Bool.or_true, if_true]

end Value

namespace Library

variable {args items before after : List Value} {v : Value}

/-! ## All operands -/

/-- The operands added up from the left. -/
def total : List Value → Result Value
  | [] => .ok (.ofNat 0)
  | item :: items => items.foldlM (Value.arithmetic .add) item

/-- No operand is looked at in advance; a single one that is missing is handed back as well. -/
theorem sum_eq_total (args : List Value) : sum args = total (operands args) := by
  have hsum : sum args = aggregate total args := rfl
  rw [hsum]
  by_cases hone : args.length = 1
  · obtain ⟨v, rfl⟩ := List.length_eq_one_iff.mp hone
    cases v <;> rfl
  · rw [aggregate_of_length hone, operands_of_length hone]

theorem total_append_singleton (hne : items ≠ []) (v : Value) :
    total (items ++ [v]) = (do Value.arithmetic .add (← total items) v) := by
  cases items with
  | nil => exact absurd rfl hne
  | cons item items =>
    rw [List.cons_append, total, List.foldlM_append, total]
    simp only [List.foldlM_cons, List.foldlM_nil, bind_pure]

/-- What the operands of a sum come to: a value of the kind that theirs add up to, or the error of
the first addition that fails, because the two kinds do not go together or because the result is out
of range. -/
inductive AddsUp (items : List Value) : Result Value → Prop where
  | value {v : Value} (h : Kind.sum? (items.map Value.kind) = some v.kind) : AddsUp items (.ok v)
  | mismatch {before after : List Value} {left right : Value} (hne : before ≠ [])
    (hsplit : items = before ++ right :: after) (hleft : total before = .ok left)
    (hkinds : left.kind.plus? right.kind = none) :
    AddsUp items (.error (Value.mismatch "+" left right))
  | overflow {before after : List Value} {left right : Value} {k : Kind} {cause : Overflow}
    (hne : before ≠ []) (hsplit : items = before ++ right :: after)
    (hleft : total before = .ok left) (hkinds : left.kind.plus? right.kind = some k)
    (hsum : Value.arithmetic .add left right = .error (.overflow cause)) :
    AddsUp items (.error (.overflow cause))

/-- **One more operand.** -/
theorem AddsUp.append_singleton (hne : items ≠ []) (h : AddsUp items (total items)) (v : Value) :
    AddsUp (items ++ [v]) (total (items ++ [v])) := by
  rw [total_append_singleton hne]
  generalize hr : total items = r at h
  cases h with
  | @value sum h =>
    have hkinds : Kind.sum? ((items ++ [v]).map Value.kind) = sum.kind.plus? v.kind := by
      rw [List.map_append, List.map_singleton,
        Kind.sum?_append_singleton (fun hnil => hne (List.map_eq_nil_iff.mp hnil)), h,
        Option.bind_some]
    have hadds := Value.adds_arithmetic sum v
    rw [ok_bind]
    generalize hs : Value.arithmetic .add sum v = s at hadds
    cases hadds with
    | value h => exact .value (hkinds.trans h)
    | overflow h cause => exact .overflow hne rfl hr h hs
    | mismatch h => exact .mismatch hne rfl hr h
  | mismatch hbefore hsplit hleft hkinds =>
    exact .mismatch hbefore (by rw [hsplit, List.append_assoc, List.cons_append]) hleft hkinds
  | overflow hbefore hsplit hleft hkinds hsum =>
    exact .overflow hbefore (by rw [hsplit, List.append_assoc, List.cons_append]) hleft hkinds hsum

/-- **All operands.** -/
theorem addsUp_total (hne : items ≠ []) : AddsUp items (total items) := by
  induction items using List.reverseRecOn with
  | nil => exact absurd rfl hne
  | append_singleton items v ih =>
    by_cases hfirst : items = []
    · subst hfirst
      exact .value rfl
    · exact (ih hfirst).append_singleton hfirst v

theorem sum?_kinds_of_total (hne : items ≠ []) (h : total items = .ok v) :
    Kind.sum? (items.map Value.kind) = some v.kind := by
  have hadds := addsUp_total hne
  rw [h] at hadds
  cases hadds with
  | value h => exact h

/-- What operands that do not take up others add up to shows that they are all alike. -/
theorem kinds_of_total (hne : items ≠ []) (hplain : ∀ u ∈ items, u.kind.takesUp = false)
    (h : total items = .ok v) (hpresent : v ≠ .absent) :
    (∀ u ∈ items, u.kind = v.kind) ∧ (items.length = 1 ∨ v.kind.isSummable = true) := by
  have hkinds := sum?_kinds_of_total hne h
  have hplain' : ∀ k ∈ items.map Value.kind, k.takesUp = false := List.forall_mem_map.mpr hplain
  have hne' : items.map Value.kind ≠ [] := fun hnil => hne (List.map_eq_nil_iff.mp hnil)
  rcases Kind.sum?_eq_some_of_plain hne' hplain' hkinds with habsent | ⟨hsame, hsummable⟩
  · exact absurd (Value.kind_eq_absent_iff.mp habsent) hpresent
  · exact ⟨List.forall_mem_map.mp hsame, by rwa [List.length_map] at hsummable⟩

/-- Where such operands overflow, so do the first of them, which are alike. -/
theorem exists_overflowing {cause : Overflow} (hne : items ≠ [])
    (hplain : ∀ u ∈ items, u.kind.takesUp = false)
    (h : total items = .error (.overflow cause)) :
    ∃ k before after, items = before ++ after ∧ Kind.isSummable k = true ∧
      (∀ u ∈ before, u.kind = k) ∧ total before = .error (.overflow cause) := by
  have hadds := addsUp_total hne
  rw [h] at hadds
  cases hadds with
  | @overflow before after left right k _ hbefore hsplit hleft hkinds hsum =>
    rw [hsplit, List.forall_mem_append, List.forall_mem_cons] at hplain
    obtain ⟨hplain, hright, -⟩ := hplain
    -- nothing is added to an absent value, so nothing is out of range
    have hpresent : ¬(left.kind = .absent ∨ right.kind = .absent) := by
      intro habsent
      rw [Value.arithmetic_of_absent .add habsent] at hsum
      cases hsum
    have hsame := (kinds_of_total hbefore hplain hleft fun habsent =>
      hpresent (.inl (Value.kind_eq_absent_iff.mpr habsent))).1
    have hleftPlain : left.kind.takesUp = false := by
      obtain ⟨first, hfirst⟩ := List.exists_mem_of_ne_nil before hbefore
      rw [← hsame first hfirst]
      exact hplain first hfirst
    rcases Kind.plus?_eq_some_of_plain hleftPlain hright hkinds with ⟨habsent, -⟩ | ⟨hk, hl, hr⟩
    · exact absurd habsent hpresent
    refine ⟨k, before ++ [right], after, ?_, hk, ?_, ?_⟩
    · rw [hsplit, List.append_assoc, List.singleton_append]
    · rw [List.forall_mem_append, List.forall_mem_singleton]
      exact ⟨fun u hu => (hsame u hu).trans hl, hr⟩
    · rw [total_append_singleton hbefore, hleft, ok_bind, hsum]

/-- **A sum adds like to like, unless an operand takes up others.** The result is of the kind that
the kinds of the operands add up to; an error is that of the first addition whose operands do not go
together or whose result is out of range. A single operand is its own sum. If no operand takes up
others, two or more have a sum that is not absent only if they are all numbers or all durations of
one family, and the sum is one as well; otherwise two kinds are refused, or operands at the
beginning that are alike leave their range. If one does, so does the sum. -/
theorem sum_adds_like_to_like (args : List Value) (hne : operands args ≠ []) :
    let items := operands args
    let sum := Builtin.sum.call args
    AddsUp items sum ∧
    (∀ v, items = [v] → sum = .ok v) ∧
    (2 ≤ items.length → (∀ u ∈ items, u.kind.takesUp = false) →
      (∀ v, sum = .ok v → v ≠ .absent →
        v.kind.isSummable = true ∧ ∀ u ∈ items, u.kind = v.kind) ∧
      ∀ e, sum = .error e →
        (∃ left right : Kind, e = .unsupported (.operator "+") [left, right]) ∨
        ∃ cause k before after, e = .overflow cause ∧ items = before ++ after ∧
          Kind.isSummable k = true ∧ (∀ u ∈ before, u.kind = k) ∧
          Builtin.sum.call [.list before] = .error e) ∧
    ((∃ u ∈ items, u.kind.takesUp = true) →
      ∀ v, sum = .ok v → v = .absent ∨ v.kind.takesUp = true) := by
  intro items sum
  have hsum : sum = total items := sum_eq_total args
  have hadds : AddsUp items sum := hsum ▸ addsUp_total hne
  refine ⟨hadds, ?_, fun htwo hplain => ⟨fun v hv hpresent => ?_, fun e he => ?_⟩, ?_⟩
  · intro v hv
    rw [hsum, hv]
    rfl
  · rw [hsum] at hv
    obtain ⟨hsame, hone | hsummable⟩ := kinds_of_total hne hplain hv hpresent
    · exact absurd (Nat.le_trans htwo (Nat.le_of_eq hone)) (by decide)
    · exact ⟨hsummable, hsame⟩
  · rw [he] at hadds
    cases hadds with
    | mismatch => exact .inl ⟨_, _, rfl⟩
    | overflow =>
      obtain ⟨k, before, after, hsplit, hk, hsame, htotal⟩ :=
        exists_overflowing hne hplain (hsum.symm.trans he)
      exact .inr ⟨_, k, before, after, rfl, hsplit, hk, hsame,
        (sum_eq_total [.list before]).trans htotal⟩
  · rintro ⟨u, hu, htakes⟩ v hv
    have hkinds := sum?_kinds_of_total hne (hsum.symm.trans hv)
    have hsome : ∃ k ∈ items.map Value.kind, k.takesUp = true :=
      ⟨u.kind, List.mem_map_of_mem hu, htakes⟩
    rw [← Value.kind_eq_absent_iff]
    exact Kind.sum?_eq_some_of_takesUp hsome hkinds

/-- Three durations of one family have a sum of this family. -/
theorem nanoseconds_added_up :
    let durations : List Value := [.elapsed ⟨1⟩, .elapsed ⟨2⟩, .elapsed ⟨4⟩]
    operands [.list durations] ≠ [] ∧ 2 ≤ durations.length ∧
      (∀ u ∈ durations, u.kind.takesUp = false) ∧
      Builtin.sum.call [.list durations] = .ok (.elapsed ⟨7⟩) ∧
      ∀ u ∈ durations, u.kind = .elapsed := by
  intro durations
  have hne : operands [.list durations] ≠ [] := List.cons_ne_nil _ _
  have hplain : ∀ u ∈ durations, u.kind.takesUp = false := by
    simp only [durations, List.forall_mem_cons]
    exact ⟨rfl, rfl, rfl, nofun⟩
  have hsum : Builtin.sum.call [.list durations] = .ok (.elapsed ⟨7⟩) := rfl
  obtain ⟨-, -, halike, -⟩ := sum_adds_like_to_like [.list durations] hne
  have hvalue := (halike (by decide) hplain).1 (.elapsed ⟨7⟩) hsum nofun
  exact ⟨hne, by decide, hplain, hsum, hvalue.2⟩

/-- Texts are joined, a truth value is its own sum and a date takes up a duration; and numbers that
leave their range do so before the truth value behind them is refused. -/
theorem texts_added_up :
    let largest : Decimal := .ofNat Decimal.maxMantissa
    Builtin.sum.call [.list [.string "a", .string "b"]] = .ok (.string "ab") ∧
      Builtin.sum.call [.bool true] = .ok (.bool true) ∧
      Builtin.sum.call [.date ⟨2020, 2, 29, by decide⟩, .months ⟨12⟩] =
        .ok (.date ⟨2021, 2, 28, by decide⟩) ∧
      Builtin.sum.call [.number largest, .number largest, .bool true] =
        .error (.overflow (.numbers .add largest largest)) := by
  intro largest
  have hadd : Number.add largest largest = .error (.overflow (.numbers .add largest largest)) := by
    decide +kernel
  refine ⟨rfl, rfl, rfl, ?_⟩
  show ((Number.add largest largest).map Value.number >>= _) = _
  rw [hadd]
  rfl

end Library
end DecisionModel
