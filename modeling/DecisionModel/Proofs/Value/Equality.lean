import DecisionModel.Operator.Comparison
import DecisionModel.Proofs.Calendar.Instant
import Mathlib.Data.Rat.Defs

/-!
# Equality

Equality brings the right operand to the offset of the left one, has errors, and reads them as
inequality inside lists and contexts. All the same it is equality of something: every value in which
no predicate stands has a key, and two values agree exactly if they have the same one. A number's key
is what it denotes, that of a time or date-time its instant, whatever calendar can show it, and that
of a function its identity.
-/

namespace DecisionModel

/-! ## Keys -/

/-- What equality sees of a value. -/
inductive Key where
  | null
  | absent
  | bool (b : Bool)
  | number (q : Rat)
  | string (s : String)
  | list (items : List Key)
  | context (entries : List (String × Key))
  | date (d : Date)
  /-- The nanoseconds of the day in universal time, and whether there is an offset. -/
  | time (pinned : Bool) (nanos : Int)
  /-- The nanoseconds in universal time, and whether there is an offset. -/
  | dateTime (pinned : Bool) (nanos : Int)
  | months (d : Months)
  | elapsed (d : Elapsed)
  | composite (d : Composite)
  | function (f : Function)

/-- The number that a decimal denotes. -/
def Decimal.toRat (d : Decimal) : Rat := mkRat d.signed (tenTo d.scale)

/-- A function without all that it is not recognised by. -/
def Function.bare : Function → Function
  | .builtin b => .builtin b
  | .lambda identity _ _ => .lambda identity [] .null
  | .decision identity _ _ => .decision identity "" .null

/-- The nanoseconds since midnight in universal time, days left out. -/
def Time.universalNanos (t : Time) : Int :=
  (t.clock.nanos - Offset.distance t.offset) % Calendar.nanosPerDay

/-- The reading in universal time, which need not be one that the calendar has. -/
def DateTime.universalNanos (dt : DateTime) : Int := dt.localNanos - Offset.distance dt.offset

namespace Value

mutual

/-- What equality sees of a value; a predicate is not even equal to itself. -/
def key? : Value → Option Key
  | .null => some .null
  | .absent => some .absent
  | .bool b => some (.bool b)
  | .number n => some (.number n.toRat)
  | .string s => some (.string s)
  | .list items => (keys? items).map .list
  | .context entries => (entryKeys? entries).map .context
  | .date d => some (.date d)
  | .time t => some (.time t.offset.isSome t.universalNanos)
  | .dateTime dt => some (.dateTime dt.offset.isSome dt.universalNanos)
  | .months d => some (.months d)
  | .elapsed d => some (.elapsed d)
  | .composite d => some (.composite d)
  | .function f => some (.function f.bare)
  | .predicate _ => none

def keys? : List Value → Option (List Key)
  | [] => some []
  | v :: vs => do return (← v.key?) :: (← keys? vs)

def entryKeys? : List (String × Value) → Option (List (String × Key))
  | [] => some []
  | (name, v) :: entries => do return (name, ← v.key?) :: (← entryKeys? entries)

end

mutual

/-- Whether a predicate stands in a value, in lists and contexts at any depth. -/
def hasPredicate : Value → Bool
  | .predicate _ => true
  | .list items => anyHasPredicate items
  | .context entries => anyEntryHasPredicate entries
  | _ => false

def anyHasPredicate : List Value → Bool
  | [] => false
  | v :: vs => v.hasPredicate || anyHasPredicate vs

def anyEntryHasPredicate : List (String × Value) → Bool
  | [] => false
  | (_, v) :: entries => v.hasPredicate || anyEntryHasPredicate entries

end

end Value

/-! ## Keys of what is not nested -/

theorem Decimal.same_iff {a b : Decimal} : a.same b = true ↔ a.toRat = b.toRat := by
  rw [same, beq_iff_eq, order, Int.compare_eq_eq, toRat, toRat,
    Rat.mkRat_eq_iff (Nat.ne_of_gt (tenTo_pos _)) (Nat.ne_of_gt (tenTo_pos _))]

theorem Function.same_iff {f g : Function} : f.same g = true ↔ f.bare = g.bare := by
  cases f <;> cases g <;> simp [same, bare]

theorem Time.order_eq_eq_iff {a b : Time} : a.order b = .eq ↔
    a.offset.isSome = b.offset.isSome ∧ a.universalNanos = b.universalNanos := by
  rw [order_eq, Ordering.then_eq_eq, Int.compare_eq_eq, Std.compare_eq_iff_eq, and_comm,
    and_congr_right_iff]
  intro hpinned
  have ha := a.clock.nanos_lt
  have hb := b.clock.nanos_lt
  rw [universalNanos, universalNanos, Offset.shift_of_isSome_eq hpinned.symm]
  simp only [Calendar.nanosPerDay, Calendar.nanosPerHour, Calendar.nanosPerMinute,
    Calendar.nanosPerSecond] at *
  omega

theorem DateTime.order?_eq_eq_iff {a b : DateTime} : a.order? b = some .eq ↔
    a.offset.isSome = b.offset.isSome ∧ a.universalNanos = b.universalNanos := by
  rw [order?_eq_some_iff, eq_comm, Ordering.then_eq_eq, Int.compare_eq_eq, Std.compare_eq_iff_eq,
    universalNanos, universalNanos]
  constructor
  · rintro ⟨-, hnanos, hpinned⟩
    rw [Offset.shift_of_isSome_eq hpinned.symm] at hnanos
    exact ⟨hpinned, by omega⟩
  · rintro ⟨hpinned, hnanos⟩
    have hshift : a.localNanos = b.localNanos + Offset.shift b.offset a.offset := by
      rw [Offset.shift_of_isSome_eq hpinned.symm]
      omega
    -- the reading that is asked for is that of `a`, so the calendar has it
    have hshifted : b.atOffset? a.offset = some a :=
      atOffset?_eq_some_iff.mpr ⟨hshift, (Offset.reached_of_isSome_eq hpinned.symm).symm⟩
    exact ⟨⟨a, hshifted⟩, hshift, hpinned⟩

namespace Value

theorem holds_orderDateTimes_iff {a b : DateTime} :
    holds ((orderDateTimes a b).map (· == .eq)) = true ↔ a.order? b = some .eq := by
  unfold orderDateTimes
  cases a.order? b with
  | none => simp [holds, Except.map]
  | some o => simp [holds, Except.map]

/-! ## Agreement is equality of keys -/

/-- A test of two values that are not nested. -/
theorem test_iff_key {test : Bool} {x y : Key} (h : test = true ↔ x = y) :
    test = true ↔ ∃ k, some x = some k ∧ some y = some k := by
  simp only [h, Option.some_inj, exists_eq_left', eq_comm]

/-- A test of two values that are nested is one of their parts. -/
theorem test_iff_map_key {α : Type} {test : Bool} {x y : Option α} {f : α → Key}
    (hf : ∀ {k l}, f k = f l → k = l) (h : test = true ↔ ∃ k, x = some k ∧ y = some k) :
    test = true ↔ ∃ k, x.map f = some k ∧ y.map f = some k := by
  rw [h]
  constructor
  · rintro ⟨k, rfl, rfl⟩
    exact ⟨f k, rfl, rfl⟩
  · rintro ⟨_, hx, hy⟩
    obtain ⟨k, rfl, rfl⟩ := Option.map_eq_some_iff.mp hx
    obtain ⟨l, rfl, hl⟩ := Option.map_eq_some_iff.mp hy
    exact ⟨k, rfl, congrArg some (hf hl)⟩

theorem keys?_nil : keys? [] = some [] := rfl

theorem keys?_cons_eq_some_iff {v : Value} {vs : List Value} {ks : List Key} :
    keys? (v :: vs) = some ks ↔
      ∃ k, v.key? = some k ∧ ∃ l, keys? vs = some l ∧ k :: l = ks := by
  simp only [keys?, Option.bind_eq_bind, Option.bind_eq_some_iff, Option.pure_def, Option.some_inj]

theorem entryKeys?_nil : entryKeys? [] = some [] := rfl

theorem entryKeys?_cons_eq_some_iff {name : String} {v : Value} {entries : List (String × Value)}
    {ks : List (String × Key)} :
    entryKeys? ((name, v) :: entries) = some ks ↔
      ∃ k, v.key? = some k ∧ ∃ l, entryKeys? entries = some l ∧ (name, k) :: l = ks := by
  simp only [entryKeys?, Option.bind_eq_bind, Option.bind_eq_some_iff, Option.pure_def,
    Option.some_inj]

mutual

/-- **Values agree exactly if they have the same key.** -/
theorem agrees_iff_key (a b : Value) :
    a.agrees b = true ↔ ∃ k, a.key? = some k ∧ b.key? = some k := by
  cases a <;> cases b
  case bool.bool b c => exact test_iff_key (beq_iff_eq.trans (by simp))
  case number.number m n => exact test_iff_key (Decimal.same_iff.trans (by simp))
  case string.string s t => exact test_iff_key (beq_iff_eq.trans (by simp))
  case list.list as bs => exact test_iff_map_key Key.list.inj (agreeAll_iff_keys as bs)
  case context.context as bs =>
    exact test_iff_map_key Key.context.inj (agreeEntries_iff_keys as bs)
  case date.date d e => exact test_iff_key (beq_iff_eq.trans (by simp))
  case time.time t u =>
    exact test_iff_key (beq_iff_eq.trans (Time.order_eq_eq_iff.trans (by simp)))
  case dateTime.dateTime dt du =>
    exact test_iff_key
      (holds_orderDateTimes_iff.trans (DateTime.order?_eq_eq_iff.trans (by simp)))
  case months.months d e => exact test_iff_key (beq_iff_eq.trans (by simp))
  case elapsed.elapsed d e => exact test_iff_key (beq_iff_eq.trans (by simp))
  case composite.composite d e => exact test_iff_key (beq_iff_eq.trans (by simp))
  case function.function f g => exact test_iff_key (Function.same_iff.trans (by simp))
  -- values of two kinds do not agree, and their keys are of two kinds
  all_goals simp [agrees, equals, isMissing, isAbsent, isNull, holds, key?, kind]

theorem agreeAll_iff_keys (as bs : List Value) :
    agreeAll as bs = true ↔ ∃ ks, keys? as = some ks ∧ keys? bs = some ks := by
  cases as with
  | nil =>
    cases bs with
    | nil => exact iff_of_true rfl ⟨[], rfl, rfl⟩
    | cons b bs => simp [agreeAll, keys?_nil, keys?_cons_eq_some_iff]
  | cons a as =>
    cases bs with
    | nil => simp [agreeAll, keys?_nil, keys?_cons_eq_some_iff]
    | cons b bs =>
      have ha : holds (a.equals b) = true ↔ _ := agrees_iff_key a b
      rw [agreeAll, Bool.and_eq_true, ha, agreeAll_iff_keys as bs]
      simp only [keys?_cons_eq_some_iff]
      constructor
      · rintro ⟨⟨k, hk, hk'⟩, ks, hks, hks'⟩
        exact ⟨k :: ks, ⟨k, hk, ks, hks, rfl⟩, ⟨k, hk', ks, hks', rfl⟩⟩
      · rintro ⟨_, ⟨k, hk, ks, hks, rfl⟩, ⟨k', hk', ks', hks', heq⟩⟩
        cases heq
        exact ⟨⟨k, hk, hk'⟩, ks, hks, hks'⟩

theorem agreeEntries_iff_keys (as bs : List (String × Value)) :
    agreeEntries as bs = true ↔ ∃ ks, entryKeys? as = some ks ∧ entryKeys? bs = some ks := by
  cases as with
  | nil =>
    cases bs with
    | nil => exact iff_of_true rfl ⟨[], rfl, rfl⟩
    | cons entry bs =>
      obtain ⟨n, b⟩ := entry
      simp [agreeEntries, entryKeys?_nil, entryKeys?_cons_eq_some_iff]
  | cons entry as =>
    obtain ⟨m, a⟩ := entry
    cases bs with
    | nil => simp [agreeEntries, entryKeys?_nil, entryKeys?_cons_eq_some_iff]
    | cons entry bs =>
      obtain ⟨n, b⟩ := entry
      have ha : holds (a.equals b) = true ↔ _ := agrees_iff_key a b
      rw [agreeEntries, Bool.and_eq_true, Bool.and_eq_true, beq_iff_eq, ha,
        agreeEntries_iff_keys as bs]
      simp only [entryKeys?_cons_eq_some_iff]
      constructor
      · rintro ⟨⟨rfl, k, hk, hk'⟩, ks, hks, hks'⟩
        exact ⟨(m, k) :: ks, ⟨k, hk, ks, hks, rfl⟩, ⟨k, hk', ks, hks', rfl⟩⟩
      · rintro ⟨_, ⟨k, hk, ks, hks, rfl⟩, ⟨k', hk', ks', hks', heq⟩⟩
        cases heq
        exact ⟨⟨rfl, k, hk, hk'⟩, ks, hks, hks'⟩

end

mutual

/-- The values that have a key are those without a predicate. -/
theorem key?_isSome (v : Value) : v.key?.isSome = !v.hasPredicate := by
  cases v with
  | list items => rw [key?, Option.isSome_map, hasPredicate, keys?_isSome]
  | context entries => rw [key?, Option.isSome_map, hasPredicate, entryKeys?_isSome]
  | _ => rfl

theorem keys?_isSome (vs : List Value) : (keys? vs).isSome = !anyHasPredicate vs := by
  cases vs with
  | nil => rfl
  | cons v vs =>
    rw [anyHasPredicate, Bool.not_or, ← key?_isSome v, ← keys?_isSome vs, keys?]
    cases v.key? <;> cases keys? vs <;> rfl

theorem entryKeys?_isSome (entries : List (String × Value)) :
    (entryKeys? entries).isSome = !anyEntryHasPredicate entries := by
  cases entries with
  | nil => rfl
  | cons entry entries =>
    obtain ⟨name, v⟩ := entry
    rw [anyEntryHasPredicate, Bool.not_or, ← key?_isSome v, ← entryKeys?_isSome entries, entryKeys?]
    cases v.key? <;> cases entryKeys? entries <;> rfl

end

/-! ## Equivalence -/

theorem agrees_self_iff {a : Value} : a.agrees a = true ↔ a.hasPredicate = false := by
  rw [agrees_iff_key, ← Bool.not_eq_true', ← key?_isSome, Option.isSome_iff_exists]
  simp only [and_self]

theorem agrees_comm (a b : Value) : a.agrees b = b.agrees a := by
  rw [Bool.eq_iff_iff, agrees_iff_key, agrees_iff_key]
  simp only [and_comm]

theorem agrees_trans {a b c : Value} (hab : a.agrees b = true) (hbc : b.agrees c = true) :
    a.agrees c = true := by
  obtain ⟨k, ha, hb⟩ := (agrees_iff_key a b).mp hab
  obtain ⟨l, hb', hc⟩ := (agrees_iff_key b c).mp hbc
  rw [hb] at hb'
  cases hb'
  exact (agrees_iff_key a c).mpr ⟨k, ha, hc⟩

/-- **Equality is an equivalence on values without predicates.** It is symmetric and transitive on
all values, also where only one of two directions has an error, and the values that equal themselves
are those in which no predicate stands. -/
theorem agrees_is_equivalence :
    (∀ a : Value, a.agrees a = !a.hasPredicate) ∧
    (∀ a b : Value, a.agrees b = b.agrees a) ∧
    ∀ a b c : Value, a.agrees b = true → b.agrees c = true → a.agrees c = true := by
  refine ⟨fun a => ?_, agrees_comm, fun a b c => agrees_trans⟩
  rw [Bool.eq_iff_iff, agrees_self_iff, Bool.not_eq_true']

/-- A moment of the last day of the calendar, deep inside a value. -/
def onLastDay (minute seconds : Int) (h : -93600 < seconds ∧ seconds < 93600) : Value :=
  .list [.context [("at", .dateTime ⟨⟨9999, 12, 31, by decide⟩,
    .wrap (minute * Calendar.nanosPerMinute), some ⟨seconds, h⟩⟩)]]

/-- Ten in the evening in universal time at three offsets; and half past eleven, for which the
calendar has no reading an hour further east. -/
theorem last_day_agrees :
    let universal := onLastDay 1320 0 (by decide)
    let east := onLastDay 1380 3600 (by decide)
    let west := onLastDay 1260 (-3600) (by decide)
    let late := onLastDay 1410 0 (by decide)
    west.agrees universal = true ∧ universal.agrees east = true ∧ west.agrees east = true ∧
      late.agrees east = false ∧ east.agrees late = false ∧ late.agrees late = true := by
  intro universal east west late
  obtain ⟨hself, hcomm, htrans⟩ := agrees_is_equivalence
  have hwest : west.agrees universal = true := by decide
  have heast : universal.agrees east = true := by decide
  have hlate : late.agrees east = false := by decide
  exact ⟨hwest, heast, htrans _ _ _ hwest heast, hlate, (hcomm _ _).trans hlate, hself late⟩

end Value
end DecisionModel
