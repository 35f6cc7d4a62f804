import DecisionModel.Library.Call
import DecisionModel.Proofs.Library.Slice

/-!
# Absent arguments

A name that cannot be resolved is absent, and a built-in function hands absent on: a call that came
to a result comes to one again when an argument of it becomes absent. That is so because nearly
every function looks for missing arguments before it looks at anything else. Three sorts of
functions do not. Aggregates do it for a single argument only; among several operands they take
absent for a value, which they refuse. A conjunction stops at the boolean that settles it, so when
this boolean is gone the call comes to operands that it did not look at before. And of an empty part
of a list no position is looked up, until the length that makes it empty is gone.

`Withstands` says where these functions come to a result nevertheless.
-/

namespace DecisionModel

variable {α β : Type}

/-- Whether a computation comes to a result, and not to an error. -/
def Succeeds (r : Result α) : Prop := ∃ a, r = .ok a

@[simp] theorem succeeds_ok (a : α) : Succeeds (.ok a) := ⟨a, rfl⟩

@[simp] theorem not_succeeds_error (e : EvalError) : ¬Succeeds (.error e : Result α) := nofun

@[simp] theorem succeeds_map {r : Result α} {f : α → β} : Succeeds (r.map f) ↔ Succeeds r := by
  cases r with
  | ok a => exact iff_of_true (succeeds_ok (f a)) (succeeds_ok a)
  | error e => exact iff_of_false (not_succeeds_error e) (not_succeeds_error e)

theorem succeeds_bind_iff {r : Result α} {f : α → Result β} :
    Succeeds (r >>= f) ↔ ∃ a, r = .ok a ∧ Succeeds (f a) := by
  cases r with
  | ok a => simp
  | error e => simp

@[simp] theorem not_succeeds_refuse (function : String) (values : List Value) :
    ¬Succeeds (Library.refuse function values : Result α) := not_succeeds_error _

@[simp] theorem Value.isAbsent_absent : Value.absent.isAbsent = true := rfl

@[simp] theorem Value.isMissing_absent : Value.absent.isMissing = true := rfl

/-! ## Reading arguments -/

namespace Library

variable {args : List Value} {i k : Nat}

theorem argument_set_self (args : List Value) (i : Nat) :
    argument (args.set i .absent) i = .absent := by
  unfold argument
  rw [List.getD_eq_getElem?_getD, List.getElem?_set_self']
  cases args[i]? <;> rfl

theorem argument_set_ne (args : List Value) (h : i ≠ k) :
    argument (args.set i .absent) k = argument args k := by
  unfold argument
  rw [List.getD_eq_getElem?_getD, List.getD_eq_getElem?_getD, List.getElem?_set_ne h]

/-- What a function made of its arguments is still there when one of them is absent. -/
def Lenient (f : List Value → Result Value) (args : List Value) (i : Nat) : Prop :=
  Succeeds (f args) → Succeeds (f (args.set i .absent))

theorem lenient_of_eq {f : List Value → Result Value} (h : f (args.set i .absent) = f args) :
    Lenient f args i := by
  intro hresult
  rw [h]
  exact hresult

theorem lenient_of_succeeds {f : List Value → Result Value}
    (h : Succeeds (f (args.set i .absent))) : Lenient f args i := fun _ => h

/-- A function that hands a missing argument back is lenient about this one, and about another one
if what it does afterwards is. -/
theorem lenient_unlessMissing {f : List Value → Result Value} (h : i ≠ k → Lenient f args i) :
    Lenient (fun args => if (argument args k).isMissing then .ok (argument args k) else f args)
      args i := by
  intro hresult
  dsimp only at hresult ⊢
  by_cases hik : i = k
  · subst hik
    rw [argument_set_self]
    exact succeeds_ok _
  · rw [argument_set_ne args hik]
    split
    · exact succeeds_ok _
    · next hmissing =>
      rw [if_neg hmissing] at hresult
      exact h hik hresult

/-! ## Functions of one subject -/

theorem lenient_ofNumber (function : String) (f : Decimal → Decimal) :
    Lenient (ofNumber function f) args i := by
  refine lenient_unlessMissing fun hi => lenient_of_eq ?_
  rw [argument_set_ne args hi]

theorem lenient_abs : Lenient abs args i := by
  by_cases hi : i = 0
  · subst hi
    apply lenient_of_succeeds
    simp [abs, ofNumber, argument_set_self]
  · apply lenient_of_eq
    simp only [abs, ofNumber, argument_set_ne args hi]

theorem lenient_ofString (function : String) (f : List Char → Value) :
    Lenient (ofString function f) args i := by
  refine lenient_unlessMissing fun hi => lenient_of_eq ?_
  rw [argument_set_ne args hi]

theorem lenient_duration : Lenient duration args i := by
  refine lenient_unlessMissing fun hi => lenient_of_eq ?_
  rw [argument_set_ne args hi]

/-- What is done with the elements may depend on other arguments, but whether there is a list to do
it with does not. -/
theorem lenient_ofList (function : String) (f : List Value → List Value → Value) :
    Lenient (fun args => ofList function (f args) args) args i := by
  refine lenient_unlessMissing fun hi => ?_
  intro hresult
  dsimp only at hresult ⊢
  rw [succeeds_map] at hresult ⊢
  rw [argument_set_ne args hi]
  exact hresult

theorem lenient_negation : Lenient negation args i := by
  by_cases hi : i = 0
  · subst hi
    apply lenient_of_succeeds
    rw [negation, argument_set_self]
    exact succeeds_ok _
  · apply lenient_of_eq
    rw [negation, argument_set_ne args hi, negation]

theorem lenient_rounded (function : String) (tie : Tie) :
    Lenient (rounded function tie) args i := by
  refine lenient_unlessMissing fun hi => ?_
  intro hresult
  obtain ⟨n, hnumber, hplaces⟩ := succeeds_bind_iff.mp hresult
  refine succeeds_bind_iff.mpr ⟨n, by rw [argument_set_ne args hi]; exact hnumber, ?_⟩
  by_cases hscale : i = 1
  · subst hscale
    rw [argument_set_self]
    exact succeeds_ok _
  · rw [argument_set_ne args hscale]
    exact hplaces

/-! ## Functions of several arguments -/

theorem lenient_compareTexts (function : String) (test : List Char → List Char → Bool) :
    Lenient (compareTexts function test) args i := by
  by_cases htext : i = 0
  · subst htext
    apply lenient_of_succeeds
    simp [compareTexts, argument_set_self]
  by_cases hother : i = 1
  · subst hother
    apply lenient_of_succeeds
    simp [compareTexts, argument_set_self]
  · apply lenient_of_eq
    unfold compareTexts
    rw [argument_set_ne args htext, argument_set_ne args hother]

theorem lenient_substring : Lenient substring args i := by
  refine lenient_unlessMissing fun htext => lenient_unlessMissing fun hstart => ?_
  intro hresult
  dsimp only at hresult ⊢
  rw [argument_set_ne args htext, argument_set_ne args hstart]
  by_cases hlength : i = 2
  · subst hlength
    rw [argument_set_self]
    obtain ⟨text, htext, hresult⟩ := succeeds_bind_iff.mp hresult
    obtain ⟨place, hplace, hresult⟩ := succeeds_bind_iff.mp hresult
    obtain ⟨first, hfirst, -⟩ := succeeds_bind_iff.mp hresult
    obtain ⟨hnonneg, hlt⟩ := bounds_of_offset? (startOffset_eq_ok_iff.mp hfirst)
    rw [htext, ok_bind, hplace, ok_bind, hfirst, ok_bind, askedLength?_absent, ok_bind,
      takeFrom_none hnonneg (Int.le_of_lt hlt)]
    exact succeeds_ok _
  · rw [argument_set_ne args hlength]
    exact hresult

theorem lenient_insertBefore : Lenient insertBefore args i := by
  refine lenient_unlessMissing fun hlist => lenient_unlessMissing fun hplace => ?_
  by_cases hitem : i = 2
  · subst hitem
    apply lenient_of_succeeds
    rw [argument_set_self]
    exact succeeds_ok _
  · apply lenient_of_eq
    rw [argument_set_ne args hlist, argument_set_ne args hplace, argument_set_ne args hitem]

theorem lenient_remove : Lenient remove args i := by
  refine lenient_unlessMissing fun hlist => lenient_unlessMissing fun hplace => lenient_of_eq ?_
  rw [argument_set_ne args hlist, argument_set_ne args hplace]

theorem lenient_indexOf : Lenient indexOf args i := by
  refine lenient_unlessMissing fun hlist => ?_
  by_cases helement : i = 1
  · subst helement
    apply lenient_of_succeeds
    rw [argument_set_self]
    exact succeeds_ok _
  · apply lenient_of_eq
    rw [argument_set_ne args hlist, argument_set_ne args helement]

theorem firstMissing?_set (hi : i < args.length) :
    firstMissing? (args.set i .absent) = some .absent := by
  unfold firstMissing?
  rw [if_pos]
  exact List.any_eq_true.mpr ⟨.absent, List.mem_set hi .absent, rfl⟩

/-- Values of the calendar are only made of arguments none of which is missing. -/
theorem lenient_unlessAnyMissing {f : List Value → Result Value} (hi : i < args.length) :
    Lenient (fun args => match firstMissing? args with
      | some v => .ok v
      | none => f args) args i := by
  apply lenient_of_succeeds
  rw [firstMissing?_set hi]
  exact succeeds_ok _

theorem lenient_yearsAndMonthsDuration (hi : i < args.length) :
    Lenient yearsAndMonthsDuration args i := by
  by_cases hread : i < 2
  · apply lenient_of_succeeds
    unfold yearsAndMonthsDuration
    rw [List.take_set, firstMissing?_set (by rw [List.length_take]; omega)]
    exact succeeds_ok _
  · apply lenient_of_eq
    unfold yearsAndMonthsDuration
    rw [List.take_set_of_le (by omega), argument_set_ne args (by omega),
      argument_set_ne args (by omega)]

/-- Lists are put together of the arguments that are there, each of which has to be one. -/
theorem succeeds_elements_iff {function : String} :
    Succeeds (elements function args) ↔
      ∀ v ∈ args, v.isMissing = true ∨ ∃ items, v = .list items := by
  induction args with
  | nil => simp [elements]
  | cons v rest ih =>
    rw [elements, List.forall_mem_cons, ← ih]
    split
    · next hmissing => simp [hmissing]
    · next hmissing =>
      cases v with
      | list items =>
        simp [expectList, succeeds_bind_iff, Value.isMissing, Value.isAbsent, Value.isNull]
        rfl
      | _ => simp [expectList, hmissing, refuse]

/-- A union goes through the elements that a concatenation would have, one by one. -/
theorem unionFrom_eq (seen args : List Value) :
    unionFrom seen args =
      (elements "union" args).map fun items => items.foldl addDistinct seen := by
  induction args generalizing seen with
  | nil => rfl
  | cons v rest ih =>
    rw [unionFrom, elements]
    split
    · exact ih seen
    · cases expectList "union" v with
      | error e => rfl
      | ok items =>
        rw [ok_bind, ok_bind, ih]
        cases elements "union" rest with
        | error e => rfl
        | ok others =>
          show Except.ok (others.foldl addDistinct (items.foldl addDistinct seen)) =
            Except.ok ((items ++ others).foldl addDistinct seen)
          rw [List.foldl_append]

theorem forall_mem_set_absent {p : Value → Prop} (habsent : p .absent) (h : ∀ v ∈ args, p v) :
    ∀ v ∈ args.set i .absent, p v := by
  intro v hv
  rcases List.mem_or_eq_of_mem_set hv with hmem | rfl
  · exact h v hmem
  · exact habsent

theorem lenient_concatenate : Lenient concatenate args i := by
  intro hresult
  rw [concatenate, succeeds_map, succeeds_elements_iff] at hresult ⊢
  exact forall_mem_set_absent (.inl rfl) hresult

theorem lenient_union : Lenient union args i := by
  intro hresult
  rw [union, succeeds_map, unionFrom_eq, succeeds_map, succeeds_elements_iff] at hresult ⊢
  exact forall_mem_set_absent (.inl rfl) hresult

theorem succeeds_flatten (args : List Value) : Succeeds (flatten args) := by
  unfold flatten
  split <;> exact succeeds_ok _

/-! ## Aggregates -/

theorem missingSubject?_of_length (h : args.length ≠ 1) : missingSubject? args = none := by
  unfold missingSubject?
  split
  · exact absurd rfl h
  · rfl

theorem operands_of_length (h : args.length ≠ 1) : operands args = args := by
  unfold operands
  split
  · exact absurd rfl h
  · rfl

/-- Among several arguments none is looked at in advance. -/
theorem aggregate_of_length {f : List Value → Result Value} (h : args.length ≠ 1) :
    aggregate f args = f args := by
  rw [aggregate, missingSubject?_of_length h, operands_of_length h]

theorem set_absent_of_length (hi : i < args.length) (h : args.length = 1) :
    args.set i .absent = [.absent] := by
  obtain ⟨v, rfl⟩ := List.length_eq_one_iff.mp h
  obtain rfl : i = 0 := by simpa using hi
  rfl

theorem foldlM_add_absent (items : List Value) :
    items.foldlM (Value.arithmetic .add) .absent = .ok .absent := by
  induction items with
  | nil => rfl
  | cons item items ih => exact ih

/-- A sum is absent from the absent operand on. -/
theorem succeeds_foldlM_add_set (hi : i < args.length) {total : Value}
    (h : Succeeds (args.foldlM (Value.arithmetic .add) total)) :
    Succeeds ((args.set i .absent).foldlM (Value.arithmetic .add) total) := by
  induction args generalizing i total with
  | nil => exact absurd hi (Nat.not_lt_zero i)
  | cons item items ih =>
    cases i with
    | zero =>
      have habsent : Value.arithmetic .add total .absent = .ok .absent := by
        simp [Value.arithmetic]
      rw [List.set_cons_zero, List.foldlM_cons, habsent, ok_bind, foldlM_add_absent]
      exact succeeds_ok _
    | succ i =>
      rw [List.foldlM_cons] at h
      obtain ⟨next, hnext, hrest⟩ := succeeds_bind_iff.mp h
      rw [List.set_cons_succ, List.foldlM_cons, hnext, ok_bind]
      exact ih (Nat.lt_of_succ_lt_succ hi) hrest

theorem lenient_sum (hi : i < args.length) : Lenient sum args i := by
  intro hresult
  unfold sum at hresult ⊢
  by_cases hone : args.length = 1
  · rw [set_absent_of_length hi hone]
    exact succeeds_ok _
  · rw [aggregate_of_length hone] at hresult
    rw [aggregate_of_length (by rw [List.length_set]; exact hone)]
    cases args with
    | nil => exact absurd hi (Nat.not_lt_zero i)
    | cons item items =>
      cases i with
      | zero =>
        rw [List.set_cons_zero]
        dsimp only
        rw [foldlM_add_absent]
        exact succeeds_ok _
      | succ i => exact succeeds_foldlM_add_set (Nat.lt_of_succ_lt_succ hi) hresult

theorem not_succeeds_mapM_expectNumber {function : String} (h : .absent ∈ args) :
    ¬Succeeds (args.mapM (expectNumber function)) := by
  induction args with
  | nil => exact absurd h List.not_mem_nil
  | cons v rest ih =>
    rw [List.mapM_cons, succeeds_bind_iff]
    rintro ⟨n, hn, hrest⟩
    rcases List.mem_cons.mp h with rfl | hmem
    · cases hn
    · obtain ⟨ns, hns, -⟩ := succeeds_bind_iff.mp hrest
      exact ih hmem ⟨ns, hns⟩

theorem succeeds_aggregateNumbers_set_iff {function : String} {f : List Decimal → Result Value}
    (hi : i < args.length) :
    Succeeds (aggregateNumbers function f (args.set i .absent)) ↔ args.length = 1 := by
  by_cases hone : args.length = 1
  · rw [set_absent_of_length hi hone]
    exact iff_of_true (succeeds_ok _) hone
  · refine iff_of_false ?_ hone
    unfold aggregateNumbers
    rw [aggregate_of_length (by rw [List.length_set]; exact hone), succeeds_bind_iff]
    rintro ⟨ns, hns, -⟩
    exact not_succeeds_mapM_expectNumber (List.mem_set hi .absent) ⟨ns, hns⟩

/-! ## Extremes -/

/-- Null has no order with anything, not even with absent. -/
theorem order_of_isNull {op : ComparisonOp} {left right : Value}
    (h : (left.isNull || right.isNull) = true) : left.order op right = .ok none := by
  unfold Value.order
  rw [if_pos h]

theorem isNull_of_order {op : ComparisonOp} {left right : Value}
    (h : left.order op right = .ok none) : left = .null ∨ right = .null := by
  unfold Value.order at h
  split at h
  · next hnull => cases left <;> cases right <;> simp [Value.isNull] at hnull ⊢
  · split at h <;> try cases h
    cases hdates : Value.orderDateTimes _ _ <;> rw [hdates] at h <;> cases h

theorem succeeds_order_absent_left {op : ComparisonOp} {v : Value} :
    Succeeds (Value.absent.order op v) ↔ v = .null := by
  cases v <;> simp [Value.order, Value.isNull]

theorem succeeds_order_absent_right {op : ComparisonOp} {v : Value} :
    Succeeds (v.order op .absent) ↔ v = .null := by
  cases v <;> simp [Value.order, Value.isNull]

theorem extremeFrom_null {keep : Ordering} : extremeFrom keep .null args = .ok .null := by
  cases args with
  | nil => rfl
  | cons item items =>
    rw [extremeFrom, order_of_isNull (Bool.or_true _)]
    rfl

theorem exists_lt_succ_getElem?_iff {v first : Value} {rest : List Value} :
    (∃ j < i + 1, (first :: rest)[j]? = some v) ↔ first = v ∨ ∃ j < i, rest[j]? = some v := by
  constructor
  · rintro ⟨j, hj, hget⟩
    cases j with
    | zero => exact .inl (Option.some.inj hget)
    | succ j => exact .inr ⟨j, Nat.lt_of_succ_lt_succ hj, hget⟩
  · rintro (rfl | ⟨j, hj, hget⟩)
    · exact ⟨0, Nat.succ_pos i, rfl⟩
    · exact ⟨j + 1, Nat.succ_lt_succ hj, hget⟩

/-- The search for an extreme gets past an absent operand only where a null one has ended it. -/
theorem succeeds_extremeFrom_set_iff {keep : Ordering} {best : Value} (hi : i < args.length)
    (h : Succeeds (extremeFrom keep best args)) :
    Succeeds (extremeFrom keep best (args.set i .absent)) ↔
      best = .null ∨ ∃ j < i, args[j]? = some .null := by
  induction args generalizing i best with
  | nil => exact absurd hi (Nat.not_lt_zero i)
  | cons item items ih =>
    by_cases hbest : best = .null
    · subst hbest
      rw [extremeFrom_null]
      simp
    cases i with
    | zero =>
      rw [List.set_cons_zero, extremeFrom, succeeds_bind_iff]
      refine iff_of_false ?_ (by simpa using hbest)
      rintro ⟨o, ho, -⟩
      exact hbest (succeeds_order_absent_left.mp ⟨o, ho⟩)
    | succ i =>
      rw [extremeFrom] at h
      obtain ⟨o, ho, hrest⟩ := succeeds_bind_iff.mp h
      rw [List.set_cons_succ, extremeFrom, ho, ok_bind]
      cases o with
      | none =>
        have hitem : item = .null := (isNull_of_order ho).resolve_right hbest
        subst hitem
        exact iff_of_true (succeeds_ok _) (.inr ⟨0, Nat.succ_pos i, rfl⟩)
      | some o =>
        have hitem : item ≠ .null := by
          rintro rfl
          rw [order_of_isNull rfl] at ho
          cases ho
        -- whichever of the two is kept, the search has not been ended by a null
        have hnext : (if o == keep then item else best) ≠ .null := by split <;> assumption
        rw [ih (Nat.lt_of_succ_lt_succ hi) hrest, exists_lt_succ_getElem?_iff, or_iff_right hnext,
          or_iff_right hbest, or_iff_right hitem]

theorem succeeds_extreme_set_iff {keep : Ordering} (hi : i < args.length)
    (h : Succeeds (aggregate (extreme keep) args)) :
    Succeeds (aggregate (extreme keep) (args.set i .absent)) ↔
      args.length = 1 ∨ (∃ j < i, args[j]? = some .null) ∨ i = 0 ∧ args[1]? = some .null := by
  by_cases hone : args.length = 1
  · rw [set_absent_of_length hi hone]
    exact iff_of_true (succeeds_ok _) (.inl hone)
  rw [aggregate_of_length hone] at h
  rw [aggregate_of_length (by rw [List.length_set]; exact hone), or_iff_right hone]
  cases args with
  | nil => exact absurd hi (Nat.not_lt_zero i)
  | cons first rest =>
    cases i with
    | zero =>
      cases rest with
      | nil => exact absurd rfl hone
      | cons second rest =>
        rw [List.set_cons_zero, extreme, extremeFrom, succeeds_bind_iff]
        constructor
        · rintro ⟨o, ho, -⟩
          have hsecond := succeeds_order_absent_right.mp ⟨o, ho⟩
          exact .inr ⟨rfl, congrArg some hsecond⟩
        · rintro (⟨j, hj, -⟩ | ⟨-, hsecond⟩)
          · exact absurd hj (Nat.not_lt_zero j)
          · obtain rfl : second = .null := Option.some.inj hsecond
            exact ⟨none, order_of_isNull rfl, succeeds_ok _⟩
    | succ i =>
      have hzero : ¬(i + 1 = 0 ∧ (first :: rest)[1]? = some .null) :=
        fun h => Nat.succ_ne_zero i h.1
      rw [List.set_cons_succ, extreme, succeeds_extremeFrom_set_iff (Nat.lt_of_succ_lt_succ hi) h,
        or_iff_left hzero, exists_lt_succ_getElem?_iff]

/-! ## Conjunctions -/

/-- Whether all operands that a conjunction would refuse stand behind a boolean that settles it. -/
def Settled (decisive : Bool) (items : List Value) : Prop :=
  ∀ (k : Nat) (v : Value), items[k]? = some v → v.isMissing = false → v.truth = none →
    ∃ j < k, items[j]? = some (.bool decisive)

theorem settled_nil (decisive : Bool) : Settled decisive [] := nofun

theorem settled_of_decisive (decisive : Bool) (items : List Value) :
    Settled decisive (.bool decisive :: items) := by
  intro k v hget hmissing htruth
  cases k with
  | zero =>
    cases hget
    cases htruth
  | succ k => exact ⟨0, Nat.succ_pos k, rfl⟩

theorem not_settled_cons {decisive : Bool} {v : Value} {items : List Value}
    (hmissing : v.isMissing = false) (htruth : v.truth = none) :
    ¬Settled decisive (v :: items) := by
  intro h
  obtain ⟨j, hj, -⟩ := h 0 v rfl hmissing htruth
  exact Nat.not_lt_zero j hj

/-- An operand that is neither refused nor decisive makes no difference. -/
theorem settled_cons_iff {decisive : Bool} {v : Value} {items : List Value}
    (hv : v.isMissing = true ∨ v.truth = some !decisive) :
    Settled decisive (v :: items) ↔ Settled decisive items := by
  constructor
  · intro h k w hget hmissing htruth
    obtain ⟨j, hj, hdecisive⟩ := h (k + 1) w hget hmissing htruth
    cases j with
    | zero =>
      cases hdecisive
      simp [Value.isMissing, Value.isAbsent, Value.isNull, Value.truth] at hv
    | succ j => exact ⟨j, Nat.lt_of_succ_lt_succ hj, hdecisive⟩
  · intro h k w hget hmissing htruth
    cases k with
    | zero =>
      cases hget
      rcases hv with hv | hv <;> simp [hmissing, htruth] at hv
    | succ k =>
      obtain ⟨j, hj, hdecisive⟩ := h k w hget hmissing htruth
      exact ⟨j + 1, Nat.succ_lt_succ hj, hdecisive⟩

theorem succeeds_joinFrom_iff {function : String} {decisive sawAbsent sawNull : Bool} :
    Succeeds (joinFrom function decisive sawAbsent sawNull args) ↔ Settled decisive args := by
  induction args generalizing sawAbsent sawNull with
  | nil => exact iff_of_true (succeeds_ok _) (settled_nil decisive)
  | cons v rest ih =>
    cases v with
    | bool b =>
      rw [joinFrom]
      split
      · next hb =>
        subst hb
        exact iff_of_true (succeeds_ok _) (settled_of_decisive b rest)
      · next hb =>
        have htruth : (Value.bool b).truth = some !decisive := by
          cases b <;> cases decisive <;> simp_all [Value.truth]
        rw [ih, settled_cons_iff (.inr htruth)]
    | absent => rw [joinFrom, ih, settled_cons_iff (.inl rfl)]
    | null => rw [joinFrom, ih, settled_cons_iff (.inl rfl)]
    | _ => exact iff_of_false (not_succeeds_refuse _ _) (not_settled_cons rfl rfl)

theorem succeeds_join_set_iff {function : String} {decisive : Bool} (hi : i < args.length) :
    Succeeds (join function decisive (args.set i .absent)) ↔
      Settled decisive (args.set i .absent) := by
  by_cases hone : args.length = 1
  · rw [set_absent_of_length hi hone]
    exact iff_of_true (succeeds_ok _) ((settled_cons_iff (.inl rfl)).mpr (settled_nil decisive))
  · have hset : (args.set i .absent).length ≠ 1 := by rw [List.length_set]; exact hone
    rw [join, missingSubject?_of_length hset, operands_of_length hset]
    exact succeeds_joinFrom_iff

/-! ## Parts of lists -/

theorem lenient_sublist (hi : i ≠ 2) : Lenient sublist args i := by
  refine lenient_unlessMissing fun hlist => lenient_unlessMissing fun hstart => lenient_of_eq ?_
  rw [argument_set_ne args hlist, argument_set_ne args hstart, argument_set_ne args hi]

theorem eq_list_of_expectList {function : String} {v : Value} {items : List Value}
    (h : expectList function v = .ok items) : v = .list items := by
  cases v <;> cases h
  rfl

theorem position_of_isMissing {function : String} {v : Value} (h : v.isMissing = true)
    (place : Int) : position function v ≠ .ok place := by
  cases v with
  | null | absent => nofun
  | _ => cases h

/-- Without a length the position is looked up, unless the list is empty. -/
theorem succeeds_sublist_absent_iff {items : List Value} {place : Int}
    (hlist : argument args 0 = .list items)
    (hplace : position "sublist" (argument args 1) = .ok place) :
    Succeeds (sublist (args.set 2 .absent)) ↔ items = [] ∨ Within items.length place := by
  have hthere : (Value.list items).isMissing ≠ true := Bool.false_ne_true
  have hstart : (argument args 1).isMissing ≠ true := fun h => position_of_isMissing h place hplace
  unfold sublist
  dsimp only
  rw [argument_set_self, argument_set_ne args (by decide), argument_set_ne args (by decide), hlist,
    if_neg hthere, if_neg hstart, expectList, ok_bind, hplace, ok_bind, askedLength?_absent, ok_bind]
  by_cases hempty : items = []
  · subst hempty
    exact iff_of_true (succeeds_ok _) (.inl rfl)
  rw [if_neg (by simpa using hempty), or_iff_right hempty]
  by_cases hwithin : Within items.length place
  · obtain ⟨first, hfirst, -, hnonneg, hlt⟩ := exists_startOffset hwithin
    rw [hfirst, ok_bind, takeFrom_none hnonneg (Int.le_of_lt hlt)]
    exact iff_of_true (succeeds_ok _) hwithin
  · rw [startOffset_of_not_within hwithin]
    exact iff_of_false (not_succeeds_error _) hwithin

theorem succeeds_sublist_set_iff (h : Succeeds (sublist args)) :
    Succeeds (sublist (args.set 2 .absent)) ↔
      ∀ items place, argument args 0 = .list items →
        position "sublist" (argument args 1) = .ok place →
        items = [] ∨ place ≠ 0 ∧ place.natAbs ≤ items.length := by
  constructor
  · intro hresult items place hlist hplace
    exact (succeeds_sublist_absent_iff hlist hplace).mp hresult
  · intro hinside
    by_cases hlist : (argument args 0).isMissing = true
    · unfold sublist
      dsimp only
      rw [argument_set_ne args (by decide), if_pos hlist]
      exact succeeds_ok _
    by_cases hstart : (argument args 1).isMissing = true
    · unfold sublist
      dsimp only
      rw [argument_set_ne args (by decide), if_neg hlist, argument_set_ne args (by decide),
        if_pos hstart]
      exact succeeds_ok _
    unfold sublist at h
    dsimp only at h
    rw [if_neg hlist, if_neg hstart] at h
    obtain ⟨items, hitems, h⟩ := succeeds_bind_iff.mp h
    obtain ⟨place, hplace, -⟩ := succeeds_bind_iff.mp h
    have hsubject := eq_list_of_expectList hitems
    exact (succeeds_sublist_absent_iff hsubject hplace).mpr (hinside items place hsubject hplace)

end Library

/-! ## All built-in functions -/

namespace Builtin

open Library

/-- Where a function that came to a result on these arguments does so again when the one at a
position becomes absent. -/
def Withstands (args : List Value) (i : Nat) : Builtin → Prop
  | .mean | .median | .mode | .product | .stddev => args.length = 1
  | .max | .min =>
    args.length = 1 ∨ (∃ j < i, args[j]? = some .null) ∨ i = 0 ∧ args[1]? = some .null
  | .all | .and => Settled false (args.set i .absent)
  | .any | .or => Settled true (args.set i .absent)
  | .sublist => i = 2 → ∀ items place, argument args 0 = .list items →
    position "sublist" (argument args 1) = .ok place →
    items = [] ∨ place ≠ 0 ∧ place.natAbs ≤ items.length
  | _ => True

variable {args : List Value} {i : Nat}

/-- **A call that comes to a result comes to one again when an argument becomes absent, except for
the aggregates, conjunctions and parts of lists that do not withstand it.** -/
theorem succeeds_call_absent_iff (b : Builtin) (args : List Value) (i : Nat) (hi : i < args.length)
    (h : Succeeds (b.call args)) :
    Succeeds (b.call (args.set i .absent)) ↔ b.Withstands args i := by
  cases b with
  | mean | median | mode | product | stddev => exact succeeds_aggregateNumbers_set_iff hi
  | max | min => exact succeeds_extreme_set_iff hi h
  | all | and | any | or => exact succeeds_join_set_iff hi
  | sublist =>
    by_cases hlength : i = 2
    · subst hlength
      rw [Withstands, imp_iff_right rfl]
      exact succeeds_sublist_set_iff h
    · exact iff_of_true (lenient_sublist hlength h) fun hi => absurd hi hlength
  | abs => exact iff_of_true ((lenient_abs : Lenient Library.abs args i) h) trivial
  | ceil => exact iff_of_true ((lenient_ofNumber _ _ : Lenient Library.ceiling args i) h) trivial
  | ceiling => exact iff_of_true ((lenient_ofNumber _ _ : Lenient Library.ceiling args i) h) trivial
  | floor => exact iff_of_true ((lenient_ofNumber _ _ : Lenient Library.floor args i) h) trivial
  | round => exact iff_of_true ((lenient_rounded _ _ : Lenient Library.round args i) h) trivial
  | decimal => exact iff_of_true ((lenient_rounded _ _ : Lenient Library.decimal args i) h) trivial
  | contains =>
    exact iff_of_true ((lenient_compareTexts _ _ : Lenient Library.contains args i) h) trivial
  | startsWith =>
    exact iff_of_true ((lenient_compareTexts _ _ : Lenient Library.startsWith args i) h) trivial
  | endsWith =>
    exact iff_of_true ((lenient_compareTexts _ _ : Lenient Library.endsWith args i) h) trivial
  | upperCase =>
    exact iff_of_true ((lenient_ofString _ _ : Lenient Library.upperCase args i) h) trivial
  | lowerCase =>
    exact iff_of_true ((lenient_ofString _ _ : Lenient Library.lowerCase args i) h) trivial
  | stringLength =>
    exact iff_of_true ((lenient_ofString _ _ : Lenient Library.stringLength args i) h) trivial
  | listContains =>
    exact iff_of_true ((lenient_ofList _ _ : Lenient Library.listContains args i) h) trivial
  | append => exact iff_of_true ((lenient_ofList _ _ : Lenient Library.append args i) h) trivial
  | count => exact iff_of_true ((lenient_ofList _ _ : Lenient Library.count args i) h) trivial
  | reverse => exact iff_of_true ((lenient_ofList _ _ : Lenient Library.reverse args i) h) trivial
  | distinctValues =>
    exact iff_of_true ((lenient_ofList _ _ : Lenient Library.distinctValues args i) h) trivial
  | date =>
    exact iff_of_true ((lenient_unlessAnyMissing hi : Lenient Library.date args i) h) trivial
  | time =>
    exact iff_of_true ((lenient_unlessAnyMissing hi : Lenient Library.time args i) h) trivial
  | dateAndTime =>
    exact iff_of_true ((lenient_unlessAnyMissing hi : Lenient Library.dateAndTime args i) h) trivial
  | substring => exact iff_of_true (lenient_substring h) trivial
  | not => exact iff_of_true (lenient_negation h) trivial
  | duration => exact iff_of_true (lenient_duration h) trivial
  | yearsAndMonthsDuration => exact iff_of_true (lenient_yearsAndMonthsDuration hi h) trivial
  | sum => exact iff_of_true (lenient_sum hi h) trivial
  | concatenate => exact iff_of_true (lenient_concatenate h) trivial
  | insertBefore => exact iff_of_true (lenient_insertBefore h) trivial
  | remove => exact iff_of_true (lenient_remove h) trivial
  | indexOf => exact iff_of_true (lenient_indexOf h) trivial
  | union => exact iff_of_true (lenient_union h) trivial
  | defined => exact iff_of_true (succeeds_ok _) trivial
  | flatten => exact iff_of_true (succeeds_flatten _) trivial

theorem null_ends_search_before_absent :
    Succeeds (Builtin.min.call ([.null, .ofNat 3].set 1 .absent)) ∧
      ¬Succeeds (Builtin.mean.call ([.ofNat 2, .ofNat 4].set 0 .absent)) := by
  have hleast : Succeeds (Builtin.min.call [.null, .ofNat 3]) := ⟨.null, rfl⟩
  have hmean : Succeeds (Builtin.mean.call [.ofNat 2, .ofNat 4]) :=
    ⟨.ofNat 3, by with_unfolding_all rfl⟩
  constructor
  · rw [succeeds_call_absent_iff .min _ 1 (by decide) hleast]
    exact .inr (.inl ⟨0, by decide, rfl⟩)
  · rw [succeeds_call_absent_iff .mean _ 0 (by decide) hmean]
    exact Nat.succ_ne_self 1

/-- An operand that an aggregate refuses or cannot order, a boolean that settled a conjunction, and
a length of zero. -/
theorem absent_argument_refused :
    let two : Value := .list [.ofNat 1, .ofNat 2]
    (Succeeds (Builtin.mean.call [.ofNat 2, .ofNat 4]) ∧
      Builtin.mean.call ([.ofNat 2, .ofNat 4].set 0 .absent) =
        .error (.unsupported (.function "mean") [.absent])) ∧
    (Succeeds (Builtin.min.call [.ofNat 3, .ofNat 4]) ∧
      Builtin.min.call ([.ofNat 3, .ofNat 4].set 1 .absent) =
        .error (.unsupported (.operator "<") [.absent, .number])) ∧
    (Succeeds (Builtin.all.call [.bool false, .string "x"]) ∧
      Builtin.all.call ([.bool false, .string "x"].set 0 .absent) =
        .error (.unsupported (.function "all") [.string])) ∧
    Succeeds (Builtin.sublist.call [two, .ofNat 5, .ofNat 0]) ∧
      Builtin.sublist.call ([two, .ofNat 5, .ofNat 0].set 2 .absent) =
        .error (.invalidArgument "sublist" (.startOutsideList 5 2)) :=
  ⟨⟨⟨.ofNat 3, by with_unfolding_all rfl⟩, rfl⟩, ⟨⟨_, rfl⟩, rfl⟩, ⟨⟨_, rfl⟩, rfl⟩,
    ⟨_, rfl⟩, rfl⟩

end Builtin
end DecisionModel
