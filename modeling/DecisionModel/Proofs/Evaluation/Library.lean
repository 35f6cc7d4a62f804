import DecisionModel.Library.Call
import DecisionModel.Operator.Logic
import DecisionModel.Proofs.Bind
import DecisionModel.Proofs.Evaluation.Names
import Mathlib.Data.List.InsertIdx

/-!
# Functions in results

An operator yields no functions, and a built-in function only those that are in its arguments: it
hands values on, takes lists apart and puts them together, but it makes none. So whatever holds of
all functions in the arguments holds of those in the result.
-/

namespace DecisionModel

/-- Whether all functions in a result are of one sort. -/
def Only (P : Function → Prop) (r : Result Value) : Prop := ∀ v, r = .ok v → v.Only P

variable {P : Function → Prop} {α : Type}

@[simp] theorem only_ok {v : Value} : Only P (.ok v) ↔ v.Only P := by
  simp [Only]

@[simp] theorem only_error (e : EvalError) : Only P (.error e) := nofun

theorem only_bind {x : Result α} {f : α → Result Value} (h : ∀ a, x = .ok a → Only P (f a)) :
    Only P (x >>= f) := by
  cases x with
  | ok a => exact h a rfl
  | error e => exact only_error e

theorem only_map {x : Result α} {f : α → Value} (h : ∀ a, x = .ok a → (f a).Only P) :
    Only P (x.map f) := by
  cases x with
  | ok a => exact only_ok.mpr (h a rfl)
  | error e => exact only_error e

/-! ## Operators -/

namespace Value

theorem only_arithmetic (op : ArithmeticOp) (left right : Value) :
    DecisionModel.Only P (arithmetic op left right) := by
  unfold arithmetic
  split
  · simp
  · cases op <;> dsimp only
    · unfold add
      split <;> first | simp | exact only_map fun _ _ => only_of_functions_eq_nil rfl
    · unfold sub
      split <;> first | simp | exact only_map fun _ _ => only_of_functions_eq_nil rfl
    · unfold mul
      split <;> first | simp | exact only_map fun _ _ => only_of_functions_eq_nil rfl
    · unfold div
      repeat' split
      all_goals first | simp | exact only_map fun _ _ => only_of_functions_eq_nil rfl
    · unfold power
      split <;> first | simp | exact only_map fun _ _ => only_of_functions_eq_nil rfl

theorem only_negate (v : Value) : DecisionModel.Only P v.negate := by
  cases v with
  | months | elapsed | composite => exact only_map fun _ _ => only_of_functions_eq_nil rfl
  | _ => simp [negate]

theorem only_compare (op : ComparisonOp) (left right : Value) :
    DecisionModel.Only P (left.compare op right) := by
  unfold compare
  split
  · simp
  · split
    · exact only_map fun _ _ => only_bool _
    · exact only_map fun _ _ => only_bool _
    · exact only_map fun o _ => by cases o <;> simp

theorem only_undecided (left right : Value) : (undecided left right).Only P := by
  unfold undecided
  split <;> simp

theorem only_or3 (left right : Value) : (left.or3 right).Only P := by
  unfold or3
  split <;> simp [only_undecided]

theorem only_and3 (left right : Value) : (left.and3 right).Only P := by
  unfold and3
  split <;> simp [only_undecided]

theorem only_of_isMissing {v : Value} (h : v.isMissing = true) : v.Only P := by
  cases v with
  | null | absent => simp
  | _ => cases h

end Value

/-! ## Arguments -/

namespace Library

variable {args : List Value}

theorem only_argument (h : ∀ v ∈ args, v.Only P) (index : Nat) :
    (argument args index).Only P := by
  unfold argument
  rw [List.getD_eq_getElem?_getD]
  cases hget : args[index]? with
  | none => simp
  | some v => exact h v (List.mem_of_getElem? hget)

/-- Most functions hand a missing subject back. -/
theorem only_unlessMissing {subject : Value} {r : Result Value} (h : Only P r) :
    Only P (if subject.isMissing then .ok subject else r) := by
  split
  · next hmissing => exact only_ok.mpr (Value.only_of_isMissing hmissing)
  · exact h

theorem only_missingSubject? {v : Value} (h : missingSubject? args = some v) : v.Only P := by
  unfold missingSubject? at h
  split at h
  · split at h
    · next hmissing =>
      cases h
      exact Value.only_of_isMissing hmissing
    · cases h
  · cases h

theorem only_firstMissing? {v : Value} (h : firstMissing? args = some v) : v.Only P := by
  unfold firstMissing? at h
  split at h
  · cases h
    simp
  · split at h
    · cases h
      simp
    · cases h

theorem only_operands (h : ∀ v ∈ args, v.Only P) : ∀ v ∈ operands args, v.Only P := by
  unfold operands
  split
  · simpa using h
  · exact h

theorem only_expectList {function : String} {v : Value} {items : List Value}
    (hlist : expectList function v = .ok items) (h : v.Only P) : ∀ item ∈ items, item.Only P := by
  cases v with
  | list =>
    cases hlist
    exact Value.only_list.mp h
  | _ => cases hlist

/-! ## Truth, numbers and texts -/

theorem only_negation (args : List Value) : Only P (negation args) := by
  unfold negation
  split <;> simp [refuse]

theorem only_joinFrom (function : String) (decisive sawAbsent sawNull : Bool) (args : List Value) :
    Only P (joinFrom function decisive sawAbsent sawNull args) := by
  fun_induction joinFrom function decisive sawAbsent sawNull args with
  | case1 =>
    refine only_ok.mpr ?_
    split
    · simp
    · split <;> simp
  | case2 => simp
  | case3 _ _ _ _ _ ih | case4 _ _ _ ih | case5 _ _ _ ih => exact ih
  | case6 => simp [refuse]

theorem only_join (function : String) (decisive : Bool) (args : List Value) :
    Only P (join function decisive args) := by
  unfold join
  split
  · next h => exact only_ok.mpr (only_missingSubject? h)
  · exact only_joinFrom function decisive false false _

theorem only_ofNumber (function : String) (f : Decimal → Decimal) (args : List Value) :
    Only P (ofNumber function f args) :=
  only_unlessMissing (only_map fun _ _ => Value.only_number _)

theorem only_abs (args : List Value) : Only P (abs args) := by
  unfold abs
  split
  · exact only_map fun _ _ => Value.only_months _
  · exact only_map fun _ _ => Value.only_elapsed _
  · exact only_ofNumber _ _ args

theorem only_rounded (function : String) (tie : Tie) (args : List Value) :
    Only P (rounded function tie args) :=
  only_unlessMissing (only_bind fun _ _ => only_bind fun _ _ => only_ok.mpr (Value.only_number _))

theorem only_compareTexts (function : String) (test : List Char → List Char → Bool)
    (args : List Value) : Only P (compareTexts function test args) := by
  unfold compareTexts
  dsimp only
  split
  · simp
  · split
    · simp
    · exact only_bind fun _ _ => only_bind fun _ _ => only_ok.mpr (Value.only_bool _)

theorem only_ofString (function : String) {f : List Char → Value} (hf : ∀ cs, (f cs).Only P)
    (args : List Value) : Only P (ofString function f args) :=
  only_unlessMissing (only_map fun _ _ => hf _)

theorem only_substring (args : List Value) : Only P (substring args) := by
  refine only_unlessMissing (only_unlessMissing ?_)
  exact only_bind fun _ _ => only_bind fun _ _ => only_bind fun _ _ => only_bind fun _ _ =>
    only_bind fun _ _ => only_ok.mpr (Value.only_string _)

/-! ## The calendar -/

theorem only_date (args : List Value) : Only P (date args) := by
  unfold date dateOf
  split
  · next h => exact only_ok.mpr (only_firstMissing? h)
  · split
    · exact only_map fun _ _ => Value.only_date _
    · simp
    · simp
    · exact only_bind fun _ _ => only_bind fun _ _ => only_bind fun _ _ => only_bind fun _ _ =>
        only_ok.mpr (Value.only_date _)
    · simp [refuse]
    · simp

theorem only_time (args : List Value) : Only P (time args) := by
  unfold time
  split
  · next h => exact only_ok.mpr (only_firstMissing? h)
  · split
    · exact only_map fun _ _ => Value.only_time _
    · simp
    · simp
    · exact only_bind fun _ _ => only_ok.mpr (Value.only_time _)
    · exact only_bind fun _ _ => only_bind fun _ _ => only_ok.mpr (Value.only_time _)
    · simp [refuse]
    · simp

theorem only_dateAndTime (args : List Value) : Only P (dateAndTime args) := by
  unfold dateAndTime
  split
  · next h => exact only_ok.mpr (only_firstMissing? h)
  · split
    · exact only_map fun _ _ => Value.only_dateTime _
    all_goals simp [refuse]

theorem only_duration (args : List Value) : Only P (duration args) := by
  refine only_unlessMissing (only_bind fun _ _ => only_bind fun d _ => ?_)
  cases d <;> simp [Value.ofDuration]

theorem only_yearsAndMonthsDuration (args : List Value) :
    Only P (yearsAndMonthsDuration args) := by
  unfold yearsAndMonthsDuration
  split
  · next h => exact only_ok.mpr (only_firstMissing? h)
  · exact only_bind fun _ _ => only_bind fun _ _ => only_ok.mpr (Value.only_months _)

/-! ## Aggregates -/

theorem only_aggregate {f : List Value → Result Value} (h : ∀ v ∈ args, v.Only P)
    (hf : ∀ items, (∀ v ∈ items, v.Only P) → Only P (f items)) : Only P (aggregate f args) := by
  unfold aggregate
  split
  · next hmissing => exact only_ok.mpr (only_missingSubject? hmissing)
  · exact hf _ (only_operands h)

theorem only_aggregateNumbers (function : String) {f : List Decimal → Result Value}
    (h : ∀ v ∈ args, v.Only P) (hf : ∀ ns, Only P (f ns)) :
    Only P (aggregateNumbers function f args) :=
  only_aggregate h fun _ _ => only_bind fun _ _ => hf _

theorem only_extremeFrom (keep : Ordering) {best : Value} {items : List Value}
    (hbest : best.Only P) (h : ∀ v ∈ items, v.Only P) :
    Only P (extremeFrom keep best items) := by
  induction items generalizing best with
  | nil => exact only_ok.mpr hbest
  | cons item items ih =>
    obtain ⟨hitem, hitems⟩ := List.forall_mem_cons.mp h
    refine only_bind fun o _ => ?_
    cases o with
    | none => exact only_ok.mpr Value.only_null
    | some ordering =>
      dsimp only
      split
      · exact ih hitem hitems
      · exact ih hbest hitems

theorem only_extreme (keep : Ordering) {items : List Value} (h : ∀ v ∈ items, v.Only P) :
    Only P (extreme keep items) := by
  cases items with
  | nil => exact only_ok.mpr Value.only_absent
  | cons item items =>
    obtain ⟨hitem, hitems⟩ := List.forall_mem_cons.mp h
    exact only_extremeFrom keep hitem hitems

/-- A sum of several operands is a number or a duration, or refused. -/
theorem only_foldlM_add {items : List Value} {total : Value} (h : total.Only P) :
    Only P (items.foldlM (Value.arithmetic .add) total) := by
  induction items generalizing total with
  | nil => exact only_ok.mpr h
  | cons item items ih =>
    rw [List.foldlM_cons]
    exact only_bind fun total' htotal' => ih (Value.only_arithmetic .add total item total' htotal')

theorem only_sum (h : ∀ v ∈ args, v.Only P) : Only P (sum args) := by
  refine only_aggregate h fun items hitems => ?_
  cases items with
  | nil => exact only_ok.mpr (Value.only_ofNat 0)
  | cons item items => exact only_foldlM_add (List.forall_mem_cons.mp hitems).1

theorem only_product (h : ∀ v ∈ args, v.Only P) : Only P (product args) :=
  only_aggregateNumbers _ h fun _ => only_map fun _ _ => Value.only_number _

theorem only_mean (h : ∀ v ∈ args, v.Only P) : Only P (mean args) := by
  refine only_aggregateNumbers _ h fun ns => ?_
  split
  · exact only_ok.mpr Value.only_absent
  · exact only_bind fun _ _ => only_bind fun _ _ => only_ok.mpr (Value.only_number _)

theorem only_median (h : ∀ v ∈ args, v.Only P) : Only P (median args) := by
  refine only_aggregateNumbers _ h fun ns => ?_
  split
  · exact only_ok.mpr Value.only_absent
  · exact only_map fun _ _ => Value.only_number _

theorem only_mode (h : ∀ v ∈ args, v.Only P) : Only P (mode args) :=
  only_aggregateNumbers _ h fun _ => by simp

theorem only_stddev (h : ∀ v ∈ args, v.Only P) : Only P (stddev args) :=
  only_aggregateNumbers _ h fun _ => only_map fun _ _ => Value.only_number _

/-! ## Lists -/

theorem only_ofList (function : String) {f : List Value → Value} (h : ∀ v ∈ args, v.Only P)
    (hf : ∀ items, (∀ v ∈ items, v.Only P) → (f items).Only P) :
    Only P (ofList function f args) :=
  only_unlessMissing (only_map fun _ hitems => hf _ (only_expectList hitems (only_argument h 0)))

theorem only_append (h : ∀ v ∈ args, v.Only P) : Only P (append args) := by
  refine only_ofList _ h fun items hitems => Value.only_list.mpr ?_
  have helement := only_argument h 1
  split
  · exact hitems
  · next hlist =>
    rw [hlist] at helement
    exact List.forall_mem_append.mpr ⟨hitems, Value.only_list.mp helement⟩
  · exact List.forall_mem_append.mpr ⟨hitems, by simpa using helement⟩

theorem only_elements {function : String} {items : List Value} (h : ∀ v ∈ args, v.Only P)
    (hitems : elements function args = .ok items) : ∀ v ∈ items, v.Only P := by
  induction args generalizing items with
  | nil =>
    cases hitems
    simp
  | cons arg args ih =>
    obtain ⟨harg, hargs⟩ := List.forall_mem_cons.mp h
    unfold elements at hitems
    split at hitems
    · exact ih hargs hitems
    · obtain ⟨first, hfirst, hitems⟩ := bind_eq_ok_iff.mp hitems
      obtain ⟨rest, hrest, hitems⟩ := bind_eq_ok_iff.mp hitems
      cases hitems
      exact List.forall_mem_append.mpr ⟨only_expectList hfirst harg, ih hargs hrest⟩

theorem only_concatenate (h : ∀ v ∈ args, v.Only P) : Only P (concatenate args) :=
  only_map fun _ hitems => Value.only_list.mpr (only_elements h hitems)

theorem only_insertBefore (h : ∀ v ∈ args, v.Only P) : Only P (insertBefore args) := by
  refine only_unlessMissing (only_unlessMissing ?_)
  split
  · simp
  · refine only_bind fun items hitems => only_bind fun index _ => ?_
    split
    · simp
    · refine only_ok.mpr (Value.only_list.mpr fun v hv => ?_)
      rcases List.eq_or_mem_of_mem_insertIdx hv with rfl | hv
      · exact only_argument h 2
      · exact only_expectList hitems (only_argument h 0) v hv

theorem only_remove (h : ∀ v ∈ args, v.Only P) : Only P (remove args) := by
  refine only_unlessMissing (only_unlessMissing ?_)
  refine only_bind fun items hitems => only_bind fun index _ => ?_
  split
  · simp
  · refine only_ok.mpr (Value.only_list.mpr fun v hv => ?_)
    exact only_expectList hitems (only_argument h 0) v (List.mem_of_mem_eraseIdx hv)

theorem only_reverse (h : ∀ v ∈ args, v.Only P) : Only P (reverse args) :=
  only_ofList _ h fun _ hitems => Value.only_list.mpr fun v hv =>
    hitems v (List.mem_reverse.mp hv)

theorem only_indexOf (args : List Value) : Only P (indexOf args) := by
  refine only_unlessMissing ?_
  split
  · simp
  · exact only_map fun _ _ => by simp

theorem only_addDistinct {seen : List Value} {item : Value} (hseen : ∀ v ∈ seen, v.Only P)
    (hitem : item.Only P) : ∀ v ∈ addDistinct seen item, v.Only P := by
  unfold addDistinct
  split
  · exact hseen
  · exact List.forall_mem_append.mpr ⟨hseen, by simpa using hitem⟩

theorem only_foldl_addDistinct {seen items : List Value} (hseen : ∀ v ∈ seen, v.Only P)
    (h : ∀ v ∈ items, v.Only P) : ∀ v ∈ items.foldl addDistinct seen, v.Only P := by
  induction items generalizing seen with
  | nil => exact hseen
  | cons item items ih =>
    obtain ⟨hitem, hitems⟩ := List.forall_mem_cons.mp h
    exact ih (only_addDistinct hseen hitem) hitems

theorem only_unionFrom {seen items : List Value} (hseen : ∀ v ∈ seen, v.Only P)
    (h : ∀ v ∈ args, v.Only P) (hitems : unionFrom seen args = .ok items) :
    ∀ v ∈ items, v.Only P := by
  induction args generalizing seen with
  | nil =>
    cases hitems
    exact hseen
  | cons arg args ih =>
    obtain ⟨harg, hargs⟩ := List.forall_mem_cons.mp h
    unfold unionFrom at hitems
    split at hitems
    · exact ih hseen hargs hitems
    · obtain ⟨more, hmore, hitems⟩ := bind_eq_ok_iff.mp hitems
      exact ih (only_foldl_addDistinct hseen (only_expectList hmore harg)) hargs hitems

theorem only_union (h : ∀ v ∈ args, v.Only P) : Only P (union args) :=
  only_map fun _ hitems => Value.only_list.mpr (only_unionFrom (by simp) h hitems)

theorem only_distinctValues (h : ∀ v ∈ args, v.Only P) : Only P (distinctValues args) :=
  only_ofList _ h fun _ hitems => Value.only_list.mpr (only_foldl_addDistinct (by simp) hitems)

mutual

theorem only_leaves : ∀ v : Value, v.Only P → ∀ leaf ∈ leaves v, leaf.Only P
  | .list items, h => only_leavesOfAll items (Value.only_list.mp h)
  | .null, h | .absent, h | .bool _, h | .number _, h | .string _, h | .context _, h | .date _, h
  | .time _, h | .dateTime _, h | .months _, h | .elapsed _, h | .composite _, h | .function _, h
  | .predicate _, h => by simp only [leaves, List.mem_singleton, forall_eq]; exact h

theorem only_leavesOfAll : ∀ items : List Value, (∀ v ∈ items, v.Only P) →
    ∀ leaf ∈ leavesOfAll items, leaf.Only P
  | [], _ => by simp [leavesOfAll]
  | item :: items, h => by
    obtain ⟨hitem, hitems⟩ := List.forall_mem_cons.mp h
    exact List.forall_mem_append.mpr ⟨only_leaves item hitem, only_leavesOfAll items hitems⟩

end

theorem only_flatten (h : ∀ v ∈ args, v.Only P) : Only P (flatten args) := by
  unfold flatten
  split
  · next hmissing => exact only_ok.mpr (only_missingSubject? hmissing)
  · exact only_ok.mpr (Value.only_list.mpr (only_leavesOfAll args h))

theorem mem_of_takeFrom {function : String} {items part : List α} {first : Int}
    {length? : Option Int} {a : α} (h : takeFrom function items first length? = .ok part)
    (ha : a ∈ part) : a ∈ items := by
  obtain ⟨count, -, h⟩ := bind_eq_ok_iff.mp h
  obtain ⟨-, rfl⟩ := slice_eq_ok_iff.mp h
  exact List.mem_of_mem_drop (List.mem_of_mem_take ha)

theorem only_sublist (h : ∀ v ∈ args, v.Only P) : Only P (sublist args) := by
  refine only_unlessMissing (only_unlessMissing ?_)
  refine only_bind fun items hitems => only_bind fun place _ => only_bind fun length? _ => ?_
  have hitems := only_expectList hitems (only_argument h 0)
  split
  · simp
  · exact only_bind fun first _ => only_bind fun part hpart =>
      only_ok.mpr (Value.only_list.mpr fun v hv => hitems v (mem_of_takeFrom hpart hv))

end Library

/-- **What holds of all functions in the arguments of a built-in function holds of those in its
result.** -/
theorem Builtin.only_call (b : Builtin) {args : List Value} (h : ∀ v ∈ args, v.Only P) :
    Only P (b.call args) := by
  cases b with
  | abs => exact Library.only_abs args
  | all | and => exact Library.only_join _ _ args
  | any | or => exact Library.only_join _ _ args
  | ceil | ceiling | floor => exact Library.only_ofNumber _ _ args
  | round | decimal => exact Library.only_rounded _ _ args
  | contains | startsWith | endsWith =>
    simp only [call, Library.contains, Library.startsWith, Library.endsWith,
      Library.only_compareTexts]
  | upperCase | lowerCase | stringLength =>
    simp only [call, Library.upperCase, Library.lowerCase, Library.stringLength]
    exact Library.only_ofString _ (by simp) args
  | substring => exact Library.only_substring args
  | not => exact Library.only_negation args
  | defined => simp [call, Library.defined]
  | date => exact Library.only_date args
  | time => exact Library.only_time args
  | dateAndTime => exact Library.only_dateAndTime args
  | duration => exact Library.only_duration args
  | yearsAndMonthsDuration => exact Library.only_yearsAndMonthsDuration args
  | min | max => exact Library.only_aggregate h fun _ => Library.only_extreme _
  | sum => exact Library.only_sum h
  | product => exact Library.only_product h
  | mean => exact Library.only_mean h
  | median => exact Library.only_median h
  | mode => exact Library.only_mode h
  | stddev => exact Library.only_stddev h
  | listContains | count => exact Library.only_ofList _ h (by simp)
  | append => exact Library.only_append h
  | concatenate => exact Library.only_concatenate h
  | insertBefore => exact Library.only_insertBefore h
  | remove => exact Library.only_remove h
  | reverse => exact Library.only_reverse h
  | indexOf => exact Library.only_indexOf args
  | union => exact Library.only_union h
  | distinctValues => exact Library.only_distinctValues h
  | flatten => exact Library.only_flatten h
  | sublist => exact Library.only_sublist h

end DecisionModel
