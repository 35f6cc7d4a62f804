import DecisionModel.Library.Call
import DecisionModel.Proofs.Library.Slice
import DecisionModel.Proofs.Value.Relocation
import Mathlib.Data.List.InsertIdx

/-!
# Built-in functions and functions made elsewhere

A built-in function asks of a function in its arguments no more than whether it is another one. So
of values whose functions were made at other sites it yields what it yielded of the values
themselves, with the functions made at those sites, and it fails with the same error. Most built-in
functions do not come across a function at all: they refuse it, for its kind, and a kind stays.
-/

namespace DecisionModel

variable {ρ : Site → Site} {α : Type}

/-! ## Results after a move -/

/-- What comes of a result after a move, if it comes so of everything that can be the result. -/
theorem relocated_bind_map {move : α → α} {x y : Result α} {f g : α → Result Value}
    (hxy : y = x.map move) (h : ∀ a, g (move a) = (f a).map (Value.relocate ρ)) :
    y >>= g = (x >>= f).map (Value.relocate ρ) := by
  subst hxy
  cases x with
  | ok a => exact h a
  | error e => rfl

theorem relocated_bind {x : Result α} {f g : α → Result Value}
    (h : ∀ a, g a = (f a).map (Value.relocate ρ)) : x >>= g = (x >>= f).map (Value.relocate ρ) := by
  cases x with
  | ok a => exact h a
  | error e => rfl

theorem relocated_map {x : Result α} {f g : α → Value} (h : ∀ a, g a = (f a).relocate ρ) :
    x.map g = (x.map f).map (Value.relocate ρ) := by
  cases x with
  | ok a => exact congrArg Except.ok (h a)
  | error e => rfl

theorem Value.arithmetic_relocated (op : ArithmeticOp) (a b : Value) :
    arithmetic op a b = (arithmetic op a b).map (relocate ρ) := by
  unfold arithmetic
  split
  · rfl
  · cases op <;> dsimp only
    · unfold add
      split <;> first | rfl | exact relocated_map fun _ => rfl
    · unfold sub
      split <;> first | rfl | exact relocated_map fun _ => rfl
    · unfold mul
      split <;> first | rfl | exact relocated_map fun _ => rfl
    · unfold div
      repeat' split
      all_goals first | rfl | exact relocated_map fun _ => rfl
    · unfold power
      split <;> first | rfl | exact relocated_map fun _ => rfl

/-- A sum or a product has no functions. -/
theorem Value.relocate_of_arithmetic {op : ArithmeticOp} {a b v : Value}
    (h : arithmetic op a b = .ok v) : v.relocate ρ = v := by
  have hrelocated : Except.ok v = (Except.ok v : Result Value).map (relocate ρ) :=
    h ▸ arithmetic_relocated op a b
  exact (Except.ok.inj hrelocated).symm

namespace Library

/-- Whether a function yields of values made elsewhere what it yields of the values themselves, made
elsewhere. -/
def Relocates (ρ : Site → Site) (f : List Value → Result Value) : Prop :=
  ∀ args, f (args.map (Value.relocate ρ)) = (f args).map (Value.relocate ρ)

/-! ## Arguments -/

theorem argument_relocate (args : List Value) (index : Nat) :
    argument (args.map (Value.relocate ρ)) index = (argument args index).relocate ρ := by
  simp only [argument, List.getD_eq_getElem?_getD, List.getElem?_map]
  cases args[index]? <;> rfl

theorem expectNumber_relocate (function : String) (v : Value) :
    expectNumber function (v.relocate ρ) = expectNumber function v := by
  cases v <;> rfl

theorem expectString_relocate (function : String) (v : Value) :
    expectString function (v.relocate ρ) = expectString function v := by
  cases v <;> rfl

theorem expectList_relocate (function : String) (v : Value) :
    expectList function (v.relocate ρ) =
      (expectList function v).map (List.map (Value.relocate ρ)) := by
  cases v with
  | list items => exact congrArg Except.ok (relocateAll_eq_map items)
  | _ => rfl

/-- A missing subject is handed back. -/
theorem relocated_unlessMissing {subject : Value} {x y : Result Value}
    (h : y = x.map (Value.relocate ρ)) :
    (if (subject.relocate ρ).isMissing then .ok (subject.relocate ρ) else y) =
      (if subject.isMissing then .ok subject else x).map (Value.relocate ρ) := by
  rw [Value.isMissing_relocate]
  split
  · rfl
  · exact h

theorem missingSubject?_relocate (args : List Value) :
    missingSubject? (args.map (Value.relocate ρ)) =
      (missingSubject? args).map (Value.relocate ρ) := by
  match args with
  | [] => rfl
  | [subject] =>
    simp only [missingSubject?, List.map_cons, List.map_nil, Value.isMissing_relocate]
    split <;> rfl
  | _ :: _ :: _ => rfl

theorem firstMissing?_relocate (args : List Value) :
    firstMissing? (args.map (Value.relocate ρ)) = (firstMissing? args).map (Value.relocate ρ) := by
  simp only [firstMissing?, List.any_map, Function.comp_def, Value.isAbsent_relocate,
    Value.isNull_relocate]
  split
  · rfl
  · split <;> rfl

/-- What is missing is handed back. -/
theorem relocated_unless {missing : Option Value} {x y : Result Value}
    (h : y = x.map (Value.relocate ρ)) :
    (match missing.map (Value.relocate ρ) with
      | some v => .ok v
      | none => y) =
    Except.map (Value.relocate ρ) (match missing with
      | some v => .ok v
      | none => x) := by
  cases missing with
  | none => exact h
  | some v => rfl

theorem operands_relocate (args : List Value) :
    operands (args.map (Value.relocate ρ)) = (operands args).map (Value.relocate ρ) := by
  match args with
  | [] => rfl
  | [v] =>
    cases v with
    | list items => exact relocateAll_eq_map items
    | _ => rfl
  | v :: _ :: _ => cases v <;> rfl

/-! ## Truth, numbers and texts -/

theorem relocates_negation : Relocates ρ negation := by
  intro args
  rw [negation, negation, argument_relocate]
  cases argument args 0 <;> rfl

theorem relocates_defined : Relocates ρ defined := by
  intro args
  rw [defined, defined, argument_relocate, Value.isAbsent_relocate]
  rfl

theorem joinFrom_relocate (function : String) (decisive sawAbsent sawNull : Bool)
    (args : List Value) :
    joinFrom function decisive sawAbsent sawNull (args.map (Value.relocate ρ)) =
      (joinFrom function decisive sawAbsent sawNull args).map (Value.relocate ρ) := by
  induction args generalizing sawAbsent sawNull with
  | nil =>
    simp only [List.map_nil, joinFrom]
    cases sawAbsent <;> cases sawNull <;> rfl
  | cons v rest ih =>
    cases v with
    | bool b =>
      simp only [List.map_cons, Value.relocate_bool, joinFrom]
      split
      · rfl
      · exact ih sawAbsent sawNull
    | absent => exact ih true sawNull
    | null => exact ih sawAbsent true
    | _ => rfl

theorem relocates_join (function : String) (decisive : Bool) :
    Relocates ρ (join function decisive) := by
  intro args
  rw [join, join, missingSubject?_relocate, operands_relocate]
  exact relocated_unless (joinFrom_relocate function decisive false false _)

theorem relocates_ofNumber (function : String) (f : Decimal → Decimal) :
    Relocates ρ (ofNumber function f) := by
  intro args
  simp only [ofNumber, argument_relocate, expectNumber_relocate]
  exact relocated_unlessMissing (relocated_map fun _ => rfl)

theorem relocates_abs : Relocates ρ abs := by
  intro args
  rw [abs, abs, relocates_ofNumber, argument_relocate]
  cases argument args 0 with
  | months d => exact relocated_map fun _ => rfl
  | elapsed d => exact relocated_map fun _ => rfl
  | _ => rfl

theorem places_relocate (function : String) (v : Value) :
    places function (v.relocate ρ) = places function v := by
  cases v <;> rfl

theorem relocates_rounded (function : String) (tie : Tie) : Relocates ρ (rounded function tie) := by
  intro args
  simp only [rounded, argument_relocate, expectNumber_relocate, places_relocate]
  exact relocated_unlessMissing (relocated_bind fun _ => relocated_bind fun _ => rfl)

theorem relocates_compareTexts (function : String) (test : List Char → List Char → Bool) :
    Relocates ρ (compareTexts function test) := by
  intro args
  simp only [compareTexts, argument_relocate, Value.isAbsent_relocate, Value.isNull_relocate,
    expectString_relocate]
  split
  · rfl
  · split
    · rfl
    · exact relocated_bind fun _ => relocated_bind fun _ => rfl

theorem relocates_ofString (function : String) {f : List Char → Value}
    (hf : ∀ cs, (f cs).relocate ρ = f cs) : Relocates ρ (ofString function f) := by
  intro args
  simp only [ofString, argument_relocate, expectString_relocate]
  exact relocated_unlessMissing (relocated_map fun s => (hf s.toList).symm)

theorem position_relocate (function : String) (v : Value) :
    position function (v.relocate ρ) = position function v := by
  simp only [position, expectNumber_relocate]

theorem askedLength?_relocate (function : String) (v : Value) :
    askedLength? function (v.relocate ρ) = askedLength? function v := by
  simp only [askedLength?, Value.isMissing_relocate, position_relocate]

theorem relocates_substring : Relocates ρ substring := by
  intro args
  simp only [substring, argument_relocate, expectString_relocate, position_relocate,
    askedLength?_relocate]
  refine relocated_unlessMissing (relocated_unlessMissing ?_)
  exact relocated_bind fun s => relocated_bind fun place => relocated_bind fun first =>
    relocated_bind fun length? => relocated_bind fun part => rfl

/-! ## The calendar -/

theorem wholeComponent_relocate (function : String) (name : Calendar.Component) (low high : Int)
    (v : Value) : wholeComponent function name low high (v.relocate ρ) =
      wholeComponent function name low high v := by
  simp only [wholeComponent, expectNumber_relocate]

theorem dateOf_relocate (year month day : Value) :
    dateOf (year.relocate ρ) (month.relocate ρ) (day.relocate ρ) =
      (dateOf year month day).map (Value.relocate ρ) := by
  simp only [dateOf, wholeComponent_relocate]
  exact relocated_bind fun _ => relocated_bind fun _ => relocated_bind fun _ =>
    relocated_bind fun _ => rfl

theorem relocates_date : Relocates ρ date := by
  intro args
  unfold date
  rw [firstMissing?_relocate]
  refine relocated_unless ?_
  match args with
  | [] => rfl
  | [v] =>
    cases v with
    | string s => exact relocated_map fun _ => rfl
    | _ => rfl
  | [v, _] => cases v <;> rfl
  | [year, month, day] => simp only [List.map_cons, List.map_nil, dateOf_relocate]
  | v :: _ :: _ :: _ :: _ => cases v <;> rfl

theorem clockOf_relocate (hour minute second : Value) :
    clockOf (hour.relocate ρ) (minute.relocate ρ) (second.relocate ρ) =
      clockOf hour minute second := by
  simp only [clockOf, wholeComponent_relocate, expectNumber_relocate]

theorem offsetOf_relocate (v : Value) : offsetOf (v.relocate ρ) = offsetOf v := by
  cases v <;> rfl

theorem relocates_time : Relocates ρ time := by
  intro args
  unfold time
  rw [firstMissing?_relocate]
  refine relocated_unless ?_
  match args with
  | [] => rfl
  | [v] =>
    cases v with
    | string s => exact relocated_map fun _ => rfl
    | _ => rfl
  | [v, _] => cases v <;> rfl
  | [hour, minute, second] =>
    simp only [List.map_cons, List.map_nil, clockOf_relocate]
    exact relocated_bind fun _ => rfl
  | [hour, minute, second, offset] =>
    simp only [List.map_cons, List.map_nil, clockOf_relocate, offsetOf_relocate]
    exact relocated_bind fun _ => relocated_bind fun _ => rfl
  | v :: _ :: _ :: _ :: _ :: _ => cases v <;> rfl

theorem relocates_dateAndTime : Relocates ρ dateAndTime := by
  intro args
  unfold dateAndTime
  rw [firstMissing?_relocate]
  refine relocated_unless ?_
  match args with
  | [] => rfl
  | [v] =>
    cases v with
    | string s => exact relocated_map fun _ => rfl
    | _ => rfl
  | day :: time :: _ :: _ | [day, time] => cases day <;> cases time <;> rfl

theorem relocates_duration : Relocates ρ duration := by
  intro args
  simp only [duration, argument_relocate, expectString_relocate]
  refine relocated_unlessMissing (relocated_bind fun _ => relocated_bind fun d => ?_)
  cases d <;> rfl

theorem localReading_relocate (v : Value) : localReading (v.relocate ρ) = localReading v := by
  cases v <;> rfl

theorem relocates_yearsAndMonthsDuration : Relocates ρ yearsAndMonthsDuration := by
  intro args
  simp only [yearsAndMonthsDuration, ← List.map_take, firstMissing?_relocate, argument_relocate,
    localReading_relocate]
  exact relocated_unless (relocated_bind fun _ => relocated_bind fun _ => rfl)

/-! ## Aggregates -/

theorem relocates_aggregate {f : List Value → Result Value} (hf : Relocates ρ f) :
    Relocates ρ (aggregate f) := by
  intro args
  rw [aggregate, aggregate, missingSubject?_relocate, operands_relocate]
  exact relocated_unless (hf _)

theorem mapM_expectNumber_relocate (function : String) (items : List Value) :
    (items.map (Value.relocate ρ)).mapM (expectNumber function) =
      items.mapM (expectNumber function) := by
  induction items with
  | nil => rfl
  | cons item items ih => rw [List.map_cons, List.mapM_cons, List.mapM_cons,
      expectNumber_relocate, ih]

/-- What is computed from numbers has no functions. -/
theorem relocates_aggregateNumbers (function : String) {f : List Decimal → Result Value}
    (hf : ∀ ns, f ns = (f ns).map (Value.relocate ρ)) :
    Relocates ρ (aggregateNumbers function f) := by
  refine relocates_aggregate fun items => ?_
  rw [mapM_expectNumber_relocate]
  exact relocated_bind hf

theorem extremeFrom_relocate (keep : Ordering) (best : Value) (items : List Value) :
    extremeFrom keep (best.relocate ρ) (items.map (Value.relocate ρ)) =
      (extremeFrom keep best items).map (Value.relocate ρ) := by
  induction items generalizing best with
  | nil => rfl
  | cons item items ih =>
    rw [List.map_cons, extremeFrom, extremeFrom, Value.order_relocate]
    refine relocated_bind fun o => ?_
    cases o with
    | none => rfl
    | some ordering =>
      dsimp only
      rw [← apply_ite (Value.relocate ρ)]
      exact ih _

theorem relocates_extreme (keep : Ordering) : Relocates ρ (extreme keep)
  | [] => rfl
  | item :: items => extremeFrom_relocate keep item items

theorem foldlM_add_relocate (total : Value) (items : List Value) :
    (items.map (Value.relocate ρ)).foldlM (Value.arithmetic .add) (total.relocate ρ) =
      (items.foldlM (Value.arithmetic .add) total).map (Value.relocate ρ) := by
  induction items generalizing total with
  | nil => rfl
  | cons item items ih =>
    rw [List.map_cons, List.foldlM_cons, List.foldlM_cons, Value.arithmetic_relocate]
    cases hsum : Value.arithmetic .add total item with
    | error e => rfl
    | ok sum =>
      rw [ok_bind, ok_bind, ← ih, Value.relocate_of_arithmetic hsum]

theorem relocates_sum : Relocates ρ sum := by
  refine relocates_aggregate fun items => ?_
  cases items with
  | nil => rfl
  | cons item items => exact foldlM_add_relocate item items

theorem relocates_product : Relocates ρ product :=
  relocates_aggregateNumbers _ fun _ => relocated_map fun _ => rfl

theorem relocates_mean : Relocates ρ mean := by
  refine relocates_aggregateNumbers _ fun ns => ?_
  split
  · rfl
  · exact relocated_bind fun _ => relocated_bind fun _ => rfl

theorem relocates_median : Relocates ρ median := by
  refine relocates_aggregateNumbers _ fun ns => ?_
  split
  · rfl
  · exact relocated_map fun _ => rfl

theorem relocates_mode : Relocates ρ mode := by
  refine relocates_aggregateNumbers _ fun ns => ?_
  rw [Except.map, Value.relocate_list, List.map_map]
  rfl

theorem relocates_stddev : Relocates ρ stddev :=
  relocates_aggregateNumbers _ fun _ => relocated_map fun _ => rfl

/-! ## Lists -/

theorem ofList_relocate (function : String) {f g : List Value → Value}
    (h : ∀ items, g (items.map (Value.relocate ρ)) = (f items).relocate ρ) (args : List Value) :
    ofList function g (args.map (Value.relocate ρ)) =
      (ofList function f args).map (Value.relocate ρ) := by
  rw [ofList, ofList, argument_relocate]
  exact relocated_unlessMissing (relocated_bind_map (expectList_relocate _ _) fun items =>
    congrArg Except.ok (h items))

theorem relocates_count : Relocates ρ count :=
  ofList_relocate _ fun _ => congrArg Value.ofNat (List.length_map _)

theorem relocates_append : Relocates ρ append := by
  intro args
  refine ofList_relocate _ (fun items => ?_) args
  rw [argument_relocate]
  cases argument args 1 with
  | absent => exact (Value.relocate_list items).symm
  | list more =>
    rw [Value.relocate_list, Value.relocate_list, List.map_append]
  | _ =>
    rw [Value.relocate_list, List.map_append]
    rfl

theorem elements_relocate (function : String) (args : List Value) :
    elements function (args.map (Value.relocate ρ)) =
      (elements function args).map (List.map (Value.relocate ρ)) := by
  induction args with
  | nil => rfl
  | cons v rest ih =>
    rw [List.map_cons, elements, elements, Value.isMissing_relocate, ih, expectList_relocate]
    split
    · rfl
    · cases expectList function v with
      | error e => rfl
      | ok items =>
        cases elements function rest with
        | error e => rfl
        | ok more => exact congrArg Except.ok (List.map_append).symm

theorem relocates_concatenate : Relocates ρ concatenate := by
  intro args
  rw [concatenate, concatenate, elements_relocate]
  cases elements "concatenate" args with
  | error e => rfl
  | ok items => exact congrArg Except.ok (Value.relocate_list items).symm

theorem relocates_insertBefore : Relocates ρ insertBefore := by
  intro args
  simp only [insertBefore, argument_relocate, position_relocate, Value.isAbsent_relocate]
  refine relocated_unlessMissing (relocated_unlessMissing ?_)
  split
  · rfl
  · refine relocated_bind_map (expectList_relocate _ _) fun items => relocated_bind fun index => ?_
    rw [List.length_map]
    split
    · rfl
    · rw [← List.map_insertIdx, ← Value.relocate_list]
      rfl

theorem relocates_remove : Relocates ρ remove := by
  intro args
  simp only [remove, argument_relocate, position_relocate]
  refine relocated_unlessMissing (relocated_unlessMissing ?_)
  refine relocated_bind_map (expectList_relocate _ _) fun items => relocated_bind fun index => ?_
  rw [List.length_map]
  split
  · rfl
  · rw [List.eraseIdx_map, ← Value.relocate_list]
    rfl

theorem relocates_reverse : Relocates ρ reverse :=
  ofList_relocate _ fun items => by rw [← List.map_reverse, Value.relocate_list]

section Equality

variable (hρ : ρ.Injective)
include hρ

theorem relocates_listContains : Relocates ρ listContains := by
  intro args
  refine ofList_relocate _ (fun items => ?_) args
  rw [argument_relocate, Value.isMissing_relocate, List.any_map]
  simp only [Function.comp_def, Value.agrees_relocate hρ, Value.relocate_bool]

theorem positionsFrom_relocate (first : Nat) (element : Value) (items : List Value) :
    positionsFrom first (element.relocate ρ) (items.map (Value.relocate ρ)) =
      positionsFrom first element items := by
  induction items generalizing first with
  | nil => rfl
  | cons item items ih =>
    rw [List.map_cons, positionsFrom, positionsFrom, Value.agrees_relocate hρ, ih]

theorem relocates_indexOf : Relocates ρ indexOf := by
  intro args
  simp only [indexOf, argument_relocate, Value.isAbsent_relocate]
  refine relocated_unlessMissing ?_
  split
  · rfl
  · refine relocated_bind_map (expectList_relocate _ _) fun items => congrArg Except.ok ?_
    simp only [positionsFrom_relocate hρ, Value.relocate_list, List.map_map]
    rfl

theorem addDistinct_relocate (seen : List Value) (item : Value) :
    addDistinct (seen.map (Value.relocate ρ)) (item.relocate ρ) =
      (addDistinct seen item).map (Value.relocate ρ) := by
  simp only [addDistinct, List.any_map, Function.comp_def, Value.agrees_relocate hρ]
  split
  · rfl
  · rw [List.map_append]
    rfl

theorem foldl_addDistinct_relocate (seen items : List Value) :
    (items.map (Value.relocate ρ)).foldl addDistinct (seen.map (Value.relocate ρ)) =
      (items.foldl addDistinct seen).map (Value.relocate ρ) := by
  induction items generalizing seen with
  | nil => rfl
  | cons item items ih =>
    rw [List.map_cons, List.foldl_cons, List.foldl_cons, addDistinct_relocate hρ, ih]

theorem unionFrom_relocate (seen args : List Value) :
    unionFrom (seen.map (Value.relocate ρ)) (args.map (Value.relocate ρ)) =
      (unionFrom seen args).map (List.map (Value.relocate ρ)) := by
  induction args generalizing seen with
  | nil => rfl
  | cons v rest ih =>
    rw [List.map_cons, unionFrom, unionFrom, Value.isMissing_relocate, expectList_relocate]
    split
    · exact ih seen
    · cases expectList "union" v with
      | error e => rfl
      | ok items =>
        refine Eq.trans ?_ (ih (items.foldl addDistinct seen))
        rw [← foldl_addDistinct_relocate hρ]
        rfl

theorem relocates_union : Relocates ρ union := by
  intro args
  have h := unionFrom_relocate hρ [] args
  rw [List.map_nil] at h
  rw [union, union, h]
  cases unionFrom [] args with
  | error e => rfl
  | ok items => exact congrArg Except.ok (Value.relocate_list items).symm

theorem relocates_distinctValues : Relocates ρ distinctValues :=
  ofList_relocate _ fun items => by
    rw [Value.relocate_list, distinct, distinct, ← foldl_addDistinct_relocate hρ]
    rfl

end Equality

mutual

theorem leaves_relocate (v : Value) :
    leaves (v.relocate ρ) = (leaves v).map (Value.relocate ρ) := by
  cases v with
  | list items =>
    rw [Value.relocate, leaves, leaves, relocateAll_eq_map, leavesOfAll_relocate items]
  | _ => rfl

theorem leavesOfAll_relocate (items : List Value) :
    leavesOfAll (items.map (Value.relocate ρ)) = (leavesOfAll items).map (Value.relocate ρ) := by
  cases items with
  | nil => rfl
  | cons item items =>
    rw [List.map_cons, leavesOfAll, leavesOfAll, leaves_relocate item, leavesOfAll_relocate items,
      List.map_append]

end

theorem relocates_flatten : Relocates ρ flatten := by
  intro args
  rw [flatten, flatten, missingSubject?_relocate, leavesOfAll_relocate]
  exact relocated_unless (congrArg Except.ok (Value.relocate_list _).symm)

theorem relocates_sublist : Relocates ρ sublist := by
  intro args
  simp only [sublist, argument_relocate, position_relocate, askedLength?_relocate]
  refine relocated_unlessMissing (relocated_unlessMissing ?_)
  refine relocated_bind_map (expectList_relocate _ _) fun items => relocated_bind fun place =>
    relocated_bind fun length? => ?_
  rw [List.length_map, List.isEmpty_map]
  split
  · rfl
  · exact relocated_bind fun first => relocated_bind_map (takeFrom_map _ _ _ _) fun part =>
      congrArg Except.ok (Value.relocate_list part).symm

end Library

/-- **A built-in function cannot tell where the functions in its arguments were made.** -/
theorem Builtin.call_relocate (hρ : ρ.Injective) (b : Builtin) (args : List Value) :
    b.call (args.map (Value.relocate ρ)) = (b.call args).map (Value.relocate ρ) := by
  cases b with
  | abs => exact Library.relocates_abs args
  | all | and => exact Library.relocates_join _ _ args
  | any | or => exact Library.relocates_join _ _ args
  | ceil | ceiling | floor => exact Library.relocates_ofNumber _ _ args
  | round | decimal => exact Library.relocates_rounded _ _ args
  | contains | startsWith | endsWith =>
    simp only [call, Library.contains, Library.startsWith, Library.endsWith]
    exact Library.relocates_compareTexts _ _ args
  | upperCase | lowerCase | stringLength =>
    simp only [call, Library.upperCase, Library.lowerCase, Library.stringLength]
    exact Library.relocates_ofString _ (fun _ => rfl) args
  | substring => exact Library.relocates_substring args
  | not => exact Library.relocates_negation args
  | defined => exact Library.relocates_defined args
  | date => exact Library.relocates_date args
  | time => exact Library.relocates_time args
  | dateAndTime => exact Library.relocates_dateAndTime args
  | duration => exact Library.relocates_duration args
  | yearsAndMonthsDuration => exact Library.relocates_yearsAndMonthsDuration args
  | min | max => exact Library.relocates_aggregate (Library.relocates_extreme _) args
  | sum => exact Library.relocates_sum args
  | product => exact Library.relocates_product args
  | mean => exact Library.relocates_mean args
  | median => exact Library.relocates_median args
  | mode => exact Library.relocates_mode args
  | stddev => exact Library.relocates_stddev args
  | listContains => exact Library.relocates_listContains hρ args
  | count => exact Library.relocates_count args
  | append => exact Library.relocates_append args
  | concatenate => exact Library.relocates_concatenate args
  | insertBefore => exact Library.relocates_insertBefore args
  | remove => exact Library.relocates_remove args
  | reverse => exact Library.relocates_reverse args
  | indexOf => exact Library.relocates_indexOf hρ args
  | union => exact Library.relocates_union hρ args
  | distinctValues => exact Library.relocates_distinctValues hρ args
  | flatten => exact Library.relocates_flatten args
  | sublist => exact Library.relocates_sublist args

end DecisionModel
