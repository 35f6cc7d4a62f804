import DecisionModel.Proofs.Evaluation.Negation
import DecisionModel.Proofs.Library.AbsentArgument
import Mathlib.Data.List.Perm.Basic

/-!
# Conjunction and disjunction of many

The functions `any` and `all` look through their operands once, stop at a boolean that settles the
result, and otherwise remember whether they have met absent or null. The operators combine two values
at a time. Both see one thing only of each operand, how far it goes towards settling the result:
for a disjunction false does not go anywhere, then come null, absent and true. A disjunction is as
far as its farthest operand, so neither the order of the operands nor their grouping matters, and
what the function remembers is how far the operands so far have gone.

Everything about conjunctions is said of disjunctions and turned over by negation.
-/

namespace DecisionModel

namespace Value

/-! ## The farthest operand -/

/-- How far a value goes towards settling a disjunction. -/
def weight : Value → Nat
  | .bool false => 0
  | .absent => 2
  | .bool true => 3
  | _ => 1

def ofWeight : Nat → Value
  | 0 => .bool false
  | 1 => .null
  | 2 => .absent
  | _ => .bool true

variable {v w u : Value}

theorem weight_le (v : Value) : v.weight ≤ 3 := by
  cases v with
  | bool b => cases b <;> decide
  | absent => exact (by decide : 2 ≤ 3)
  | _ => exact (by decide : 1 ≤ 3)

theorem weight_ofWeight {n : Nat} (h : n ≤ 3) : (ofWeight n).weight = n := by
  match n with
  | 0 | 1 | 2 | 3 => rfl
  | n + 4 => omega

theorem or3_eq_ofWeight (v w : Value) : v.or3 w = ofWeight (max v.weight w.weight) := by
  cases v with
  | bool a => cases a <;> cases w with
    | bool b => cases b <;> rfl
    | _ => rfl
  | _ => cases w with
    | bool b => cases b <;> rfl
    | _ => rfl

theorem weight_or3 (v w : Value) : (v.or3 w).weight = max v.weight w.weight := by
  rw [or3_eq_ofWeight, weight_ofWeight (Nat.max_le.mpr ⟨v.weight_le, w.weight_le⟩)]

theorem or3_comm (v w : Value) : v.or3 w = w.or3 v := by
  rw [or3_eq_ofWeight, or3_eq_ofWeight, Nat.max_comm]

theorem or3_assoc (v w u : Value) : (v.or3 w).or3 u = v.or3 (w.or3 u) := by
  rw [or3_eq_ofWeight (v.or3 w), weight_or3, or3_eq_ofWeight v, weight_or3, Nat.max_assoc]

theorem or3_right_comm (v w u : Value) : (v.or3 w).or3 u = (v.or3 u).or3 w := by
  rw [or3_assoc, or3_comm w, or3_assoc]

/-- A conjunction is a disjunction turned over. -/
theorem and3_eq (v w : Value) : v.and3 w = (v.not3.or3 w.not3).not3 := by
  cases v with
  | bool a => cases a <;> cases w with
    | bool b => cases b <;> rfl
    | _ => rfl
  | _ => cases w with
    | bool b => cases b <;> rfl
    | _ => rfl

/-! ## Folds -/

variable {items items' : List Value}

theorem foldl_or3_perm (h : items.Perm items') (start : Value) :
    items.foldl or3 start = items'.foldl or3 start :=
  h.foldl_eq' (fun w _ u _ v => or3_right_comm v w u) start

theorem foldl_and3_eq (h : v.IsVerdict) :
    items.foldl and3 v = ((items.map not3).foldl or3 v.not3).not3 := by
  induction items generalizing v with
  | nil => exact h.not3_not3.symm
  | cons w items ih =>
    rw [List.foldl_cons, ih (isVerdict_and3 v w), List.map_cons, List.foldl_cons, and3_eq,
      (isVerdict_or3 v.not3 w.not3).not3_not3]

theorem foldl_and3_perm (h : items.Perm items') (hv : v.IsVerdict) :
    items.foldl and3 v = items'.foldl and3 v := by
  rw [foldl_and3_eq hv, foldl_and3_eq hv, foldl_or3_perm (h.map not3)]

end Value

/-! ## The functions -/

namespace Library

variable {items items' : List Value} {function : String} {decisive : Bool}

/-- The operator that a boolean is decisive for. -/
def connective (decisive : Bool) : Value → Value → Value :=
  if decisive then Value.or3 else Value.and3

/-- What the operands so far come to, as long as none of them was decisive. -/
def stillOpen (decisive sawAbsent sawNull : Bool) : Value :=
  if sawAbsent then .absent else if sawNull then .null else .bool !decisive

theorem connective_decisive (decisive : Bool) (v : Value) :
    connective decisive (.bool decisive) v = .bool decisive := by
  cases decisive <;> cases v <;> rfl

theorem foldl_connective_decisive (decisive : Bool) (items : List Value) :
    items.foldl (connective decisive) (.bool decisive) = .bool decisive := by
  induction items with
  | nil => rfl
  | cons v items ih => rw [List.foldl_cons, connective_decisive, ih]

/-- The loop that remembers what it has seen is the fold of the operator. -/
theorem joinFrom_eq_foldl (sawAbsent sawNull : Bool) (h : ∀ v ∈ items, v.IsVerdict) :
    joinFrom function decisive sawAbsent sawNull items =
      .ok (items.foldl (connective decisive) (stillOpen decisive sawAbsent sawNull)) := by
  induction items generalizing sawAbsent sawNull with
  | nil => rfl
  | cons v items ih =>
    have hitems := fun w hw => h w (List.mem_cons_of_mem v hw)
    rw [List.foldl_cons]
    cases h v List.mem_cons_self with
    | bool b =>
      rw [joinFrom]
      split
      case isTrue hb =>
        have hstep : connective decisive (stillOpen decisive sawAbsent sawNull) (.bool b) =
            .bool decisive := by
          subst hb
          cases b <;> cases sawAbsent <;> cases sawNull <;> rfl
        rw [hstep, foldl_connective_decisive]
      case isFalse hb =>
        have hstep : connective decisive (stillOpen decisive sawAbsent sawNull) (.bool b) =
            stillOpen decisive sawAbsent sawNull := by
          obtain rfl := Bool.eq_not.mpr hb
          cases decisive <;> cases sawAbsent <;> cases sawNull <;> rfl
        rw [hstep, ih sawAbsent sawNull hitems]
    | absent =>
      have hstep : connective decisive (stillOpen decisive sawAbsent sawNull) .absent =
          stillOpen decisive true sawNull := by
        cases decisive <;> cases sawAbsent <;> cases sawNull <;> rfl
      rw [joinFrom, hstep, ih true sawNull hitems]
    | null =>
      have hstep : connective decisive (stillOpen decisive sawAbsent sawNull) .null =
          stillOpen decisive sawAbsent true := by
        cases decisive <;> cases sawAbsent <;> cases sawNull <;> rfl
      rw [joinFrom, hstep, ih sawAbsent true hitems]

theorem join_list (function : String) (decisive : Bool) (h : ∀ v ∈ items, v.IsVerdict) :
    join function decisive [.list items] =
      .ok (items.foldl (connective decisive) (.bool !decisive)) :=
  joinFrom_eq_foldl false false h

/-- A single operand that is missing is the result, as it is of the fold. -/
theorem join_arguments (function : String) (decisive : Bool) (h : ∀ v ∈ items, v.IsVerdict) :
    join function decisive items =
      .ok (items.foldl (connective decisive) (.bool !decisive)) := by
  by_cases hone : items.length = 1
  · obtain ⟨v, rfl⟩ := List.length_eq_one_iff.mp hone
    cases h v List.mem_cons_self with
    | bool b => exact joinFrom_eq_foldl false false h
    | absent => cases decisive <;> rfl
    | null => cases decisive <;> rfl
  · rw [join, missingSubject?_of_length hone, operands_of_length hone]
    exact joinFrom_eq_foldl false false h

theorem isVerdict_map_not3 {v : Value} (h : v ∈ items.map Value.not3) : v.IsVerdict := by
  obtain ⟨w, -, rfl⟩ := List.mem_map.mp h
  exact Value.isVerdict_not3 w

/-- **`any` and `all` are folds of the operators.** That is so for the elements of one list and for
separate arguments. Their order makes no difference, and what holds of all is what does not fail of
any. -/
theorem any_and_all_are_folds (items : List Value) (h : ∀ v ∈ items, v.IsVerdict) :
    let any := Builtin.any.call
    let all := Builtin.all.call
    (any [.list items] = .ok (items.foldl Value.or3 (.bool false)) ∧
      any items = .ok (items.foldl Value.or3 (.bool false)) ∧
      all [.list items] = .ok (items.foldl Value.and3 (.bool true)) ∧
      all items = .ok (items.foldl Value.and3 (.bool true))) ∧
    (∀ items' : List Value, items'.Perm items →
      any [.list items'] = any [.list items] ∧ any items' = any items ∧
        all [.list items'] = all [.list items] ∧ all items' = all items) ∧
    (all [.list items] = (any [.list (items.map Value.not3)]).map Value.not3 ∧
      all items = (any (items.map Value.not3)).map Value.not3) := by
  intro any all
  have hany {l : List Value} (hl : ∀ v ∈ l, v.IsVerdict) :
      any [.list l] = .ok (l.foldl Value.or3 (.bool false)) ∧
        any l = .ok (l.foldl Value.or3 (.bool false)) :=
    ⟨join_list "any" true hl, join_arguments "any" true hl⟩
  have hall {l : List Value} (hl : ∀ v ∈ l, v.IsVerdict) :
      all [.list l] = .ok (l.foldl Value.and3 (.bool true)) ∧
        all l = .ok (l.foldl Value.and3 (.bool true)) :=
    ⟨join_list "all" false hl, join_arguments "all" false hl⟩
  refine ⟨⟨(hany h).1, (hany h).2, (hall h).1, (hall h).2⟩, fun items' hperm => ?_, ?_⟩
  · have h' : ∀ v ∈ items', v.IsVerdict := fun v hv => h v (hperm.mem_iff.mp hv)
    rw [(hany h').1, (hany h').2, (hall h').1, (hall h').2, (hany h).1, (hany h).2, (hall h).1,
      (hall h).2, Value.foldl_or3_perm hperm, Value.foldl_and3_perm hperm (.bool true)]
    exact ⟨rfl, rfl, rfl, rfl⟩
  · rw [(hall h).1, (hall h).2, (hany fun _ => isVerdict_map_not3).1,
      (hany fun _ => isVerdict_map_not3).2, Value.foldl_and3_eq (.bool true)]
    exact ⟨rfl, rfl⟩

/-- Nothing settles these operands, and one of them is absent. -/
theorem open_operands_stay_open :
    let items : List Value := [.bool false, .null, .absent, .bool false]
    (∀ v ∈ items, v.IsVerdict) ∧ Builtin.any.call items = .ok .absent ∧
      Builtin.any.call [.absent, .bool false, .bool false, .null] = Builtin.any.call items ∧
      Builtin.all.call [.list items] = .ok (.bool false) := by
  intro items
  have h : ∀ v ∈ items, v.IsVerdict := by
    intro v hv
    simp only [items, List.mem_cons, List.not_mem_nil, or_false] at hv
    rcases hv with rfl | rfl | rfl | rfl
    · exact .bool false
    · exact .null
    · exact .absent
    · exact .bool false
  have hperm : [.absent, .bool false, .bool false, .null].Perm items :=
    (List.Perm.swap _ _ _).trans (.cons _ ((List.Perm.cons _ (.swap _ _ _)).trans
      ((List.Perm.swap _ _ _).trans (.cons _ (.refl _)))))
  obtain ⟨⟨-, hany, hall, -⟩, hsame, -⟩ := any_and_all_are_folds items h
  exact ⟨h, hany, (hsame _ hperm).2.1, hall⟩

end Library
end DecisionModel
