import DecisionModel.Proofs.Library.AbsentArgument
import DecisionModel.Proofs.Value.Equality
import Mathlib.Data.List.Induction

/-!
# Distinct values

The function `distinct values` goes through a list once and keeps an element unless one that it has
kept equals it. Equality does not distinguish what it finds equal from one another, so it makes no
difference whether an element is compared with those that were kept or with all that came before
it: the elements kept are the first of their kind. A predicate equals nothing, so every one is kept.

A union keeps elements in the same way, with what it has kept of one list carried over to the next.
-/

namespace DecisionModel.Library

variable {items seen result args : List Value} {v : Value}

/-! ## One more element -/

theorem distinct_append_singleton (items : List Value) (v : Value) :
    distinct (items ++ [v]) = addDistinct (distinct items) v := by
  unfold distinct
  rw [List.foldl_append, List.foldl_cons, List.foldl_nil]

/-- What an element equals of those seen so far, it equals of those kept. -/
theorem any_agrees_distinct (items : List Value) (v : Value) :
    (distinct items).any (·.agrees v) = items.any (·.agrees v) := by
  induction items using List.reverseRecOn generalizing v with
  | nil => rfl
  | append_singleton items w ih =>
    rw [distinct_append_singleton, addDistinct, List.any_append, ← ih v]
    split
    case isFalse => rw [List.any_append]
    case isTrue hseen =>
      -- `w` is left out because of an element kept that equals all that `w` equals
      obtain ⟨u, hu, huw⟩ := List.any_eq_true.mp hseen
      cases hwv : w.agrees v with
      | false => simp [hwv]
      | true =>
        have hkept : (distinct items).any (·.agrees v) = true :=
          List.any_eq_true.mpr ⟨u, hu, Value.agrees_trans huw hwv⟩
        rw [hkept, Bool.true_or]

/-- **One more element** is kept, behind the others, exactly if no element before it equals it. -/
theorem distinct_snoc (items : List Value) (v : Value) :
    distinct (items ++ [v]) =
      if items.any (·.agrees v) then distinct items else distinct items ++ [v] := by
  rw [distinct_append_singleton, addDistinct, any_agrees_distinct]

/-! ## All elements -/

/-- What is left of a list without repetitions. -/
structure IsDistinct (items result : List Value) : Prop where
  sublist : result.Sublist items
  /-- No element equals another one. -/
  pairwise : result.Pairwise fun u v => u.agrees v = false
  /-- Whatever can equal something is there, as it is or as an element equal to it. -/
  represented : ∀ v ∈ items, v.hasPredicate = false → ∃ u ∈ result, u.agrees v = true

theorem pairwise_append_singleton (h : seen.Pairwise fun u v => u.agrees v = false)
    (hv : seen.any (·.agrees v) = false) :
    (seen ++ [v]).Pairwise fun u v => u.agrees v = false := by
  refine List.pairwise_append.mpr ⟨h, List.pairwise_singleton _ v, fun u hu w hw => ?_⟩
  rw [List.mem_singleton.mp hw]
  exact Bool.eq_false_iff.mpr (List.any_eq_false.mp hv u hu)

theorem distinct_sublist (items : List Value) : (distinct items).Sublist items := by
  induction items using List.reverseRecOn with
  | nil => exact List.nil_sublist _
  | append_singleton items v ih =>
    rw [distinct_snoc]
    split
    · exact ih.trans (List.sublist_append_left items [v])
    · exact ih.append (List.Sublist.refl [v])

theorem distinct_pairwise (items : List Value) :
    (distinct items).Pairwise fun u v => u.agrees v = false := by
  induction items using List.reverseRecOn with
  | nil => exact .nil
  | append_singleton items v ih =>
    rw [distinct_snoc]
    split
    · exact ih
    · next hnew =>
      rw [← any_agrees_distinct, Bool.not_eq_true] at hnew
      exact pairwise_append_singleton ih hnew

theorem isDistinct_distinct (items : List Value) : IsDistinct items (distinct items) where
  sublist := distinct_sublist items
  pairwise := distinct_pairwise items
  represented v hv hplain := by
    have hself : items.any (·.agrees v) = true :=
      List.any_eq_true.mpr ⟨v, hv, Value.agrees_self_iff.mpr hplain⟩
    rw [← any_agrees_distinct] at hself
    exact List.any_eq_true.mp hself

/-- A list without repetitions is left as it is. -/
theorem distinct_of_pairwise (h : items.Pairwise fun u v => u.agrees v = false) :
    distinct items = items := by
  induction items using List.reverseRecOn with
  | nil => rfl
  | append_singleton items v ih =>
    obtain ⟨hitems, -, hlast⟩ := List.pairwise_append.mp h
    have hnew : items.any (·.agrees v) = false :=
      List.any_eq_false.mpr fun u hu => Bool.eq_false_iff.mp (hlast u hu v List.mem_cons_self)
    rw [distinct_snoc, hnew, if_neg Bool.false_ne_true, ih hitems]

/-! ## Unions -/

/-- The elements of a list; any other value has none. -/
def itemsOf : Value → List Value
  | .list items => items
  | _ => []

theorem elements_eq (function : String)
    (h : ∀ v ∈ args, v.isMissing = true ∨ ∃ items, v = .list items) :
    elements function args = .ok (args.flatMap itemsOf) := by
  induction args with
  | nil => rfl
  | cons v rest ih =>
    obtain ⟨hv, hrest⟩ := List.forall_mem_cons.mp h
    rw [elements, ih hrest, List.flatMap_cons]
    rcases hv with hmissing | ⟨items, rfl⟩
    · rw [if_pos hmissing]
      cases v with
      | null | absent => rfl
      | _ => cases hmissing
    · rfl

/-- **Distinct values are the first of their kind.** They stand in the order of the list, no two of
them are equal, and every element without a predicate is equal to one of them. One more element at
the end of the list is kept exactly if nothing in the list equals it, and distinct values are left
as they are. Of arguments that are lists, null or absent, the union is what is distinct among the
elements of all of them. -/
theorem distinct_values_are_first :
    (∀ items : List Value, ∃ result,
      Builtin.distinctValues.call [.list items] = .ok (.list result) ∧ IsDistinct items result ∧
      (∀ v, Builtin.distinctValues.call [.list (items ++ [v])] =
        .ok (.list (if items.any (·.agrees v) then result else result ++ [v]))) ∧
      Builtin.distinctValues.call [.list result] = .ok (.list result)) ∧
    ∀ args : List Value, (∀ v ∈ args, v.isMissing = true ∨ ∃ items, v = .list items) →
      Builtin.concatenate.call args = .ok (.list (args.flatMap itemsOf)) ∧
      Builtin.union.call args =
        Builtin.distinctValues.call [.list (args.flatMap itemsOf)] := by
  have hcall (items : List Value) :
      Builtin.distinctValues.call [.list items] = .ok (.list (distinct items)) := rfl
  constructor
  · intro items
    refine ⟨distinct items, hcall items, isDistinct_distinct items, fun v => ?_, ?_⟩
    · rw [hcall, distinct_snoc]
    · rw [hcall, distinct_of_pairwise (distinct_pairwise items)]
  · intro args hargs
    constructor
    · show (elements "concatenate" args).map Value.list = _
      rw [elements_eq "concatenate" hargs]
      rfl
    · show (unionFrom [] args).map Value.list = _
      rw [unionFrom_eq, elements_eq "union" hargs, hcall]
      rfl

/-- Two lists and nothing between them; the second list begins with a zero that has a sign. -/
def twoLists : List Value :=
  [.list [.number .zero, .string "a"], .null,
    .list [.number Decimal.zero.neg, .null, .string "a"]]

/-- Of the two zeros the first one is kept, and null is an element as others are. -/
theorem zero_is_kept_once :
    (∀ v ∈ twoLists, v.isMissing = true ∨ ∃ items, v = .list items) ∧
    Builtin.concatenate.call twoLists =
      .ok (.list [.number .zero, .string "a", .number Decimal.zero.neg, .null, .string "a"]) ∧
    Builtin.union.call twoLists = .ok (.list [.number .zero, .string "a", .null]) ∧
    Builtin.distinctValues.call [.list [.number .zero, .string "a", .null]] =
      .ok (.list [.number .zero, .string "a", .null]) := by
  have hlists : ∀ v ∈ twoLists, v.isMissing = true ∨ ∃ items, v = .list items := by
    simp only [twoLists, List.forall_mem_cons]
    exact ⟨.inr ⟨_, rfl⟩, .inl rfl, .inr ⟨_, rfl⟩, nofun⟩
  obtain ⟨hfirst, hunion⟩ := distinct_values_are_first
  obtain ⟨hconcatenate, hunion⟩ := hunion twoLists hlists
  obtain ⟨result, hresult, -, -, hagain⟩ := hfirst (twoLists.flatMap itemsOf)
  have hvalue : Builtin.distinctValues.call [.list (twoLists.flatMap itemsOf)] =
      .ok (.list [.number .zero, .string "a", .null]) := rfl
  rw [hvalue] at hresult
  cases hresult
  exact ⟨hlists, hconcatenate, hunion.trans hvalue, hagain⟩

end DecisionModel.Library
