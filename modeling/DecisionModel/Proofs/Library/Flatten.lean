import DecisionModel.Library.Call
import Mathlib.Data.List.Basic
import Mathlib.Data.List.Lex
import Mathlib.Data.List.Sort

/-!
# Leaves of nested lists

A place inside nested lists is the way there: the position in the outermost list, the position in
the list found there, and so on. A leaf is what stands at a place and is no list, and the order of
places that compares them position by position is the order from left to right. Flattening goes
through the lists and not through places, so its result is compared here with all places that have a
leaf, each of them once and in their order. There is only one list of values that can be meant by
that (`Value.LeavesAre.unique`).

A value is a leaf or a list of values, and the induction is on that. Within it the elements of a
list are gone through one by one, and places are counted from the position that has been reached.
-/

namespace DecisionModel

namespace Value

def isList : Value → Bool
  | .list _ => true
  | _ => false

/-- The element of a list at a position. -/
def element? (v : Value) (index : Nat) : Option Value :=
  match v with
  | .list items => items[index]?
  | _ => none

/-- The value at a place inside nested lists. -/
def at? (v : Value) : List Nat → Option Value
  | [] => some v
  | index :: place => (v.element? index).bind (·.at? place)

/-- At the place there is a value that is no list. -/
def HasLeaf (v : Value) (place : List Nat) : Prop :=
  ∃ leaf, v.at? place = some leaf ∧ leaf.isList = false

/-- The values are those of all leaves, one for each, from left to right. -/
def LeavesAre (v : Value) (items : List Value) : Prop :=
  ∃ places : List (List Nat), places.Pairwise (List.Lex (· < ·)) ∧
    (∀ place, place ∈ places ↔ v.HasLeaf place) ∧ places.map v.at? = items.map some

variable {v item : Value} {items all : List Value} {index : Nat} {place : List Nat}

theorem at?_cons (v : Value) (index : Nat) (place : List Nat) :
    v.at? (index :: place) = (v.element? index).bind (·.at? place) := rfl

theorem at?_list_cons (h : all[index]? = some item) (place : List Nat) :
    (list all).at? (index :: place) = item.at? place := by
  rw [at?_cons, element?, h, Option.bind_some]

theorem hasLeaf_nil_iff : v.HasLeaf [] ↔ v.isList = false := by
  constructor
  · rintro ⟨leaf, hleaf, hlist⟩
    cases hleaf
    exact hlist
  · intro h
    exact ⟨v, rfl, h⟩

theorem hasLeaf_cons_iff :
    v.HasLeaf (index :: place) ↔ ∃ item, v.element? index = some item ∧ item.HasLeaf place := by
  simp only [HasLeaf, at?_cons, Option.bind_eq_some_iff]
  constructor
  · rintro ⟨leaf, ⟨item, hitem, hleaf⟩, hlist⟩
    exact ⟨item, hitem, leaf, hleaf, hlist⟩
  · rintro ⟨item, hitem, leaf, hleaf, hlist⟩
    exact ⟨leaf, ⟨item, hitem, hleaf⟩, hlist⟩

theorem element?_of_not_list (h : v.isList = false) (index : Nat) : v.element? index = none := by
  cases v with
  | list items => cases h
  | _ => rfl

/-- A value is a leaf, or a list whose elements come before it. -/
theorem induction_on_elements {P : Value → Prop} (leaf : ∀ v : Value, v.isList = false → P v)
    (list : ∀ items, (∀ item ∈ items, P item) → P (.list items)) (v : Value) : P v := by
  cases v with
  | list items => exact list items fun item _ => induction_on_elements leaf list item
  | _ => exact leaf _ rfl
termination_by sizeOf v
decreasing_by
  next hmem =>
    have := List.sizeOf_lt_of_mem hmem
    simp
    omega

/-- A value that is no list is the only leaf in it. -/
theorem hasLeaf_of_not_list (h : v.isList = false) : v.HasLeaf place ↔ place = [] := by
  cases place with
  | nil => simp [hasLeaf_nil_iff, h]
  | cons index place => simp [hasLeaf_cons_iff, element?_of_not_list h]

end Value

namespace Library

open Value (HasLeaf LeavesAre hasLeaf_nil_iff hasLeaf_cons_iff hasLeaf_of_not_list at?_list_cons)

variable {v item : Value} {items all : List Value} {index : Nat} {place : List Nat}

/-! ## Places of leaves -/

mutual

/-- The places of the leaves in a value. -/
def leafPlaces : Value → List (List Nat)
  | .list items => leafPlacesFrom 0 items
  | _ => [[]]

/-- The places of the leaves in the elements of a list, the first of which is at a position. -/
def leafPlacesFrom (index : Nat) : List Value → List (List Nat)
  | [] => []
  | item :: items => (leafPlaces item).map (index :: ·) ++ leafPlacesFrom (index + 1) items

end

theorem leaves_of_not_list (h : v.isList = false) : leaves v = [v] := by
  cases v with
  | list items => cases h
  | _ => rfl

theorem leafPlaces_of_not_list (h : v.isList = false) : leafPlaces v = [[]] := by
  cases v with
  | list items => cases h
  | _ => rfl

/-- The places in the elements, if those in each element are known. -/
theorem mem_leafPlacesFrom_iff
    (h : ∀ item ∈ items, ∀ place, place ∈ leafPlaces item ↔ item.HasLeaf place) :
    place ∈ leafPlacesFrom index items ↔
      ∃ k item rest, items[k]? = some item ∧ item.HasLeaf rest ∧ place = (index + k) :: rest := by
  induction items generalizing index with
  | nil => simp [leafPlacesFrom]
  | cons item items ih =>
    obtain ⟨hitem, hitems⟩ := List.forall_mem_cons.mp h
    simp only [leafPlacesFrom, List.mem_append, List.mem_map, hitem, ih hitems]
    constructor
    · rintro (⟨rest, hrest, rfl⟩ | ⟨k, other, rest, hother, hrest, rfl⟩)
      · exact ⟨0, item, rest, rfl, hrest, rfl⟩
      · refine ⟨k + 1, other, rest, hother, hrest, ?_⟩
        rw [Nat.add_assoc, Nat.add_comm 1 k]
    · rintro ⟨k, other, rest, hother, hrest, rfl⟩
      cases k with
      | zero =>
        cases hother
        exact .inl ⟨rest, hrest, rfl⟩
      | succ k =>
        refine .inr ⟨k, other, rest, hother, hrest, ?_⟩
        rw [Nat.add_assoc, Nat.add_comm 1 k]

theorem mem_leafPlaces_iff (v : Value) :
    ∀ place, place ∈ leafPlaces v ↔ v.HasLeaf place := by
  induction v using Value.induction_on_elements with
  | leaf v h =>
    intro place
    rw [leafPlaces_of_not_list h, List.mem_singleton, hasLeaf_of_not_list h]
  | list items ih =>
    intro place
    rw [leafPlaces, mem_leafPlacesFrom_iff ih]
    cases place with
    | nil => simp [hasLeaf_nil_iff, Value.isList]
    | cons index place => simp [hasLeaf_cons_iff, Value.element?]

/-- The first positions alone tell the elements apart. -/
theorem pairwise_leafPlacesFrom
    (h : ∀ item ∈ items, (leafPlaces item).Pairwise (List.Lex (· < ·))) :
    (leafPlacesFrom index items).Pairwise (List.Lex (· < ·)) := by
  induction items generalizing index with
  | nil => exact List.Pairwise.nil
  | cons item items ih =>
    obtain ⟨hitem, hitems⟩ := List.forall_mem_cons.mp h
    rw [leafPlacesFrom, List.pairwise_append]
    refine ⟨?_, ih hitems, ?_⟩
    · apply hitem.map
      intro p q hlt
      exact .cons hlt
    · intro p hp q hq
      obtain ⟨rest, -, rfl⟩ := List.mem_map.mp hp
      obtain ⟨k, other, rest', -, -, rfl⟩ :=
        (mem_leafPlacesFrom_iff fun item _ => mem_leafPlaces_iff item).mp hq
      exact .rel (by omega)

theorem pairwise_leafPlaces (v : Value) : (leafPlaces v).Pairwise (List.Lex (· < ·)) := by
  induction v using Value.induction_on_elements with
  | leaf v h =>
    rw [leafPlaces_of_not_list h]
    exact List.pairwise_singleton _ _
  | list items ih =>
    rw [leafPlaces]
    exact pairwise_leafPlacesFrom ih

/-- The elements are what is left of a list from a position on. -/
theorem map_at?_leafPlacesFrom (hall : ∀ k, all[index + k]? = items[k]?)
    (h : ∀ item ∈ items, (leafPlaces item).map item.at? = (leaves item).map some) :
    (leafPlacesFrom index items).map (Value.list all).at? = (leavesOfAll items).map some := by
  induction items generalizing index with
  | nil => rfl
  | cons item items ih =>
    obtain ⟨hitem, hitems⟩ := List.forall_mem_cons.mp h
    have hhead : (Value.list all).at? ∘ (index :: ·) = item.at? := by
      funext place
      exact at?_list_cons (hall 0) place
    have htail (k : Nat) : all[index + 1 + k]? = items[k]? := by
      rw [Nat.add_assoc, Nat.add_comm 1 k]
      exact hall (k + 1)
    rw [leafPlacesFrom, leavesOfAll, List.map_append, List.map_append, List.map_map, hhead, hitem,
      ih htail hitems]

theorem map_at?_leafPlaces (v : Value) : (leafPlaces v).map v.at? = (leaves v).map some := by
  induction v using Value.induction_on_elements with
  | leaf v h =>
    rw [leafPlaces_of_not_list h, leaves_of_not_list h]
    rfl
  | list items ih =>
    rw [leafPlaces, leaves]
    exact map_at?_leafPlacesFrom (by simp) ih

/-- **The leaves of a value are what stands at the places that have one.** -/
theorem leavesAre_leaves (v : Value) : v.LeavesAre (leaves v) :=
  ⟨leafPlaces v, pairwise_leafPlaces v, mem_leafPlaces_iff v, map_at?_leafPlaces v⟩

end Library

/-- There is one list of leaves, because the places stand in one order. -/
theorem Value.LeavesAre.unique {v : Value} {items others : List Value} (h : v.LeavesAre items)
    (h' : v.LeavesAre others) : items = others := by
  obtain ⟨places, hsorted, hmem, hvalues⟩ := h
  obtain ⟨places', hsorted', hmem', hvalues'⟩ := h'
  have hplaces : places = places' := by
    apply hsorted.eq_of_mem_iff hsorted'
    intro place
    exact (hmem place).trans (hmem' place).symm
  apply List.map_injective_iff.mpr (Option.some_injective Value)
  rw [← hvalues, ← hvalues', hplaces]

theorem Value.LeavesAre.not_list {v : Value} {items : List Value} (h : v.LeavesAre items) :
    ∀ item ∈ items, item.isList = false := by
  obtain ⟨places, -, hmem, hvalues⟩ := h
  intro item hitem
  have hsome : some item ∈ places.map v.at? := by
    rw [hvalues]
    exact List.mem_map_of_mem hitem
  obtain ⟨place, hplace, hat⟩ := List.mem_map.mp hsome
  obtain ⟨leaf, hleaf, hlist⟩ := (hmem place).mp hplace
  cases hat.symm.trans hleaf
  exact hlist

namespace Library

variable {items args : List Value}

/-! ## Flattening -/

/-- Where there are no lists, there is nothing to flatten. -/
theorem leavesOfAll_of_not_list (h : ∀ item ∈ items, item.isList = false) :
    leavesOfAll items = items := by
  induction items with
  | nil => rfl
  | cons item items ih =>
    obtain ⟨hitem, hitems⟩ := List.forall_mem_cons.mp h
    rw [leavesOfAll, leaves_of_not_list hitem, ih hitems, List.singleton_append]

theorem flatten_list (items : List Value) :
    flatten [.list items] = .ok (.list (leavesOfAll items)) := by
  have hleaves : leavesOfAll [.list items] = leavesOfAll items := by
    rw [leavesOfAll, leavesOfAll, leaves, List.append_nil]
  rw [← hleaves]
  rfl

theorem missingSubject?_eq_none (hnull : args ≠ [.null]) (habsent : args ≠ [.absent]) :
    missingSubject? args = none := by
  unfold missingSubject?
  split
  · next subject =>
    have hpresent : subject.isMissing = false := by
      cases subject with
      | null => exact absurd rfl hnull
      | absent => exact absurd rfl habsent
      | _ => rfl
    rw [hpresent, if_neg Bool.false_ne_true]
  · rfl

/-- **Flattening yields the leaves of its arguments**, at any depth, all of them and each of them
once, from left to right, so there are no lists among them. What has been flattened is left as it
is, and it makes no difference whether values are arguments or the elements of one list. -/
theorem flatten_yields_leaves (args : List Value) (hnull : args ≠ [.null])
    (habsent : args ≠ [.absent]) :
    ∃ items, Builtin.flatten.call args = .ok (.list items) ∧
      (∀ others, (Value.list args).LeavesAre others ↔ others = items) ∧
      (∀ item ∈ items, item.isList = false) ∧
      Builtin.flatten.call [.list items] = .ok (.list items) ∧
      Builtin.flatten.call [.list args] = .ok (.list items) := by
  have hleaves : (Value.list args).LeavesAre (leavesOfAll args) := by
    have h := leavesAre_leaves (.list args)
    rwa [leaves] at h
  refine ⟨leavesOfAll args, ?_, fun others => ?_, hleaves.not_list, ?_, flatten_list args⟩
  · show flatten args = _
    rw [flatten, missingSubject?_eq_none hnull habsent]
  · constructor
    · intro hothers
      exact hothers.unique hleaves
    · rintro rfl
      exact hleaves
  · show flatten [.list (leavesOfAll args)] = _
    rw [flatten_list, leavesOfAll_of_not_list hleaves.not_list]

/-- Lists inside a list, one of them empty, and among the leaves some that are missing. -/
def nestedLists : List Value :=
  [.ofNat 1, .list [.ofNat 2, .list [], .list [.null, .ofNat 3]], .absent]

theorem nested_lists_flattened :
    (nestedLists ≠ [.null] ∧ nestedLists ≠ [.absent]) ∧
    Builtin.flatten.call nestedLists =
      .ok (.list [.ofNat 1, .ofNat 2, .null, .ofNat 3, .absent]) ∧
    (Value.list nestedLists).LeavesAre [.ofNat 1, .ofNat 2, .null, .ofNat 3, .absent] := by
  have hnull : nestedLists ≠ [.null] := by simp [nestedLists]
  have habsent : nestedLists ≠ [.absent] := by simp [nestedLists]
  have hvalue : Builtin.flatten.call nestedLists =
      .ok (.list [.ofNat 1, .ofNat 2, .null, .ofNat 3, .absent]) := rfl
  obtain ⟨items, hitems, hleaves, -⟩ := flatten_yields_leaves nestedLists hnull habsent
  cases hvalue.symm.trans hitems
  exact ⟨⟨hnull, habsent⟩, hvalue, (hleaves _).mpr rfl⟩

end Library
end DecisionModel
