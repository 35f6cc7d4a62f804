import DecisionModel.Decision.Set
import Mathlib.Data.Finset.Card
import Mathlib.Logic.Relation

/-!
# The requirement relation

The ids of a list of decisions are the nodes of a graph whose edges lead from a decision to those it
requires. What the checks of a decision set ask for is said here about this relation, without the
search that finds it out: the ids are distinct, the graph is closed, and no path in it leads back
to where it began.

Two notions carry the inductions of the modules after this one. A decision is *grounded* if its
requirements come to an end on every path; that is what a search can establish decision by decision.
A *depth* counts how far they nest; it exists as soon as the decisions are consistent, it is smaller
than their number, and so it is what the bound of a recursion over requirements is compared with.
-/

namespace DecisionModel
namespace Decision

/-- A decision with the id `a` lists `b` among those it requires. -/
def Requires (decisions : List Decision) (a b : String) : Prop :=
  ∃ d ∈ decisions, d.id = a ∧ b ∈ d.required

/-- No two decisions have the same id. -/
def Distinct (decisions : List Decision) : Prop := (decisions.map (·.id)).Nodup

/-- Whatever is required is there. -/
def Closed (decisions : List Decision) : Prop :=
  ∀ a b, Requires decisions a b → b ∈ decisions.map (·.id)

/-- No decision requires itself, not even through others. -/
def Acyclic (decisions : List Decision) : Prop :=
  ∀ a, ¬ Relation.TransGen (Requires decisions) a a

/-- What makes a set of decisions. -/
structure Consistent (decisions : List Decision) : Prop where
  distinct : Distinct decisions
  closed : Closed decisions
  acyclic : Acyclic decisions

variable {decisions : List Decision} {d : Decision} {a b id : String}

/-! ## Looking decisions up -/

theorem id_of_find? (h : find? decisions id = some d) : d.id = id := by
  simpa using List.find?_some h

theorem mem_of_find? (h : find? decisions id = some d) : d ∈ decisions :=
  List.mem_of_find?_eq_some h

theorem find?_eq_none_iff : find? decisions id = none ↔ id ∉ decisions.map (·.id) := by
  simp [find?, List.find?_eq_none, List.mem_map, not_exists]

theorem mem_ids_of_find? (h : find? decisions id = some d) : id ∈ decisions.map (·.id) :=
  List.mem_map.mpr ⟨d, mem_of_find? h, id_of_find? h⟩

theorem exists_find? (h : id ∈ decisions.map (·.id)) : ∃ d, find? decisions id = some d := by
  cases hf : find? decisions id with
  | none => exact absurd h (find?_eq_none_iff.mp hf)
  | some d => exact ⟨d, rfl⟩

/-- Where ids are distinct, no other decision stands before the one that is looked up. -/
theorem find?_of_mem (hd : Distinct decisions) (hmem : d ∈ decisions) :
    find? decisions d.id = some d := by
  have hid : d.id ∈ decisions.map (·.id) := List.mem_map_of_mem hmem
  obtain ⟨e, he⟩ := exists_find? hid
  have : e = d := List.inj_on_of_nodup_map hd (mem_of_find? he) hmem (id_of_find? he)
  rw [he, this]

theorem requires_of_find? (h : find? decisions a = some d) (hb : b ∈ d.required) :
    Requires decisions a b := ⟨d, mem_of_find? h, id_of_find? h, hb⟩

theorem requires_iff (hd : Distinct decisions) (h : find? decisions a = some d) :
    Requires decisions a b ↔ b ∈ d.required := by
  constructor
  · rintro ⟨e, he, rfl, hb⟩
    have hfind := find?_of_mem hd he
    rw [h] at hfind
    cases hfind
    exact hb
  · exact requires_of_find? h

theorem Requires.mem_ids (h : Requires decisions a b) : a ∈ decisions.map (·.id) := by
  obtain ⟨d, hd, rfl, -⟩ := h
  exact List.mem_map_of_mem hd

/-! ## Grounded decisions -/

/-- The requirements of a decision, and theirs in turn, come to an end on every path. -/
def Grounded (decisions : List Decision) : String → Prop :=
  Acc fun b a => Requires decisions a b

theorem Grounded.not_transGen (h : Grounded decisions a) :
    ¬ Relation.TransGen (Requires decisions) a a := by
  have hacc : Acc (Relation.TransGen fun b a => Requires decisions a b) a := h.transGen
  intro hloop
  have hswap : Relation.TransGen (fun b a => Requires decisions a b) a a :=
    Relation.transGen_swap.mpr hloop
  clear h hloop
  induction hacc with
  | intro x _ ih => exact ih x hswap hswap

/-- Only a decision can lie on a cycle, so it is enough that every decision is grounded. -/
theorem acyclic_of_grounded (h : ∀ id ∈ decisions.map (·.id), Grounded decisions id) :
    Acyclic decisions := by
  intro a hloop
  obtain ⟨b, hab, -⟩ := Relation.TransGen.head'_iff.mp hloop
  exact (h a hab.mem_ids).not_transGen hloop

/-! ## Depth -/

/-- A measure of how deep requirements nest below a decision. -/
structure IsDepth (decisions : List Decision) (depth : String → Nat) : Prop where
  lt_of_requires : ∀ {a b}, Requires decisions a b → depth b < depth a
  lt_length : ∀ {a}, a ∈ decisions.map (·.id) → depth a < decisions.length

/-- The number of decisions that are required, directly or not, is such a measure: what a decision
requires has fewer of them, for it does not require itself. -/
theorem Consistent.exists_depth (h : Consistent decisions) :
    ∃ depth, IsDepth decisions depth := by
  classical
  let below (a : String) : Finset String :=
    {b ∈ (decisions.map (·.id)).toFinset | Relation.TransGen (Requires decisions) a b}
  have hself : ∀ a, a ∉ below a := by
    intro a ha
    exact h.acyclic a (Finset.mem_filter.mp ha).2
  refine ⟨fun a => (below a).card, ?_, ?_⟩
  · intro a b hab
    have hmem : b ∈ below a :=
      Finset.mem_filter.mpr ⟨List.mem_toFinset.mpr (h.closed a b hab), .single hab⟩
    refine Finset.card_lt_card ⟨fun c hc => ?_, fun hsub => hself b (hsub hmem)⟩
    obtain ⟨hid, hbc⟩ := Finset.mem_filter.mp hc
    exact Finset.mem_filter.mpr ⟨hid, .head hab hbc⟩
  · intro a ha
    have hlt : (below a).card < (decisions.map (·.id)).toFinset.card := by
      refine Finset.card_lt_card ⟨Finset.filter_subset _ _, fun hsub => hself a (hsub ?_)⟩
      exact List.mem_toFinset.mpr ha
    exact Nat.lt_of_lt_of_le hlt ((List.toFinset_card_le _).trans_eq (List.length_map _))

end Decision
end DecisionModel
