import DecisionModel.Proofs.Decision.Requirement
import Mathlib.Data.List.Chain
import Mathlib.Data.List.Duplicate

/-!
# What a decision set is checked for

`DecisionSet.new` accepts a list of decisions exactly if it is consistent, and what it names when it
refuses one is really there: an id that two decisions have, a required id that no decision has, or a
path of requirements that closes a circle and repeats nothing else.

The search for circles shares the decisions it has finished with among all the paths it follows. So
the invariant is not about the paths that were followed: every finished decision is *grounded*, a
fact that stays true whatever is searched afterwards. A decision whose requirements have been
visited without an error is grounded because each of them is. The path that led to a decision, on
the other hand, is a chain of requirements without repetition; coming back to it closes a circle.
-/

namespace DecisionModel
namespace Decision

variable {decisions : List Decision} {id : String}

/-! ## Repeated ids -/

theorem repeatedId?_eq_none_iff {seen : List String} :
    repeatedId? seen decisions = none ↔
      Distinct decisions ∧ ∀ id ∈ decisions.map (·.id), id ∉ seen := by
  induction decisions generalizing seen with
  | nil => simp [repeatedId?, Distinct]
  | cons d decisions ih =>
    by_cases hd : d.id ∈ seen
    · simp [repeatedId?, hd]
    · simp only [repeatedId?, List.contains_iff_mem, hd, if_false, ih, Distinct, List.map_cons,
        List.nodup_cons, List.mem_cons, not_or]
      constructor
      · rintro ⟨hnodup, hnew⟩
        refine ⟨⟨fun hmem => (hnew _ hmem).1 rfl, hnodup⟩, ?_⟩
        rintro id (rfl | hid)
        · exact hd
        · exact (hnew id hid).2
      · rintro ⟨⟨hnot, hnodup⟩, hnew⟩
        exact ⟨hnodup, fun id hid => ⟨fun h => hnot (h ▸ hid), hnew id (Or.inr hid)⟩⟩

theorem duplicate_of_repeatedId? {seen : List String} (h : repeatedId? seen decisions = some id) :
    id ∈ seen ∧ id ∈ decisions.map (·.id) ∨ List.Duplicate id (decisions.map (·.id)) := by
  induction decisions generalizing seen with
  | nil => simp [repeatedId?] at h
  | cons d decisions ih =>
    by_cases hd : d.id ∈ seen
    · simp only [repeatedId?, List.contains_iff_mem, hd, if_true, Option.some.injEq] at h
      subst h
      exact Or.inl ⟨hd, List.mem_cons_self⟩
    · simp only [repeatedId?, List.contains_iff_mem, hd, if_false] at h
      rw [List.map_cons, List.duplicate_cons_iff]
      rcases ih h with ⟨hseen, hid⟩ | hdup
      · rcases List.mem_cons.mp hseen with rfl | hseen
        · exact Or.inr (Or.inl ⟨rfl, hid⟩)
        · exact Or.inl ⟨hseen, List.mem_cons_of_mem _ hid⟩
      · exact Or.inr (Or.inr hdup)

/-! ## Unknown ids -/

theorem mem_required_iff :
    id ∈ decisions.flatMap (·.required) ↔ ∃ a, Requires decisions a id := by
  simp only [List.mem_flatMap, Requires]
  constructor
  · rintro ⟨d, hd, hid⟩
    exact ⟨d.id, d, hd, rfl, hid⟩
  · rintro ⟨_, d, hd, _, hid⟩
    exact ⟨d, hd, hid⟩

theorem unknownId?_eq_none_iff : unknownId? decisions = none ↔ Closed decisions := by
  simp only [unknownId?, List.find?_eq_none, mem_required_iff, Option.isNone_iff_eq_none,
    find?_eq_none_iff, not_not, Closed]
  exact ⟨fun h a b hab => h b ⟨a, hab⟩, fun h b ⟨a, hab⟩ => h a b hab⟩

theorem unknown_of_unknownId? (h : unknownId? decisions = some id) :
    (∃ a, Requires decisions a id) ∧ id ∉ decisions.map (·.id) := by
  refine ⟨mem_required_iff.mp (List.mem_of_find?_eq_some h), ?_⟩
  have hnone := List.find?_some h
  rwa [Option.isNone_iff_eq_none, find?_eq_none_iff] at hnone

/-! ## Circles -/

/-- A path of requirements that ends where it began and repeats nothing else. -/
def IsCycle (decisions : List Decision) (path : List String) : Prop :=
  ∃ first between, path = first :: between ++ [first] ∧ (first :: between).Nodup ∧
    path.IsChain (Requires decisions)

theorem transGen_of_isChain {r : String → String → Prop} {a b : String} {between : List String}
    (h : (a :: between ++ [b]).IsChain r) : Relation.TransGen r a b := by
  induction between generalizing a with
  | nil => exact .single (List.isChain_pair.mp h)
  | cons c between ih =>
    obtain ⟨hac, hrest⟩ := List.isChain_cons_cons.mp h
    exact .head hac (ih hrest)

theorem IsCycle.not_acyclic {path : List String} (h : IsCycle decisions path) :
    ¬ Acyclic decisions := by
  obtain ⟨first, between, rfl, -, hchain⟩ := h
  exact fun hac => hac first (transGen_of_isChain hchain)

/-- Coming back to a decision of the path closes a circle, made of what was added since. The path
is in reverse, so that it begins with what led here. -/
theorem isCycle_of_mem_path {path : List String} (hnodup : path.Nodup)
    (hchain : (id :: path).IsChain fun b a => Requires decisions a b) (hmem : id ∈ path) :
    IsCycle decisions (id :: (path.takeWhile (· != id)).reverse ++ [id]) := by
  obtain ⟨since, before, rfl, hsince⟩ := List.eq_append_cons_of_mem hmem
  have hwhile : (since ++ id :: before).takeWhile (· != id) = since := by
    rw [List.takeWhile_append_of_pos fun x hx => by
      simpa using show x ≠ id from fun h => hsince (h ▸ hx)]
    simp
  rw [hwhile]
  refine ⟨id, since.reverse, rfl, ?_, ?_⟩
  · rw [List.nodup_cons, List.mem_reverse, List.nodup_reverse]
    exact ⟨hsince, (List.nodup_append.mp hnodup).1⟩
  · have hpart : (id :: since ++ [id]).IsChain fun b a => Requires decisions a b :=
      hchain.prefix ⟨before, by simp⟩
    simpa using List.isChain_reverse.mpr hpart

/-- What a visit can come to, where the decisions it was to visit are `ids`. -/
def Outcome (decisions : List Decision) (ids : List String) :
    Except DecisionError (List String) → Prop
  | .ok visited => (∀ id ∈ visited, Grounded decisions id) ∧ ∀ id ∈ ids, Grounded decisions id
  | .error e => ∃ path, e = .cyclicDependency path ∧ IsCycle decisions path

/-- Visits one after another hand on decisions that are grounded. -/
theorem outcome_foldlM {visit : List String → String → Except DecisionError (List String)}
    {ids visited : List String} (hv : ∀ id ∈ visited, Grounded decisions id)
    (hvisit : ∀ visited, (∀ id ∈ visited, Grounded decisions id) →
      ∀ id ∈ ids, Outcome decisions [id] (visit visited id)) :
    Outcome decisions ids (ids.foldlM visit visited) := by
  induction ids generalizing visited with
  | nil => exact ⟨hv, by simp⟩
  | cons id ids ih =>
    rw [List.foldlM_cons]
    have hfirst := hvisit visited hv id List.mem_cons_self
    cases hid : visit visited id with
    | error e =>
      rw [hid] at hfirst
      exact hfirst
    | ok after =>
      rw [hid] at hfirst
      have hrest := ih hfirst.1 fun visited hv x hx => hvisit visited hv x (List.mem_cons_of_mem _ hx)
      change Outcome decisions (id :: ids) (ids.foldlM visit after)
      cases hids : ids.foldlM visit after with
      | error e =>
        rw [hids] at hrest
        exact hrest
      | ok last =>
        rw [hids] at hrest
        refine ⟨hrest.1, fun x hx => ?_⟩
        rcases List.mem_cons.mp hx with rfl | hx
        · exact hfirst.2 x List.mem_cons_self
        · exact hrest.2 x hx

/-- A decision is finished when everything that it requires has been visited. -/
theorem Outcome.finish {required : List String} {result : Except DecisionError (List String)}
    (h : Outcome decisions required result) (hreq : ∀ b, Requires decisions id b → b ∈ required) :
    Outcome decisions [id] (do let visited ← result; return id :: visited) := by
  cases result with
  | error e => exact h
  | ok visited =>
    have hid : Grounded decisions id := Acc.intro _ fun b hb => h.2 b (hreq b hb)
    exact ⟨List.forall_mem_cons.mpr ⟨hid, h.1⟩, by simpa using hid⟩

/-- A visit finds a circle, or shows that the decision is grounded. The steps that are left and
the path that led here add up to one more than there are decisions; as a path does not repeat
itself, the steps do not run out. -/
theorem outcome_visit (hd : Distinct decisions) {steps : Nat} {path visited : List String}
    (hsteps : steps + path.length = decisions.length + 1) (hnodup : path.Nodup)
    (hids : path ⊆ decisions.map (·.id))
    (hchain : (id :: path).IsChain fun b a => Requires decisions a b)
    (hv : ∀ id ∈ visited, Grounded decisions id) :
    Outcome decisions [id] (visit decisions steps path visited id) := by
  induction steps generalizing path visited id with
  | zero =>
    -- a path without repetition is no longer than there are decisions
    have hle := hnodup.length_le_of_subset hids
    rw [List.length_map] at hle
    omega
  | succ steps ih =>
    simp only [visit, List.contains_iff_mem]
    split
    · next hmem => exact ⟨hv, by simpa using hv id hmem⟩
    split
    · next hmem => exact ⟨_, rfl, isCycle_of_mem_path hnodup hchain hmem⟩
    · next hpath =>
      cases hfind : find? decisions id with
      | none =>
        have hnot := find?_eq_none_iff.mp hfind
        refine ⟨hv, ?_⟩
        simp only [List.mem_singleton, forall_eq]
        exact Acc.intro _ fun b hb => absurd hb.mem_ids hnot
      | some d =>
        have hreq {b} : Requires decisions id b ↔ b ∈ d.required := requires_iff hd hfind
        have hrequired : Outcome decisions d.required
            (d.required.foldlM (visit decisions steps (id :: path)) visited) := by
          refine outcome_foldlM hv fun visited hv b hb => ih ?_ ?_ ?_ ?_ hv
          · simp only [List.length_cons]; omega
          · exact List.nodup_cons.mpr ⟨hpath, hnodup⟩
          · exact List.cons_subset.mpr ⟨mem_ids_of_find? hfind, hids⟩
          · exact List.isChain_cons_cons.mpr ⟨hreq.mpr hb, hchain⟩
        exact hrequired.finish fun b hb => hreq.mp hb

theorem sortedIds_of_pairwise (h : (decisions.map (·.id)).Pairwise (· ≤ ·)) :
    sortedIds decisions = decisions.map (·.id) :=
  List.mergeSort_of_pairwise (h.imp fun hle => decide_eq_true hle)

theorem outcome_sortedIds (hd : Distinct decisions) :
    Outcome decisions (sortedIds decisions)
      ((sortedIds decisions).foldlM (visit decisions (decisions.length + 1) []) []) := by
  refine outcome_foldlM (by simp) fun visited hv id _ => outcome_visit hd (by simp) ?_ ?_ ?_ hv
  · exact List.nodup_nil
  · exact List.nil_subset _
  · exact List.isChain_singleton id

theorem checkAcyclic_outcome (hd : Distinct decisions) :
    (checkAcyclic decisions = .ok () ∧ Acyclic decisions) ∨
      ∃ path, checkAcyclic decisions = .error (.cyclicDependency path) ∧ IsCycle decisions path := by
  have h := outcome_sortedIds hd
  unfold checkAcyclic
  cases hfold : (sortedIds decisions).foldlM (visit decisions (decisions.length + 1) []) [] with
  | ok visited =>
    rw [hfold] at h
    refine Or.inl ⟨rfl, acyclic_of_grounded fun id hid => h.2 id ?_⟩
    exact List.mem_mergeSort.mpr hid
  | error e =>
    rw [hfold] at h
    obtain ⟨path, rfl, hcycle⟩ := h
    exact Or.inr ⟨path, rfl, hcycle⟩

/-! ## Acceptance -/

/-- What a refusal may say of decisions. The checks stand in this order, so each fault comes with
what the checks before it have found in order. -/
inductive Fault (decisions : List Decision) : DecisionError → Prop where
  | duplicateId {id : String} : List.Duplicate id (decisions.map (·.id)) →
      Fault decisions (.duplicateId id)
  | unknownDecision {a id : String} : Distinct decisions → Requires decisions a id →
      id ∉ decisions.map (·.id) → Fault decisions (.unknownDecision id)
  | cyclicDependency {path : List String} : Distinct decisions → Closed decisions →
      IsCycle decisions path → Fault decisions (.cyclicDependency path)

theorem Fault.not_consistent {e : DecisionError} (h : Fault decisions e) :
    ¬ Consistent decisions := by
  intro hc
  cases h with
  | duplicateId hdup => exact hdup.not_nodup hc.distinct
  | unknownDecision _ hreq hid => exact hid (hc.closed _ _ hreq)
  | cyclicDependency _ _ hcycle => exact hcycle.not_acyclic hc.acyclic

theorem check_cases (decisions : List Decision) :
    (check decisions = .ok () ∧ Consistent decisions) ∨
      ∃ e, check decisions = .error e ∧ Fault decisions e := by
  unfold check
  cases hrep : repeatedId? [] decisions with
  | some id =>
    refine Or.inr ⟨_, rfl, .duplicateId ?_⟩
    rcases duplicate_of_repeatedId? hrep with ⟨hseen, -⟩ | hdup
    · exact absurd hseen List.not_mem_nil
    · exact hdup
  | none =>
    have hdistinct := (repeatedId?_eq_none_iff.mp hrep).1
    cases hunk : unknownId? decisions with
    | some id =>
      obtain ⟨⟨a, hreq⟩, hid⟩ := unknown_of_unknownId? hunk
      exact Or.inr ⟨_, rfl, .unknownDecision hdistinct hreq hid⟩
    | none =>
      have hclosed := unknownId?_eq_none_iff.mp hunk
      rcases checkAcyclic_outcome hdistinct with ⟨hok, hacyclic⟩ | ⟨path, herr, hcycle⟩
      · exact Or.inl ⟨hok, hdistinct, hclosed, hacyclic⟩
      · exact Or.inr ⟨_, herr, .cyclicDependency hdistinct hclosed hcycle⟩

theorem consistent_of_check (h : check decisions = .ok ()) : Consistent decisions := by
  rcases check_cases decisions with ⟨-, hc⟩ | ⟨e, he, -⟩
  · exact hc
  · rw [h] at he
    cases he

end Decision

namespace DecisionSet

open Decision

variable {decisions : List Decision}

theorem consistent (set : DecisionSet) : Consistent set.decisions := consistent_of_check set.checked

theorem new_of_check_ok (h : check decisions = .ok ()) :
    new decisions = .ok ⟨decisions, Scope.defaultLimit, h⟩ := by
  unfold new
  split
  · rfl
  · next e he => rw [h] at he; cases he

theorem new_of_check_error {e : DecisionError} (h : check decisions = .error e) :
    new decisions = .error e := by
  unfold new
  split
  · next hok => rw [h] at hok; cases hok
  · next e' he => rw [h] at he; cases he; rfl

theorem new_cases (decisions : List Decision) :
    (∃ set, new decisions = .ok set ∧ set.decisions = decisions ∧ Consistent decisions) ∨
      ∃ e, new decisions = .error e ∧ Fault decisions e := by
  rcases check_cases decisions with ⟨hok, hc⟩ | ⟨e, he, hfault⟩
  · exact Or.inl ⟨_, new_of_check_ok hok, rfl, hc⟩
  · exact Or.inr ⟨e, new_of_check_error he, hfault⟩

theorem fault_of_new_error {e : DecisionError} (h : new decisions = .error e) :
    Fault decisions e := by
  rcases new_cases decisions with ⟨set, hset, -⟩ | ⟨e', he', hfault⟩
  · rw [h] at hset; cases hset
  · rw [h] at he'; cases he'; exact hfault

theorem exists_fault_of_not_consistent (h : ¬ Consistent decisions) :
    ∃ e, new decisions = .error e ∧ Fault decisions e := by
  rcases new_cases decisions with ⟨_, -, -, hc⟩ | hfault
  · exact absurd hc h
  · exact hfault

theorem new_accepts_iff :
    (∃ set, new decisions = .ok set ∧ set.decisions = decisions) ↔ Consistent decisions := by
  constructor
  · rintro ⟨set, -, rfl⟩
    exact set.consistent
  · intro hc
    rcases new_cases decisions with ⟨set, hset, heq, -⟩ | ⟨e, -, hfault⟩
    · exact ⟨set, hset, heq⟩
    · exact absurd hc hfault.not_consistent

theorem new_finds_duplicate_iff :
    (∃ id, new decisions = .error (.duplicateId id)) ↔ ¬ Distinct decisions := by
  constructor
  · rintro ⟨id, h⟩
    cases fault_of_new_error h with
    | duplicateId hdup => exact hdup.not_nodup
  · intro hnot
    obtain ⟨e, he, hfault⟩ := exists_fault_of_not_consistent fun hc => hnot hc.distinct
    cases hfault with
    | duplicateId => exact ⟨_, he⟩
    | unknownDecision hd => exact absurd hd hnot
    | cyclicDependency hd => exact absurd hd hnot

theorem new_finds_unknown_iff :
    (∃ id, new decisions = .error (.unknownDecision id)) ↔
      Distinct decisions ∧ ¬ Closed decisions := by
  constructor
  · rintro ⟨id, h⟩
    cases fault_of_new_error h with
    | unknownDecision hd hreq hid => exact ⟨hd, fun hc => hid (hc _ _ hreq)⟩
  · rintro ⟨hd, hnot⟩
    obtain ⟨e, he, hfault⟩ := exists_fault_of_not_consistent fun hc => hnot hc.closed
    cases hfault with
    | duplicateId hdup => exact absurd hd hdup.not_nodup
    | unknownDecision => exact ⟨_, he⟩
    | cyclicDependency _ hc => exact absurd hc hnot

theorem new_finds_cycle_iff :
    (∃ path, new decisions = .error (.cyclicDependency path)) ↔
      Distinct decisions ∧ Closed decisions ∧ ¬ Acyclic decisions := by
  constructor
  · rintro ⟨path, h⟩
    cases fault_of_new_error h with
    | cyclicDependency hd hc hcycle => exact ⟨hd, hc, hcycle.not_acyclic⟩
  · rintro ⟨hd, hc, hnot⟩
    obtain ⟨e, he, hfault⟩ := exists_fault_of_not_consistent fun hc => hnot hc.acyclic
    cases hfault with
    | duplicateId hdup => exact absurd hd hdup.not_nodup
    | unknownDecision _ hreq hid => exact absurd (hc _ _ hreq) hid
    | cyclicDependency => exact ⟨_, he⟩

/-- **A list of decisions is accepted exactly if it is consistent**, and a refusal says which of the
three conditions is the first to fail, with something that shows it. -/
theorem new_accepts_iff_consistent (decisions : List Decision) :
    ((∃ set, new decisions = .ok set ∧ set.decisions = decisions) ↔ Consistent decisions) ∧
    ((∃ id, new decisions = .error (.duplicateId id)) ↔ ¬ Distinct decisions) ∧
    ((∃ id, new decisions = .error (.unknownDecision id)) ↔
      Distinct decisions ∧ ¬ Closed decisions) ∧
    ((∃ path, new decisions = .error (.cyclicDependency path)) ↔
      Distinct decisions ∧ Closed decisions ∧ ¬ Acyclic decisions) ∧
    ∀ e, new decisions = .error e → Fault decisions e :=
  ⟨new_accepts_iff, new_finds_duplicate_iff, new_finds_unknown_iff, new_finds_cycle_iff,
    fun _ => fault_of_new_error⟩

/-- Three decisions in a circle, entered from a fourth that is not part of it. -/
def circle : List Decision :=
  let table : Table := {
    hitPolicy := .unique, inputs := [], outputs := ["out"], rules := []
    outputs_ne := by decide, outputs_named := by decide, rules_fit := by decide }
  [⟨"apple", table, ["bread"]⟩, ⟨"bread", table, ["cider"]⟩, ⟨"cider", table, ["date"]⟩,
    ⟨"date", table, ["bread"]⟩]

theorem new_refuses_circle :
    new circle = .error (.cyclicDependency ["bread", "cider", "date", "bread"]) ∧
      Fault circle (.cyclicDependency ["bread", "cider", "date", "bread"]) := by
  have h : new circle = .error (.cyclicDependency ["bread", "cider", "date", "bread"]) := by
    refine new_of_check_error ?_
    rw [check, checkAcyclic, sortedIds_of_pairwise (by decide)]
    rfl
  exact ⟨h, (new_accepts_iff_consistent circle).2.2.2.2 _ h⟩

end DecisionSet
end DecisionModel
