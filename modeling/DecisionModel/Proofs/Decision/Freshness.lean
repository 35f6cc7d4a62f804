import DecisionModel.Proofs.Decision.Fold
import DecisionModel.Proofs.Decision.Gathering
import DecisionModel.Proofs.Decision.Overlay
import DecisionModel.Proofs.Table.Relocation

/-!
# Functions that are not there yet

A function is told apart by the site where it was made. That works as long as no evaluation finds a
function that it is itself yet to make, and none does: what a table finds was given with the data or
made by the tables before it, and those are of other decisions.

Nothing has to be said for that about what tables yield. Exchange one site of a decision for another
one: the decisions before it do not see it, so the context comes to the same, with that site
exchanged. Then the site was not there.
-/

namespace DecisionModel

variable {ρ : Site → Site}

/-! ## Results in the context -/

namespace Context

mutual

theorem overlay_relocate (existing : Option Value) (v : Value) :
    overlay (existing.map (Value.relocate ρ)) (v.relocate ρ) = (overlay existing v).relocate ρ := by
  -- Only a context looks at a context before it, and only a list at a list.
  cases v with
  | context entries =>
    rcases existing with - | base
    · simp [overlay]
    · cases base with
      | context base =>
        simp only [Option.map_some, Value.relocate_context, overlay_context,
          merge_relocate base entries]
      | _ => simp [overlay, Value.relocate, relocateEntries_eq]
  | list items =>
    rcases existing with - | base
    · simp [overlay]
    · cases base <;> simp [overlay, Value.relocate, relocateAll_eq_map]
  | _ => simp [overlay, Value.relocate]

theorem merge_relocate (base : Context) (entries : List (String × Value)) :
    (base.relocate ρ).merge (Context.relocate ρ entries) = (base.merge entries).relocate ρ := by
  cases entries with
  | nil => simp [merge, Context.relocate]
  | cons entry entries =>
    obtain ⟨name, v⟩ := entry
    have hcons : Context.relocate ρ ((name, v) :: entries) =
        (name, v.relocate ρ) :: Context.relocate ρ entries := rfl
    rw [hcons, merge, merge, ← merge_relocate, ← insert_relocate, ← overlay_relocate,
      ← get?_relocate]

end

mutual

theorem addValue_relocate (gathered : Option Value) (v : Value) :
    addValue (gathered.map (Value.relocate ρ)) (v.relocate ρ) =
      (addValue gathered v).relocate ρ := by
  cases v with
  | context entries =>
    rcases gathered with - | names
    · have hnone := gather_relocate [] entries
      simp only [Option.map_none, Value.relocate_context, addValue, ← hnone]
      rfl
    · cases names with
      | context names =>
        simp only [Option.map_some, Value.relocate_context, addValue_context,
          gather_relocate names entries]
      | _ => simp [addValue, Value.relocate, relocateAll_eq_map, relocateEntries_eq]
  | _ =>
    rcases gathered with - | names
    · simp [addValue, Value.relocate]
    · cases names <;> simp [addValue, Value.relocate, relocateAll_eq_map]

theorem gather_relocate (gathered : Context) (entries : List (String × Value)) :
    (gathered.relocate ρ).gather (Context.relocate ρ entries) =
      (gathered.gather entries).relocate ρ := by
  cases entries with
  | nil => simp [gather, Context.relocate]
  | cons entry entries =>
    obtain ⟨name, v⟩ := entry
    have hcons : Context.relocate ρ ((name, v) :: entries) =
        (name, v.relocate ρ) :: Context.relocate ρ entries := rfl
    rw [hcons, gather, gather, ← gather_relocate, ← insert_relocate, ← addValue_relocate,
      ← get?_relocate]

end

theorem gatherRows_relocate (rows : List Value) :
    gatherRows (rows.map (Value.relocate ρ)) = (gatherRows rows).relocate ρ := by
  induction rows using List.reverseRecOn with
  | nil => rfl
  | append_singleton rows row ih =>
    rw [List.map_append, List.map_singleton]
    cases hrow : row.isContext with
    | true =>
      obtain ⟨entries, rfl⟩ := Value.isContext_iff.mp hrow
      rw [Value.relocate_context, gatherRows_concat_context, gatherRows_concat_context, ih,
        gather_relocate]
    | false =>
      have hmoved : (row.relocate ρ).isContext = false := by
        cases row <;> first | rfl | cases hrow
      rw [gatherRows_concat_of_not_context hrow, gatherRows_concat_of_not_context hmoved, ih]

theorem mergeResult_relocate (context : Context) (v : Value) :
    (context.relocate ρ).mergeResult (v.relocate ρ) = (context.mergeResult v).relocate ρ := by
  cases v with
  | context entries =>
    rw [Value.relocate_context]
    exact merge_relocate context entries
  | list rows =>
    rw [Value.relocate_list]
    change (context.relocate ρ).merge (gatherRows (rows.map (Value.relocate ρ))) = _
    rw [gatherRows_relocate]
    exact merge_relocate context (gatherRows rows)
  | _ => rfl

end Context

/-! ## Decisions -/

namespace Site

variable {id other : String} {site : Site}

/-- A site is within the evaluation of one decision. -/
theorem decision_unique (h : [.decision id] <:+ site) (h' : [.decision other] <:+ site) :
    id = other := by
  have hsame : ([.decision id] : Site) = [.decision other] :=
    (List.suffix_of_suffix_length_le h h' (Nat.le_refl _)).eq_of_length rfl
  cases hsame
  rfl

/-- Whether a map of sites leaves everything within a decision where it is. -/
def Spares (ρ : Site → Site) (id : String) : Prop := ∀ site, [.decision id] <:+ site → ρ site = site

theorem Spares.carries (h : Spares ρ id) : Carries ρ [.decision id] := by
  intro site step hwithin
  rw [h site hwithin, h _ (hwithin.trans (List.suffix_cons _ _))]

/-- An exchange of two sites within one decision leaves the others alone. -/
theorem spares_swap (hsite : [.decision id] <:+ site) (hother : other ≠ id) :
    Spares (Equiv.swap site (.body :: site)) other := by
  intro x hx
  refine Equiv.swap_apply_of_ne_of_ne ?_ ?_
  · rintro rfl
    exact hother (decision_unique hx hsite)
  · rintro rfl
    exact hother (decision_unique hx (hsite.trans (List.suffix_cons _ _)))

end Site

namespace DecisionSet

open Decision

variable {set : DecisionSet} {context merged : Context} {id : String} {order : List String}

theorem mergeNext_relocate (hinj : ρ.Injective) (hid : Site.Spares ρ id)
    (h : set.mergeNext context id = .ok merged) :
    set.mergeNext (context.relocate ρ) id = .ok (merged.relocate ρ) := by
  obtain ⟨d, v, hfind, hv, rfl⟩ := mergeNext_eq_ok_iff.mp h
  obtain rfl : d.id = id := id_of_find? hfind
  have hmoved := Table.evaluate_relocate hinj hid.carries (evaluateTable_eq_ok_iff.mp hv)
  have hscope : (Scope.root context set.callLimit [.decision d.id]).relocate ρ =
      .root (context.relocate ρ) set.callLimit [.decision d.id] :=
    congrArg (Scope.root (context.relocate ρ) set.callLimit) (hid _ (List.suffix_refl _))
  rw [hscope] at hmoved
  exact mergeNext_eq_ok_iff.mpr
    ⟨d, _, hfind, evaluateTable_eq_ok_iff.mpr hmoved, Context.mergeResult_relocate context v⟩

theorem foldlM_mergeNext_relocate (hinj : ρ.Injective) (horder : ∀ id ∈ order, Site.Spares ρ id)
    (h : order.foldlM set.mergeNext context = .ok merged) :
    order.foldlM set.mergeNext (context.relocate ρ) = .ok (merged.relocate ρ) := by
  induction order generalizing context with
  | nil =>
    cases h
    rfl
  | cons id order ih =>
    obtain ⟨hid, horder⟩ := List.forall_mem_cons.mp horder
    rw [List.foldlM_cons] at h
    obtain ⟨next, hnext, h⟩ := bind_eq_ok_iff.mp h
    rw [List.foldlM_cons, mergeNext_relocate hinj hid hnext, ok_bind]
    exact ih horder h

/-- None of the functions that decisions leave in the context was made within another decision. -/
theorem isFresh_of_foldlM_mergeNext (hgiven : sitesOfEntries context = []) (hid : id ∉ order)
    (hmerged : order.foldlM set.mergeNext context = .ok merged) (limit : Nat) :
    (Scope.root merged limit [.decision id]).IsFresh := by
  intro frame hframe site hsite hwithin
  rw [List.mem_singleton.mp hframe] at hsite
  let swap : Equiv.Perm Site := Equiv.swap site (.body :: site)
  have hcontext : context.relocate swap = context := by
    rw [Context.relocate_eq_self_iff, hgiven]
    nofun
  have hspares : ∀ other ∈ order, Site.Spares swap other := fun other hother =>
    Site.spares_swap hwithin fun heq => hid (heq ▸ hother)
  have hmoved := foldlM_mergeNext_relocate swap.injective hspares hmerged
  rw [hcontext, hmerged] at hmoved
  have hstays : merged.relocate swap = merged := (Except.ok.inj hmoved).symm
  -- The site would have to stay, but it is exchanged.
  have hfixed : swap site = site := Context.relocate_eq_self_iff.mp hstays site hsite
  rw [Equiv.swap_apply_left] at hfixed
  exact absurd (congrArg List.length hfixed) (Nat.succ_ne_self _)

/-- **Every table is evaluated in a fresh scope.** Whichever decision is evaluated, when the walk
over what it requires comes to the table of a decision, that decision was not evaluated before, so
the context holds no function that was made within it. -/
theorem isFresh_of_walk {x : String} {earlier later : List String}
    (hgiven : sitesOfEntries context = [])
    (hwalk : Walk set.decisions [] [id] (earlier ++ x :: later))
    (hmerged : earlier.foldlM set.mergeNext context = .ok merged) (limit : Nat) :
    (Scope.root merged limit [.decision x]).IsFresh := by
  have hnodup := (hwalk.nodup set.consistent).1
  have hx : x ∉ earlier := fun hmem =>
    (List.nodup_append.mp hnodup).2.2 x hmem x List.mem_cons_self rfl
  exact isFresh_of_foldlM_mergeNext hgiven hx hmerged limit

end DecisionSet

end DecisionModel
