import DecisionModel.Decision.Merge
import DecisionModel.Proofs.Value.Binding

/-!
# What a merged context binds

Merging goes through the entries that are laid over a context and down into contexts on both sides.
What comes of it can be said without that recursion, path by path: what is bound along a path comes
from the two values that are bound along it on either side, and nothing that stands elsewhere has a
part in it, except that a value on the way which is no context cuts the path off.

The entries that are laid over have to be sorted, or at least to hold every name once. If a name
came twice, the second entry would be merged with the first, which no look-up shows.
-/

namespace DecisionModel

open Value (bound?_cons bound?_of_not_context bound?_eq_none_of_blocks lookup?_context
  blocks_of_lookup? blocks_of_lookup?_eq_none)

namespace Context

variable {base entries inner outer : Context} {existing : Option Value} {v : Value}
  {name : String} {path rest : List String}

/-! ## One value over another -/

theorem overlay_context (inner outer : Context) :
    overlay (some (.context inner)) (.context outer) = .context (inner.merge outer) := by
  rw [overlay]

theorem overlay_list (xs ys : List Value) :
    overlay (some (.list xs)) (.list ys) = .list (xs ++ ys) := by
  rw [overlay]

/-- Whatever is neither joined nor merged takes the place of what was there. -/
theorem overlay_eq_self (hlist : ∀ xs ys, ¬(existing = some (.list xs) ∧ v = .list ys))
    (hcontext : ∀ inner outer, ¬(existing = some (.context inner) ∧ v = .context outer)) :
    overlay existing v = v := by
  cases v with
  | list ys =>
    rw [overlay]
    intro xs hxs
    exact hlist xs ys ⟨hxs, rfl⟩
  | context outer =>
    rw [overlay]
    intro inner hinner
    exact hcontext inner outer ⟨hinner, rfl⟩
  | _ => simp only [overlay]

theorem overlay_none (v : Value) : overlay none v = v :=
  overlay_eq_self nofun nofun

/-- A context is merged into a context, and takes the place of anything else. -/
theorem overlay_context_cases (existing : Option Value) (outer : Context) :
    (∃ inner, existing = some (.context inner) ∧
      overlay existing (.context outer) = .context (merge inner outer)) ∨
    (∀ inner, existing ≠ some (.context inner)) ∧
      overlay existing (.context outer) = .context outer := by
  by_cases hcontext : ∃ inner, existing = some (.context inner)
  · obtain ⟨inner, rfl⟩ := hcontext
    exact .inl ⟨inner, rfl, overlay_context inner outer⟩
  · have hnot : ∀ inner, existing ≠ some (.context inner) := fun inner h => hcontext ⟨inner, h⟩
    refine .inr ⟨hnot, overlay_eq_self ?_ fun inner _ hboth => hnot inner hboth.1⟩
    rintro xs ys ⟨-, hlist⟩
    cases hlist

theorem overlay_of_not_context (h : v.isContext = false) (existing : Option Value) :
    (overlay existing v).isContext = false := by
  by_cases hlist : ∃ xs ys, existing = some (.list xs) ∧ v = .list ys
  · obtain ⟨xs, ys, rfl, rfl⟩ := hlist
    rw [overlay_list]
    rfl
  · rw [overlay_eq_self]
    · exact h
    · exact fun xs ys hboth => hlist ⟨xs, ys, hboth⟩
    · rintro inner outer ⟨-, rfl⟩
      cases h

/-! ## Along a path -/

theorem merge_eq_absorb (base entries : Context) :
    base.merge entries = Entries.absorb overlay base entries := by
  induction entries generalizing base with
  | nil => rw [merge, Entries.absorb, List.foldl_nil]
  | cons entry entries ih =>
    rw [merge, ih]
    rfl

theorem joined_none_left (above : Option Value) : Entries.joined overlay none above = above := by
  cases above with
  | none => rfl
  | some v => rw [Entries.joined_some, overlay_none]

theorem get?_merge (h : (Entries.names entries).Pairwise (· < ·)) (base : Context) (name : String) :
    Entries.get? (base.merge entries) name =
      Entries.joined overlay (Entries.get? base name) (Entries.get? entries name) := by
  rw [merge_eq_absorb, Entries.get?_absorb h]

theorem pairwise_merge (h : (Entries.names base).Pairwise (· < ·)) (entries : Context) :
    (Entries.names (base.merge entries)).Pairwise (· < ·) := by
  rw [merge_eq_absorb]
  exact Entries.pairwise_absorb h entries

/-- **What a merged context binds along a path.** The induction is on the path: it goes on where
both sides have a context, and elsewhere one of them alone counts. -/
theorem bound?_merge {overlay : Context} (hoverlay : (Value.context overlay).Sorted)
    (base : Context) (hpath : path ≠ []) :
    (Value.context (base.merge overlay)).bound? path =
      if (Value.context overlay).blocks path then none
      else Entries.joined Context.overlay ((Value.context base).bound? path)
        ((Value.context overlay).bound? path) := by
  induction path generalizing base overlay with
  | nil => exact absurd rfl hpath
  | cons name rest ih =>
    have hname := get?_merge hoverlay.pairwise base name
    by_cases hrest : rest = []
    · subst hrest
      simpa [Value.blocks, onTheWay] using hname
    · rw [bound?_cons, bound?_cons, bound?_cons, lookup?_context, hname]
      cases habove : (Value.context overlay).lookup? name with
      | none =>
        have hget : Entries.get? overlay name = none := habove
        simp [blocks_of_lookup?_eq_none habove, hget]
      | some w =>
        have hget : Entries.get? overlay name = some w := habove
        rw [blocks_of_lookup? habove hrest, hget, Option.bind_some, Entries.joined_some,
          Option.bind_some]
        cases hw : w.isContext with
        | false =>
          rw [bound?_of_not_context (overlay_of_not_context hw _) hrest]
          simp
        | true =>
          obtain ⟨outer, rfl⟩ := Value.isContext_iff.mp hw
          rw [Bool.not_true, Bool.false_or, lookup?_context]
          rcases overlay_context_cases (Entries.get? base name) outer with
            ⟨inner, hinner, hmerged⟩ | ⟨hbelow, hreplaced⟩
          · rw [hmerged, hinner, ih (hoverlay.lookup habove) inner hrest, Option.bind_some]
          · -- what the base has there is replaced, and nothing goes on from it
            have hnone : (Entries.get? base name).bind (·.bound? rest) = none := by
              cases hget : Entries.get? base name with
              | none => rfl
              | some v =>
                refine bound?_of_not_context ?_ hrest
                cases v with
                | context inner => exact absurd hget (hbelow inner)
                | _ => rfl
            rw [hreplaced, hnone, joined_none_left]
            split
            · next hblocks => exact bound?_eq_none_of_blocks hblocks
            · rfl

theorem sorted_merge {overlay : Context} (hbase : (Value.context base).Sorted)
    (hoverlay : (Value.context overlay).Sorted) : (Value.context (base.merge overlay)).Sorted := by
  intro path entries hbound
  by_cases hpath : path = []
  · subst hpath
    cases hbound
    exact pairwise_merge hbase.pairwise overlay
  · rw [bound?_merge hoverlay base hpath] at hbound
    split at hbound
    · cases hbound
    · cases habove : (Value.context overlay).bound? path with
      | none =>
        rw [habove, Entries.joined_none] at hbound
        exact hbase path entries hbound
      | some v =>
        rw [habove, Entries.joined_some, Option.some.injEq] at hbound
        cases hv : v.isContext with
        | false =>
          have hnot := overlay_of_not_context hv ((Value.context base).bound? path)
          rw [hbound] at hnot
          cases hnot
        | true =>
          obtain ⟨outer, rfl⟩ := Value.isContext_iff.mp hv
          rcases overlay_context_cases ((Value.context base).bound? path) outer with
            ⟨inner, hinner, hmerged⟩ | ⟨-, hreplaced⟩
          · cases hmerged.symm.trans hbound
            exact pairwise_merge (hbase path inner hinner) outer
          · cases hreplaced.symm.trans hbound
            exact hoverlay path _ habove

/-- **Merging, path by path.** Where both sides bind a list the lists are joined, and where both
bind a context the contexts are merged; anything else that is laid over takes the place of what was
there. Where nothing is laid over, what was there stays, unless the path is blocked, and then
nothing is left at its end. Beyond that no name comes or goes. -/
theorem merge_pointwise (base overlay : Context) (hoverlay : (Value.context overlay).Sorted) :
    let merged := Value.context (base.merge overlay)
    (∀ path, path ≠ [] →
      let below := (Value.context base).bound? path
      let above := (Value.context overlay).bound? path
      let blocked := ∃ q, q ≠ [] ∧ q ≠ path ∧ q <+: path ∧ (Value.context overlay).stopsAt q = true
      (above = none → ¬blocked → merged.bound? path = below) ∧
      (∀ xs ys, below = some (.list xs) → above = some (.list ys) →
        merged.bound? path = some (.list (xs ++ ys))) ∧
      (∀ inner outer, below = some (.context inner) → above = some (.context outer) →
        merged.bound? path = some (.context (merge inner outer))) ∧
      (∀ v, above = some v → (∀ xs ys, ¬(below = some (.list xs) ∧ v = .list ys)) →
        (∀ inner outer, ¬(below = some (.context inner) ∧ v = .context outer)) →
        merged.bound? path = some v) ∧
      (blocked → merged.bound? path = none) ∧
      ((merged.bound? path).isSome ↔ above.isSome ∨ below.isSome ∧ ¬blocked)) ∧
    ((Value.context base).Sorted → merged.Sorted) := by
  intro merged
  refine ⟨fun path hpath => ?_, fun hbase => sorted_merge hbase hoverlay⟩
  intro below above blocked
  have hmerged : merged.bound? path =
      if (Value.context overlay).blocks path then none
      else Entries.joined Context.overlay below above :=
    bound?_merge hoverlay base hpath
  have hblocked : (Value.context overlay).blocks path = true ↔ blocked := Value.blocks_iff
  have hopen : ∀ v, above = some v → ¬blocked := by
    intro v hv hblocks
    cases hv.symm.trans (bound?_eq_none_of_blocks (hblocked.mpr hblocks))
  have hbound : ∀ v, above = some v → merged.bound? path = some (Context.overlay below v) := by
    intro v hv
    rw [hmerged, if_neg (mt hblocked.mp (hopen v hv)), hv, Entries.joined_some]
  refine ⟨?_, ?_, ?_, ?_, ?_, ?_⟩
  · intro hnone hfree
    rw [hmerged, if_neg (mt hblocked.mp hfree), hnone, Entries.joined_none]
  · intro xs ys hxs hys
    rw [hbound _ hys, hxs, overlay_list]
  · intro inner outer hinner houter
    rw [hbound _ houter, hinner, overlay_context]
  · intro v hv hlist hcontext
    rw [hbound v hv, overlay_eq_self hlist hcontext]
  · intro hblocks
    rw [hmerged, if_pos (hblocked.mpr hblocks)]
  · cases habove : above with
    | none =>
      by_cases hblocks : blocked
      · simp [hmerged, hblocked.mpr hblocks, hblocks]
      · simp [hmerged, mt hblocked.mp hblocks, hblocks, habove]
    | some v => simp [hbound v habove]

/-- A customer who is told apart by tags, and a rate that becomes a plain number. -/
theorem tags_joined_and_rate_replaced :
    let base : Context := [
      ("customer", .context [("name", .string "Ann"), ("tags", .list [.string "new"])]),
      ("rate", .context [("net", .ofNat 4)])]
    let overlay : Context := [
      ("customer", .context [("tags", .list [.string "vip"])]), ("rate", .ofNat 5)]
    let merged := Value.context (base.merge overlay)
    (Value.context overlay).Sorted ∧
      merged.bound? ["customer", "name"] = some (.string "Ann") ∧
      merged.bound? ["customer", "tags"] = some (.list [.string "new", .string "vip"]) ∧
      merged.bound? ["rate"] = some (.ofNat 5) ∧
      merged.bound? ["rate", "net"] = none := by
  intro base overlay merged
  have hoverlay : (Value.context overlay).Sorted := by
    refine .context (by decide) (List.forall_mem_cons.mpr ⟨?_, List.forall_mem_singleton.mpr ?_⟩)
    · exact .context (by decide) (List.forall_mem_singleton.mpr (.of_not_context rfl))
    · exact .of_not_context rfl
  obtain ⟨hmerged, -⟩ := merge_pointwise base overlay hoverlay
  refine ⟨hoverlay, ?_, ?_, ?_, ?_⟩
  · obtain ⟨hkept, -⟩ := hmerged ["customer", "name"] nofun
    apply hkept rfl
    rw [← Value.blocks_iff]
    decide
  · obtain ⟨-, hjoined, -⟩ := hmerged ["customer", "tags"] nofun
    exact hjoined [.string "new"] [.string "vip"] rfl rfl
  · obtain ⟨-, -, -, hreplaced, -⟩ := hmerged ["rate"] nofun
    exact hreplaced (.ofNat 5) rfl nofun nofun
  · obtain ⟨-, -, -, -, hcut, -⟩ := hmerged ["rate", "net"] nofun
    exact hcut ⟨["rate"], nofun, by decide, by decide, rfl⟩

end Context
end DecisionModel
