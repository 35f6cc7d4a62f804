import DecisionModel.Proofs.Decision.Consistency
import Mathlib.Data.List.Induction

/-!
# The order in which decisions are finished

A depth-first walk over the requirements, said without a bound and without contexts: `Walk` follows
the required ids as they are listed, skips those that are finished already, and finishes a decision
after everything below it. In consistent decisions there is one such walk from every decision, and
the order that it leaves behind is a *schedule*: each decision of the requirement closure once, and
none before what it requires.
-/

namespace DecisionModel
namespace Decision

/-- Where the decisions `done` are finished, the last one first, walking from `ids` one after
another finishes the decisions `order`, the first one first. -/
inductive Walk (decisions : List Decision) : (done ids order : List String) → Prop where
  | nil {done : List String} : Walk decisions done [] []
  | skip {done ids order : List String} {id : String} : id ∈ done →
      Walk decisions done ids order → Walk decisions done (id :: ids) order
  | enter {done ids below rest : List String} {id : String} {d : Decision} : id ∉ done →
      find? decisions id = some d → Walk decisions done d.required below →
      Walk decisions (id :: (below.reverse ++ done)) ids rest →
      Walk decisions done (id :: ids) (below ++ id :: rest)

variable {decisions : List Decision} {done ids order : List String} {id : String}

namespace Walk

/-- The walk is determined by where it starts. -/
theorem unique {other : List String} (h : Walk decisions done ids order)
    (h' : Walk decisions done ids other) : order = other := by
  induction h generalizing other with
  | nil => cases h'; rfl
  | skip hmem _ ih =>
    cases h' with
    | skip _ h' => exact ih h'
    | enter hnot => exact absurd hmem hnot
  | enter hnot hfind _ _ ihbelow ihrest =>
    cases h' with
    | skip hmem => exact absurd hmem hnot
    | enter _ hfind' hbelow' hrest' =>
      rw [hfind] at hfind'
      cases hfind'
      cases ihbelow hbelow'
      rw [ihrest hrest']

/-- In consistent decisions the walk goes through. The induction is on a bound of the depth of the
ids, and within it on the ids. -/
theorem exists_of_depth_lt {depth : String → Nat} (hc : Consistent decisions)
    (hdepth : IsDepth decisions depth) {bound : Nat}
    (hids : ∀ id ∈ ids, id ∈ decisions.map (·.id) ∧ depth id < bound) :
    ∃ order, Walk decisions done ids order := by
  induction bound generalizing done ids with
  | zero =>
    cases ids with
    | nil => exact ⟨[], .nil⟩
    | cons id ids => exact absurd (hids id List.mem_cons_self).2 (Nat.not_lt_zero _)
  | succ bound ih =>
    induction ids generalizing done with
    | nil => exact ⟨[], .nil⟩
    | cons id ids ihids =>
      obtain ⟨⟨hid, hlt⟩, hrest⟩ := List.forall_mem_cons.mp hids
      by_cases hmem : id ∈ done
      · obtain ⟨order, h⟩ : ∃ order, Walk decisions done ids order := ihids hrest
        exact ⟨order, .skip hmem h⟩
      · obtain ⟨d, hfind⟩ := exists_find? hid
        have hbelow : ∀ b ∈ d.required, b ∈ decisions.map (·.id) ∧ depth b < bound := by
          intro b hb
          have hreq : Requires decisions id b := (requires_iff hc.distinct hfind).mpr hb
          have := hdepth.lt_of_requires hreq
          exact ⟨hc.closed id b hreq, by omega⟩
        obtain ⟨below, hbelow⟩ : ∃ below, Walk decisions done d.required below := ih hbelow
        obtain ⟨rest, hrest⟩ : ∃ rest, Walk decisions (id :: (below.reverse ++ done)) ids rest :=
          ihids hrest
        exact ⟨_, .enter hmem hfind hbelow hrest⟩

theorem exists_of_mem (hc : Consistent decisions) (hid : id ∈ decisions.map (·.id)) :
    ∃ order, Walk decisions [] [id] order := by
  obtain ⟨depth, hdepth⟩ := hc.exists_depth
  have hids : ∀ x ∈ [id], x ∈ decisions.map (·.id) ∧ depth x < decisions.length := by
    simpa using ⟨by simpa using hid, hdepth.lt_length hid⟩
  exact exists_of_depth_lt hc hdepth hids

/-- A walk from one decision finishes it last. -/
theorem singleton (h : Walk decisions [] [id] order) :
    ∃ d below, find? decisions id = some d ∧ Walk decisions [] d.required below ∧
      order = below ++ [id] := by
  cases h with
  | skip hmem => exact absurd hmem List.not_mem_nil
  | enter _ hfind hbelow hrest =>
    cases hrest
    exact ⟨_, _, hfind, hbelow, rfl⟩

/-! ## What a walk finishes -/

theorem found (h : Walk decisions done ids order) :
    ∀ x ∈ order, ∃ d, find? decisions x = some d := by
  induction h with
  | nil => simp
  | skip _ _ ih => exact ih
  | enter _ hfind _ _ ihbelow ihrest =>
    exact List.forall_mem_append.mpr ⟨ihbelow, List.forall_mem_cons.mpr ⟨⟨_, hfind⟩, ihrest⟩⟩

/-- Whatever it was to walk from is finished in the end. -/
theorem covers (h : Walk decisions done ids order) : ∀ id ∈ ids, id ∈ order ∨ id ∈ done := by
  induction h with
  | nil => simp
  | skip hmem _ ih => exact List.forall_mem_cons.mpr ⟨Or.inr hmem, ih⟩
  | enter _ _ _ _ _ ihrest =>
    refine List.forall_mem_cons.mpr ⟨Or.inl (by simp), fun x hx => ?_⟩
    rcases ihrest x hx with hx | hx
    · exact Or.inl (by simp [hx])
    · simp only [List.mem_cons, List.mem_append, List.mem_reverse] at hx ⊢
      tauto

/-- A walk keeps to what is required, directly or not, by where it starts. -/
theorem reachable (h : Walk decisions done ids order) :
    ∀ x ∈ order, ∃ id ∈ ids, Relation.ReflTransGen (Requires decisions) id x := by
  induction h with
  | nil => simp
  | skip _ _ ih =>
    intro x hx
    obtain ⟨id, hid, hreach⟩ := ih x hx
    exact ⟨id, List.mem_cons_of_mem _ hid, hreach⟩
  | @enter done ids below rest id d _ hfind _ _ ihbelow ihrest =>
    intro x hx
    rcases List.mem_append.mp hx with hx | hx
    · obtain ⟨b, hb, hreach⟩ := ihbelow x hx
      exact ⟨id, List.mem_cons_self, .head (requires_of_find? hfind hb) hreach⟩
    · rcases List.mem_cons.mp hx with rfl | hx
      · exact ⟨x, List.mem_cons_self, .refl⟩
      · obtain ⟨y, hy, hreach⟩ := ihrest x hx
        exact ⟨y, List.mem_cons_of_mem _ hy, hreach⟩

/-- A decision is not met again below itself, and what is finished is skipped, so nothing is
finished twice. -/
theorem nodup (hc : Consistent decisions) (h : Walk decisions done ids order) :
    order.Nodup ∧ ∀ x ∈ order, x ∉ done := by
  induction h with
  | nil => simp
  | skip _ _ ih => exact ih
  | @enter done ids below rest id d hnot hfind hbelow _ ihbelow ihrest =>
    -- here acyclicity is needed: `id` is not in `done` yet while the walk is below it
    have hid : id ∉ below := by
      intro hmem
      obtain ⟨b, hb, hreach⟩ := hbelow.reachable id hmem
      exact hc.acyclic id (.head' (requires_of_find? hfind hb) hreach)
    have hrest : ∀ x ∈ rest, x ≠ id ∧ x ∉ below ∧ x ∉ done := by
      intro x hx
      have := ihrest.2 x hx
      simpa only [List.mem_cons, List.mem_append, List.mem_reverse, not_or] using this
    refine ⟨List.nodup_append.mpr ⟨ihbelow.1, ?_, ?_⟩, ?_⟩
    · exact List.nodup_cons.mpr ⟨fun hx => (hrest id hx).1 rfl, ihrest.1⟩
    · rintro x hx y hy rfl
      rcases List.mem_cons.mp hy with rfl | hy
      · exact hid hx
      · exact (hrest x hy).2.1 hx
    · intro x hx
      rcases List.mem_append.mp hx with hx | hx
      · exact ihbelow.2 x hx
      · rcases List.mem_cons.mp hx with rfl | hx
        · exact hnot
        · exact (hrest x hx).2.2

end Walk

/-! ## Schedules -/

/-- Every decision of a list comes after all of its requirements, where `done` came before. -/
def Ready (decisions : List Decision) : (done order : List String) → Prop
  | _, [] => True
  | done, id :: order =>
    (∀ b, Requires decisions id b → b ∈ done) ∧ Ready decisions (id :: done) order

theorem ready_append {first second : List String} :
    Ready decisions done (first ++ second) ↔
      Ready decisions done first ∧ Ready decisions (first.reverse ++ done) second := by
  induction first generalizing done with
  | nil => simp [Ready]
  | cons x first ih =>
    simp only [List.cons_append, Ready, ih, and_assoc, List.reverse_cons, List.append_assoc,
      List.nil_append]

theorem Walk.ready (hd : Distinct decisions) (h : Walk decisions done ids order) :
    Ready decisions done order := by
  induction h with
  | nil => trivial
  | skip _ _ ih => exact ih
  | enter _ hfind hbelow _ ihbelow ihrest =>
    refine ready_append.mpr ⟨ihbelow, fun b hb => ?_, ihrest⟩
    rw [requires_iff hd hfind] at hb
    rcases hbelow.covers b hb with hb | hb
    · simp [hb]
    · simp [hb]

/-- The order in which a decision and what it requires can be evaluated: each decision of the
requirement closure stands in it once, and after all of its own requirements. -/
structure Schedule (decisions : List Decision) (id : String) (order : List String) : Prop where
  nodup : order.Nodup
  mem_iff : ∀ x, x ∈ order ↔ Relation.ReflTransGen (Requires decisions) id x
  required_before : ∀ earlier x later, order = earlier ++ x :: later →
    ∀ b, Requires decisions x b → b ∈ earlier

theorem Ready.required_before {earlier later : List String} {x b : String}
    (h : Ready decisions [] (earlier ++ x :: later)) (hb : Requires decisions x b) :
    b ∈ earlier := by
  obtain ⟨-, hx, -⟩ := ready_append.mp h
  simpa using hx b hb

theorem Walk.schedule (hc : Consistent decisions) (h : Walk decisions [] [id] order) :
    Schedule decisions id order := by
  have hready := h.ready hc.distinct
  have hbefore : ∀ earlier x later, order = earlier ++ x :: later →
      ∀ b, Requires decisions x b → b ∈ earlier := by
    rintro earlier x later rfl b hb
    exact hready.required_before hb
  refine ⟨(h.nodup hc).1, fun x => ⟨fun hx => ?_, fun hreach => ?_⟩, hbefore⟩
  · obtain ⟨y, hy, hreach⟩ := h.reachable x hx
    rwa [List.mem_singleton.mp hy] at hreach
  · induction hreach with
    | refl => exact (h.covers id (List.mem_singleton.mpr rfl)).resolve_right List.not_mem_nil
    | tail _ hreq ih =>
      obtain ⟨earlier, later, hsplit⟩ := List.append_of_mem ih
      rw [hsplit]
      exact List.mem_append_left _ (hbefore _ _ _ hsplit _ hreq)

/-! ## Before a decision -/

variable {before after earlier later : List String} {a b : String}

theorem mem_of_reflTransGen (hready : Ready decisions [] order) (ha : a ∈ order)
    (h : Relation.ReflTransGen (Requires decisions) a b) : b ∈ order := by
  induction h with
  | refl => exact ha
  | tail _ hreq ih =>
    obtain ⟨before, after, rfl⟩ := List.append_of_mem ih
    exact List.mem_append_left _ (hready.required_before hreq)

/-- What a decision requires, directly or not, is finished before it. -/
theorem mem_before_of_transGen (hready : Ready decisions [] (before ++ a :: after))
    (h : Relation.TransGen (Requires decisions) a b) : b ∈ before := by
  obtain ⟨c, hac, hcb⟩ := Relation.TransGen.head'_iff.mp h
  exact mem_of_reflTransGen (ready_append.mp hready).1 (hready.required_before hac) hcb

theorem eq_of_nodup_split (hnodup : (before ++ a :: after).Nodup)
    (h : before ++ a :: after = earlier ++ a :: later) : before = earlier := by
  have hnot : a ∉ before ∧ a ∉ after := by
    rw [List.nodup_append, List.nodup_cons] at hnodup
    obtain ⟨-, ⟨hafter, -⟩, hdisjoint⟩ := hnodup
    exact ⟨fun hmem => hdisjoint a hmem a List.mem_cons_self rfl, hafter⟩
  exact ((List.append_cons_inj_of_notMem hnot.1 hnot.2).mp h).1

/-- A walk from several decisions begins with the walk from the first of them. -/
theorem Walk.eq_of_first {rest : List String} (hnodup : (before ++ a :: after).Nodup)
    (hwalk : Walk decisions [] (a :: rest) (before ++ a :: after))
    (halone : Walk decisions [] [a] (earlier ++ [a])) : before = earlier := by
  generalize hsplit : before ++ a :: after = order at hwalk
  cases hwalk with
  | skip hmem => exact absurd hmem List.not_mem_nil
  | enter hnot hfind hbelow hrest =>
    have hown := halone.unique (.enter hnot hfind hbelow .nil)
    obtain rfl := List.append_cancel_right hown
    exact eq_of_nodup_split hnodup hsplit

/-! ## Linked decisions -/

/-- Whether one of two decisions requires the other one, directly or not, or they are the same. -/
def Linked (decisions : List Decision) (a b : String) : Prop :=
  Relation.ReflTransGen (Requires decisions) a b ∨ Relation.ReflTransGen (Requires decisions) b a

theorem transGen_of_linked (hne : a ≠ b) (h : Linked decisions a b) :
    Relation.TransGen (Requires decisions) a b ∨ Relation.TransGen (Requires decisions) b a := by
  rcases h with h | h
  · exact .inl ((Relation.reflTransGen_iff_eq_or_transGen.mp h).resolve_left hne.symm)
  · exact .inr ((Relation.reflTransGen_iff_eq_or_transGen.mp h).resolve_left hne)

/-- No decision comes before one that it requires. -/
theorem pairwise_of_ready (hready : Ready decisions [] order) (hnodup : order.Nodup) :
    order.Pairwise fun a b => ¬Relation.TransGen (Requires decisions) a b := by
  induction order using List.reverseRecOn with
  | nil => exact .nil
  | append_singleton order b ih =>
    obtain ⟨hnodup, -, hdisjoint⟩ := List.nodup_append.mp hnodup
    refine List.pairwise_append.mpr
      ⟨ih (ready_append.mp hready).1 hnodup, List.pairwise_singleton _ b, ?_⟩
    intro a ha b' hb' htrans
    obtain rfl := List.mem_singleton.mp hb'
    obtain ⟨before, after, rfl⟩ := List.append_of_mem ha
    rw [List.append_assoc] at hready
    have hb : b' ∈ before := mem_before_of_transGen hready htrans
    exact hdisjoint b' (List.mem_append_left _ hb) b' hb' rfl

/-- Of the decisions that are linked to one, those that it requires come before it, and no others
do. -/
theorem mem_before_iff (hready : Ready decisions [] (before ++ a :: after))
    (hnodup : (before ++ a :: after).Nodup) (hlinked : Linked decisions a b) :
    b ∈ before ↔ Relation.TransGen (Requires decisions) a b := by
  constructor
  · intro hb
    have hne : a ≠ b := by
      rintro rfl
      exact (List.nodup_append.mp hnodup).2.2 a hb a List.mem_cons_self rfl
    apply (transGen_of_linked hne hlinked).resolve_right
    intro hback
    -- then `a` itself would have to come before `b`, and so twice
    obtain ⟨first, second, rfl⟩ := List.append_of_mem hb
    rw [List.append_assoc, List.cons_append] at hready
    have ha : a ∈ first := mem_before_of_transGen hready hback
    exact (List.nodup_append.mp hnodup).2.2 a (List.mem_append_left _ ha) a List.mem_cons_self rfl
  · exact mem_before_of_transGen hready

end Decision
end DecisionModel
