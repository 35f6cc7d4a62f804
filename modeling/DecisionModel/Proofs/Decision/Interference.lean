import DecisionModel.Proofs.Decision.Fold
import DecisionModel.Proofs.Table.Interface
import Mathlib.Logic.Function.Basic

/-!
# What a required decision sees of the others

A required decision is evaluated in the context that the decisions finished before it have left, and
not in the one that the evaluation began with. Evaluated for itself, it comes after fewer decisions,
and these may be finished in another order. The two results are the same if both walks do the same
to the names that are looked up: before every decision of the requirement closure they finish the
same decisions that write such a name, in the same order. Then the two contexts agree on these
names, one decision after another along the shorter walk.
-/

namespace DecisionModel
namespace DecisionSet

open Decision

/-- Whether the table of a decision writes a name. -/
def writes (set : DecisionSet) (n id : String) : Bool :=
  (set.get? id).any fun d => d.table.written.contains n

/-- The decisions of an order that write a name. -/
def writers (set : DecisionSet) (n : String) (order : List String) : List String :=
  order.filter (set.writes n)

/-- Whether two orders do the same to what is looked up: before each decision that both have in
common, the same decisions write the names that it looks up, in the same order. -/
def Undisturbed (set : DecisionSet) (context : Context) (ran alone : List String) : Prop :=
  ∀ before id after before' after' d merged n, ran = before ++ id :: after →
    alone = before' ++ id :: after' → set.get? id = some d →
    before.foldlM set.mergeNext context = .ok merged → LooksUp merged d.table.names n →
    set.writers n before = set.writers n before'

/-- Whether the decisions that write a name which is looked up are linked with one another, and with
the decision that looks it up. -/
def WritersLinked (set : DecisionSet) (context : Context) (ran alone : List String) : Prop :=
  ∀ before id after d merged n, ran = before ++ id :: after → id ∈ alone →
    set.get? id = some d → before.foldlM set.mergeNext context = .ok merged →
    LooksUp merged d.table.names n →
    ∀ x ∈ id :: set.writers n ran, ∀ y ∈ set.writers n ran, Linked set.decisions x y

variable {set : DecisionSet} {context merged : Context} {d : Decision} {id n : String}
  {order ran alone : List String} {results : String → Value}

/-! ## Tables in a run -/

theorem evaluateTable_eq_of_lookups_agree {other : Context} (limit : Nat)
    (hagree : ∀ n, LooksUp context d.table.names n →
      Entries.get? other n = Entries.get? context n) :
    d.evaluateTable limit other = d.evaluateTable limit context := by
  unfold Decision.evaluateTable
  rw [d.table.evaluate_eq_of_lookups_agree hagree]

/-! ## Runs -/

/-- Merges a result that is known. -/
def merging (results : String → Value) (context : Context) (id : String) : Context :=
  context.mergeResult (results id)

/-- Along an order every decision comes to its result in the context that the results before it
leave. -/
def Ran (set : DecisionSet) (context : Context) (order : List String)
    (results : String → Value) : Prop :=
  ∀ before id after, order = before ++ id :: after →
    before.foldlM set.mergeNext context = .ok (before.foldl (merging results) context) ∧
    ∃ d, set.get? id = some d ∧
      d.evaluateTable set.callLimit (before.foldl (merging results) context) = .ok (results id)

theorem foldl_merging_update {v : Value} (h : id ∉ order) :
    order.foldl (merging (Function.update results id v)) context =
      order.foldl (merging results) context := by
  apply List.foldl_ext
  intro context x hx
  have hne : x ≠ id := by
    rintro rfl
    exact h hx
  rw [merging, Function.update_of_ne hne, merging]

/-- A run that goes through gives every decision of it one result. -/
theorem exists_ran (hnodup : order.Nodup) (h : order.foldlM set.mergeNext context = .ok merged) :
    ∃ results, set.Ran context order results := by
  induction order generalizing context with
  | nil => exact ⟨fun _ => .absent, fun before id after hsplit => by simp at hsplit⟩
  | cons first rest ih =>
    obtain ⟨hfirst, hrest⟩ := List.nodup_cons.mp hnodup
    rw [List.foldlM_cons] at h
    obtain ⟨next, hnext, h⟩ := bind_eq_ok_iff.mp h
    obtain ⟨d, v, hfind, hv, rfl⟩ := mergeNext_eq_ok_iff.mp hnext
    obtain ⟨results, hran⟩ := ih hrest h
    refine ⟨Function.update results first v, ?_⟩
    intro before id after hsplit
    -- the results of the rest are not touched, since `first` does not come again
    cases before with
    | nil =>
      cases hsplit
      refine ⟨rfl, d, hfind, ?_⟩
      rw [Function.update_self]
      exact hv
    | cons other before =>
      cases hsplit
      obtain ⟨hfold, d', hfind', hv'⟩ := hran before id after rfl
      have hbefore : first ∉ before := fun hmem => hfirst (List.mem_append_left _ hmem)
      have hid : id ≠ first := fun heq => hfirst (by simp [heq])
      have hmerging : merging (Function.update results first v) context first =
          context.mergeResult v := by rw [merging, Function.update_self]
      rw [List.foldl_cons, hmerging, foldl_merging_update hbefore, List.foldlM_cons, hnext, ok_bind,
        Function.update_of_ne hid]
      exact ⟨hfold, d', hfind', hv'⟩

namespace Ran

theorem get?_contributed_eq_none (h : set.Ran context order results) (hid : id ∈ order)
    (hn : set.writes n id = false) :
    Entries.get? (Context.contributed (results id)) n = none := by
  obtain ⟨before, after, rfl⟩ := List.append_of_mem hid
  obtain ⟨-, d, hfind, hresult⟩ := h before id after rfl
  apply Table.get?_contributed_eq_none (evaluateTable_eq_ok_iff.mp hresult)
  simpa [writes, hfind] using hn

/-- What is under a name in the end comes from the decisions that write it. The contexts at the
beginning need only agree on this name, which is what goes through the induction. -/
theorem get?_foldl_merging (h : set.Ran context ran results) (hsub : ∀ x ∈ order, x ∈ ran)
    {base other : Context} (hbase : Entries.get? base n = Entries.get? other n) :
    Entries.get? (order.foldl (merging results) base) n =
      Entries.get? ((set.writers n order).foldl (merging results) other) n := by
  induction order generalizing base other with
  | nil => exact hbase
  | cons id order ih =>
    obtain ⟨hid, horder⟩ := List.forall_mem_cons.mp hsub
    rw [List.foldl_cons, writers]
    cases hwrites : set.writes n id with
    | true =>
      rw [List.filter_cons_of_pos hwrites, List.foldl_cons]
      apply ih horder
      rw [merging, merging, Context.mergeResult_eq, Context.mergeResult_eq]
      exact Context.get?_merge_congr hbase
    | false =>
      rw [List.filter_cons_of_neg (by simp [hwrites])]
      apply ih horder
      have hnone := h.get?_contributed_eq_none hid hwrites
      rw [merging, Context.mergeResult_eq, Context.get?_merge_of_get?_eq_none hnone, hbase]

/-- The step along the shorter walk: where the results before a decision are those of the run, so is
its own. -/
theorem evaluateTable_eq (h : set.Ran context ran results) (hsub : ∀ x ∈ alone, x ∈ ran)
    (hundisturbed : set.Undisturbed context ran alone) {before after : List String}
    (halone : alone = before ++ id :: after) (hfind : set.get? id = some d) :
    d.evaluateTable set.callLimit (before.foldl (merging results) context) =
      .ok (results id) := by
  have hid : id ∈ ran := hsub id (by simp [halone])
  obtain ⟨earlier, later, hran⟩ := List.append_of_mem hid
  obtain ⟨hfold, d', hfind', hresult⟩ := h earlier id later hran
  cases hfind.symm.trans hfind'
  rw [← hresult]
  apply evaluateTable_eq_of_lookups_agree
  intro n hn
  -- both contexts have under `n` what its writers left there, and these are the same
  have hwriters := hundisturbed _ _ _ _ _ _ _ n hran halone hfind hfold hn
  have hbefore : ∀ x ∈ before, x ∈ ran := fun x hx => hsub x (by simp [halone, hx])
  have hearlier : ∀ x ∈ earlier, x ∈ ran := fun x hx => by simp [hran, hx]
  rw [h.get?_foldl_merging hbefore rfl, h.get?_foldl_merging hearlier rfl, hwriters]

theorem foldlM_mergeNext_eq (h : set.Ran context ran results) (hsub : ∀ x ∈ alone, x ∈ ran)
    (hundisturbed : set.Undisturbed context ran alone) {before after : List String}
    (halone : alone = before ++ after) :
    before.foldlM set.mergeNext context = .ok (before.foldl (merging results) context) := by
  induction before using List.reverseRecOn generalizing after with
  | nil => rfl
  | append_singleton before id ih =>
    have hsplit : alone = before ++ id :: after := by simp [halone]
    obtain ⟨earlier, later, hran⟩ := List.append_of_mem (hsub id (by simp [hsplit]))
    obtain ⟨-, d, hfind, -⟩ := h earlier id later hran
    have hresult := h.evaluateTable_eq hsub hundisturbed hsplit hfind
    rw [List.foldlM_append, ih hsplit, ok_bind, List.foldl_append, List.foldlM_cons,
      mergeNext_eq_ok_iff.mpr ⟨d, results id, hfind, hresult, rfl⟩]
    rfl

end Ran

/-! ## Two walks -/

variable {decisions : List Decision} {before after earlier later : List String} {a b : String}

theorem undisturbed_self (hnodup : order.Nodup) : set.Undisturbed context order order := by
  rintro before id after before' after' d merged n rfl hsplit - - -
  rw [eq_of_nodup_split hnodup hsplit]

/-- Linked decisions that write a name stand in every order of decisions as they require one
another. -/
theorem pairwise_writers (hready : Ready set.decisions [] order) (hnodup : order.Nodup)
    (hlinked : ∀ x ∈ set.writers n order, ∀ y ∈ set.writers n order,
      Linked set.decisions x y) :
    (set.writers n order).Pairwise fun a b => Relation.TransGen (Requires set.decisions) b a := by
  have hpair := ((pairwise_of_ready hready hnodup).and hnodup).filter (set.writes n)
  refine hpair.imp_of_mem fun {a b} ha hb hab => ?_
  exact (transGen_of_linked hab.2 (hlinked a ha b hb)).resolve_left hab.1

/-- Linked writers that come before a decision are the same in two orders, and stand in the same
order there. -/
theorem writers_eq_of_linked (hc : Consistent set.decisions)
    (hready : Ready set.decisions [] (before ++ id :: after))
    (hnodup : (before ++ id :: after).Nodup)
    (hready' : Ready set.decisions [] (earlier ++ id :: later))
    (hnodup' : (earlier ++ id :: later).Nodup)
    (hsub : ∀ x ∈ earlier, x ∈ before ++ id :: after)
    (hlinked : ∀ x ∈ id :: set.writers n (before ++ id :: after),
      ∀ y ∈ set.writers n (before ++ id :: after), Linked set.decisions x y) :
    set.writers n before = set.writers n earlier := by
  have hbefore : ∀ x ∈ set.writers n before, x ∈ set.writers n (before ++ id :: after) := by
    intro x hx
    obtain ⟨hx, hwrites⟩ := List.mem_filter.mp hx
    exact List.mem_filter.mpr ⟨List.mem_append_left _ hx, hwrites⟩
  have hearlier : ∀ x ∈ set.writers n earlier, x ∈ set.writers n (before ++ id :: after) := by
    intro x hx
    obtain ⟨hx, hwrites⟩ := List.mem_filter.mp hx
    exact List.mem_filter.mpr ⟨hsub x hx, hwrites⟩
  have hiff {x : String} (hx : x ∈ set.writers n (before ++ id :: after)) :
      x ∈ before ↔ x ∈ earlier := by
    have hx := hlinked id List.mem_cons_self x hx
    rw [mem_before_iff hready hnodup hx, mem_before_iff hready' hnodup' hx]
  have hperm : (set.writers n before).Perm (set.writers n earlier) := by
    have hfirst : before.Nodup := (List.nodup_append.mp hnodup).1
    have hsecond : earlier.Nodup := (List.nodup_append.mp hnodup').1
    rw [writers, writers, List.perm_ext_iff_of_nodup (hfirst.filter _) (hsecond.filter _)]
    intro x
    constructor
    · intro hx
      obtain ⟨hmem, hwrites⟩ := List.mem_filter.mp hx
      exact List.mem_filter.mpr ⟨(hiff (hbefore x hx)).mp hmem, hwrites⟩
    · intro hx
      obtain ⟨hmem, hwrites⟩ := List.mem_filter.mp hx
      exact List.mem_filter.mpr ⟨(hiff (hearlier x hx)).mpr hmem, hwrites⟩
  have hsorted := pairwise_writers (ready_append.mp hready).1 (List.nodup_append.mp hnodup).1
    fun x hx y hy => hlinked x (List.mem_cons_of_mem _ (hbefore x hx)) y (hbefore y hy)
  have hsorted' := pairwise_writers (ready_append.mp hready').1 (List.nodup_append.mp hnodup').1
    fun x hx y hy => hlinked x (List.mem_cons_of_mem _ (hearlier x hx)) y (hearlier y hy)
  refine List.Perm.eq_of_pairwise ?_ hsorted hsorted' hperm
  intro a b _ _ hba hab
  exact absurd (hba.trans hab) (hc.acyclic b)

/-- Two walks cannot disagree about decisions that are linked. -/
theorem undisturbed_of_writersLinked (hc : Consistent set.decisions)
    (hready : Ready set.decisions [] ran) (hnodup : ran.Nodup)
    (hready' : Ready set.decisions [] alone) (hnodup' : alone.Nodup)
    (hsub : ∀ x ∈ alone, x ∈ ran) (hlinked : set.WritersLinked context ran alone) :
    set.Undisturbed context ran alone := by
  rintro before id after before' after' d merged n rfl rfl hfind hmerged hn
  have hbefore' : ∀ x ∈ before', x ∈ before ++ id :: after :=
    fun x hx => hsub x (List.mem_append_left _ hx)
  exact writers_eq_of_linked hc hready hnodup hready' hnodup' hbefore'
    (hlinked before id after d merged n rfl (by simp) hfind hmerged hn)

/-! ## Required decisions -/

/-- A decision that is undisturbed in a run comes to the same when it is evaluated for itself. -/
theorem evaluate_eq_of_undisturbed {r : String} {w : Value} (hfind : set.get? r = some d)
    (hnodup : (earlier ++ [r]).Nodup) (hwalk : Walk set.decisions [] [r] (alone ++ [r]))
    (hsub : ∀ x ∈ alone ++ [r], x ∈ earlier ++ [r])
    (hmerged : earlier.foldlM set.mergeNext context = .ok merged)
    (hw : d.evaluateTable set.callLimit merged = .ok w)
    (hundisturbed : set.Undisturbed context (earlier ++ [r]) (alone ++ [r])) :
    set.evaluate r context = .ok w := by
  have hrun : (earlier ++ [r]).foldlM set.mergeNext context = .ok (merged.mergeResult w) := by
    rw [List.foldlM_append, hmerged, ok_bind, List.foldlM_cons,
      mergeNext_eq_ok_iff.mpr ⟨d, w, hfind, hw, rfl⟩]
    rfl
  obtain ⟨results, hran⟩ := exists_ran hnodup hrun
  have hresult : results r = w := by
    obtain ⟨hfold, d', hfind', hresult⟩ := hran earlier r [] rfl
    cases hfind.symm.trans hfind'
    cases hmerged.symm.trans hfold
    exact Except.ok.inj (hresult.symm.trans hw)
  obtain ⟨d', below, hfind', hbelow, hsplit⟩ := hwalk.singleton
  cases hfind.symm.trans hfind'
  obtain rfl := List.append_cancel_right hsplit
  rw [evaluate_eq hfind hbelow, hran.foldlM_mergeNext_eq hsub hundisturbed rfl, ok_bind,
    hran.evaluateTable_eq hsub hundisturbed rfl hfind, hresult]

/-- **The result of a required decision.** Where a decision comes to a result, so do those that it
requires, each in the context that the decisions finished before it leave; these results are merged,
and what follows goes on from there. Evaluated for itself a required decision has the same result,
if nothing that is finished before it in addition, or in another order, writes what is looked up.
That is so if it is the first to be required, and if all that write what is looked up are linked. -/
theorem required_result_eq_evaluate (set : DecisionSet) (id : String) (context : Context)
    (d : Decision) (v : Value) (hd : set.get? id = some d) (hv : set.evaluate id context = .ok v)
    (r : String) (hr : r ∈ d.required) :
    ∃ earlier later alone dr merged w,
      Walk set.decisions [] [id] ((earlier ++ r :: later) ++ [id]) ∧
      Walk set.decisions [] [r] (alone ++ [r]) ∧
      set.get? r = some dr ∧
      earlier.foldlM set.mergeNext context = .ok merged ∧
      dr.evaluateTable set.callLimit merged = .ok w ∧
      (do
        let merged ← later.foldlM set.mergeNext (merged.mergeResult w)
        d.evaluateTable set.callLimit merged) = .ok v ∧
      (set.Undisturbed context (earlier ++ [r]) (alone ++ [r]) →
        set.evaluate r context = .ok w) ∧
      (d.required.head? = some r → set.Undisturbed context (earlier ++ [r]) (alone ++ [r])) ∧
      (set.WritersLinked context (earlier ++ [r]) (alone ++ [r]) →
        set.Undisturbed context (earlier ++ [r]) (alone ++ [r])) := by
  have hc := set.consistent
  obtain ⟨order, hwalk⟩ := Walk.exists_of_mem hc (mem_ids_of_find? hd)
  obtain ⟨d', below, hd', hbelow, rfl⟩ := hwalk.singleton
  cases hd.symm.trans hd'
  have hrbelow : r ∈ below := (hbelow.covers r hr).resolve_right List.not_mem_nil
  obtain ⟨earlier, later, rfl⟩ := List.append_of_mem hrbelow
  obtain ⟨dr, hdr⟩ := hbelow.found r hrbelow
  obtain ⟨own, hown⟩ := Walk.exists_of_mem hc (mem_ids_of_find? hdr)
  obtain ⟨-, alone, -, -, rfl⟩ := hown.singleton
  -- the run goes through the decisions before `r`, through `r`, and through those after it
  rw [evaluate_eq hd hbelow, bind_eq_ok_iff] at hv
  obtain ⟨last, hlast, hv⟩ := hv
  rw [List.foldlM_append, bind_eq_ok_iff] at hlast
  obtain ⟨merged, hmerged, hlast⟩ := hlast
  rw [List.foldlM_cons, bind_eq_ok_iff] at hlast
  obtain ⟨next, hnext, hlater⟩ := hlast
  obtain ⟨dr', w, hdr', hw, rfl⟩ := mergeNext_eq_ok_iff.mp hnext
  cases hdr.symm.trans hdr'
  have hsplit : earlier ++ r :: later = (earlier ++ [r]) ++ later := by simp
  have hnodup := (hbelow.nodup hc).1
  have hready := hbelow.ready hc.distinct
  rw [hsplit] at hready
  have hready := (ready_append.mp hready).1
  have hrunnodup : (earlier ++ [r]).Nodup := by
    rw [hsplit] at hnodup
    exact (List.nodup_append.mp hnodup).1
  have hsub : ∀ x ∈ alone ++ [r], x ∈ earlier ++ [r] := by
    intro x hx
    obtain ⟨y, hy, hreach⟩ := hown.reachable x hx
    obtain rfl := List.mem_singleton.mp hy
    exact mem_of_reflTransGen hready (by simp) hreach
  refine ⟨earlier, later, alone, dr, merged, w, hwalk, hown, hdr, hmerged, hw,
    bind_eq_ok_iff.mpr ⟨last, hlater, hv⟩, ?_, ?_, ?_⟩
  · exact evaluate_eq_of_undisturbed hdr hrunnodup hown hsub hmerged hw
  · intro hfirst
    obtain ⟨rest, hrequired⟩ := List.head?_eq_some_iff.mp hfirst
    rw [hrequired] at hbelow
    rw [Walk.eq_of_first hnodup hbelow hown]
    exact undisturbed_self (hown.nodup hc).1
  · exact undisturbed_of_writersLinked hc hready hrunnodup (hown.ready hc.distinct)
      (hown.nodup hc).1 hsub

/-- A table with one output. -/
def single (output : String) (named : isOutputName output = true) (value : Expr) : Table where
  hitPolicy := .first
  inputs := []
  outputs := [output]
  rules := [⟨[], [value]⟩]
  outputs_ne := by simp
  outputs_named := by simpa using named
  rules_fit := by simp [Rule.Fits]

/-- Two decisions that require a discount and a price, in either order. The price is no requirement
of the discount nor the other way round, but it looks up the rate. -/
def offers : DecisionSet where
  decisions := [⟨"discount", single "rate" (by decide) (.name "base"), []⟩,
    ⟨"offer", single "total" (by decide) (.name "amount"), ["discount", "price"]⟩,
    ⟨"price", single "amount" (by decide) (.name "rate"), []⟩,
    ⟨"quote", single "total" (by decide) (.name "amount"), ["price", "discount"]⟩]
  callLimit := 1
  checked := by
    rw [check, checkAcyclic, sortedIds_of_pairwise (by decide)]
    rfl

theorem walk_offer : Walk offers.decisions [] ["offer"] (["discount", "price"] ++ ["offer"]) := by
  have hrequired : Walk offers.decisions [] ["discount", "price"]
      ([] ++ "discount" :: ([] ++ "price" :: [])) :=
    .enter (by simp) rfl .nil (.enter (by simp) rfl .nil .nil)
  exact .enter (by simp) rfl hrequired .nil

theorem walk_quote : Walk offers.decisions [] ["quote"] (["price", "discount"] ++ ["quote"]) := by
  have hrequired : Walk offers.decisions [] ["price", "discount"]
      ([] ++ "price" :: ([] ++ "discount" :: [])) :=
    .enter (by simp) rfl .nil (.enter (by simp) rfl .nil .nil)
  exact .enter (by simp) rfl hrequired .nil

/-- In the one order the price sees the rate, in the other one and by itself it does not. -/
theorem price_sees_discount :
    let context : Context := [("base", .ofNat 5)]
    Walk offers.decisions [] ["offer"] (["discount", "price"] ++ ["offer"]) ∧
      (∃ d merged, offers.get? "price" = some d ∧
        ["discount"].foldlM offers.mergeNext context = .ok merged ∧
        d.evaluateTable offers.callLimit merged = .ok (.context [("amount", .ofNat 5)])) ∧
      offers.evaluate "price" context = .ok (.context [("amount", .absent)]) ∧
      offers.evaluate "offer" context = .ok (.context [("total", .ofNat 5)]) ∧
      offers.evaluate "quote" context = .ok (.context [("total", .absent)]) := by
  refine ⟨walk_offer, ⟨_, _, rfl, rfl, rfl⟩, rfl, rfl, rfl⟩

/-- The price writes nothing that the discount looks up. -/
theorem undisturbed_discount :
    offers.Undisturbed [("base", .ofNat 5)] (["price"] ++ ["discount"]) ([] ++ ["discount"]) := by
  intro before id after before' after' d merged n hran halone hfind hmerged hn
  obtain ⟨rfl, rfl, rfl⟩ : before' = [] ∧ id = "discount" ∧ after' = [] := by
    cases before' <;> simp_all
  obtain rfl : ["price"] = before := eq_of_nodup_split (by decide) hran
  cases hfind
  have hbound : merged = [("amount", .absent), ("base", .ofNat 5)] :=
    (Except.ok.inj hmerged).symm
  have hbase : n = "base" := by
    induction hn with
    | own hmem => exact List.mem_singleton.mp hmem
    | called _ hget hf _ ih =>
      rw [ih, hbound] at hget
      cases hget
      exact absurd hf List.not_mem_nil
  rw [hbase]
  rfl

theorem discount_keeps_its_result :
    let context : Context := [("base", .ofNat 5)]
    (∃ v, offers.evaluate "quote" context = .ok v) ∧
      (["price"].foldlM offers.mergeNext context = .ok [("amount", .absent), ("base", .ofNat 5)]) ∧
      offers.evaluate "discount" context = .ok (.context [("rate", .ofNat 5)]) := by
  intro context
  have hquote : offers.evaluate "quote" context = .ok (.context [("total", .absent)]) := by rfl
  have hprice : ["price"].foldlM offers.mergeNext context =
      .ok [("amount", .absent), ("base", .ofNat 5)] := by rfl
  obtain ⟨earlier, later, alone, dr, merged, w, hwalk, hown, hdr, hmerged, hw, -, hsame, -⟩ :=
    required_result_eq_evaluate offers "quote" context _ _ rfl hquote "discount" (by simp)
  have hsplit : ["price"] ++ "discount" :: [] = earlier ++ "discount" :: later :=
    List.append_cancel_right (walk_quote.unique hwalk)
  obtain rfl : ["price"] = earlier := eq_of_nodup_split (by decide) hsplit
  have halone : [] ++ ["discount"] = alone ++ ["discount"] :=
    Walk.unique (.enter (by simp) rfl .nil .nil) hown
  obtain rfl := List.append_cancel_right halone
  cases hdr
  cases hprice.symm.trans hmerged
  have hresult : w = .context [("rate", .ofNat 5)] := (Except.ok.inj hw).symm
  rw [← hresult]
  exact ⟨⟨_, hquote⟩, hprice, hsame undisturbed_discount⟩

end DecisionSet
end DecisionModel
