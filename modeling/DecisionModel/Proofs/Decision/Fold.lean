import DecisionModel.Decision.Evaluation
import DecisionModel.Proofs.Bind
import DecisionModel.Proofs.Decision.Walk

/-!
# Evaluation as a fold

The recursion that evaluates a decision threads a context and the decisions merged so far through
every branch of the requirement graph. Here it is shown to do no more than this: go through the
finishing order of the depth-first walk, evaluate the table of each decision in the context so far,
merge its result, and stop at the first error. The bound on the recursion is never what stops it,
for a depth of the requirements is smaller than the set.
-/

namespace DecisionModel
namespace DecisionSet

open Decision

/-- Evaluates the table of a decision and merges its result into the context. -/
def mergeNext (set : DecisionSet) (context : Context) (id : String) :
    Except DecisionError Context := do
  let d ← set.find id
  let result ← d.evaluateTable set.callLimit context
  return context.mergeResult result

/-- One round of the recursion: a required decision is evaluated after what it requires itself,
unless it has been merged already. -/
def satisfy (set : DecisionSet) (steps : Nat) (progress : Progress) (id : String) :
    Except DecisionError Progress := do
  if progress.merged.contains id then return progress
  else
    let required ← set.find id
    let (result, inner) ← set.evaluateFrom steps required progress
    return ⟨inner.context.mergeResult result, id :: inner.merged⟩

variable {set : DecisionSet} {d : Decision} {id : String} {context : Context}

theorem evaluateFrom_succ (set : DecisionSet) (steps : Nat) (d : Decision) (progress : Progress) :
    set.evaluateFrom (steps + 1) d progress = (do
      let progress ← d.required.foldlM (set.satisfy steps) progress
      let result ← d.evaluateTable set.callLimit progress.context
      return (result, progress)) := rfl

theorem find_eq_ok (h : find? set.decisions id = some d) : set.find id = .ok d := by
  simp [find, get?, h]

theorem satisfy_of_mem {steps : Nat} {done : List String} (h : id ∈ done) :
    set.satisfy steps ⟨context, done⟩ id = .ok ⟨context, done⟩ := by
  simp [satisfy, h]

/-- A required decision that is not there yet: what is below it is merged, and then its own
result. -/
theorem satisfy_of_not_mem {steps : Nat} {done : List String} (h : id ∉ done)
    (hfind : find? set.decisions id = some d) :
    set.satisfy (steps + 1) ⟨context, done⟩ id = (do
      let inner ← d.required.foldlM (set.satisfy steps) ⟨context, done⟩
      let merged ← set.mergeNext inner.context id
      return ⟨merged, id :: inner.merged⟩) := by
  simp only [satisfy, List.contains_iff_mem, h, if_false, find_eq_ok hfind, ok_bind,
    evaluateFrom_succ, bind_assoc, pure_bind, mergeNext]

/-- Satisfying requirements merges, one after another, the decisions that the walk finishes. -/
theorem foldlM_satisfy {depth : String → Nat} (hdepth : IsDepth set.decisions depth)
    {done ids order : List String} (hwalk : Walk set.decisions done ids order) {steps : Nat}
    (hsteps : ∀ id ∈ ids, depth id < steps) :
    ids.foldlM (set.satisfy steps) ⟨context, done⟩ = (do
      let merged ← order.foldlM set.mergeNext context
      return ⟨merged, order.reverse ++ done⟩) := by
  induction hwalk generalizing context steps with
  | nil => rfl
  | skip hmem _ ih =>
    rw [List.foldlM_cons, satisfy_of_mem hmem, ok_bind]
    exact ih fun x hx => hsteps x (List.mem_cons_of_mem _ hx)
  | @enter done ids below rest id d hnot hfind _ _ ihbelow ihrest =>
    obtain ⟨hid, hids⟩ := List.forall_mem_cons.mp hsteps
    cases steps with
    | zero => exact absurd hid (Nat.not_lt_zero _)
    | succ steps =>
      have hbelow : ∀ b ∈ d.required, depth b < steps := by
        intro b hb
        have := hdepth.lt_of_requires (requires_of_find? hfind hb)
        omega
      rw [List.foldlM_cons, satisfy_of_not_mem hnot hfind, ihbelow hbelow]
      simp only [bind_assoc, pure_bind, List.foldlM_append, List.foldlM_cons, ihrest hids,
        List.reverse_append, List.reverse_cons, List.append_assoc, List.cons_append,
        List.nil_append]

/-- A decision, where the walk finishes `below` before it: the recursion evaluates it in the context
into which these have been merged, and has merged nothing else. -/
theorem evaluateFrom_eq {depth : String → Nat} (hdepth : IsDepth set.decisions depth)
    (hfind : find? set.decisions id = some d) {below : List String}
    (hwalk : Walk set.decisions [] d.required below) {steps : Nat} (hsteps : depth id < steps) :
    set.evaluateFrom steps d ⟨context, []⟩ = (do
      let merged ← below.foldlM set.mergeNext context
      let result ← d.evaluateTable set.callLimit merged
      return (result, ⟨merged, below.reverse⟩)) := by
  cases steps with
  | zero => exact absurd hsteps (Nat.not_lt_zero _)
  | succ steps =>
    have hbelow : ∀ b ∈ d.required, depth b < steps := by
      intro b hb
      have := hdepth.lt_of_requires (requires_of_find? hfind hb)
      omega
    rw [evaluateFrom_succ, foldlM_satisfy hdepth hwalk hbelow]
    simp only [bind_assoc, pure_bind, List.append_nil]

theorem evaluate_eq (hfind : find? set.decisions id = some d) {below : List String}
    (hwalk : Walk set.decisions [] d.required below) :
    set.evaluate id context = (do
      let merged ← below.foldlM set.mergeNext context
      d.evaluateTable set.callLimit merged) := by
  obtain ⟨depth, hdepth⟩ := set.consistent.exists_depth
  have hlt : depth id < set.size := hdepth.lt_length (mem_ids_of_find? hfind)
  rw [evaluate, find_eq_ok hfind, ok_bind, evaluateFrom_eq hdepth hfind hwalk hlt]
  simp only [bind_assoc, pure_bind, bind_pure]

/-! ## Results -/

theorem evaluateTable_eq_ok_iff {limit : Nat} {v : Value} :
    d.evaluateTable limit context = .ok v ↔
      d.table.evaluate (.root context limit [.decision d.id]) = .ok v := by
  unfold Decision.evaluateTable
  cases d.table.evaluate (.root context limit [.decision d.id]) with
  | ok result => simp
  | error fault => simp

theorem mergeNext_eq_ok_iff {merged : Context} :
    set.mergeNext context id = .ok merged ↔ ∃ d v, set.get? id = some d ∧
      d.evaluateTable set.callLimit context = .ok v ∧ context.mergeResult v = merged := by
  unfold mergeNext find
  cases set.get? id with
  | none => simp
  | some d => simp [bind_eq_ok_iff]

/-! ## Errors -/

theorem evaluateTable_eq_error_iff {limit : Nat} {e : DecisionError} :
    d.evaluateTable limit context = .error e ↔
      ∃ fault, d.table.evaluate (.root context limit [.decision d.id]) = .error fault ∧
        e = .ofTable d.id fault := by
  unfold Decision.evaluateTable
  cases d.table.evaluate (.root context limit [.decision d.id]) with
  | ok result => simp
  | error fault => simp [eq_comm]

theorem mergeNext_eq_error_iff (hfind : find? set.decisions id = some d) {e : DecisionError} :
    set.mergeNext context id = .error e ↔ d.evaluateTable set.callLimit context = .error e := by
  simp [mergeNext, find_eq_ok hfind, bind_eq_error_iff]

/-- Merging stops where the table of a decision has an error, after all those before it have given
their results. -/
theorem foldlM_mergeNext_eq_error_iff {order : List String} {e : DecisionError}
    (hfound : ∀ x ∈ order, ∃ d, find? set.decisions x = some d) :
    order.foldlM set.mergeNext context = .error e ↔
      ∃ earlier x later d merged, order = earlier ++ x :: later ∧
        find? set.decisions x = some d ∧ earlier.foldlM set.mergeNext context = .ok merged ∧
        d.evaluateTable set.callLimit merged = .error e := by
  induction order generalizing context with
  | nil => simp
  | cons id order ih =>
    obtain ⟨⟨d, hfind⟩, hfound⟩ := List.forall_mem_cons.mp hfound
    rw [List.foldlM_cons, bind_eq_error_iff, mergeNext_eq_error_iff hfind]
    constructor
    · rintro (he | ⟨next, hnext, he⟩)
      · exact ⟨[], id, order, d, context, rfl, hfind, rfl, he⟩
      · obtain ⟨earlier, x, later, d', merged, rfl, hx, hmerged, he⟩ := (ih hfound).mp he
        refine ⟨id :: earlier, x, later, d', merged, rfl, hx, ?_, he⟩
        rw [List.foldlM_cons, hnext, ok_bind, hmerged]
    · rintro ⟨earlier, x, later, d', merged, hsplit, hx, hmerged, he⟩
      cases earlier with
      | nil =>
        cases hsplit
        cases hmerged
        rw [hfind] at hx
        cases hx
        exact Or.inl he
      | cons y earlier =>
        cases hsplit
        rw [List.foldlM_cons] at hmerged
        obtain ⟨next, hnext, hmerged⟩ := bind_eq_ok_iff.mp hmerged
        exact Or.inr ⟨next, hnext,
          (ih hfound).mpr ⟨earlier, x, later, d', merged, rfl, hx, hmerged, he⟩⟩

/-- A decision has the error of the first table that has one, in the order in which a walk finishes
the decisions. -/
theorem evaluate_eq_error_iff {order : List String} (hwalk : Walk set.decisions [] [id] order)
    {e : DecisionError} :
    set.evaluate id context = .error e ↔
      ∃ earlier x later d merged, order = earlier ++ x :: later ∧
        find? set.decisions x = some d ∧ earlier.foldlM set.mergeNext context = .ok merged ∧
        d.evaluateTable set.callLimit merged = .error e := by
  have hfound := hwalk.found
  obtain ⟨d, below, hfind, hbelow, rfl⟩ := hwalk.singleton
  have hfold : set.evaluate id context = .error e ↔
      (below ++ [id]).foldlM set.mergeNext context = .error e := by
    rw [evaluate_eq hfind hbelow, List.foldlM_append, bind_eq_error_iff, bind_eq_error_iff]
    simp only [List.foldlM_cons, List.foldlM_nil, bind_pure, mergeNext_eq_error_iff hfind]
  rw [hfold, foldlM_mergeNext_eq_error_iff hfound]

theorem evaluate_ne_unknownDecision {order : List String}
    (hwalk : Walk set.decisions [] [id] order) (missing : String) :
    set.evaluate id context ≠ .error (.unknownDecision missing) := by
  intro h
  obtain ⟨_, _, _, _, _, _, _, _, he⟩ := (evaluate_eq_error_iff hwalk).mp h
  obtain ⟨fault, -, hfault⟩ := evaluateTable_eq_error_iff.mp he
  cases fault <;> cases hfault

/-! ## The fold -/

/-- **Evaluating a decision is a fold over the finishing order of the walk.** The order ends with
the decision itself and is a schedule of what it requires; the decisions before it are evaluated and
merged one after another, from the given context on, and then its own table gives the result. With
any bound that is no smaller than the set the recursion does exactly this, and what it has merged in
the end is the order without its last decision. -/
theorem evaluate_eq_fold_of_walk (set : DecisionSet) (id : String) (context : Context)
    (hid : id ∈ set.ids) :
    ∃ below d, set.get? id = some d ∧
      Walk set.decisions [] [id] (below ++ [id]) ∧
      (∀ order, Walk set.decisions [] [id] order → order = below ++ [id]) ∧
      Schedule set.decisions id (below ++ [id]) ∧
      set.evaluate id context = (do
        let merged ← below.foldlM set.mergeNext context
        d.evaluateTable set.callLimit merged) ∧
      (∀ steps, set.size ≤ steps → set.evaluateFrom steps d ⟨context, []⟩ = (do
        let merged ← below.foldlM set.mergeNext context
        let result ← d.evaluateTable set.callLimit merged
        return (result, ⟨merged, below.reverse⟩))) ∧
      ∀ missing, set.evaluate id context ≠ .error (.unknownDecision missing) := by
  have hc := set.consistent
  have hmem : id ∈ set.decisions.map (·.id) := List.mem_mergeSort.mp hid
  obtain ⟨depth, hdepth⟩ := hc.exists_depth
  obtain ⟨order, hwalk⟩ := Walk.exists_of_mem hc hmem
  obtain ⟨d, below, hfind, hbelow, rfl⟩ := hwalk.singleton
  have hsteps : ∀ steps, set.size ≤ steps → set.evaluateFrom steps d ⟨context, []⟩ = (do
      let merged ← below.foldlM set.mergeNext context
      let result ← d.evaluateTable set.callLimit merged
      return (result, ⟨merged, below.reverse⟩)) := fun steps hle =>
    evaluateFrom_eq hdepth hfind hbelow (Nat.lt_of_lt_of_le (hdepth.lt_length hmem) hle)
  have hfold : set.evaluate id context = (do
      let merged ← below.foldlM set.mergeNext context
      d.evaluateTable set.callLimit merged) := evaluate_eq hfind hbelow
  exact ⟨below, d, hfind, hwalk, fun _ h => h.unique hwalk, hwalk.schedule hc, hfold, hsteps,
    evaluate_ne_unknownDecision hwalk⟩

/-- A decision that requires another one twice, and one that two decisions require. Every table adds
what it finds under the name to the list under that name, so that each merge would show. -/
def diamond : DecisionSet :=
  let table : Table := {
    hitPolicy := .collect, inputs := [], outputs := ["seen"]
    rules := [⟨[], [.expressions [.name "seen"]]⟩]
    outputs_ne := by decide, outputs_named := by decide, rules_fit := by decide }
  { decisions := [⟨"base", table, []⟩, ⟨"left", table, ["base"]⟩, ⟨"right", table, ["base"]⟩,
      ⟨"top", table, ["left", "right", "left"]⟩]
    callLimit := 1
    checked := by
      rw [check, checkAcyclic, sortedIds_of_pairwise (by decide)]
      rfl }

/-- The base finds the start, the left one the list of it and the right one a list of two. What each
of them found the top one finds in one list, in this order and once. -/
theorem diamond_evaluates_in_order :
    let context : Context := [("seen", .string "start")]
    let byBase : Value := .list [.string "start"]
    let byLeft : Value := .list [.string "start", byBase]
    "top" ∈ diamond.ids ∧ ∃ d, diamond.get? "top" = some d ∧
      diamond.evaluate "top" context = (do
        let merged ← ["base", "left", "right"].foldlM diamond.mergeNext context
        d.evaluateTable diamond.callLimit merged) ∧
      diamond.evaluate "top" context =
        .ok (.list [.context [("seen", .list [.string "start", byBase, byLeft])]]) := by
  intro context byBase byLeft
  have hid : "top" ∈ diamond.ids := List.mem_mergeSort.mpr (by simp [diamond])
  obtain ⟨below, d, hfind, -, hunique, -, hfold, -⟩ :=
    evaluate_eq_fold_of_walk diamond "top" context hid
  have hbase : Walk diamond.decisions [] ["base"] ([] ++ "base" :: []) :=
    .enter List.not_mem_nil rfl .nil .nil
  have hrequired : Walk diamond.decisions [] ["left", "right", "left"]
      (([] ++ "base" :: []) ++ "left" :: ([] ++ "right" :: [])) :=
    .enter List.not_mem_nil rfl hbase
      (.enter (by simp) rfl (.skip (by simp) .nil) (.skip (by simp) .nil))
  have hwalk : Walk diamond.decisions [] ["top"] (["base", "left", "right"] ++ ["top"]) :=
    .enter List.not_mem_nil rfl hrequired .nil
  have hbelow := List.append_cancel_right (hunique _ hwalk)
  rw [← hbelow] at hfold
  refine ⟨hid, d, hfind, hfold, hfold.trans ?_⟩
  have hmerged : ["base", "left", "right"].foldlM diamond.mergeNext context =
      .ok [("seen", .list [.string "start", byBase, byLeft])] := by rfl
  cases hfind
  rw [hmerged]
  rfl

end DecisionSet
end DecisionModel
