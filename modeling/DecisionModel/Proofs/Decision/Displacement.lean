import DecisionModel.Proofs.Decision.Gathering
import DecisionModel.Table.Evaluation

/-!
# What is displaced when rows are gathered

A name under which only contexts come is gathered name by name, and the first value that is no
context begins a list in its place. So what earlier rows had in their contexts is displaced then,
and it is displaced for good. From there on nothing more is lost, because whatever comes after is
put into the list, contexts included.

The rows that are displaced under a path are a beginning of the rows (`keptRows`), and the values of
all other rows are gathered in order. Nothing is lost where every row has contexts, or nothing, on
the way to what it holds.
-/

namespace DecisionModel

namespace Value

/-- The values that stand in a list under a path: the list may be bound along part of the path, and
then its elements are followed along the rest. -/
def gatheredUnder : List String → Value → List Value
  | path, .list items => items.filterMap (·.bound? path)
  | [], _ => []
  | name :: rest, v => (v.lookup? name).elim [] (gatheredUnder rest)

theorem gatheredUnder_list (items : List Value) (path : List String) :
    (list items).gatheredUnder path = items.filterMap (·.bound? path) := by
  cases path <;> rw [gatheredUnder]

theorem gatheredUnder_context (entries : Context) (name : String) (rest : List String) :
    (context entries).gatheredUnder (name :: rest) =
      (Entries.get? entries name).elim [] (gatheredUnder rest) := rfl

end Value

open Value (bound?_nil blocks_eq_false_of_bound? stopsAt_cons gatheredUnder_list
  gatheredUnder_context)

section Lists

variable {α β : Type}

theorem filterMap_dropWhile (f : α → Option β) (p : β → Bool) (xs : List α) :
    (xs.dropWhile fun x => !(f x).any p).filterMap f = (xs.filterMap f).dropWhile (!p ·) := by
  induction xs with
  | nil => rfl
  | cons x xs ih =>
    cases hx : f x with
    | none => simp [hx, ih]
    | some y =>
      cases hp : p y with
      | true => simp [hx, hp]
      | false => simp [hx, hp, ih]

theorem filter_dropWhile (p : α → Bool) (xs : List α) :
    (xs.dropWhile p).filter (!p ·) = xs.filter (!p ·) := by
  induction xs with
  | nil => rfl
  | cons x xs ih =>
    cases hx : p x with
    | true => simp [hx, ih]
    | false => simp [hx]

end Lists

namespace Context

/-- The rows of which the values along a path are kept. At the first place on the way where any row
has something else than a context, the rows before the first such row are lost. -/
def keptRows (rows : List Value) (path : List String) : List Value :=
  match (onTheWay path).find? fun q => rows.any (·.stopsAt q) with
  | none => rows
  | some q => rows.dropWhile fun row => !row.stopsAt q

variable {rows : List Value} {name : String} {path rest : List String}

theorem any_stopsAt_cons (rows : List Value) (name : String) (rest : List String) :
    rows.any (·.stopsAt (name :: rest)) =
      (rows.filterMap (·.lookup? name)).any (·.stopsAt rest) := by
  rw [List.any_filterMap]
  congr 1
  funext row
  rw [stopsAt_cons]
  cases row.lookup? name <;> rfl

theorem dropWhile_stopsAt_cons (rows : List Value) (name : String) (rest : List String) :
    (rows.dropWhile fun row => !row.stopsAt (name :: rest)).filterMap (·.lookup? name) =
      (rows.filterMap (·.lookup? name)).dropWhile fun v => !v.stopsAt rest := by
  simp only [stopsAt_cons]
  exact filterMap_dropWhile _ _ rows

/-- What is lost is lost under the first name of the path, or under the rest of it. -/
theorem keptRows_cons (rows : List Value) (name : String) (hrest : rest ≠ []) :
    (keptRows rows (name :: rest)).filterMap (·.lookup? name) =
      if (rows.filterMap (·.lookup? name)).all Value.isContext then
        keptRows (rows.filterMap (·.lookup? name)) rest
      else (rows.filterMap (·.lookup? name)).dropWhile Value.isContext := by
  have hhead : (rows.filterMap (·.lookup? name)).any (·.stopsAt []) =
      !(rows.filterMap (·.lookup? name)).all Value.isContext := by
    rw [List.not_all_eq_any_not]
    rfl
  have htail : ((fun q => rows.any (·.stopsAt q)) ∘ (name :: ·)) =
      fun q => (rows.filterMap (·.lookup? name)).any (·.stopsAt q) :=
    funext (any_stopsAt_cons rows name)
  rw [keptRows, onTheWay_cons name hrest, List.find?_cons, any_stopsAt_cons, hhead, List.find?_map,
    htail]
  cases hall : (rows.filterMap (·.lookup? name)).all Value.isContext with
  | true =>
    rw [Bool.not_true, if_pos rfl, keptRows]
    cases (onTheWay rest).find? fun q => (rows.filterMap (·.lookup? name)).any (·.stopsAt q) with
    | none => rfl
    | some q => exact dropWhile_stopsAt_cons rows name q
  | false =>
    rw [Bool.not_false, if_neg (by simp)]
    refine (dropWhile_stopsAt_cons rows name []).trans ?_
    simp [Value.stopsAt]

theorem keptRows_nil (path : List String) : keptRows [] path = [] := by
  unfold keptRows
  split <;> rfl

/-- At the end of a path nothing is lost but contexts. -/
theorem filter_gatheredUnder_nil (values : List Value) :
    ((collected values).elim [] (Value.gatheredUnder [])).filter (!·.isContext) =
      values.filter (!·.isContext) := by
  rcases collected_cases values with ⟨rfl, hc⟩ | ⟨-, hall, hc⟩ | ⟨-, hc⟩
  · rfl
  · have hnone : values.filter (!·.isContext) = [] := by simpa using hall
    rw [hc, hnone]
    rfl
  · rw [hc, Option.elim_some, gatheredUnder_list]
    simp only [bound?_nil, List.filterMap_some]
    exact filter_dropWhile Value.isContext values

/-- **What is gathered under a path** are the values of the rows that are kept, in the order of the
rows. Contexts are left out of account, because those that are gathered before a list is begun stand
in no list. -/
theorem filter_gatheredUnder (hrows : ∀ row ∈ rows, row.Sorted) (hpath : path ≠ []) :
    ((Value.context (gatherRows rows)).gatheredUnder path).filter (!·.isContext) =
      ((keptRows rows path).filterMap (·.bound? path)).filter (!·.isContext) := by
  induction path generalizing rows with
  | nil => exact absurd rfl hpath
  | cons name rest ih =>
    have hsorted : ∀ v ∈ rows.filterMap (·.lookup? name), v.Sorted :=
      fun v hv => sorted_of_mem_column hrows hv
    rw [gatheredUnder_context, get?_gatherRows hrows, filterMap_bound?_cons]
    by_cases hrest : rest = []
    · subst hrest
      have hkept : keptRows rows [name] = rows := rfl
      rw [filter_gatheredUnder_nil, hkept]
      simp
    · rw [keptRows_cons rows name hrest]
      generalize rows.filterMap (·.lookup? name) = column at hsorted
      rcases collected_cases column with ⟨rfl, hc⟩ | ⟨-, hall, hc⟩ | ⟨⟨v, hv, hplain⟩, hc⟩
      · rw [hc, keptRows_nil]
        rfl
      · rw [hc, Option.elim_some, if_pos (List.all_eq_true.mpr hall)]
        exact ih hsorted hrest
      · have hnot : ¬column.all Value.isContext = true := fun hall =>
          absurd ((List.all_eq_true.mp hall v hv).symm.trans hplain) nofun
        rw [hc, Option.elim_some, gatheredUnder_list, if_neg hnot]

/-- A row of which the value is lost has after it one that stands in its way, and before it none
that does. -/
theorem mem_keptRows_or {earlier later : List Value} {row : Value}
    (hrows : rows = earlier ++ row :: later) (hrow : row.blocks path = false) :
    row ∈ keptRows rows path ∨ ∃ q, q ≠ [] ∧ q ≠ path ∧ q <+: path ∧
      (∃ other ∈ later, other.stopsAt q = true) ∧ ∀ other ∈ earlier, other.stopsAt q = false := by
  cases hfind : (onTheWay path).find? fun q => rows.any (·.stopsAt q) with
  | none =>
    left
    rw [keptRows, hfind, hrows]
    simp
  | some q =>
    have hq := mem_onTheWay_iff.mp (List.mem_of_find?_eq_some hfind)
    by_cases hearlier : ∃ other ∈ earlier, other.stopsAt q = true
    · left
      obtain ⟨other, hother, hstops⟩ := hearlier
      have hbegun : earlier.dropWhile (fun row => !row.stopsAt q) ≠ [] := by
        intro hnil
        simpa [hstops] using List.dropWhile_eq_nil_iff.mp hnil other hother
      rw [keptRows, hfind, hrows]
      show row ∈ (earlier ++ row :: later).dropWhile fun row => !row.stopsAt q
      rw [List.dropWhile_append]
      simp [hbegun]
    · right
      have hnone : ∀ other ∈ earlier, other.stopsAt q = false := by simpa using hearlier
      refine ⟨q, hq.1, hq.2.1, hq.2.2, ?_, hnone⟩
      have hany := List.find?_some hfind
      obtain ⟨other, hother, hstops⟩ := List.any_eq_true.mp hany
      rw [hrows, List.mem_append, List.mem_cons] at hother
      rcases hother with hother | rfl | hother
      · exact absurd ((hnone other hother).symm.trans hstops) nofun
      · have hblocks := Value.blocks_iff.mpr ⟨q, hq.1, hq.2.1, hq.2.2, hstops⟩
        exact absurd (hrow.symm.trans hblocks) nofun
      · exact ⟨other, hother, hstops⟩

/-- **Rows are gathered without loss as long as nothing takes the place of contexts.** Under a path
there are, in the order of the rows, the values of the rows that are kept. A value is not among them
only if a later row has something else than a context on the way to it where no earlier row had. -/
theorem gathered_values_kept (rows : List Value) (hrows : ∀ row ∈ rows, row.Sorted)
    (path : List String) (hpath : path ≠ []) :
    let gathered := (Value.context (gatherRows rows)).gatheredUnder path
    gathered.filter (!·.isContext) =
      ((keptRows rows path).filterMap (·.bound? path)).filter (!·.isContext) ∧
    ∀ earlier row later v, rows = earlier ++ row :: later →
      row.bound? path = some v → v.isContext = false →
      v ∈ gathered ∨ ∃ q, q ≠ [] ∧ q ≠ path ∧ q <+: path ∧
        (∃ other ∈ later, other.stopsAt q = true) ∧
        ∀ other ∈ earlier, other.stopsAt q = false := by
  intro gathered
  have hgathered := filter_gatheredUnder hrows hpath
  refine ⟨hgathered, fun earlier row later v hsplit hbound hplain => ?_⟩
  refine (mem_keptRows_or hsplit (blocks_eq_false_of_bound? hbound)).imp_left fun hkept => ?_
  have hmem : v ∈ ((keptRows rows path).filterMap (·.bound? path)).filter (!·.isContext) :=
    List.mem_filter.mpr ⟨List.mem_filterMap.mpr ⟨row, hkept, hbound⟩, by simp [hplain]⟩
  rw [← hgathered] at hmem
  exact List.mem_of_mem_filter hmem

/-- The first bundle is lost to the plain offer, and the second is kept because it comes after. -/
theorem second_bundle_kept :
    let offer (v : Value) : Value := .context [("offer", v)]
    let bundle (price : Nat) : Value := .context [("price", .ofNat price)]
    let rows := [offer (bundle 1), offer (.ofNat 5), offer (bundle 2), offer .absent]
    let gathered := Value.context (gatherRows rows)
    (∀ row ∈ rows, row.Sorted) ∧
      (gathered.gatheredUnder ["offer"]).filter (!·.isContext) = [.ofNat 5, .absent] ∧
      (gathered.gatheredUnder ["offer", "price"]).filter (!·.isContext) = [.ofNat 2] ∧
      .ofNat 2 ∈ gathered.gatheredUnder ["offer", "price"] := by
  intro offer bundle rows gathered
  have hoffer {v : Value} (hv : v.Sorted) : (offer v).Sorted :=
    .context (List.pairwise_singleton ..) (List.forall_mem_singleton.mpr hv)
  have hbundle (price : Nat) : (offer (bundle price)).Sorted :=
    hoffer (.context (List.pairwise_singleton ..)
      (List.forall_mem_singleton.mpr (.of_not_context rfl)))
  have hrows : ∀ row ∈ rows, row.Sorted := by
    simp only [rows, List.forall_mem_cons]
    exact ⟨hbundle 1, hoffer (.of_not_context rfl), hbundle 2, hoffer (.of_not_context rfl), nofun⟩
  obtain ⟨hunder, hkept⟩ := gathered_values_kept rows hrows ["offer", "price"] nofun
  have hoffers := (gathered_values_kept rows hrows ["offer"] nofun).1
  refine ⟨hrows, hoffers.trans rfl, hunder.trans rfl, ?_⟩
  have hsplit : rows =
      [offer (bundle 1), offer (.ofNat 5)] ++ offer (bundle 2) :: [offer .absent] := rfl
  refine (hkept _ _ _ (.ofNat 2) hsplit rfl rfl).resolve_right ?_
  rintro ⟨q, hne, hne', hprefix, -, hearlier⟩
  have hq : q ∈ onTheWay ["offer", "price"] := mem_onTheWay_iff.mpr ⟨hne, hne', hprefix⟩
  cases List.mem_singleton.mp hq
  exact absurd (hearlier (offer (.ofNat 5)) (by simp)) nofun

end Context

namespace Table

/-- Two offers, of which the first is a bundle that the context describes. -/
def bundleAndPlain : Table where
  hitPolicy := .collect
  inputs := []
  outputs := ["offer"]
  rules := [⟨[], [.name "bundle"]⟩, ⟨[], [.number (.ofNat 5)]⟩]
  outputs_ne := by decide
  outputs_named := by decide
  rules_fit := by decide

/-- Nothing of the bundle is left once the second offer has been gathered. -/
theorem plain_offer_displaces_bundle :
    let s : Scope := .root [("bundle", .context [("price", .ofNat 1)])] 64 []
    let rows : List Value := [
      .context [("offer", .context [("price", .ofNat 1)])], .context [("offer", .ofNat 5)]]
    bundleAndPlain.evaluate s = .ok (.list rows) ∧
      (∃ row ∈ rows, row.bound? ["offer", "price"] = some (.ofNat 1)) ∧
      Context.gatherRows rows = [("offer", .list [.ofNat 5])] ∧
      (Value.context (Context.gatherRows rows)).gatheredUnder ["offer", "price"] = [] :=
  ⟨rfl, ⟨_, List.mem_cons_self, rfl⟩, rfl, rfl⟩

end Table
end DecisionModel
