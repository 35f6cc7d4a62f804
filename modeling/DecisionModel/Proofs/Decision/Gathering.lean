import DecisionModel.Decision.Merge
import DecisionModel.Proofs.Value.Binding
import Mathlib.Data.List.Induction
import Mathlib.Data.List.TakeWhile

/-!
# What gathered rows bind

Rows are gathered entry by entry, and one value of a row meets what the rows before it left under
its name. So what stands under a name in the end comes from the column of that name, the values that
the rows have there: contexts alone are gathered like rows once more, and anything else ends up in a
list (`collected_cases`). By induction on the path the same holds of the column at the end of a
path, as long as no row blocks the path.

Rows of one shape block no path that another of them follows. For them this means that all columns
are kept whole and in step.
-/

namespace DecisionModel

open Value (bound?_cons bound?_nil bound?_singleton bound?_append bound?_of_not_context
  bound?_eq_none_of_blocks blocks_eq_false_of_bound? lookup?_context lookup?_of_not_context
  stopsAt_cons blocks_of_lookup?)

namespace Context

variable {entries gathered : Context} {rows values : List Value} {row v : Value} {name : String}
  {path rest : List String}

/-! ## Row after row -/

theorem gatherRows_concat_context (rows : List Value) (entries : Context) :
    gatherRows (rows ++ [.context entries]) = gather (gatherRows rows) entries := by
  rw [gatherRows, List.foldl_append]
  rfl

theorem gatherRows_concat_of_not_context (h : row.isContext = false) (rows : List Value) :
    gatherRows (rows ++ [row]) = gatherRows rows := by
  rw [gatherRows, List.foldl_append]
  cases row with
  | context entries => cases h
  | _ => rfl

/-- What is gathered under one name where these values come under it one after another. -/
def collected (values : List Value) : Option Value :=
  values.foldl (fun gathered v => some (addValue gathered v)) none

theorem collected_concat (values : List Value) (v : Value) :
    collected (values ++ [v]) = some (addValue (collected values) v) := by
  rw [collected, List.foldl_append]
  rfl

theorem addValue_context (names entries : Context) :
    addValue (some (.context names)) (.context entries) = .context (gather names entries) := by
  rw [addValue]

theorem addValue_none_context (entries : Context) :
    addValue none (.context entries) = .context (gatherRows [.context entries]) := by
  rw [addValue]
  rfl

theorem addValue_list (values : List Value) (v : Value) :
    addValue (some (.list values)) v = .list (values ++ [v]) := by
  cases v <;> simp only [addValue]

theorem addValue_of_not_context {existing : Option Value} (h : v.isContext = false)
    (hexisting : ∀ xs, existing ≠ some (.list xs)) : addValue existing v = .list [v] := by
  rw [addValue]
  · rintro entries rfl
    cases h
  · exact hexisting

theorem gather_eq_absorb (gathered entries : Context) :
    gather gathered entries = Entries.absorb addValue gathered entries := by
  induction entries generalizing gathered with
  | nil => rw [gather, Entries.absorb, List.foldl_nil]
  | cons entry entries ih =>
    rw [gather, ih]
    rfl

/-- **What is gathered under a name comes from what the rows have under it.** -/
theorem get?_gatherRows (hrows : ∀ row ∈ rows, row.Sorted) (name : String) :
    Entries.get? (gatherRows rows) name = collected (rows.filterMap (·.lookup? name)) := by
  induction rows using List.reverseRecOn with
  | nil => rfl
  | append_singleton rows row ih =>
    have hrow := hrows row (by simp)
    have ih := ih fun other hother => hrows other (List.mem_append_left _ hother)
    rw [List.filterMap_append]
    cases hcontext : row.isContext with
    | false =>
      rw [gatherRows_concat_of_not_context hcontext, ih]
      simp [lookup?_of_not_context hcontext]
    | true =>
      obtain ⟨entries, rfl⟩ := Value.isContext_iff.mp hcontext
      rw [gatherRows_concat_context, gather_eq_absorb, Entries.get?_absorb hrow.pairwise, ih]
      cases hget : Entries.get? entries name with
      | none => simp [hget]
      | some v => simp [hget, collected_concat]

/-- Contexts are gathered as the rows of one more context. -/
theorem collected_of_contexts (hne : values ≠ []) (h : ∀ v ∈ values, v.isContext = true) :
    collected values = some (.context (gatherRows values)) := by
  induction values using List.reverseRecOn with
  | nil => exact absurd rfl hne
  | append_singleton values v ih =>
    obtain ⟨entries, rfl⟩ := Value.isContext_iff.mp (h v (by simp))
    rw [collected_concat]
    by_cases hvalues : values = []
    · subst hvalues
      exact congrArg some (addValue_none_context entries)
    · rw [ih hvalues fun v hv => h v (List.mem_append_left _ hv), addValue_context,
        gatherRows_concat_context]

/-- The first value that is no context begins the list, and takes the place of what was there. -/
theorem collected_of_not_context (hv : v ∈ values) (h : v.isContext = false) :
    collected values = some (.list (values.dropWhile Value.isContext)) := by
  induction values using List.reverseRecOn generalizing v with
  | nil => cases hv
  | append_singleton values last ih =>
    rw [collected_concat, List.dropWhile_append]
    by_cases hvalues : values.all Value.isContext = true
    · have hall : ∀ w ∈ values, w.isContext = true := List.all_eq_true.mp hvalues
      have hlast : last.isContext = false := by
        rcases List.mem_append.mp hv with hv | hv
        · exact absurd ((hall v hv).symm.trans h) nofun
        · rwa [← List.mem_singleton.mp hv]
      have hdropped : values.dropWhile Value.isContext = [] := List.dropWhile_eq_nil_iff.mpr hall
      rw [addValue_of_not_context hlast, hdropped]
      · simp [hlast]
      · intro xs hxs
        by_cases hne : values = []
        · subst hne
          cases hxs
        · rw [collected_of_contexts hne hall] at hxs
          cases hxs
    · obtain ⟨w, hw, hw'⟩ : ∃ w ∈ values, w.isContext = false := by simpa using hvalues
      have hdropped : values.dropWhile Value.isContext ≠ [] := fun hnil =>
        hvalues (List.all_eq_true.mpr (List.dropWhile_eq_nil_iff.mp hnil))
      rw [ih hw hw', addValue_list]
      simp [hdropped]

/-- What can come of the values that come under one name. -/
theorem collected_cases (values : List Value) :
    values = [] ∧ collected values = none ∨
    values ≠ [] ∧ (∀ v ∈ values, v.isContext = true) ∧
      collected values = some (.context (gatherRows values)) ∨
    (∃ v ∈ values, v.isContext = false) ∧
      collected values = some (.list (values.dropWhile Value.isContext)) := by
  by_cases hplain : ∃ v ∈ values, v.isContext = false
  · obtain ⟨v, hv, hv'⟩ := hplain
    exact .inr (.inr ⟨⟨v, hv, hv'⟩, collected_of_not_context hv hv'⟩)
  · have hall : ∀ v ∈ values, v.isContext = true := by simpa using hplain
    by_cases hne : values = []
    · subst hne
      exact .inl ⟨rfl, rfl⟩
    · exact .inr (.inl ⟨hne, hall, collected_of_contexts hne hall⟩)

theorem collected_of_no_context (hne : values ≠ []) (h : ∀ v ∈ values, v.isContext = false) :
    collected values = some (.list values) := by
  cases values with
  | nil => exact absurd rfl hne
  | cons v values =>
    have hv := h v List.mem_cons_self
    rw [collected_of_not_context List.mem_cons_self hv, List.dropWhile_cons_of_neg (by simp [hv])]

/-! ## Along a path -/

theorem sorted_of_mem_column (hrows : ∀ row ∈ rows, row.Sorted)
    (hv : v ∈ rows.filterMap (·.lookup? name)) : v.Sorted := by
  obtain ⟨row, hrow, hlookup⟩ := List.mem_filterMap.mp hv
  exact (hrows row hrow).lookup hlookup

theorem filterMap_bound?_cons (rows : List Value) (name : String) (rest : List String) :
    rows.filterMap (·.bound? (name :: rest)) =
      (rows.filterMap (·.lookup? name)).filterMap (·.bound? rest) := by
  rw [List.filterMap_filterMap]
  rfl

/-- **What is gathered along a path that no row blocks** is what would be gathered under a single
name. The induction is on the path: on the way all rows have contexts, and those are gathered like
rows. -/
theorem bound?_gatherRows (hrows : ∀ row ∈ rows, row.Sorted)
    (hfree : ∀ row ∈ rows, row.blocks path = false) (hpath : path ≠ []) :
    (Value.context (gatherRows rows)).bound? path = collected (rows.filterMap (·.bound? path)) := by
  induction path generalizing rows with
  | nil => exact absurd rfl hpath
  | cons name rest ih =>
    have hname := get?_gatherRows hrows name
    by_cases hrest : rest = []
    · subst hrest
      simpa using hname
    · have hcolumn : ∀ v ∈ rows.filterMap (·.lookup? name),
          v.isContext = true ∧ v.blocks rest = false := by
        intro v hv
        obtain ⟨row, hrow, hlookup⟩ := List.mem_filterMap.mp hv
        simpa [blocks_of_lookup? hlookup hrest] using hfree row hrow
      rw [bound?_cons, lookup?_context, hname, filterMap_bound?_cons]
      by_cases hnone : rows.filterMap (·.lookup? name) = []
      · rw [hnone]
        rfl
      · rw [collected_of_contexts hnone fun v hv => (hcolumn v hv).1, Option.bind_some]
        exact ih (fun v hv => sorted_of_mem_column hrows hv) (fun v hv => (hcolumn v hv).2) hrest

theorem pairwise_gatherRows (rows : List Value) :
    (Entries.names (gatherRows rows)).Pairwise (· < ·) := by
  induction rows using List.reverseRecOn with
  | nil => exact .nil
  | append_singleton rows row ih =>
    cases hcontext : row.isContext with
    | false =>
      rw [gatherRows_concat_of_not_context hcontext]
      exact ih
    | true =>
      obtain ⟨entries, rfl⟩ := Value.isContext_iff.mp hcontext
      rw [gatherRows_concat_context, gather_eq_absorb]
      exact Entries.pairwise_absorb ih entries

theorem sorted_gatherRows (hrows : ∀ row ∈ rows, row.Sorted) :
    (Value.context (gatherRows rows)).Sorted := by
  intro path
  induction path generalizing rows with
  | nil =>
    intro entries hbound
    cases hbound
    exact pairwise_gatherRows rows
  | cons name rest ih =>
    intro entries hbound
    rw [bound?_cons, lookup?_context, get?_gatherRows hrows] at hbound
    generalize hcolumn : rows.filterMap (·.lookup? name) = column at hbound
    have hsorted : ∀ v ∈ column, v.Sorted := fun v hv => sorted_of_mem_column hrows (hcolumn ▸ hv)
    rcases collected_cases column with ⟨-, hc⟩ | ⟨-, -, hc⟩ | ⟨-, hc⟩
    · rw [hc] at hbound
      cases hbound
    · rw [hc, Option.bind_some] at hbound
      exact ih hsorted entries hbound
    · rw [hc, Option.bind_some] at hbound
      cases rest with
      | nil => cases hbound
      | cons next rest => cases hbound

/-- The column at the end of a path where every row has a value that is no context. -/
theorem exists_column (hstops : ∀ row ∈ rows, row.stopsAt path = true) :
    ∃ column, rows.map (·.bound? path) = column.map some ∧
      rows.filterMap (·.bound? path) = column ∧ ∀ v ∈ column, v.isContext = false := by
  induction rows with
  | nil => exact ⟨[], rfl, rfl, nofun⟩
  | cons row rows ih =>
    obtain ⟨hrow, hrows⟩ := List.forall_mem_cons.mp hstops
    obtain ⟨v, hv, hplain⟩ := Value.stopsAt_iff.mp hrow
    obtain ⟨column, hmap, hfilter, hcolumn⟩ := ih hrows
    refine ⟨v :: column, ?_, ?_, List.forall_mem_cons.mpr ⟨hplain, hcolumn⟩⟩
    · rw [List.map_cons, hv, hmap, List.map_cons]
    · rw [← hfilter]
      simp [hv]

/-- Where every row has a value that is no context, the values stand in a list, one for each row. -/
theorem bound?_gatherRows_of_stopsAt (hrows : ∀ row ∈ rows, row.Sorted) (hne : rows ≠ [])
    (hstops : ∀ row ∈ rows, row.stopsAt path = true) (hpath : path ≠ []) :
    ∃ column, (Value.context (gatherRows rows)).bound? path = some (.list column) ∧
      rows.map (·.bound? path) = column.map some := by
  have hfree : ∀ row ∈ rows, row.blocks path = false := by
    intro row hrow
    obtain ⟨v, hv, -⟩ := Value.stopsAt_iff.mp (hstops row hrow)
    exact blocks_eq_false_of_bound? hv
  obtain ⟨column, hmap, hfilter, hplain⟩ := exists_column hstops
  have hsome : column ≠ [] := by
    rintro rfl
    exact hne (List.map_eq_nil_iff.mp hmap)
  refine ⟨column, ?_, hmap⟩
  rw [bound?_gatherRows hrows hfree hpath, hfilter, collected_of_no_context hsome hplain]

/-! ## Rows of one shape -/

theorem sameShape_gatherRows (hne : rows ≠ []) (hcontexts : ∀ row ∈ rows, row.isContext = true)
    (hrows : ∀ row ∈ rows, row.Sorted)
    (hshape : ∀ row ∈ rows, ∀ other ∈ rows, row.SameShape other) (hrow : row ∈ rows) :
    (Value.context (gatherRows rows)).SameShape row := by
  intro path
  by_cases hpath : path = []
  · subst hpath
    rw [bound?_nil, bound?_nil, Option.map_some, Option.map_some, hcontexts row hrow]
    rfl
  cases hblocks : row.blocks path with
  | true =>
    obtain ⟨q, hq, hne', ⟨rest, rfl⟩, hstops⟩ := Value.blocks_iff.mp hblocks
    have hall : ∀ other ∈ rows, other.stopsAt q = true := fun other hother => by
      rw [← (hshape row hrow other hother).stopsAt_eq, hstops]
    obtain ⟨column, hcolumn, -⟩ := bound?_gatherRows_of_stopsAt hrows hne hall hq
    have hrest : rest ≠ [] := fun hrest => hne' (by rw [hrest, List.append_nil])
    rw [bound?_eq_none_of_blocks hblocks, bound?_append, hcolumn, Option.bind_some,
      bound?_of_not_context rfl hrest]
  | false =>
    have hfree : ∀ other ∈ rows, other.blocks path = false := fun other hother => by
      rw [← (hshape row hrow other hother).blocks_eq, hblocks]
    have hsame : ∀ w ∈ rows.filterMap (·.bound? path),
        (row.bound? path).map Value.isContext = some w.isContext := by
      intro w hw
      obtain ⟨other, hother, hw⟩ := List.mem_filterMap.mp hw
      rw [hshape row hrow other hother path, hw, Option.map_some]
    rw [bound?_gatherRows hrows hfree hpath]
    rcases collected_cases (rows.filterMap (·.bound? path)) with
      ⟨hnil, hc⟩ | ⟨hsome, hall, hc⟩ | ⟨⟨w, hw, hplain⟩, hc⟩
    · rw [hc, List.filterMap_eq_nil_iff.mp hnil row hrow]
    · obtain ⟨w, hw⟩ := List.exists_mem_of_ne_nil _ hsome
      rw [hc, hsame w hw, hall w hw]
      rfl
    · rw [hc, hsame w hw, hplain]
      rfl

/-- **Rows of one shape keep it, and their columns stay aligned.** Along every path that leads to
values which are no contexts, the values of all rows are found in the order of the rows, one for
each row, whatever they are. -/
theorem aligned_rows (rows : List Value) (hne : rows ≠ [])
    (hcontexts : ∀ row ∈ rows, row.isContext = true) (hrows : ∀ row ∈ rows, row.Sorted)
    (hshape : ∀ row ∈ rows, ∀ other ∈ rows, row.SameShape other) :
    let gathered := Value.context (gatherRows rows)
    (∀ row ∈ rows, gathered.SameShape row) ∧
    (∀ path, (∃ row ∈ rows, row.stopsAt path = true) → ∃ column,
      gathered.bound? path = some (.list column) ∧
      rows.map (·.bound? path) = column.map some) ∧
    gathered.Sorted := by
  intro gathered
  refine ⟨fun row hrow => sameShape_gatherRows hne hcontexts hrows hshape hrow, ?_,
    sorted_gatherRows hrows⟩
  rintro path ⟨row, hrow, hstops⟩
  have hpath : path ≠ [] := by
    rintro rfl
    simp [Value.stopsAt, hcontexts row hrow] at hstops
  refine bound?_gatherRows_of_stopsAt hrows hne (fun other hother => ?_) hpath
  rw [← (hshape row hrow other hother).stopsAt_eq, hstops]

/-- A message and, nested, a property, which is a list in one row. The message of the other row is
absent. -/
theorem messages_aligned :
    let row (message property : Value) : Value :=
      .context [("message", message), ("output", .context [("property", property)])]
    let rows := [row (.string "m1") (.list [.ofNat 1]), row .absent (.ofNat 2)]
    let gathered := Value.context (gatherRows rows)
    gathered.SameShape (row (.string "m1") (.list [.ofNat 1])) ∧
      gathered.bound? ["message"] = some (.list [.string "m1", .absent]) ∧
      gathered.bound? ["output", "property"] = some (.list [.list [.ofNat 1], .ofNat 2]) := by
  intro row rows gathered
  have hrows : ∀ r ∈ rows, ∃ message property,
      r = row message property ∧ message.isContext = false ∧ property.isContext = false :=
    List.forall_mem_cons.mpr
      ⟨⟨_, _, rfl, rfl, rfl⟩, List.forall_mem_singleton.mpr ⟨_, _, rfl, rfl, rfl⟩⟩
  have hcontext : ∀ r ∈ rows, r.isContext = true := by
    intro r hr
    obtain ⟨message, property, rfl, -, -⟩ := hrows r hr
    rfl
  have hsorted : ∀ r ∈ rows, r.Sorted := by
    intro r hr
    obtain ⟨message, property, rfl, hmessage, hproperty⟩ := hrows r hr
    have hnames : ["message", "output"].Pairwise (· < ·) := by decide
    refine .context hnames (List.forall_mem_cons.mpr ⟨.of_not_context hmessage, ?_⟩)
    refine List.forall_mem_singleton.mpr (.context (List.pairwise_singleton ..) ?_)
    exact List.forall_mem_singleton.mpr (.of_not_context hproperty)
  have hshape : ∀ r ∈ rows, ∀ other ∈ rows, r.SameShape other := by
    intro r hr other hother
    obtain ⟨message, property, rfl, hm, hp⟩ := hrows r hr
    obtain ⟨message', property', rfl, hm', hp'⟩ := hrows other hother
    refine .context (.cons ⟨rfl, .of_not_context hm hm'⟩ (.cons ⟨rfl, .context ?_⟩ .nil))
    exact .cons ⟨rfl, .of_not_context hp hp'⟩ .nil
  obtain ⟨hkept, hcolumns, -⟩ := aligned_rows rows nofun hcontext hsorted hshape
  have hcolumn (path : List String) (first second : Value)
      (hstops : ∃ r ∈ rows, r.stopsAt path = true)
      (hvalues : rows.map (·.bound? path) = [some first, some second]) :
      gathered.bound? path = some (.list [first, second]) := by
    obtain ⟨column, hcolumn, halign⟩ := hcolumns path hstops
    have : column = [first, second] := by
      apply List.map_injective_iff.mpr fun _ _ => Option.some.inj
      rw [← halign, hvalues]
      rfl
    rw [hcolumn, this]
  refine ⟨hkept _ List.mem_cons_self, ?_, ?_⟩
  · exact hcolumn ["message"] _ _ ⟨_, List.mem_cons_self, rfl⟩ rfl
  · exact hcolumn ["output", "property"] _ _ ⟨_, List.mem_cons_self, rfl⟩ rfl

end Context
end DecisionModel
