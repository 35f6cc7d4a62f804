import DecisionModel.Proofs.Value.Path
import Mathlib.Data.List.Forall2
import Mathlib.Data.String.Basic

/-!
# What is bound along a path

Following a path reads absent where nothing is bound, and so does an entry that is bound to absent.
Laws about merging and gathering have to tell the two apart, and they are stated with `bound?`,
which says that there is nothing. A path is blocked by a value that stands on its way and is no
context.

A context holds every name once, because its entries are sorted. That is not part of the type, so
it is a property of values here (`Sorted`): what is said about entries as they are gone through one
by one can be said about look-ups only if there are no entries that a look-up does not find.
-/

namespace DecisionModel

/-! ## Sorted entries -/

namespace Entries

variable {α : Type} {entries rest : List (String × α)} {name other : String} {value : α}

theorem get?_eq_none_of_forall_lt (h : ∀ n ∈ names rest, name < n) : get? rest name = none := by
  cases hget : get? rest name with
  | none => rfl
  | some v =>
    have hmem : name ∈ names rest := List.mem_map.mpr ⟨_, mem_of_get? hget, rfl⟩
    exact absurd (h name hmem) (lt_irrefl name)

theorem mem_names_insert (h : other ∈ names (insert entries name value)) :
    other = name ∨ other ∈ names entries := by
  induction entries with
  | nil => exact .inl (by simpa [insert, names] using h)
  | cons entry rest ih =>
    obtain ⟨key, old⟩ := entry
    unfold insert at h
    split at h
    · simp only [names, List.map_cons, List.mem_cons] at h ⊢
      exact h.imp_right .inr
    · split at h
      · simpa [names] using h
      · simp only [names, List.map_cons, List.mem_cons] at h ⊢
        rcases h with rfl | h
        · exact .inr (.inl rfl)
        · exact (ih h).imp_right .inr

theorem pairwise_insert (h : (names entries).Pairwise (· < ·)) (name : String) (value : α) :
    (names (insert entries name value)).Pairwise (· < ·) := by
  induction entries with
  | nil => simp [insert, names]
  | cons entry rest ih =>
    obtain ⟨key, old⟩ := entry
    obtain ⟨hkey, hrest⟩ := List.pairwise_cons.mp h
    unfold insert
    split
    · next heq =>
      subst heq
      exact List.pairwise_cons.mpr ⟨hkey, hrest⟩
    · next hne =>
      split
      · next hlt =>
        refine List.pairwise_cons.mpr ⟨fun n hn => ?_, h⟩
        rcases List.mem_cons.mp hn with rfl | hn
        · exact hlt
        · exact hlt.trans (hkey n hn)
      · next hnlt =>
        have hlt : key < name := lt_of_le_of_ne (not_lt.mp hnlt) (Ne.symm hne)
        refine List.pairwise_cons.mpr ⟨fun n hn => ?_, ih hrest⟩
        rcases mem_names_insert hn with rfl | hn
        · exact hlt
        · exact hkey n hn

/-! Merging and gathering put entries into others one by one. They differ in what becomes of a value
that comes under a name where there may be one already. -/

/-- Puts entries into others, where `join` makes one value of what is there and what comes. -/
def absorb (join : Option α → α → α) (base entries : List (String × α)) : List (String × α) :=
  entries.foldl (fun base entry => insert base entry.1 (join (get? base entry.1) entry.2)) base

/-- What is there after it, where `above` comes and `below` was there. -/
def joined (join : Option α → α → α) (below above : Option α) : Option α :=
  match above with
  | none => below
  | some v => some (join below v)

variable {join : Option α → α → α} {base : List (String × α)}

@[simp] theorem joined_none (below : Option α) : joined join below none = below := rfl

@[simp] theorem joined_some (below : Option α) (v : α) :
    joined join below (some v) = some (join below v) := rfl

theorem get?_absorb (h : (names entries).Pairwise (· < ·)) (base : List (String × α))
    (name : String) :
    get? (absorb join base entries) name = joined join (get? base name) (get? entries name) := by
  induction entries generalizing base with
  | nil => rfl
  | cons entry entries ih =>
    obtain ⟨key, value⟩ := entry
    obtain ⟨hkey, hentries⟩ := List.pairwise_cons.mp h
    rw [absorb, List.foldl_cons, ← absorb, ih hentries, get?_insert, get?_cons]
    by_cases hname : name = key
    · subst hname
      rw [if_pos rfl, if_pos rfl, get?_eq_none_of_forall_lt hkey, joined_none, joined_some]
    · rw [if_neg hname, if_neg hname]

theorem pairwise_absorb (h : (names base).Pairwise (· < ·)) (entries : List (String × α)) :
    (names (absorb join base entries)).Pairwise (· < ·) := by
  induction entries generalizing base with
  | nil => exact h
  | cons entry entries ih => exact ih (pairwise_insert h _ _)

end Entries

/-! ## Looking up along a path -/

namespace Value

def isContext : Value → Bool
  | .context _ => true
  | _ => false

/-- What a context binds to a name. -/
def lookup? (v : Value) (name : String) : Option Value :=
  match v with
  | .context entries => Entries.get? entries name
  | _ => none

/-- What is bound along a path. -/
def bound? (v : Value) : List String → Option Value
  | [] => some v
  | name :: rest => (v.lookup? name).bind (·.bound? rest)

/-- Something is bound along the path that is no context, so no path goes on from there. -/
def stopsAt (v : Value) (path : List String) : Bool := (v.bound? path).any (!·.isContext)

/-- In every context along a path the entries are sorted by name, and no name comes twice. -/
def Sorted (v : Value) : Prop :=
  ∀ path entries, v.bound? path = some (.context entries) →
    (Entries.names entries).Pairwise (· < ·)

variable {v w : Value} {entries : Context} {name : String} {path rest : List String}

theorem isContext_iff : v.isContext = true ↔ ∃ entries, v = .context entries := by
  cases v <;> simp [isContext]

@[simp] theorem bound?_nil (v : Value) : v.bound? [] = some v := rfl

theorem bound?_cons (v : Value) (name : String) (rest : List String) :
    v.bound? (name :: rest) = (v.lookup? name).bind (·.bound? rest) := rfl

@[simp] theorem lookup?_context (entries : Context) (name : String) :
    (context entries).lookup? name = Entries.get? entries name := rfl

@[simp] theorem bound?_singleton (v : Value) (name : String) :
    v.bound? [name] = v.lookup? name := by
  cases hv : v.lookup? name with
  | none => rw [bound?_cons, hv, Option.bind_none]
  | some w => rw [bound?_cons, hv, Option.bind_some, bound?_nil]

theorem lookup?_of_not_context (h : v.isContext = false) (name : String) :
    v.lookup? name = none := by
  cases v with
  | context entries => cases h
  | _ => rfl

theorem bound?_of_not_context (h : v.isContext = false) (hpath : path ≠ []) :
    v.bound? path = none := by
  cases path with
  | nil => exact absurd rfl hpath
  | cons name rest => rw [bound?_cons, lookup?_of_not_context h, Option.bind_none]

theorem bound?_append (v : Value) (path rest : List String) :
    v.bound? (path ++ rest) = (v.bound? path).bind (·.bound? rest) := by
  induction path generalizing v with
  | nil => rfl
  | cons name path ih =>
    rw [List.cons_append, bound?_cons, bound?_cons]
    cases v.lookup? name with
    | none => rfl
    | some w => exact ih w

/-- What is read at the end of a path is what is bound there, and absent if nothing is. -/
theorem follow_eq (v : Value) (path : List String) :
    v.follow path = (v.bound? path).getD .absent := by
  induction path generalizing v with
  | nil => rfl
  | cons name rest ih =>
    have hfield : v.field name = (v.lookup? name).getD .absent := by
      cases v <;> rfl
    rw [follow_cons, hfield, bound?_cons]
    cases v.lookup? name with
    | none => rw [Option.getD_none, absent_follow, Option.bind_none, Option.getD_none]
    | some w => rw [Option.getD_some, ih, Option.bind_some]

namespace Sorted

theorem pairwise (h : (context entries).Sorted) : (Entries.names entries).Pairwise (· < ·) :=
  h [] entries rfl

theorem lookup (h : v.Sorted) (hlookup : v.lookup? name = some w) : w.Sorted := by
  intro path entries hbound
  apply h (name :: path)
  rw [bound?_cons, hlookup]
  exact hbound

theorem of_not_context (h : v.isContext = false) : v.Sorted := by
  intro path entries hbound
  cases path with
  | nil =>
    cases hbound
    cases h
  | cons name rest => simp [bound?_cons, lookup?_of_not_context h] at hbound

theorem context (hnames : (Entries.names entries).Pairwise (· < ·))
    (hentries : ∀ entry ∈ entries, entry.2.Sorted) : (Value.context entries).Sorted := by
  intro path inner hbound
  cases path with
  | nil =>
    cases hbound
    exact hnames
  | cons name rest =>
    rw [bound?_cons, Option.bind_eq_some_iff] at hbound
    obtain ⟨w, hw, hbound⟩ := hbound
    exact hentries _ (Entries.mem_of_get? hw) rest inner hbound

end Sorted
end Value

/-! ## Places on the way -/

/-- The places that a path passes before it comes to its end, the first one first. -/
def onTheWay : List String → List (List String)
  | [] => []
  | [_] => []
  | name :: next :: rest => [name] :: (onTheWay (next :: rest)).map (name :: ·)

/-- They are the beginnings of the path that are neither empty nor all of it. -/
theorem mem_onTheWay_iff {path q : List String} :
    q ∈ onTheWay path ↔ q ≠ [] ∧ q ≠ path ∧ q <+: path := by
  fun_induction onTheWay path generalizing q with
  | case1 => simp
  | case2 name =>
    cases q with
    | nil => simp
    | cons first q => simp [List.prefix_cons_iff]
  | case3 name next rest ih =>
    cases q with
    | nil => simp
    | cons first q =>
      simp only [List.mem_cons, List.mem_map, List.cons.injEq, ih, List.cons_prefix_cons]
      constructor
      · rintro (⟨rfl, rfl⟩ | ⟨inner, ⟨-, hne, hprefix⟩, rfl, rfl⟩)
        · simp
        · exact ⟨List.cons_ne_nil _ _, fun h => hne (List.cons.inj h).2, rfl, hprefix⟩
      · rintro ⟨-, hne, rfl, hprefix⟩
        cases q with
        | nil => exact .inl ⟨rfl, rfl⟩
        | cons second q =>
          exact .inr ⟨_, ⟨List.cons_ne_nil _ _, fun h => hne (congrArg _ h), hprefix⟩, rfl, rfl⟩

theorem onTheWay_cons (name : String) {rest : List String} (hrest : rest ≠ []) :
    onTheWay (name :: rest) = [name] :: (onTheWay rest).map (name :: ·) := by
  cases rest with
  | nil => exact absurd rfl hrest
  | cons next rest => rfl

namespace Value

variable {v w : Value} {name : String} {path rest : List String}

/-- A value that is no context stands on the way, so the path does not come to its end. -/
def blocks (v : Value) (path : List String) : Bool := (onTheWay path).any v.stopsAt

theorem blocks_iff :
    v.blocks path = true ↔ ∃ q, q ≠ [] ∧ q ≠ path ∧ q <+: path ∧ v.stopsAt q = true := by
  simp only [blocks, List.any_eq_true, mem_onTheWay_iff, and_assoc]

theorem stopsAt_cons (v : Value) (name : String) (rest : List String) :
    v.stopsAt (name :: rest) = (v.lookup? name).any (·.stopsAt rest) := by
  cases h : v.lookup? name with
  | none => rw [stopsAt, bound?_cons, h, Option.bind_none, Option.any_none, Option.any_none]
  | some w => rw [stopsAt, bound?_cons, h, Option.bind_some, Option.any_some, stopsAt]

theorem bound?_eq_none_of_blocks (h : v.blocks path = true) : v.bound? path = none := by
  obtain ⟨q, -, hne, ⟨rest, rfl⟩, hstops⟩ := blocks_iff.mp h
  have hrest : rest ≠ [] := fun hrest => hne (by rw [hrest, List.append_nil])
  rw [bound?_append]
  cases hq : v.bound? q with
  | none => rfl
  | some w =>
    rw [stopsAt, hq, Option.any_some, Bool.not_eq_true'] at hstops
    exact bound?_of_not_context hstops hrest

theorem blocks_eq_false_of_bound? (h : v.bound? path = some w) : v.blocks path = false := by
  rw [← Bool.not_eq_true]
  intro hblocks
  cases h.symm.trans (bound?_eq_none_of_blocks hblocks)

theorem stopsAt_iff :
    v.stopsAt path = true ↔ ∃ w, v.bound? path = some w ∧ w.isContext = false := by
  rw [stopsAt, Option.any_eq_true]
  simp

theorem blocks_of_lookup?_eq_none (h : v.lookup? name = none) (rest : List String) :
    v.blocks (name :: rest) = false := by
  cases rest with
  | nil => rfl
  | cons next rest => simp [blocks, onTheWay, stopsAt_cons, h]

theorem blocks_of_lookup? (h : v.lookup? name = some w) (hrest : rest ≠ []) :
    v.blocks (name :: rest) = (!w.isContext || w.blocks rest) := by
  have hhead : v.stopsAt [name] = !w.isContext := by
    rw [stopsAt_cons, h, Option.any_some, stopsAt, bound?_nil, Option.any_some]
  have hrests : (v.stopsAt ∘ (name :: ·)) = w.stopsAt := by
    funext q
    rw [Function.comp_apply, stopsAt_cons, h, Option.any_some]
  rw [blocks, onTheWay_cons name hrest, List.any_cons, List.any_map, hhead, hrests, blocks]

/-! ## Values of one shape -/

/-- The same paths lead to contexts, and the same paths lead to something else. -/
def SameShape (v w : Value) : Prop :=
  ∀ path, (v.bound? path).map isContext = (w.bound? path).map isContext

namespace SameShape

theorem stopsAt_eq (h : v.SameShape w) (path : List String) : v.stopsAt path = w.stopsAt path := by
  have hpath := h path
  rw [stopsAt, stopsAt]
  cases hv : v.bound? path <;> cases hw : w.bound? path <;> simp_all

theorem blocks_eq (h : v.SameShape w) (path : List String) : v.blocks path = w.blocks path := by
  rw [blocks, blocks, funext h.stopsAt_eq]

theorem of_not_context (hv : v.isContext = false) (hw : w.isContext = false) : v.SameShape w := by
  intro path
  by_cases hpath : path = []
  · subst hpath
    rw [bound?_nil, bound?_nil, Option.map_some, Option.map_some, hv, hw]
  · rw [bound?_of_not_context hv hpath, bound?_of_not_context hw hpath]

theorem context {xs ys : Context}
    (h : List.Forall₂ (fun x y => x.1 = y.1 ∧ x.2.SameShape y.2) xs ys) :
    (Value.context xs).SameShape (Value.context ys) := by
  intro path
  cases path with
  | nil => rfl
  | cons name rest =>
    rw [bound?_cons, bound?_cons, lookup?_context, lookup?_context]
    induction h with
    | nil => rfl
    | @cons x y xs ys hxy _ ih =>
      obtain ⟨key, v⟩ := x
      obtain ⟨_, w⟩ := y
      obtain ⟨rfl, hshape⟩ := hxy
      rw [Entries.get?_cons, Entries.get?_cons]
      by_cases hname : name = key
      · rw [if_pos hname, if_pos hname]
        exact hshape rest
      · rw [if_neg hname, if_neg hname]
        exact ih

end SameShape
end Value
end DecisionModel
