import DecisionModel.Value.Basic

/-!
# Values along paths

What is bound along a path is found at its end, and along every path that parts from it nothing
changes. Binding a path is said here once more, as an operation on any value and by recursion on the
path alone: what is no context counts as an empty one, and an empty path takes the place of the
whole value. In this form one look-up law (`field_place`) carries every fact about paths.
-/

namespace DecisionModel

/-- Neither of two paths parts from the other: they are the same, or one goes on where the other
ends. -/
def Overlap (p q : List String) : Prop := p <+: q ∨ q <+: p

namespace Value

/-- The value with another one at the end of a path. -/
def place (old : Value) (path : List String) (new : Value) : Value :=
  match path with
  | [] => new
  | name :: rest => .context
      (Entries.insert (Context.ofValue old) name (place (old.field name) rest new))

variable {old new : Value} {path p q : List String}

theorem follow_cons (v : Value) (name : String) (path : List String) :
    v.follow (name :: path) = (v.field name).follow path := rfl

theorem follow_append (v : Value) (p q : List String) :
    v.follow (p ++ q) = (v.follow p).follow q := List.foldl_append

@[simp] theorem absent_follow (path : List String) : absent.follow path = absent := by
  induction path with
  | nil => rfl
  | cons name path ih => exact ih

theorem field_ofValue (v : Value) (name : String) :
    (context (Context.ofValue v)).field name = v.field name := by
  cases v <;> rfl

theorem field_place (old : Value) (name : String) (rest : List String) (new : Value)
    (other : String) : (old.place (name :: rest) new).field other =
      if other = name then (old.field name).place rest new else old.field other := by
  rw [place, ← field_ofValue old other]
  simp only [field, Entries.get?_insert]
  by_cases h : other = name
  · rw [if_pos h, if_pos h]
    rfl
  · rw [if_neg h, if_neg h]

theorem place_ofValue (hpath : path ≠ []) :
    (context (Context.ofValue old)).place path new = old.place path new := by
  cases path with
  | nil => exact absurd rfl hpath
  | cons name rest =>
    rw [place, place, field_ofValue]
    rfl

/-- Binding a path in a context is placing a value in it. -/
theorem context_setPath (bindings : Context) (hpath : path ≠ []) (new : Value) :
    context (bindings.setPath path new) = (context bindings).place path new := by
  induction path generalizing bindings with
  | nil => exact absurd rfl hpath
  | cons name rest ih =>
    cases rest with
    | nil => rfl
    | cons next rest =>
      have hrest : next :: rest ≠ [] := List.cons_ne_nil _ _
      rw [Context.setPath, ih _ hrest, place_ofValue hrest]
      · rfl
      · exact hrest

/-! ## Following a path after another one was bound -/

theorem follow_place_self (old : Value) (path : List String) (new : Value) :
    (old.place path new).follow path = new := by
  induction path generalizing old with
  | nil => rfl
  | cons name rest ih =>
    rw [follow_cons, field_place, if_pos rfl]
    exact ih _

theorem follow_place_of_not_overlap (h : ¬Overlap p q) :
    (old.place q new).follow p = old.follow p := by
  induction q generalizing old p with
  | nil => exact absurd (Or.inr List.nil_prefix) h
  | cons name rest ih =>
    cases p with
    | nil => exact absurd (Or.inl List.nil_prefix) h
    | cons other p =>
      rw [follow_cons, follow_cons, field_place]
      by_cases hname : other = name
      · subst hname
        rw [if_pos rfl]
        apply ih
        intro hoverlap
        apply h
        exact hoverlap.imp (List.prefix_cons_inj other).mpr (List.prefix_cons_inj other).mpr
      · rw [if_neg hname]

/-- What is absent stays absent when another path is bound to absent, unless that path goes on from
there, for then a context has to take its place. -/
theorem follow_place_absent (hold : old.follow p = absent) (h : p <+: q → p = q) :
    (old.place q absent).follow p = absent := by
  by_cases hoverlap : Overlap p q
  · obtain hpq | ⟨rest, rfl⟩ := hoverlap
    · rw [h hpq, follow_place_self]
    · rw [follow_append, follow_place_self, absent_follow]
  · rw [follow_place_of_not_overlap hoverlap, hold]

end Value
end DecisionModel
