import DecisionModel.Proofs.Table.Output
import DecisionModel.Proofs.Value.Binding

/-!
# Writing along dotted paths

Two writes into one context do not meet unless one path goes on where the other ends. Where the
paths part, two different names are put into one context, and these can be put in either order; up
to there the second write passes through the contexts that the first one made. What stood in the
way has no part in this, because a write replaces it before it goes on, whichever of the two comes
first.

Entries that are put one after another need not be sorted for that: a name is put in front of the
first name that is not below it, and another name does not change which one that is.
-/

namespace DecisionModel

/-! ## Two entries -/

namespace Entries

variable {α : Type} {name other : String}

/-- A name that is put twice has the value of the second time. -/
theorem insert_insert_self (entries : List (String × α)) (name : String) (first second : α) :
    insert (insert entries name first) name second = insert entries name second := by
  induction entries with
  | nil => simp [insert]
  | cons entry rest ih =>
    obtain ⟨key, old⟩ := entry
    by_cases heq : name = key
    · simp [insert, heq]
    · by_cases hlt : name < key
      · simp [insert, heq, hlt]
      · simp [insert, heq, hlt, ih]

/-- The smaller of two names is put in front of the larger one, so it does not matter whether that
one is there yet. -/
theorem insert_comm_of_lt (entries : List (String × α)) (v w : α) (h : name < other) :
    insert (insert entries name v) other w = insert (insert entries other w) name v := by
  have hne : other ≠ name := h.ne'
  have hnlt : ¬other < name := h.not_gt
  induction entries with
  | nil => simp [insert, h, hne, hnlt, h.ne]
  | cons entry rest ih =>
    obtain ⟨key, old⟩ := entry
    rcases lt_trichotomy name key with hlt | rfl | hgt
    · -- the smaller name comes first in any case
      have hinsert : insert ((key, old) :: rest) name v = (name, v) :: (key, old) :: rest := by
        simp [insert, hlt, hlt.ne]
      rw [hinsert]
      rcases lt_trichotomy other key with hlt' | rfl | hgt'
      · simp [insert, h, hne, hnlt, h.ne, hlt', hlt'.ne]
      · simp [insert, h, hne, hnlt, h.ne]
      · simp [insert, hne, hnlt, hlt, hlt.ne, hgt'.ne', hgt'.not_gt]
    · simp [insert, hne, hnlt]
    · have hother : key < other := hgt.trans h
      simp [insert, hgt.ne', hgt.not_gt, hother.ne', hother.not_gt, ih]

theorem insert_comm (entries : List (String × α)) (v w : α) (h : name ≠ other) :
    insert (insert entries name v) other w = insert (insert entries other w) name v := by
  rcases lt_or_gt_of_ne h with hlt | hgt
  · exact insert_comm_of_lt entries v w hlt
  · exact (insert_comm_of_lt entries w v hgt).symm

end Entries

/-! ## Two paths -/

theorem Overlap.symm {p q : List String} (h : Overlap p q) : Overlap q p := Or.symm h

theorem Overlap.cons {p q : List String} (name : String) (h : Overlap p q) :
    Overlap (name :: p) (name :: q) :=
  h.imp (List.prefix_cons_inj name).mpr (List.prefix_cons_inj name).mpr

theorem overlap_nil_left (p : List String) : Overlap [] p := .inl List.nil_prefix

theorem overlap_nil_right (p : List String) : Overlap p [] := .inr List.nil_prefix

namespace Value

variable {old : Value} {p q : List String} {v w : Value}

theorem lookup?_place (old : Value) (name : String) (rest : List String) (new : Value)
    (other : String) : (old.place (name :: rest) new).lookup? other =
      if other = name then some ((old.field name).place rest new) else old.lookup? other := by
  rw [place, lookup?_context, Entries.get?_insert]
  cases old <;> rfl

theorem bound?_place_self (old : Value) (path : List String) (new : Value) :
    (old.place path new).bound? path = some new := by
  induction path generalizing old with
  | nil => rfl
  | cons name rest ih =>
    rw [bound?_cons, lookup?_place, if_pos rfl]
    exact ih _

/-- What is bound beyond a name is bound beyond the value that is read under it: nothing is bound
beyond absent. -/
theorem bound?_cons_eq_bound?_field (old : Value) (name : String) (hp : p ≠ []) :
    old.bound? (name :: p) = (old.field name).bound? p := by
  have hfield : old.field name = (old.lookup? name).getD .absent := by cases old <;> rfl
  rw [bound?_cons, hfield]
  cases old.lookup? name with
  | none => exact (bound?_of_not_context rfl hp).symm
  | some inner => rfl

/-- The induction is on the path that is written, along which both paths go for a while. -/
theorem bound?_place_of_not_overlap (h : ¬Overlap p q) :
    (old.place q v).bound? p = old.bound? p := by
  induction q generalizing old p with
  | nil => exact absurd (overlap_nil_right p) h
  | cons name rest ih =>
    cases p with
    | nil => exact absurd (overlap_nil_left _) h
    | cons other p =>
      by_cases hname : other = name
      · subst hname
        have hrest : ¬Overlap p rest := fun hoverlap => h (hoverlap.cons other)
        have hp : p ≠ [] := by
          rintro rfl
          exact hrest (overlap_nil_left rest)
        rw [bound?_cons_eq_bound?_field old other hp, ← ih hrest, bound?_cons, lookup?_place,
          if_pos rfl, Option.bind_some]
      · rw [bound?_cons, bound?_cons, lookup?_place, if_neg hname]

theorem place_place_cons (old : Value) (name other : String) (p q : List String) (v w : Value) :
    (old.place (name :: p) v).place (other :: q) w = context
      (Entries.insert
        (Entries.insert (Context.ofValue old) name ((old.field name).place p v)) other
        (((old.place (name :: p) v).field other).place q w)) := rfl

/-- Values are put at the ends of two paths that part in either order. -/
theorem place_comm (h : ¬Overlap p q) :
    (old.place p v).place q w = (old.place q w).place p v := by
  induction p generalizing old q with
  | nil => exact absurd (overlap_nil_left q) h
  | cons name p ih =>
    cases q with
    | nil => exact absurd (overlap_nil_right _) h
    | cons other q =>
      rw [place_place_cons, place_place_cons, field_place, field_place]
      by_cases hname : name = other
      · subst hname
        have hrest : ¬Overlap p q := fun hoverlap => h (hoverlap.cons name)
        rw [if_pos rfl, if_pos rfl, ih hrest, Entries.insert_insert_self,
          Entries.insert_insert_self]
      · rw [if_neg (Ne.symm hname), if_neg hname, Entries.insert_comm _ _ _ hname]

end Value

/-! ## Two dotted paths -/

namespace Context

open Value (context_setPath)

/-- **A value that is written along a dotted path is read there, and what is bound along a path that
parts from it stays as it was**: neither what was there nor whether there was anything changes. So
two writes along paths of which neither goes on where the other ends can be exchanged, whatever
stood in their way. -/
theorem written_path_reads_back (context : Context) (path : String) (v : Value) :
    let before := Value.context context
    let after := Value.context (context.setPath (outputPath path) v)
    (after.bound? (outputPath path) = some v ∧ after.follow (outputPath path) = v) ∧
    (∀ other : List String, ¬Overlap other (outputPath path) →
      after.bound? other = before.bound? other ∧ after.follow other = before.follow other) ∧
    (∀ (other : String) (w : Value), ¬Overlap (outputPath other) (outputPath path) →
      (context.setPath (outputPath path) v).setPath (outputPath other) w =
        (context.setPath (outputPath other) w).setPath (outputPath path) v) := by
  intro before after
  have hpath := outputPath_ne_nil path
  have hafter : after = before.place (outputPath path) v := context_setPath context hpath v
  refine ⟨⟨?_, ?_⟩, ?_, ?_⟩
  · rw [hafter]
    exact Value.bound?_place_self before _ v
  · rw [hafter]
    exact Value.follow_place_self before _ v
  · intro other hother
    rw [hafter]
    constructor
    · exact Value.bound?_place_of_not_overlap hother
    · exact Value.follow_place_of_not_overlap hother
  · intro other w hother
    have hother' := outputPath_ne_nil other
    apply Value.context.inj
    rw [context_setPath _ hother', context_setPath _ hpath, context_setPath _ hpath,
      context_setPath _ hother']
    apply Value.place_comm
    intro hoverlap
    exact hother hoverlap.symm

/-- A score and a grade are written under a name that held a number before. Either of them replaces
the number, and then they stand side by side. -/
theorem score_and_grade_exchanged :
    let before : Context := [("output", .ofNat 5)]
    let graded := before.setPath (outputPath "output.grade") (.string "B")
    let scored := before.setPath (outputPath "output.score") (.ofNat 50)
    (¬Overlap ["output", "grade"] (outputPath "output.score") ∧
      (Value.context scored).bound? ["output", "grade"] = none) ∧
    (¬Overlap (outputPath "output.grade") (outputPath "output.score") ∧
      graded.setPath (outputPath "output.score") (.ofNat 50) =
        [("output", .context [("grade", .string "B"), ("score", .ofNat 50)])]) := by
  intro before graded scored
  have hpart : ¬Overlap ["output", "grade"] (outputPath "output.score") := by
    unfold Overlap
    decide
  have hpath : outputPath "output.grade" = ["output", "grade"] := by decide
  have hpart' : ¬Overlap (outputPath "output.grade") (outputPath "output.score") := by
    rw [hpath]
    exact hpart
  obtain ⟨-, hframe, hcomm⟩ := written_path_reads_back before "output.score" (.ofNat 50)
  refine ⟨⟨hpart, ?_⟩, hpart', ?_⟩
  · exact (hframe _ hpart).1
  · rw [← hcomm "output.grade" (.string "B") hpart']
    rfl

end Context
end DecisionModel
