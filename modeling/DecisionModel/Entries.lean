/-!
# Named entries

Lists of values with names, as contexts and JSON objects hold them. `insert` keeps a list sorted by
name and free of repetitions, so the order in which entries were added leaves no trace. Looking a
name up after an insertion is determined whether or not the list was sorted.
-/

namespace DecisionModel.Entries

variable {α : Type}

/-- The value under a name. -/
def get? : List (String × α) → String → Option α
  | [], _ => none
  | (other, value) :: rest, name => if name = other then some value else get? rest name

/-- Puts a value under a name, in the place of an earlier one. -/
def insert (entries : List (String × α)) (name : String) (value : α) : List (String × α) :=
  match entries with
  | [] => [(name, value)]
  | (other, old) :: rest =>
    if name = other then (name, value) :: rest
    else if name < other then (name, value) :: (other, old) :: rest
    else (other, old) :: insert rest name value

def names (entries : List (String × α)) : List String := entries.map (·.1)

@[simp] theorem get?_nil (name : String) : get? ([] : List (String × α)) name = none := rfl

theorem get?_cons (other name : String) (value : α) (rest : List (String × α)) :
    get? ((other, value) :: rest) name = if name = other then some value else get? rest name :=
  rfl

theorem mem_of_get? {entries : List (String × α)} {name : String} {value : α}
    (h : get? entries name = some value) : (name, value) ∈ entries := by
  induction entries with
  | nil => cases h
  | cons entry rest ih =>
    obtain ⟨other, first⟩ := entry
    rw [get?_cons] at h
    split at h
    · next hname =>
      cases h
      exact hname ▸ List.mem_cons_self
    · exact List.mem_cons_of_mem _ (ih h)

theorem get?_insert (entries : List (String × α)) (name other : String) (value : α) :
    get? (insert entries name value) other =
      if other = name then some value else get? entries other := by
  induction entries with
  | nil => simp [insert, get?_cons]
  | cons entry rest ih =>
    obtain ⟨key, old⟩ := entry
    unfold insert
    split
    · next h =>
      subst h
      simp only [get?_cons]
      split <;> rfl
    · next hne =>
      split
      · simp only [get?_cons]
      · simp only [get?_cons, ih]
        by_cases hk : other = key
        · subst hk
          simp [Ne.symm hne]
        · simp [hk]

end DecisionModel.Entries
