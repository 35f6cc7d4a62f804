import DecisionModel.Proofs.Text.Digits
import DecisionModel.Text.Blank

/-!
# Texts without blanks

Trimming takes the blanks at both ends away and nothing else. So everything that is written without
a blank is read as it stands, and a cut at a mark gives the parts that were put around it, as long as
the mark is in neither of them.
-/

namespace DecisionModel.Text

variable {c mark : Char} {cs front back : List Char}

/-- There is no blank in the text. -/
def Solid (cs : List Char) : Prop := ∀ c ∈ cs, isBlank c = false

@[simp] theorem solid_nil : Solid [] := nofun

@[simp] theorem solid_cons : Solid (c :: cs) ↔ isBlank c = false ∧ Solid cs := List.forall_mem_cons

@[simp] theorem solid_append : Solid (front ++ back) ↔ Solid front ∧ Solid back :=
  List.forall_mem_append

theorem solid_of_all_isDigit (h : cs.all isDigit = true) : Solid cs := by
  intro c hc
  have hdigit := isDigit_iff_toNat.mp (List.all_eq_true.mp h c hc)
  unfold isBlank
  simp only [decide_eq_false_iff_not]
  omega

theorem trim_of_solid (h : Solid cs) : trim cs = cs := by
  have hdrop : ∀ {cs : List Char}, Solid cs → cs.dropWhile isBlank = cs := by
    intro cs h
    cases cs with
    | nil => rfl
    | cons c cs => rw [List.dropWhile_cons_of_neg (by simp [(solid_cons.mp h).1])]
  have hreverse : Solid cs.reverse := fun c hc => h c (List.mem_reverse.mp hc)
  rw [trim, hdrop h, hdrop hreverse, List.reverse_reverse]

/-- What is left of a text without the blanks at its ends. -/
def IsTrimmed (text cs : List Char) : Prop :=
  ∃ front back, text = front ++ cs ++ back ∧ (∀ c ∈ front, isBlank c = true) ∧
    (∀ c ∈ back, isBlank c = true) ∧ (∀ c ∈ cs.head?, isBlank c = false) ∧
      ∀ c ∈ cs.getLast?, isBlank c = false

theorem not_isBlank_of_head?_dropWhile (cs : List Char) :
    ∀ c ∈ (cs.dropWhile isBlank).head?, isBlank c = false := by
  intro c hc
  have h := List.head?_dropWhile_not isBlank cs
  rw [Option.mem_def.mp hc] at h
  exact h

theorem isTrimmed_trim (text : List Char) : IsTrimmed text (trim text) := by
  have hmid : text.dropWhile isBlank =
      trim text ++ ((text.dropWhile isBlank).reverse.takeWhile isBlank).reverse := by
    rw [trim, ← List.reverse_append, List.takeWhile_append_dropWhile, List.reverse_reverse]
  refine ⟨text.takeWhile isBlank, ((text.dropWhile isBlank).reverse.takeWhile isBlank).reverse,
    ?_, List.all_eq_true.mp List.all_takeWhile, ?_, ?_, ?_⟩
  · rw [List.append_assoc, ← hmid, List.takeWhile_append_dropWhile]
  · intro c hc
    exact List.all_eq_true.mp List.all_takeWhile c (List.mem_reverse.mp hc)
  · intro c hc
    refine not_isBlank_of_head?_dropWhile text c ?_
    rw [hmid, List.head?_append, Option.mem_def.mp hc]
    rfl
  · intro c hc
    rw [trim, List.getLast?_reverse] at hc
    exact not_isBlank_of_head?_dropWhile _ c hc

theorem dropWhile_isBlank {front rest : List Char} (hfront : ∀ c ∈ front, isBlank c = true)
    (hrest : ∀ c ∈ rest.head?, isBlank c = false) : (front ++ rest).dropWhile isBlank = rest := by
  rw [List.dropWhile_append_of_pos hfront]
  cases rest with
  | nil => rfl
  | cons c rest => rw [List.dropWhile_cons_of_neg (by simp [hrest c rfl])]

/-- Trimming takes the blanks at both ends away, and nothing else. -/
theorem trim_eq_iff {text : List Char} : trim text = cs ↔ IsTrimmed text cs := by
  constructor
  · rintro rfl
    exact isTrimmed_trim text
  · rintro ⟨front, back, rfl, hfront, hback, hhead, hlast⟩
    cases cs with
    | nil =>
      have hblank : ∀ c ∈ front ++ [] ++ back, isBlank c = true := by
        simpa [or_imp, forall_and] using ⟨hfront, hback⟩
      have hnil : (front ++ [] ++ back ++ []).dropWhile isBlank = [] :=
        dropWhile_isBlank hblank nofun
      rw [List.append_nil] at hnil
      rw [trim, hnil]
      rfl
    | cons c cs =>
      have hlast' : ∀ c' ∈ (c :: cs).reverse.head?, isBlank c' = false := by
        rwa [List.head?_reverse]
      rw [trim, List.append_assoc, dropWhile_isBlank hfront (by simpa using hhead),
        List.reverse_append, dropWhile_isBlank (by simpa using hback) hlast', List.reverse_reverse]

theorem IsTrimmed.length_le {text : List Char} (h : IsTrimmed text cs) :
    cs.length ≤ text.length := by
  obtain ⟨front, back, rfl, -⟩ := h
  simp only [List.length_append]
  omega

theorem cut?_append (h : mark ∉ front) :
    cut? mark (front ++ mark :: back) = some (front, back) := by
  induction front with
  | nil => simp [cut?]
  | cons c front ih =>
    rw [List.mem_cons, not_or] at h
    rw [List.cons_append, cut?, if_neg (Ne.symm h.1), ih h.2]
    rfl

theorem cut?_eq_none (h : mark ∉ cs) : cut? mark cs = none := by
  induction cs with
  | nil => rfl
  | cons c cs ih =>
    rw [List.mem_cons, not_or] at h
    rw [cut?, if_neg (Ne.symm h.1), ih h.2]
    rfl

/-- What a cut gives is what stood around the mark. -/
theorem eq_append_of_cut? {parts : List Char × List Char} (h : cut? mark cs = some parts) :
    cs = parts.1 ++ mark :: parts.2 := by
  induction cs generalizing parts with
  | nil => cases h
  | cons c cs ih =>
    rw [cut?] at h
    split at h
    case isTrue hc =>
      cases h
      rw [hc]
      rfl
    case isFalse hc =>
      obtain ⟨rest, hrest, rfl⟩ := Option.map_eq_some_iff.mp h
      rw [ih hrest]
      rfl

/-- A cut is made at the first mark. -/
theorem not_mem_of_cut? {parts : List Char × List Char} (h : cut? mark cs = some parts) :
    mark ∉ parts.1 := by
  induction cs generalizing parts with
  | nil => cases h
  | cons c cs ih =>
    rw [cut?] at h
    split at h
    case isTrue =>
      cases h
      exact List.not_mem_nil
    case isFalse hc =>
      obtain ⟨rest, hrest, rfl⟩ := Option.map_eq_some_iff.mp h
      rw [List.mem_cons, not_or]
      exact ⟨Ne.symm hc, ih hrest⟩

theorem not_mem_of_cut?_eq_none (h : cut? mark cs = none) : mark ∉ cs := by
  induction cs with
  | nil => exact List.not_mem_nil
  | cons c cs ih =>
    rw [cut?] at h
    split at h
    case isTrue => cases h
    case isFalse hc =>
      rw [List.mem_cons, not_or]
      exact ⟨Ne.symm hc, ih (Option.map_eq_none_iff.mp h)⟩

end DecisionModel.Text
