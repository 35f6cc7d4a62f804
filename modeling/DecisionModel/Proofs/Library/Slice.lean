import DecisionModel.Library.Sequence
import DecisionModel.Library.Text
import DecisionModel.Proofs.Breakdown

/-!
# Slices within their sequence

A part of a sequence is taken between two offsets, and the evaluation is broken off if these are not
within it. They always are: a position that is looked up falls on an offset of the sequence, and the
length is cut to what is there from this offset on (`bounds_of_takeCount`). So a slice is never what
a function fails for, and the part it takes can be said without any bound, as what follows the offset
(`takeFrom_of_nonneg`).
-/

namespace DecisionModel.Library

variable {α β : Type} {function : String} {outside : Int → Nat → ArgumentFault}
  {items part : List α} {count : Nat} {place first last n : Int} {length? : Option Int}

/-! ## Offsets -/

/-- Whether there is a position, counted from one or from the end, among so many. -/
def Within (count : Nat) (place : Int) : Prop := place ≠ 0 ∧ place.natAbs ≤ count

instance : Decidable (Within count place) := inferInstanceAs (Decidable (_ ∧ _))

/-- A position as it is counted from one. -/
def fromStart (count : Nat) (place : Int) : Int :=
  if place < 0 then count + place + 1 else place

theorem offset?_eq_none_iff : offset? count place = none ↔ ¬Within count place := by
  unfold offset? Within
  split
  · exact iff_of_true rfl (by omega)
  · exact iff_of_false (Option.some_ne_none _) (by omega)

theorem offset?_eq_some_iff :
    offset? count place = some first ↔ Within count place ∧ first + 1 = fromStart count place := by
  unfold offset? Within fromStart
  split
  · exact iff_of_false (Option.some_ne_none first).symm (by omega)
  · rw [Option.some.injEq]
    split <;> omega

/-- A position is looked up at an offset of the sequence. -/
theorem bounds_of_offset? (h : offset? count place = some first) : 0 ≤ first ∧ first < count := by
  obtain ⟨⟨hne, hle⟩, hfirst⟩ := offset?_eq_some_iff.mp h
  unfold fromStart at hfirst
  split at hfirst <;> omega

theorem startOffset_eq_ok_iff :
    startOffset function outside count place = .ok first ↔ offset? count place = some first := by
  unfold startOffset
  cases offset? count place <;> simp

theorem startOffset_of_not_within (h : ¬Within count place) :
    startOffset function outside count place =
      .error (.invalidArgument function (outside place count)) := by
  rw [startOffset, offset?_eq_none_iff.mpr h]

theorem exists_startOffset (h : Within count place) :
    ∃ first, startOffset function outside count place = .ok first ∧
      first + 1 = fromStart count place ∧ 0 ≤ first ∧ first < count := by
  have hoffset : offset? count place = some (fromStart count place - 1) :=
    offset?_eq_some_iff.mpr ⟨h, by omega⟩
  exact ⟨_, startOffset_eq_ok_iff.mpr hoffset, by omega, bounds_of_offset? hoffset⟩

/-! ## Slices -/

theorem takeCount_eq_ok_iff {available taken : Int} :
    takeCount function available length? = .ok taken ↔
      (∀ n ∈ length?, 0 ≤ n) ∧ taken = length?.elim available (min · available) := by
  cases length? with
  | none => simp [takeCount, eq_comm]
  | some n =>
    rw [takeCount]
    split
    · next hn => exact iff_of_false nofun fun h => absurd (h.1 n rfl) (Int.not_le.mpr hn)
    · next hn => simp [Int.not_lt.mp hn, eq_comm]

theorem takeCount_of_neg {available : Int} (h : n < 0) :
    takeCount function available (some n) = .error (.invalidArgument function (.negativeLength n)) :=
  if_pos h

theorem askedLength?_absent : askedLength? function .absent = .ok none := rfl

/-- **No slice is out of bounds.** From an offset within the sequence as many elements are taken as
are asked for, and no more than are there. -/
theorem bounds_of_takeCount {taken : Int} (hfirst : 0 ≤ first) (hle : first ≤ count)
    (h : takeCount function (count - first) length? = .ok taken) :
    0 ≤ first ∧ first ≤ first + taken ∧ first + taken ≤ count := by
  obtain ⟨hlength, rfl⟩ := takeCount_eq_ok_iff.mp h
  cases length? with
  | none => simp only [Option.elim_none]; omega
  | some n =>
    have hn : 0 ≤ n := hlength n rfl
    simp only [Option.elim_some]
    omega

/-- The elements after the first few, as many as are asked for. -/
def following (items : List α) (first : Nat) : Option Int → List α
  | none => items.drop first
  | some n => (items.drop first).take n.toNat

theorem takeFrom_of_nonneg (hfirst : 0 ≤ first) (hle : first ≤ items.length)
    (h : ∀ n ∈ length?, 0 ≤ n) :
    takeFrom function items first length? = .ok (following items first.toNat length?) := by
  have hcount : takeCount function (items.length - first) length? =
      .ok (length?.elim (items.length - first) (min · (items.length - first))) :=
    takeCount_eq_ok_iff.mpr ⟨h, rfl⟩
  have hbounds := bounds_of_takeCount hfirst hle hcount
  rw [takeFrom, hcount, ok_bind, slice_eq_ok_iff]
  refine ⟨hbounds, ?_⟩
  rw [Int.add_comm first, Int.add_sub_cancel]
  have hthere : (items.drop first.toNat).length = (items.length - first).toNat := by
    rw [List.length_drop]
    omega
  cases length? with
  | none => exact List.take_of_length_le (Nat.le_of_eq hthere)
  | some n =>
    have hn : 0 ≤ n := h n rfl
    have hmin :
        (min n (items.length - first)).toNat = min n.toNat (items.drop first.toNat).length := by
      rw [hthere]
      omega
    show (items.drop first.toNat).take (min n (items.length - first)).toNat = _
    rw [hmin]
    exact List.take_eq_take_min.symm

theorem takeFrom_none (hfirst : 0 ≤ first) (hle : first ≤ items.length) :
    takeFrom function items first none = .ok (items.drop first.toNat) :=
  takeFrom_of_nonneg hfirst hle nofun

theorem takeFrom_of_neg (h : n < 0) :
    takeFrom function items first (some n) =
      .error (.invalidArgument function (.negativeLength n)) := by
  rw [takeFrom, takeCount_of_neg h, error_bind]

/-- A length that is not of the kind that can be taken is negative, and refused. -/
theorem exists_negative_length (items : List α) (first : Int) (h : ¬∀ n ∈ length?, 0 ≤ n) :
    ∃ n, length? = some n ∧ n < 0 ∧ takeFrom function items first length? =
      .error (.invalidArgument function (.negativeLength n)) := by
  obtain ⟨n, hn⟩ := Classical.not_forall.mp h
  obtain ⟨rfl, hneg⟩ := Classical.not_imp.mp hn
  exact ⟨n, rfl, Int.not_le.mp hneg, takeFrom_of_neg (Int.not_le.mp hneg)⟩

theorem takeFrom_eq_ok_iff (hfirst : 0 ≤ first) (hle : first ≤ items.length) :
    takeFrom function items first length? = .ok part ↔
      (∀ n ∈ length?, 0 ≤ n) ∧ following items first.toNat length? = part := by
  by_cases hlength : ∀ n ∈ length?, 0 ≤ n
  · rw [takeFrom_of_nonneg hfirst hle hlength, Except.ok.injEq]
    exact (and_iff_right hlength).symm
  · refine iff_of_false (fun h => ?_) fun h => hlength h.1
    obtain ⟨n, -, -, hrefused⟩ := exists_negative_length items first hlength
    rw [hrefused] at h
    cases h

/-- A part is taken at the same places whatever the elements are. -/
theorem slice_map (f : α → β) (items : List α) (first last : Int) :
    slice (items.map f) first last = (slice items first last).map (List.map f) := by
  unfold slice
  rw [List.length_map]
  split
  · rw [← List.map_drop, ← List.map_take]
    rfl
  · rfl

theorem takeFrom_map (f : α → β) (items : List α) (first : Int) (length? : Option Int) :
    takeFrom function (items.map f) first length? =
      (takeFrom function items first length?).map (List.map f) := by
  unfold takeFrom
  rw [List.length_map]
  cases takeCount function (items.length - first) length? with
  | ok taken => exact slice_map f items first _
  | error e => rfl

/-! ## The functions that take parts -/

theorem unbroken_position (function : String) (v : Value) : Unbroken (position function v) :=
  (unbroken_expectNumber function v).bind fun n _ =>
    (unbroken_toWhole function n).bind fun w _ => .ok w.toInt

theorem unbroken_askedLength? (function : String) (v : Value) :
    Unbroken (askedLength? function v) := by
  unfold askedLength?
  split
  · exact .ok none
  · exact (unbroken_position function v).map some

/-- From a position that is looked up, a part is taken without being broken off. -/
theorem unbroken_takeFrom
    (h : startOffset function outside items.length place = .ok first) :
    Unbroken (takeFrom function items first length?) := by
  obtain ⟨hnonneg, hlt⟩ := bounds_of_offset? (startOffset_eq_ok_iff.mp h)
  by_cases hlength : ∀ n ∈ length?, 0 ≤ n
  · rw [takeFrom_of_nonneg hnonneg (Int.le_of_lt hlt) hlength]
    exact .ok _
  · obtain ⟨n, -, -, hrefused⟩ := exists_negative_length items first hlength
    rw [hrefused]
    exact .error nofun

theorem unbroken_startOffset :
    Unbroken (startOffset function outside count place) := by
  unfold startOffset
  split
  · exact .error nofun
  · exact .ok _

theorem unbroken_sublist (args : List Value) : Unbroken (sublist args) := by
  refine breaksFor_unlessMissing fun _ => breaksFor_unlessMissing fun _ => ?_
  refine (unbroken_expectList _ _).bind fun items _ => ?_
  refine (unbroken_position _ _).bind fun place _ => ?_
  refine (unbroken_askedLength? _ _).bind fun length? _ => ?_
  split
  · exact .ok _
  · exact unbroken_startOffset.bind fun first hfirst =>
      (unbroken_takeFrom hfirst).bind fun part _ => .ok _

theorem unbroken_substring (args : List Value) : Unbroken (substring args) := by
  refine breaksFor_unlessMissing fun _ => breaksFor_unlessMissing fun _ => ?_
  refine (unbroken_expectString _ _).bind fun s _ => ?_
  refine (unbroken_position _ _).bind fun place _ => ?_
  refine unbroken_startOffset.bind fun first hfirst => ?_
  exact (unbroken_askedLength? _ _).bind fun length? _ =>
    (unbroken_takeFrom hfirst).bind fun part _ => .ok _

end DecisionModel.Library
