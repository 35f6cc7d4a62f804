import DecisionModel.Powers
import DecisionModel.Text.Digits

/-!
# Digits read back

A number that is written in digits is the value of these digits, whether zeros stand in front of it
or not. Zeros at the end of a fraction carry no value either, once its places are counted. Every
text in which numbers are written is taken apart again by these facts, and by digits being no
separators.
-/

namespace DecisionModel.Text

variable {c mark : Char} {ds : List Char}

/-! ## Digits -/

theorem isDigit_eq (c : Char) : isDigit c = c.isDigit := by
  have hiff : ('0' ≤ c ∧ c ≤ '9') ↔ c.isDigit = true := by
    simp [Char.isDigit, Char.le_def]
  unfold isDigit digit?
  split
  · next h => simp [hiff.mp h]
  · next h => simp [mt hiff.mpr h]

theorem isDigit_iff_toNat : isDigit c = true ↔ 48 ≤ c.toNat ∧ c.toNat ≤ 57 := by
  rw [isDigit_eq, Char.isDigit_iff_toNat]
  rfl

theorem digit?_of_isDigit (h : isDigit c = true) : digit? c = some (c.toNat - '0'.toNat) := by
  unfold isDigit digit? at *
  split
  · rfl
  · next hc => simp [hc] at h

theorem not_mem_of_all_isDigit (h : ds.all isDigit = true) (hmark : isDigit mark = false) :
    mark ∉ ds := by
  intro hmem
  rw [List.all_eq_true.mp h mark hmem] at hmark
  cases hmark

/-! ## Values -/

/-- Digits that follow a number move it up by their places. -/
theorem foldl_digits (n : Nat) (ds : List Char) :
    ds.foldl (fun n c => 10 * n + (digit? c).getD 0) n = n * tenTo ds.length + valueOf ds := by
  induction ds generalizing n with
  | nil => simp [valueOf]
  | cons c ds ih =>
    have hcons : valueOf (c :: ds) = (digit? c).getD 0 * tenTo ds.length + valueOf ds := by
      show ds.foldl _ (10 * 0 + (digit? c).getD 0) = _
      rw [ih, Nat.mul_zero, Nat.zero_add]
    rw [List.foldl_cons, ih, hcons, List.length_cons, tenTo_succ, Nat.add_mul, Nat.add_assoc,
      Nat.mul_comm 10 n, Nat.mul_assoc, Nat.mul_comm 10 (tenTo _)]

theorem valueOf_append (front back : List Char) :
    valueOf (front ++ back) = valueOf front * tenTo back.length + valueOf back := by
  rw [← foldl_digits]
  exact List.foldl_append

theorem valueOf_eq (h : ds.all isDigit = true) : valueOf ds = Nat.ofDigitChars 10 ds 0 := by
  suffices ∀ n, ds.foldl (fun n c => 10 * n + (digit? c).getD 0) n = Nat.ofDigitChars 10 ds n from
    this 0
  induction ds with
  | nil => exact fun n => rfl
  | cons c ds ih =>
    intro n
    rw [List.all_cons, Bool.and_eq_true] at h
    rw [List.foldl_cons, ih h.2, Nat.ofDigitChars_cons, digit?_of_isDigit h.1]
    rfl

theorem valueOf_lt (h : ds.all isDigit = true) : valueOf ds < tenTo ds.length := by
  induction ds with
  | nil => exact Nat.one_pos
  | cons c ds ih =>
    rw [List.all_cons, Bool.and_eq_true] at h
    have hdigit : (digit? c).getD 0 ≤ 9 := by
      have := isDigit_iff_toNat.mp h.1
      rw [digit?_of_isDigit h.1, Option.getD_some, show '0'.toNat = 48 from rfl]
      omega
    have hcons : valueOf (c :: ds) = (digit? c).getD 0 * tenTo ds.length + valueOf ds := by
      rw [← List.singleton_append, valueOf_append]
      simp [valueOf]
    calc valueOf (c :: ds)
        < (digit? c).getD 0 * tenTo ds.length + tenTo ds.length := by
          rw [hcons]
          exact Nat.add_lt_add_left (ih h.2) _
      _ = ((digit? c).getD 0 + 1) * tenTo ds.length := (Nat.succ_mul ..).symm
      _ ≤ 10 * tenTo ds.length := Nat.mul_le_mul_right _ (by omega)
      _ = tenTo (c :: ds).length := by rw [List.length_cons, tenTo_succ, Nat.mul_comm]

theorem all_isDigit_ofNat (n : Nat) : (ofNat n).all isDigit = true := by
  rw [List.all_eq_true]
  intro c hc
  rw [isDigit_eq]
  exact Nat.isDigit_of_mem_toDigits (by decide) (by decide) hc

@[simp] theorem valueOf_ofNat (n : Nat) : valueOf (ofNat n) = n := by
  rw [valueOf_eq (all_isDigit_ofNat n)]
  exact Nat.ofDigitChars_ten_toDigits

theorem ofNat_ne_nil (n : Nat) : ofNat n ≠ [] := Nat.toDigits_ne_nil

theorem all_isDigit_replicate_zero (n : Nat) : (List.replicate n '0').all isDigit = true := by
  rw [List.all_eq_true]
  intro c hc
  rw [List.eq_of_mem_replicate hc]
  decide

theorem valueOf_replicate_zero (n : Nat) : valueOf (List.replicate n '0') = 0 := by
  rw [valueOf_eq (all_isDigit_replicate_zero n), Nat.ofDigitChars_replicate_zero, Nat.mul_zero]

/-! ## Fixed widths -/

theorem all_isDigit_padded (width n : Nat) : (padded width n).all isDigit = true := by
  unfold padded
  rw [List.all_append, all_isDigit_replicate_zero, all_isDigit_ofNat, Bool.and_true]

@[simp] theorem valueOf_padded (width n : Nat) : valueOf (padded width n) = n := by
  unfold padded
  rw [valueOf_append, valueOf_replicate_zero, valueOf_ofNat]
  simp

theorem length_padded {width n : Nat} (hwidth : 0 < width) (h : n < tenTo width) :
    (padded width n).length = width := by
  have hlength : (ofNat n).length ≤ width :=
    (Nat.length_toDigits_le_iff (by decide) hwidth).mpr h
  unfold padded
  rw [List.length_append, List.length_replicate]
  omega

/-- A number in digits starts with a digit. -/
theorem exists_padded_eq_cons (width n : Nat) :
    ∃ c ds, padded width n = c :: ds ∧ isDigit c = true := by
  have hdigits := all_isDigit_padded width n
  cases hpadded : padded width n with
  | nil => simp [padded, ofNat_ne_nil] at hpadded
  | cons c ds =>
    rw [hpadded, List.all_cons, Bool.and_eq_true] at hdigits
    exact ⟨c, ds, rfl, hdigits.1⟩

/-! ## Fractions -/

/-- What `dropTrailingZeros` takes away are zeros. -/
theorem exists_dropTrailingZeros (ds : List Char) :
    ∃ n, ds = dropTrailingZeros ds ++ List.replicate n '0' := by
  have hzeros : ∀ c ∈ ds.reverse.takeWhile (· == '0'), c = '0' := fun c hc =>
    beq_iff_eq.mp (List.all_eq_true.mp List.all_takeWhile c hc)
  have hsplit := List.takeWhile_append_dropWhile (p := (· == '0')) (l := ds.reverse)
  rw [List.eq_replicate_of_mem hzeros] at hsplit
  refine ⟨(ds.reverse.takeWhile (· == '0')).length, ?_⟩
  rw [← List.reverse_inj, List.reverse_append, List.reverse_replicate]
  unfold dropTrailingZeros
  rw [List.reverse_reverse]
  exact hsplit.symm

theorem length_dropTrailingZeros_le (ds : List Char) :
    (dropTrailingZeros ds).length ≤ ds.length := by
  obtain ⟨n, hn⟩ := exists_dropTrailingZeros ds
  have := congrArg List.length hn
  rw [List.length_append] at this
  omega

theorem all_isDigit_dropTrailingZeros (h : ds.all isDigit = true) :
    (dropTrailingZeros ds).all isDigit = true := by
  obtain ⟨n, hn⟩ := exists_dropTrailingZeros ds
  rw [hn, List.all_append, Bool.and_eq_true] at h
  exact h.1

/-- A fraction without its last zeros has the value that it has with them, in its places. -/
theorem valueOf_dropTrailingZeros (ds : List Char) :
    valueOf (dropTrailingZeros ds) * tenTo (ds.length - (dropTrailingZeros ds).length) =
      valueOf ds := by
  obtain ⟨n, hn⟩ := exists_dropTrailingZeros ds
  have hlength : ds.length - (dropTrailingZeros ds).length = n := by
    have := congrArg List.length hn
    rw [List.length_append, List.length_replicate] at this
    omega
  calc valueOf (dropTrailingZeros ds) * tenTo (ds.length - (dropTrailingZeros ds).length)
      = valueOf (dropTrailingZeros ds ++ List.replicate n '0') := by
        rw [hlength, valueOf_append, valueOf_replicate_zero, List.length_replicate, Nat.add_zero]
    _ = valueOf ds := by rw [← hn]

theorem dropTrailingZeros_ne_nil (h : valueOf ds ≠ 0) : dropTrailingZeros ds ≠ [] := by
  intro hnil
  rw [← valueOf_dropTrailingZeros, hnil] at h
  simp [valueOf] at h

end DecisionModel.Text
