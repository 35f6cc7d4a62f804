import DecisionModel.Decimal.Text
import DecisionModel.Proofs.Text.Digits

/-!
# Decimals read back

The digits of a decimal fit when they are read again, since they are the digits of its mantissa, and
there are as many after the point as its scale says. So no digit is rounded away and the plain form
reads. What comes back is the decimal with its scale, but a zero has no sign when it is read.
-/

namespace DecisionModel.Decimal

variable {c : Char} {ds rest : List Char} {r s : Reading} {point started : Bool}

/-! ## Zeros without a sign -/

theorem unsignedZero_eq (d : Decimal) : d.unsignedZero =
    ⟨d.negative && d.mantissa != 0, d.mantissa, d.scale, d.mantissa_le, d.scale_le⟩ := by
  obtain ⟨negative, mantissa, scale, hm, hs⟩ := d
  unfold unsignedZero isZero
  by_cases hzero : mantissa = 0
  · simp [hzero, abs]
  · simp [hzero]

@[simp] theorem scale_unsignedZero (d : Decimal) : d.unsignedZero.scale = d.scale := by
  unfold unsignedZero
  split <;> rfl

@[simp] theorem signed_unsignedZero (d : Decimal) : d.unsignedZero.signed = d.signed := by
  unfold unsignedZero
  split
  case isTrue h =>
    have hzero : d.mantissa = 0 := beq_iff_eq.mp h
    simp [signed, abs, hzero]
  case isFalse => rfl

theorem same_unsignedZero (d : Decimal) : d.same d.unsignedZero = true := by
  simp [same, order]

@[simp] theorem unsignedZero_unsignedZero (d : Decimal) :
    d.unsignedZero.unsignedZero = d.unsignedZero := by
  unfold unsignedZero
  by_cases h : d.isZero
  · rw [if_pos h, if_pos (show d.abs.isZero = true from h)]
    rfl
  · rw [if_neg h, if_neg h]

theorem unsignedZero_eq_self_iff {d : Decimal} :
    d.unsignedZero = d ↔ (d.isZero && d.negative) = false := by
  obtain ⟨negative, mantissa, scale, hm, hs⟩ := d
  cases hzero : isZero ⟨negative, mantissa, scale, hm, hs⟩ with
  | false => simp [unsignedZero, hzero]
  | true => simp [unsignedZero, hzero, abs, eq_comm]

/-! ## Digits that fit -/

theorem readPlain_digit {v : Nat} (hc : Text.digit? c = some v)
    (hm : s.mantissa = r.mantissa * 10 + v)
    (hs : s.scale = if point then r.scale + 1 else r.scale) :
    readPlain r point started (c :: rest) = readPlain s point true rest := by
  have hmantissa : r.mantissa * 10 + v ≤ maxMantissa := hm ▸ s.mantissa_le
  have hscale : (if point then r.scale + 1 else r.scale) ≤ maxScale := hs ▸ s.scale_le
  obtain ⟨mantissa, scale, hm', hs'⟩ := s
  subst hm hs
  cases point with
  | true =>
    rw [if_pos rfl] at hscale
    rw [readPlain, if_neg (by rw [Bool.true_and, decide_eq_true_iff]; omega), hc]
    dsimp only
    rw [dif_pos hmantissa, dif_pos ⟨rfl, hscale⟩]
    rfl
  | false =>
    rw [readPlain, if_neg (by simp), hc]
    dsimp only
    rw [dif_pos hmantissa, dif_neg (by simp)]
    rfl

/-- Digits are taken in one by one, as decimals once the point has been passed. -/
theorem readPlain_digits (h : ds.all Text.isDigit = true) (hstarted : started = true ∨ ds ≠ [])
    (hm : s.mantissa = r.mantissa * tenTo ds.length + Text.valueOf ds)
    (hs : s.scale = if point then r.scale + ds.length else r.scale) :
    readPlain r point started (ds ++ rest) = readPlain s point true rest := by
  induction ds generalizing r started with
  | nil =>
    have hr : s = r := by
      cases r
      cases s
      simp_all [Text.valueOf]
    rw [hr, hstarted.resolve_right (by simp), List.nil_append]
  | cons c ds ih =>
    rw [List.all_cons, Bool.and_eq_true] at h
    have hc := Text.digit?_of_isDigit h.1
    have hsum : s.mantissa = (r.mantissa * 10 + (c.toNat - '0'.toNat)) * tenTo ds.length +
        Text.valueOf ds := by
      rw [hm, ← Text.foldl_digits, List.foldl_cons, Text.foldl_digits, hc, Nat.mul_comm 10]
      rfl
    have hmantissa : r.mantissa * 10 + (c.toNat - '0'.toNat) ≤ maxMantissa := by
      have := Nat.le_mul_of_pos_right (r.mantissa * 10 + (c.toNat - '0'.toNat))
        (tenTo_pos ds.length)
      have := s.mantissa_le
      omega
    have hscale : (if point then r.scale + 1 else r.scale) ≤ maxScale := by
      have := s.scale_le
      rw [hs, List.length_cons] at this
      cases point with
      | true => exact Nat.le_trans (by simp) this
      | false => exact this
    rw [List.cons_append, readPlain_digit (s := ⟨_, _, hmantissa, hscale⟩) hc rfl rfl]
    refine ih h.2 (.inl rfl) hsum ?_
    rw [hs, List.length_cons]
    cases point with
    | true => exact (Nat.succ_add_eq_add_succ _ _).symm
    | false => rfl

theorem splitSign_of_isDigit (h : Text.isDigit c = true) :
    splitSign (c :: rest) = (false, c :: rest) := by
  unfold splitSign
  split
  next heq => cases heq; cases h
  next heq => cases heq; cases h
  next => rfl

/-! ## The plain form -/

/-- The digits of a decimal in front of the point. -/
def wholeChars (d : Decimal) : List Char :=
  let digits := Text.padded (d.scale + 1) d.mantissa
  digits.take (digits.length - d.scale)

/-- The digits of a decimal after the point. -/
def placeChars (d : Decimal) : List Char :=
  let digits := Text.padded (d.scale + 1) d.mantissa
  digits.drop (digits.length - d.scale)

theorem le_length_padded (width n : Nat) : width ≤ (Text.padded width n).length := by
  unfold Text.padded
  rw [List.length_append, List.length_replicate]
  omega

theorem length_placeChars (d : Decimal) : d.placeChars.length = d.scale := by
  have := le_length_padded (d.scale + 1) d.mantissa
  rw [placeChars, List.length_drop]
  omega

theorem wholeChars_ne_nil (d : Decimal) : d.wholeChars ≠ [] := by
  have := le_length_padded (d.scale + 1) d.mantissa
  rw [← List.length_pos_iff, wholeChars, List.length_take]
  omega

theorem wholeChars_append_placeChars (d : Decimal) :
    d.wholeChars ++ d.placeChars = Text.padded (d.scale + 1) d.mantissa := List.take_append_drop ..

theorem all_isDigit_wholeChars (d : Decimal) : d.wholeChars.all Text.isDigit = true ∧
    d.placeChars.all Text.isDigit = true := by
  rw [← Bool.and_eq_true, ← List.all_append, wholeChars_append_placeChars]
  exact Text.all_isDigit_padded _ _

/-- The digits on both sides of the point are those of the mantissa. -/
theorem valueOf_wholeChars (d : Decimal) :
    Text.valueOf d.wholeChars * tenTo d.scale + Text.valueOf d.placeChars = d.mantissa := by
  rw [← length_placeChars, ← Text.valueOf_append, wholeChars_append_placeChars,
    Text.valueOf_padded]

theorem toChars_eq (d : Decimal) : d.toChars = (if d.negative then ['-'] else []) ++
    (d.wholeChars ++ if d.scale = 0 then [] else '.' :: d.placeChars) := by
  unfold toChars
  by_cases hs : d.scale = 0
  · rw [if_pos hs, if_pos hs, List.append_nil]
    rfl
  · rw [if_neg hs, if_neg hs, ← List.append_assoc]
    rfl

/-- The digits of a decimal read as its mantissa, at its scale. -/
theorem readPlain_toChars (d : Decimal) :
    readPlain ⟨0, 0, Nat.zero_le _, Nat.zero_le _⟩ false false
      (d.wholeChars ++ if d.scale = 0 then [] else '.' :: d.placeChars) =
      some ⟨d.mantissa, d.scale, d.mantissa_le, d.scale_le⟩ := by
  obtain ⟨hwhole, hplaces⟩ := all_isDigit_wholeChars d
  have hvalue := valueOf_wholeChars d
  have hle : Text.valueOf d.wholeChars ≤ maxMantissa := by
    have := Nat.le_mul_of_pos_right (Text.valueOf d.wholeChars) (tenTo_pos d.scale)
    have := d.mantissa_le
    omega
  let whole : Reading := ⟨Text.valueOf d.wholeChars, 0, hle, Nat.zero_le _⟩
  rw [readPlain_digits (s := whole) hwhole (.inr (wholeChars_ne_nil d)) (by simp [whole]) rfl]
  by_cases hs : d.scale = 0
  · have hnil : d.placeChars = [] := List.eq_nil_of_length_eq_zero ((length_placeChars d).trans hs)
    rw [if_pos hs, readPlain, if_pos rfl]
    rw [hs, hnil, tenTo_zero, Nat.mul_one] at hvalue
    simp only [whole, hs, ← hvalue, Text.valueOf, List.foldl_nil, Nat.add_zero]
  · have hpoint : readPlain whole false true ('.' :: d.placeChars) =
        readPlain whole true true d.placeChars := rfl
    rw [if_neg hs, hpoint, ← List.append_nil d.placeChars,
      readPlain_digits (s := ⟨d.mantissa, d.scale, d.mantissa_le, d.scale_le⟩) hplaces (.inl rfl)]
    · rfl
    · rw [length_placeChars]
      exact hvalue.symm
    · simp [whole, length_placeChars]

theorem splitSign_toChars (d : Decimal) : splitSign d.toChars =
    (d.negative, d.wholeChars ++ if d.scale = 0 then [] else '.' :: d.placeChars) := by
  obtain ⟨c, cs, hcs⟩ := List.exists_cons_of_ne_nil (wholeChars_ne_nil d)
  have hc := (all_isDigit_wholeChars d).1
  rw [hcs, List.all_cons, Bool.and_eq_true] at hc
  rw [toChars_eq]
  cases d.negative with
  | true => rfl
  | false =>
    rw [hcs]
    exact splitSign_of_isDigit hc.1

/-- **A decimal reads back from its text** with its scale, but a zero without its sign. -/
theorem readChars_toChars (d : Decimal) : readChars d.toChars = .ok d.unsignedZero := by
  unfold readChars readPositional?
  simp only [splitSign_toChars, readPlain_toChars, Option.map_some, Reading.toDecimal,
    unsignedZero_eq]

theorem read_toText (d : Decimal) : read d.toText = .ok d.unsignedZero := by
  rw [read, toText, String.toList_ofList, readChars_toChars]

/-- The sign of a zero is written. -/
theorem toText_unsignedZero_eq_iff {d : Decimal} :
    d.unsignedZero.toText = d.toText ↔ d.unsignedZero = d := by
  constructor
  · intro h
    have hchars : d.unsignedZero.toChars = d.toChars := String.ofList_inj.mp h
    have hsign := congrArg (fun cs => (splitSign cs).1) hchars
    simp only [splitSign_toChars] at hsign
    rw [unsignedZero_eq] at hsign ⊢
    cases d
    simpa using hsign
  · exact congrArg toText

end DecisionModel.Decimal
