import DecisionModel.Proofs.Bind
import DecisionModel.Proofs.Calendar.Text
import Mathlib.Data.String.Basic

/-!
# Durations read back

The text of a duration is a list of parts, amounts that are followed by a letter, in a section of
days and more and a section of hours and less. Reading cuts at the letters, so it finds the parts
that were written, and what the parts add up to is the duration: years and months add up to months,
the others to nanoseconds, and a part that was left out would have added nothing.

Two things are not in the parts. The family depends on which letters occur, so at least one part of
every family that the duration belongs to has to be written even if it is zero. And the sign is
written once for the whole, so it comes back only for a duration whose parts do not differ in sign.
All durations that were read are of this kind, `Duration.IsReadable`.
-/

namespace DecisionModel

open Calendar

namespace Duration

/-! ## Sections -/

/-- The letters that stand after an amount. -/
def designators : List Char := ['Y', 'M', 'W', 'D', 'H', 'S']

/-- An amount of digits and points in front of one of the letters. -/
def IsWritten (part : Part) : Prop :=
  part.1 ≠ [] ∧ (∀ c ∈ part.1, Text.isDigit c = true ∨ c = '.') ∧ part.2 ∈ designators

/-- What a cut gives: an amount without a letter in front of a letter. -/
def IsCut (part : Part) : Prop :=
  part.1 ≠ [] ∧ (∀ c ∈ part.1, c.isAlpha = false) ∧ part.2.isAlpha = true

/-- The parts one after the other. -/
def sectionChars (ps : List Part) : List Char := ps.flatMap fun part => part.1 ++ [part.2]

variable {part : Part} {ps : List Part} {c : Char}

theorem not_isAlpha_of_amount (h : Text.isDigit c = true ∨ c = '.') : c.isAlpha = false := by
  rcases h with h | rfl
  · have hdigit : 48 ≤ c.val.toNat ∧ c.val.toNat ≤ 57 := Text.isDigit_iff_toNat.mp h
    have hupper : ¬ 'A'.val ≤ c.val := by
      rw [UInt32.le_iff_toNat_le]
      exact Nat.not_le_of_lt (Nat.lt_of_le_of_lt hdigit.2 (by decide))
    have hlower : ¬ 'a'.val ≤ c.val := by
      rw [UInt32.le_iff_toNat_le]
      exact Nat.not_le_of_lt (Nat.lt_of_le_of_lt hdigit.2 (by decide))
    show (decide ('A'.val ≤ c.val ∧ c.val ≤ 'Z'.val) || decide ('a'.val ≤ c.val) && _) = false
    rw [decide_eq_false fun h => hupper h.1, decide_eq_false hlower]
    rfl
  · decide

theorem isAlpha_of_designator (h : c ∈ designators) : c.isAlpha = true := by
  have hall : designators.all Char.isAlpha = true := rfl
  exact List.all_eq_true.mp hall c h

theorem IsWritten.isCut (h : IsWritten part) : IsCut part :=
  ⟨h.1, fun c hc => not_isAlpha_of_amount (h.2.1 c hc), isAlpha_of_designator h.2.2⟩

theorem partsFrom_amount {amount rest : List Char} (acc : List Char)
    (h : ∀ c ∈ amount, c.isAlpha = false) :
    partsFrom acc (amount ++ rest) = partsFrom (amount.reverse ++ acc) rest := by
  induction amount generalizing acc with
  | nil => rfl
  | cons c amount ih =>
    rw [List.cons_append, partsFrom, if_neg (by simp [h c List.mem_cons_self]),
      ih _ fun c' hc' => h c' (List.mem_cons_of_mem _ hc')]
    simp

theorem parts_cons {rest : List Char} (h : IsCut part) :
    parts (part.1 ++ part.2 :: rest) = (parts rest).map (part :: ·) := by
  obtain ⟨hne, hamount, hletter⟩ := h
  unfold parts
  rw [partsFrom_amount [] hamount, List.append_nil, partsFrom, if_pos hletter,
    if_neg (by simpa using hne), List.reverse_reverse]

/-- Reading finds the parts that were written. -/
theorem parts_sectionChars (h : ∀ part ∈ ps, IsCut part) : parts (sectionChars ps) = .ok ps := by
  induction ps with
  | nil => rfl
  | cons part ps ih =>
    have hrest := ih fun p hp => h p (List.mem_cons_of_mem _ hp)
    rw [sectionChars, List.flatMap_cons, List.append_assoc, List.singleton_append,
      parts_cons (h part List.mem_cons_self)]
    show (parts (sectionChars ps)).map _ = _
    rw [hrest]
    rfl

theorem mem_sectionChars (h : ∀ part ∈ ps, IsWritten part) (hc : c ∈ sectionChars ps) :
    (Text.isDigit c = true ∨ c = '.') ∨ c ∈ designators := by
  obtain ⟨part, hpart, hc⟩ := List.mem_flatMap.mp hc
  obtain ⟨-, hamount, hletter⟩ := h part hpart
  rcases List.mem_append.mp hc with hc | hc
  · exact .inl (hamount c hc)
  · rw [List.mem_singleton.mp hc]
    exact .inr hletter

theorem not_mem_sectionChars (h : ∀ part ∈ ps, IsWritten part) : 'T' ∉ sectionChars ps := by
  intro hmem
  rcases mem_sectionChars h hmem with hamount | hletter
  · exact absurd (not_isAlpha_of_amount hamount) (by decide)
  · exact absurd hletter (by decide)

theorem solid_sectionChars (h : ∀ part ∈ ps, IsWritten part) : Text.Solid (sectionChars ps) := by
  intro c hc
  rcases mem_sectionChars h hc with (hdigit | rfl) | hletter
  · exact Text.solid_of_all_isDigit (List.all_eq_true.mpr (by simpa using hdigit)) c
      (List.mem_singleton.mpr rfl)
  · decide
  · have hall : designators.all (!Text.isBlank ·) = true := rfl
    simpa using List.all_eq_true.mp hall c hletter

theorem sectionChars_ne_nil (h : ps ≠ []) : sectionChars ps ≠ [] := by
  cases ps with
  | nil => exact absurd rfl h
  | cons part ps => simp [sectionChars]

/-- The section after the `T`, which has to have parts. -/
def timeChars : List Part → List Char
  | [] => []
  | part :: ps => 'T' :: sectionChars (part :: ps)

/-- What is read from the sections of a text, once its sign and the `P` are off. -/
def ofSections (negative : Bool) (dateSection : List Char) (timeSection : Option (List Char)) :
    Except Fault Duration :=
  if dateSection.isEmpty ∧ timeSection.isNone then .error .noComponents
  else do
    let dated ← (← parts dateSection).foldlM Total.addDatePart ⟨0, 0, false, false⟩
    (← addTimeSection dated timeSection).toDuration negative

/-- The sign, if there is one, and what it stands in front of. -/
def signed (negative : Bool) (cs : List Char) : List Char := if negative then '-' :: cs else cs

/-- Both sections with the `T` between them, or the first section alone. -/
def joinSections (dateSection : List Char) : Option (List Char) → List Char
  | none => dateSection
  | some timeSection => dateSection ++ 'T' :: timeSection

/-- The sign of a text, and what stands behind it. -/
def cutSign : List Char → Bool × List Char
  | '-' :: rest => (true, rest)
  | rest => (false, rest)

/-- The sections on both sides of the `T`. -/
def cutSections (body : List Char) : List Char × Option (List Char) :=
  match Text.cut? 'T' body with
  | some (date, time) => (date, some time)
  | none => (body, none)

theorem signed_cutSign (cs : List Char) : cs = signed (cutSign cs).1 (cutSign cs).2 := by
  unfold cutSign
  split <;> rfl

theorem joinSections_cutSections (body : List Char) :
    body = joinSections (cutSections body).1 (cutSections body).2 := by
  unfold cutSections
  split
  · next date time hcut => exact Text.eq_append_of_cut? hcut
  · rfl

theorem solid_signed {negative : Bool} {cs : List Char} (h : Text.Solid cs) :
    Text.Solid (signed negative cs) := by
  cases negative with
  | true => exact Text.solid_cons.mpr ⟨by decide, h⟩
  | false => exact h

theorem readChars_of_signed {negative : Bool} {cs body : List Char}
    (h : Text.trim cs = signed negative ('P' :: body)) :
    readChars cs = ofSections negative (cutSections body).1 (cutSections body).2 := by
  unfold readChars
  rw [h]
  cases negative with
  | true => rfl
  | false => rfl

theorem not_mem_cutSections (body : List Char) : 'T' ∉ (cutSections body).1 := by
  unfold cutSections
  split
  · next hcut => exact Text.not_mem_of_cut? hcut
  · next hcut => exact Text.not_mem_of_cut?_eq_none hcut

/-- A text is read from the two sections that it is cut into, unless there is no `P`. -/
theorem readChars_cases (cs : List Char) :
    readChars cs = .error .noDesignatorP ∨ ∃ negative dateSection timeSection,
      Text.trim cs = signed negative ('P' :: joinSections dateSection timeSection) ∧
        'T' ∉ dateSection ∧ readChars cs = ofSections negative dateSection timeSection := by
  by_cases hbody : ∃ body, (cutSign (Text.trim cs)).2 = 'P' :: body
  · obtain ⟨body, hbody⟩ := hbody
    have htrim := signed_cutSign (Text.trim cs)
    rw [hbody] at htrim
    refine .inr ⟨_, _, _, ?_, not_mem_cutSections body, readChars_of_signed htrim⟩
    rwa [← joinSections_cutSections]
  · left
    unfold readChars
    dsimp only
    split
    · next rest body hrest => exact absurd ⟨body, hrest⟩ hbody
    · rfl

theorem readChars_signed {negative : Bool} {body : List Char} (h : Text.Solid body) :
    readChars (signed negative ('P' :: body)) =
      ofSections negative (cutSections body).1 (cutSections body).2 :=
  readChars_of_signed (Text.trim_of_solid (solid_signed (Text.solid_cons.mpr ⟨by decide, h⟩)))

/-- What the parts of both sections add up to, on top of a total. -/
def addParts (t : Total) (dateParts timeParts : List Part) : Except Fault Total := do
  timeParts.foldlM Total.addTimePart (← dateParts.foldlM Total.addDatePart t)

/-- A text of two sections is read part by part. -/
theorem readChars_sections {dateParts timeParts : List Part} (negative : Bool)
    (hdate : ∀ part ∈ dateParts, IsWritten part) (htime : ∀ part ∈ timeParts, IsWritten part)
    (hne : dateParts ≠ [] ∨ timeParts ≠ []) :
    readChars (signed negative ('P' :: (sectionChars dateParts ++ timeChars timeParts))) =
      addParts ⟨0, 0, false, false⟩ dateParts timeParts >>= (·.toDuration negative) := by
  cases timeParts with
  | nil =>
    have hsome : sectionChars dateParts ≠ [] := sectionChars_ne_nil (hne.resolve_right (by simp))
    rw [timeChars, List.append_nil, readChars_signed (solid_sectionChars hdate),
      cutSections, Text.cut?_eq_none (not_mem_sectionChars hdate)]
    simp only [ofSections]
    rw [if_neg (by simpa using hsome), parts_sectionChars fun part h => (hdate part h).isCut,
      addParts, bind_assoc]
    rfl
  | cons part ps =>
    have hsome : sectionChars (part :: ps) ≠ [] := sectionChars_ne_nil (by simp)
    rw [timeChars, readChars_signed, cutSections, Text.cut?_append (not_mem_sectionChars hdate)]
    · simp only [ofSections]
      rw [if_neg (by simp), parts_sectionChars fun part h => (hdate part h).isCut]
      -- A `T` with nothing after it is refused, so the reader asks for a first character.
      obtain ⟨c, cs, hcs⟩ := List.exists_cons_of_ne_nil hsome
      simp only [ok_bind, hcs, addTimeSection]
      rw [← hcs, parts_sectionChars fun part h => (htime part h).isCut, addParts, bind_assoc]
      rfl
    · rw [Text.solid_append, Text.solid_cons]
      exact ⟨solid_sectionChars hdate, by decide, solid_sectionChars htime⟩

/-! ## Amounts -/

theorem wholeAmount_ofNat {n : Nat} (h : n ≤ maxInt64) : wholeAmount (Text.ofNat n) = .ok n := by
  unfold wholeAmount
  rw [Text.all_isDigit_ofNat, Text.valueOf_ofNat, if_neg (by decide), if_neg]
  rw [not_or, List.isEmpty_iff]
  exact ⟨Text.ofNat_ne_nil n, Nat.not_lt_of_le h⟩

theorem utf8ByteSize_of_all_isDigit {ds : List Char} (h : ds.all Text.isDigit = true) :
    (String.ofList ds).utf8ByteSize = ds.length := by
  rw [String.utf8ByteSize_ofList]
  induction ds with
  | nil => rfl
  | cons c ds ih =>
    rw [List.all_cons, Bool.and_eq_true] at h
    have hdigit : 48 ≤ c.val.toNat ∧ c.val.toNat ≤ 57 := Text.isDigit_iff_toNat.mp h.1
    have hsize : c.utf8Size = 1 := by
      rw [Char.utf8Size_eq_one_iff, UInt32.le_iff_toNat_le]
      exact Nat.le_trans hdigit.2 (by decide)
    rw [String.utf8Len_cons, ih h.2, hsize, List.length_cons]

theorem secondsAmount_ofNat {seconds fraction : Nat} (h : seconds ≤ maxInt64)
    (hfraction : fraction < nanosPerSecond) :
    secondsAmount (Text.ofNat seconds ++ Clock.fractionChars fraction) =
      .ok (seconds * nanosPerSecond + fraction) := by
  have hpoint : '.' ∉ Text.ofNat seconds :=
    Text.not_mem_of_all_isDigit (Text.all_isDigit_ofNat seconds) (by decide)
  unfold secondsAmount
  by_cases hzero : fraction = 0
  · subst hzero
    rw [Clock.fractionChars, if_pos rfl, List.append_nil, Text.cut?_eq_none hpoint]
    simp only [Option.getD_none, wholeAmount_ofNat h]
    rw [if_neg (by decide)]
    rfl
  · obtain ⟨hlength, hvalue⟩ := Clock.fraction_spec hfraction
    have hdigits := Clock.all_isDigit_fraction fraction
    rw [Clock.fractionChars_eq hzero, Text.cut?_append hpoint]
    simp only [Option.getD_some, wholeAmount_ofNat h, utf8ByteSize_of_all_isDigit hdigits]
    rw [hdigits, if_neg (by simpa using hlength)]
    show Except.ok _ = _
    rw [hvalue]

/-! ## Sums of parts -/

namespace Total

/-- The total with more months. `saw` says whether a part was read for them. -/
def plusMonths (t : Total) (months : Nat) (saw : Bool) : Total :=
  { t with months := t.months + months, sawMonths := t.sawMonths || saw }

/-- The total with more nanoseconds. -/
def plusNanos (t : Total) (nanos : Nat) (saw : Bool) : Total :=
  { t with nanos := t.nanos + nanos, sawElapsed := t.sawElapsed || saw }

theorem plusMonths_plusMonths (t : Total) (m n : Nat) (saw saw' : Bool) :
    (t.plusMonths m saw).plusMonths n saw' = t.plusMonths (m + n) (saw || saw') := by
  simp only [plusMonths, Nat.add_assoc, Bool.or_assoc]

theorem plusNanos_plusNanos (t : Total) (m n : Nat) (saw saw' : Bool) :
    (t.plusNanos m saw).plusNanos n saw' = t.plusNanos (m + n) (saw || saw') := by
  simp only [plusNanos, Nat.add_assoc, Bool.or_assoc]

theorem plusMonths_zero (t : Total) : t.plusMonths 0 false = t := by
  simp only [plusMonths, Nat.add_zero, Bool.or_false]

theorem plusNanos_zero (t : Total) : t.plusNanos 0 false = t := by
  simp only [plusNanos, Nat.add_zero, Bool.or_false]

theorem addMonths_eq {t : Total} {n : Nat} (h : t.months + n ≤ maxInt64) :
    t.addMonths n = .ok (t.plusMonths n true) := by
  rw [addMonths, if_pos h, plusMonths, Bool.or_true]

theorem addNanos_eq {t : Total} {n : Nat} (h : t.nanos + n ≤ maxInt128) :
    t.addNanos n = .ok (t.plusNanos n true) := by
  rw [addNanos, if_pos h, plusNanos, Bool.or_true]

end Total

variable {p : Prop} [Decidable p] {amount : List Char} {letter : Char}

/-- A part, unless the condition leaves it out. -/
def partIf (p : Prop) [Decidable p] (amount : List Char) (letter : Char) : List Part :=
  if p then [(amount, letter)] else []

theorem isWritten_partIf (h : IsWritten (amount, letter)) :
    ∀ part ∈ partIf p amount letter, IsWritten part := by
  unfold partIf
  split
  · exact fun part hpart => List.mem_singleton.mp hpart ▸ h
  · nofun

/-- A part may be left out if it would add nothing. -/
theorem foldlM_partIf {step : Total → Part → Except Fault Total} {t : Total} {n : Nat}
    (plus : Nat → Bool → Total) (hzero : plus 0 false = t)
    (hwritten : p → step t (amount, letter) = .ok (plus n true)) (hleft : ¬ p → n = 0) :
    (partIf p amount letter).foldlM step t = .ok (plus n p) := by
  unfold partIf
  split
  case isTrue hp =>
    rw [List.foldlM_cons, hwritten hp, decide_eq_true hp]
    rfl
  case isFalse hp =>
    rw [hleft hp, decide_eq_false hp, hzero]
    rfl

theorem isWritten_ofNat (n : Nat) (h : letter ∈ designators) :
    IsWritten (Text.ofNat n, letter) :=
  ⟨Text.ofNat_ne_nil n, fun c hc => .inl (List.all_eq_true.mp (Text.all_isDigit_ofNat n) c hc), h⟩

theorem isWritten_seconds (seconds fraction : Nat) :
    IsWritten (Text.ofNat seconds ++ Clock.fractionChars fraction, 'S') := by
  refine ⟨by simp [Text.ofNat_ne_nil], ?_, (by decide : 'S' ∈ designators)⟩
  intro c hc
  rcases List.mem_append.mp hc with hc | hc
  · exact .inl (List.all_eq_true.mp (Text.all_isDigit_ofNat seconds) c hc)
  · by_cases hzero : fraction = 0
    · rw [Clock.fractionChars, if_pos hzero] at hc
      cases hc
    · rw [Clock.fractionChars_eq hzero, List.mem_cons] at hc
      rcases hc with rfl | hc
      · exact .inr rfl
      · exact .inl (List.all_eq_true.mp (Clock.all_isDigit_fraction fraction) c hc)

/-! ## The parts of a duration -/

/-- The parts of a number of months. -/
def monthParts (months : Nat) : List Part :=
  partIf (0 < months / 12) (Text.ofNat (months / 12)) 'Y' ++
    partIf (0 < months % 12 ∨ months / 12 = 0) (Text.ofNat (months % 12)) 'M'

/-- The part of the days of a number of nanoseconds. -/
def dayParts (nanos : Nat) : List Part :=
  partIf (0 < nanos / nanosPerDay) (Text.ofNat (nanos / nanosPerDay)) 'D'

/-- The parts of the time of the day of a number of nanoseconds. There is a zero of seconds if no
other part is written. -/
def clockParts (nanos : Nat) : List Part :=
  let hours := nanos / nanosPerHour % 24
  let minutes := nanos / nanosPerMinute % 60
  let seconds := nanos / nanosPerSecond % 60
  let fraction := nanos % nanosPerSecond
  partIf (0 < hours) (Text.ofNat hours) 'H' ++ partIf (0 < minutes) (Text.ofNat minutes) 'M' ++
    partIf (0 < seconds ∨ 0 < fraction ∨ (hours = 0 ∧ minutes = 0))
      (Text.ofNat seconds ++ Clock.fractionChars fraction) 'S'

/-- Whole days are written without a time of the day. -/
def timeParts (nanos : Nat) : List Part :=
  if 0 < nanos % nanosPerDay ∨ nanos / nanosPerDay = 0 then clockParts nanos else []

theorem isWritten_monthParts (months : Nat) : ∀ part ∈ monthParts months, IsWritten part :=
  List.forall_mem_append.mpr ⟨isWritten_partIf (isWritten_ofNat _ (by decide)),
    isWritten_partIf (isWritten_ofNat _ (by decide))⟩

theorem isWritten_dayParts (nanos : Nat) : ∀ part ∈ dayParts nanos, IsWritten part :=
  isWritten_partIf (isWritten_ofNat _ (by decide))

theorem isWritten_timeParts (nanos : Nat) : ∀ part ∈ timeParts nanos, IsWritten part := by
  unfold timeParts
  split
  · dsimp only [clockParts]
    rw [List.forall_mem_append, List.forall_mem_append]
    exact ⟨⟨isWritten_partIf (isWritten_ofNat _ (by decide)),
      isWritten_partIf (isWritten_ofNat _ (by decide))⟩, isWritten_partIf (isWritten_seconds _ _)⟩
  · nofun

theorem partIf_eq_nil_iff :
    partIf p amount letter = [] ↔ ¬ p := by
  unfold partIf
  split <;> simp [*]

theorem monthParts_ne_nil (months : Nat) : monthParts months ≠ [] := by
  rw [monthParts, ne_eq, List.append_eq_nil_iff, partIf_eq_nil_iff, partIf_eq_nil_iff]
  omega

theorem clockParts_ne_nil (nanos : Nat) : clockParts nanos ≠ [] := by
  dsimp only [clockParts]
  rw [ne_eq, List.append_eq_nil_iff, List.append_eq_nil_iff, partIf_eq_nil_iff, partIf_eq_nil_iff,
    partIf_eq_nil_iff]
  omega

theorem sectionChars_partIf (p : Prop) [Decidable p] (amount : List Char) (letter : Char) :
    sectionChars (partIf p amount letter) = if p then amount ++ [letter] else [] := by
  unfold partIf
  split
  · simp [sectionChars]
  · rfl

theorem sectionChars_append (ps qs : List Part) :
    sectionChars (ps ++ qs) = sectionChars ps ++ sectionChars qs := List.flatMap_append

theorem magnitudeChars_eq_monthParts (months : Nat) :
    Months.magnitudeChars months = 'P' :: sectionChars (monthParts months) := by
  rw [monthParts, sectionChars_append, sectionChars_partIf, sectionChars_partIf]
  rfl

theorem timeChars_of_ne_nil (h : ps ≠ []) : timeChars ps = 'T' :: sectionChars ps := by
  cases ps with
  | nil => exact absurd rfl h
  | cons part ps => rfl

theorem magnitudeChars_eq_timeParts (nanos : Nat) : Elapsed.magnitudeChars nanos =
    sectionChars (dayParts nanos) ++ timeChars (timeParts nanos) := by
  dsimp only [Elapsed.magnitudeChars, timeParts, dayParts]
  rw [sectionChars_partIf]
  congr 1
  split
  · rw [timeChars_of_ne_nil (clockParts_ne_nil nanos)]
    dsimp only [clockParts]
    rw [sectionChars_append, sectionChars_append, sectionChars_partIf, sectionChars_partIf,
      sectionChars_partIf]
    rfl
  · rfl

/-! ## What the parts add up to -/

variable {t : Total} {n : Nat}

/-- A part of days or more adds its amount in the unit of its letter, and so does one of hours or
less below. -/
theorem addDatePart_year (t : Total) (h : wholeAmount amount = .ok n) :
    t.addDatePart (amount, 'Y') = t.addMonths (n * 12) := by
  rw [Total.addDatePart, h, ok_bind]
  rfl

theorem addDatePart_month (t : Total) (h : wholeAmount amount = .ok n) :
    t.addDatePart (amount, 'M') = t.addMonths n := by
  rw [Total.addDatePart, h, ok_bind]
  rfl

-- The unit stands in front of the amount, as it does in the reader: the other way round, checking
-- the step would count the unit down.
theorem addDatePart_week (t : Total) (h : wholeAmount amount = .ok n) :
    t.addDatePart (amount, 'W') = t.addNanos (7 * nanosPerDay * n) := by
  rw [Total.addDatePart, h, ok_bind]
  rfl

theorem addDatePart_day (t : Total) (h : wholeAmount amount = .ok n) :
    t.addDatePart (amount, 'D') = t.addNanos (nanosPerDay * n) := by
  rw [Total.addDatePart, h, ok_bind]
  rfl

theorem addTimePart_hour (t : Total) (h : wholeAmount amount = .ok n) :
    t.addTimePart (amount, 'H') = t.addNanos (nanosPerHour * n) := by
  rw [Total.addTimePart, h, ok_bind]
  rfl

theorem addTimePart_minute (t : Total) (h : wholeAmount amount = .ok n) :
    t.addTimePart (amount, 'M') = t.addNanos (nanosPerMinute * n) := by
  rw [Total.addTimePart, h, ok_bind]
  rfl

theorem addTimePart_second (t : Total) (h : secondsAmount amount = .ok n) :
    t.addTimePart (amount, 'S') = t.addNanos n := by
  rw [Total.addTimePart, h, ok_bind]
  rfl

theorem addYearPart (h : t.months + n * 12 ≤ maxInt64) :
    t.addDatePart (Text.ofNat n, 'Y') = .ok (t.plusMonths (n * 12) true) := by
  have hn : n ≤ maxInt64 := by omega
  rw [addDatePart_year t (wholeAmount_ofNat hn), Total.addMonths_eq h]

theorem addMonthPart (h : t.months + n ≤ maxInt64) :
    t.addDatePart (Text.ofNat n, 'M') = .ok (t.plusMonths n true) := by
  have hn : n ≤ maxInt64 := by omega
  rw [addDatePart_month t (wholeAmount_ofNat hn), Total.addMonths_eq h]

theorem addDayPart (h : n ≤ maxInt64) (hsum : t.nanos + n * nanosPerDay ≤ maxInt128) :
    t.addDatePart (Text.ofNat n, 'D') = .ok (t.plusNanos (n * nanosPerDay) true) := by
  rw [addDatePart_day t (wholeAmount_ofNat h), Nat.mul_comm, Total.addNanos_eq hsum]

theorem addHourPart (h : n ≤ maxInt64) (hsum : t.nanos + n * nanosPerHour ≤ maxInt128) :
    t.addTimePart (Text.ofNat n, 'H') = .ok (t.plusNanos (n * nanosPerHour) true) := by
  rw [addTimePart_hour t (wholeAmount_ofNat h), Nat.mul_comm, Total.addNanos_eq hsum]

theorem addMinutePart (h : n ≤ maxInt64) (hsum : t.nanos + n * nanosPerMinute ≤ maxInt128) :
    t.addTimePart (Text.ofNat n, 'M') = .ok (t.plusNanos (n * nanosPerMinute) true) := by
  rw [addTimePart_minute t (wholeAmount_ofNat h), Nat.mul_comm, Total.addNanos_eq hsum]

theorem addSecondPart {fraction : Nat} (h : n ≤ maxInt64) (hfraction : fraction < nanosPerSecond)
    (hsum : t.nanos + (n * nanosPerSecond + fraction) ≤ maxInt128) :
    t.addTimePart (Text.ofNat n ++ Clock.fractionChars fraction, 'S') =
      .ok (t.plusNanos (n * nanosPerSecond + fraction) true) := by
  rw [addTimePart_second t (secondsAmount_ofNat h hfraction), Total.addNanos_eq hsum]

/-- The parts that are written for a number of months add up to it. -/
theorem foldlM_monthParts {months : Nat} {t : Total} (h : t.months + months ≤ maxInt64) :
    (monthParts months).foldlM Total.addDatePart t = .ok (t.plusMonths months true) := by
  have hyears : t.months + months / 12 * 12 ≤ maxInt64 := by omega
  have hrest : (t.plusMonths (months / 12 * 12) (0 < months / 12)).months + months % 12 ≤
      maxInt64 := by
    show t.months + months / 12 * 12 + months % 12 ≤ maxInt64
    omega
  have hsaw : (decide (0 < months / 12) || decide (0 < months % 12 ∨ months / 12 = 0)) = true := by
    rw [Bool.or_eq_true, decide_eq_true_iff, decide_eq_true_iff]
    omega
  rw [monthParts, List.foldlM_append,
    foldlM_partIf _ t.plusMonths_zero (fun _ => addYearPart hyears) (by omega), ok_bind,
    foldlM_partIf _ (Total.plusMonths_zero _) (fun _ => addMonthPart hrest) (by omega),
    Total.plusMonths_plusMonths, hsaw, Nat.div_add_mod']

theorem mul_eq_zero_of_not_pos {n unit : Nat} (h : ¬ 0 < n) : n * unit = 0 := by
  rw [Nat.eq_zero_of_not_pos h, Nat.zero_mul]

theorem foldlM_dayParts {nanos : Nat} {t : Total} (h : nanos ≤ maxInt64 + 1)
    (hsum : t.nanos + nanos ≤ maxInt128) :
    (dayParts nanos).foldlM Total.addDatePart t =
      .ok (t.plusNanos (nanos / nanosPerDay * nanosPerDay) (0 < nanos / nanosPerDay)) := by
  have hdays : nanos / nanosPerDay ≤ maxInt64 :=
    Nat.le_trans (Nat.div_le_div_right h) (by decide)
  have hwhole : t.nanos + nanos / nanosPerDay * nanosPerDay ≤ maxInt128 :=
    Nat.le_trans (Nat.add_le_add_left (Nat.div_mul_le_self ..) _) hsum
  exact foldlM_partIf _ t.plusNanos_zero (fun _ => addDayPart hdays hwhole) mul_eq_zero_of_not_pos

theorem mod_le_maxInt64 (n : Nat) {m : Nat} (hpos : 0 < m) (h : m ≤ maxInt64) :
    n % m ≤ maxInt64 := Nat.le_trans (Nat.le_of_lt (Nat.mod_lt n hpos)) h

theorem foldlM_clockParts {nanos : Nat} {t : Total}
    (h : t.nanos + nanos % nanosPerDay ≤ maxInt128) :
    (clockParts nanos).foldlM Total.addTimePart t =
      .ok (t.plusNanos (nanos % nanosPerDay) true) := by
  have hhour : nanos / nanosPerHour % 24 ≤ maxInt64 := mod_le_maxInt64 _ (by decide) (by decide)
  have hminute : nanos / nanosPerMinute % 60 ≤ maxInt64 := mod_le_maxInt64 _ (by decide) (by decide)
  have hsecond : nanos / nanosPerSecond % 60 ≤ maxInt64 := mod_le_maxInt64 _ (by decide) (by decide)
  have hfraction : nanos % nanosPerSecond < nanosPerSecond := Nat.mod_lt _ (by decide)
  have hlast : ¬ (0 < nanos / nanosPerSecond % 60 ∨ 0 < nanos % nanosPerSecond ∨
      (nanos / nanosPerHour % 24 = 0 ∧ nanos / nanosPerMinute % 60 = 0)) →
      nanos / nanosPerSecond % 60 * nanosPerSecond + nanos % nanosPerSecond = 0 := by
    intro h
    rw [not_or, not_or] at h
    rw [mul_eq_zero_of_not_pos h.1, Nat.eq_zero_of_not_pos h.2.1]
  have hsum : nanos / nanosPerHour % 24 * nanosPerHour +
      (nanos / nanosPerMinute % 60 * nanosPerMinute +
        (nanos / nanosPerSecond % 60 * nanosPerSecond + nanos % nanosPerSecond)) =
      nanos % nanosPerDay := by
    simp only [nanosPerDay, nanosPerHour, nanosPerMinute, nanosPerSecond]
    omega
  have hsaw : (decide (0 < nanos / nanosPerHour % 24) ||
      (decide (0 < nanos / nanosPerMinute % 60) ||
        decide (0 < nanos / nanosPerSecond % 60 ∨ 0 < nanos % nanosPerSecond ∨
          (nanos / nanosPerHour % 24 = 0 ∧ nanos / nanosPerMinute % 60 = 0)))) = true := by
    simp only [Bool.or_eq_true, decide_eq_true_iff]
    omega
  -- The parts are added one after the other, and what is there after each is no more than the sum.
  have hhours : t.nanos + nanos / nanosPerHour % 24 * nanosPerHour ≤ maxInt128 := by omega
  have hminutes : t.nanos + nanos / nanosPerHour % 24 * nanosPerHour +
      nanos / nanosPerMinute % 60 * nanosPerMinute ≤ maxInt128 := by omega
  have hseconds : t.nanos + nanos / nanosPerHour % 24 * nanosPerHour +
      nanos / nanosPerMinute % 60 * nanosPerMinute +
      (nanos / nanosPerSecond % 60 * nanosPerSecond + nanos % nanosPerSecond) ≤ maxInt128 := by
    omega
  dsimp only [clockParts]
  rw [List.foldlM_append, List.foldlM_append,
    foldlM_partIf _ t.plusNanos_zero (fun _ => addHourPart hhour hhours) mul_eq_zero_of_not_pos,
    ok_bind,
    foldlM_partIf _ (Total.plusNanos_zero _) (fun _ => addMinutePart hminute hminutes)
      mul_eq_zero_of_not_pos, ok_bind,
    foldlM_partIf _ (Total.plusNanos_zero _) (fun _ => addSecondPart hsecond hfraction hseconds)
      hlast,
    Total.plusNanos_plusNanos, Total.plusNanos_plusNanos, hsum, hsaw]

theorem foldlM_timeParts {nanos : Nat} {t : Total}
    (h : t.nanos + nanos % nanosPerDay ≤ maxInt128) :
    (timeParts nanos).foldlM Total.addTimePart t = .ok (t.plusNanos (nanos % nanosPerDay)
      (0 < nanos % nanosPerDay ∨ nanos / nanosPerDay = 0)) := by
  unfold timeParts
  split
  case isTrue hp => rw [foldlM_clockParts h, decide_eq_true hp]
  case isFalse hp =>
    have hzero : nanos % nanosPerDay = 0 := by omega
    rw [decide_eq_false hp, hzero, Total.plusNanos_zero]
    rfl

/-! ## Durations -/

/-- The durations that a text can stand for. The months without their sign are a word, and the parts
of a duration of both families do not differ in sign. -/
def IsReadable : Duration → Prop
  | .months m => m.toInt.natAbs ≤ maxInt64
  | .elapsed e => InInt64 e.nanos
  | .composite d => d.months.toInt.natAbs ≤ maxInt64 ∧ InInt64 d.elapsed.nanos ∧
      (0 ≤ d.months.toInt ∧ 0 ≤ d.elapsed.nanos ∨ d.months.toInt ≤ 0 ∧ d.elapsed.nanos ≤ 0)

/-- A number with the sign of the whole duration. -/
def withSign (negative : Bool) (n : Nat) : Int := if negative then -(n : Int) else n

theorem withSign_natAbs {negative : Bool} {n : Int} (h : if negative then n ≤ 0 else 0 ≤ n) :
    withSign negative n.natAbs = n := by
  cases negative with
  | true => exact (congrArg (- ·) (Int.ofNat_natAbs_of_nonpos h)).trans (Int.neg_neg n)
  | false => exact Int.natAbs_of_nonneg h

/-- The duration of months and nanoseconds of which it is known whether they occur. -/
def ofFamilies (m : Months) (e : Elapsed) : Bool → Bool → Duration
  | true, true => .composite ⟨m, e⟩
  | true, false => .months m
  | false, _ => .elapsed e

theorem toDuration_eq (t : Total) (negative : Bool) : t.toDuration negative =
    if InInt64 (withSign negative t.nanos) then
      .ok (ofFamilies ⟨.ofInt (withSign negative t.months)⟩ ⟨withSign negative t.nanos⟩
        t.sawMonths t.sawElapsed)
    else .error .outOfRange := by
  have hfamily : t.toDuration negative =
      if ¬ InInt64 (withSign negative t.nanos) then .error .outOfRange
      else .ok (ofFamilies ⟨.ofInt (withSign negative t.months)⟩ ⟨withSign negative t.nanos⟩
        t.sawMonths t.sawElapsed) := by
    obtain ⟨months, nanos, sawMonths, sawElapsed⟩ := t
    cases sawMonths <;> cases sawElapsed <;> rfl
  rw [hfamily, ite_not]

/-- A total without its sign comes back as what it is the total of. -/
theorem toDuration_natAbs {negative : Bool} {m : Months} {e : Elapsed} {sawMonths sawElapsed : Bool}
    (hm : if negative then m.toInt ≤ 0 else 0 ≤ m.toInt)
    (he : if negative then e.nanos ≤ 0 else 0 ≤ e.nanos) (hrange : InInt64 e.nanos) :
    Total.toDuration ⟨m.toInt.natAbs, e.nanos.natAbs, sawMonths, sawElapsed⟩ negative =
      .ok (ofFamilies m e sawMonths sawElapsed) := by
  rw [toDuration_eq]
  dsimp only
  rw [withSign_natAbs hm, withSign_natAbs he, if_pos hrange, Months.toInt, Int64.ofInt_toInt]

theorem inInt64_withSign {negative : Bool} {n : Nat} (h : n ≤ maxInt64) :
    InInt64 (withSign negative n) := by
  unfold InInt64 withSign
  split <;> omega

/-- What is read from a total is readable. -/
theorem isReadable_of_toDuration {t : Total} {negative : Bool} {d : Duration}
    (hmonths : t.months ≤ maxInt64) (h : t.toDuration negative = .ok d) : d.IsReadable := by
  rw [toDuration_eq] at h
  split at h
  case isFalse => cases h
  case isTrue hrange =>
    obtain rfl := Except.ok.inj h
    have hm : (⟨.ofInt (withSign negative t.months)⟩ : Months).toInt = withSign negative t.months :=
      (inInt64_withSign hmonths).toInt_ofInt
    have habs : (withSign negative t.months).natAbs ≤ maxInt64 := by
      unfold withSign
      split <;> omega
    cases t.sawMonths with
    | false => exact hrange
    | true =>
      cases t.sawElapsed with
      | false => simpa only [ofFamilies, IsReadable, hm] using habs
      | true =>
        simp only [ofFamilies, IsReadable, hm]
        refine ⟨habs, hrange, ?_⟩
        unfold withSign
        split <;> omega

theorem months_le_of_addMonths {t t' : Total} {n : Nat} (h : t.addMonths n = .ok t') :
    t'.months ≤ maxInt64 := by
  unfold Total.addMonths at h
  split at h
  case isTrue hle =>
    obtain rfl := Except.ok.inj h
    exact hle
  case isFalse => cases h

-- It holds for any number, so the units that stand in the steps are never computed with.
theorem months_le_of_addNanos {t t' : Total} {n : Nat} (hle : t.months ≤ maxInt64)
    (h : t.addNanos n = .ok t') : t'.months ≤ maxInt64 := by
  unfold Total.addNanos at h
  split at h
  case isTrue =>
    obtain rfl := Except.ok.inj h
    exact hle
  case isFalse => cases h

theorem months_le_of_addDatePart {t t' : Total} (hle : t.months ≤ maxInt64)
    (h : t.addDatePart part = .ok t') : t'.months ≤ maxInt64 := by
  unfold Total.addDatePart at h
  obtain ⟨amount, -, h⟩ := bind_eq_ok_iff.mp h
  split at h
  · exact months_le_of_addMonths h
  · exact months_le_of_addMonths h
  · exact months_le_of_addNanos hle h
  · exact months_le_of_addNanos hle h
  · cases h

theorem months_le_of_addTimePart {t t' : Total} (hle : t.months ≤ maxInt64)
    (h : t.addTimePart part = .ok t') : t'.months ≤ maxInt64 := by
  unfold Total.addTimePart at h
  split at h
  case h_4 => cases h
  all_goals
    obtain ⟨amount, -, h⟩ := bind_eq_ok_iff.mp h
    exact months_le_of_addNanos hle h

/-- What every step keeps is kept by all of them. -/
theorem foldlM_keeps {P : Total → Prop} {step : Total → Part → Except Fault Total}
    (hstep : ∀ t part t', P t → step t part = .ok t' → P t') {t t' : Total} (ht : P t)
    (h : ps.foldlM step t = .ok t') : P t' := by
  induction ps generalizing t with
  | nil => exact Except.ok.inj h ▸ ht
  | cons part ps ih =>
    rw [List.foldlM_cons] at h
    obtain ⟨next, hnext, h⟩ := bind_eq_ok_iff.mp h
    exact ih (hstep t part next ht hnext) h

theorem isReadable_of_readChars {cs : List Char} {d : Duration} (h : readChars cs = .ok d) :
    d.IsReadable := by
  obtain hnone | ⟨negative, dateSection, timeSection, -, -, hsections⟩ := readChars_cases cs
  · rw [hnone] at h
    cases h
  rw [hsections] at h
  unfold ofSections at h
  split at h
  · cases h
  · obtain ⟨dateParts, -, h⟩ := bind_eq_ok_iff.mp h
    obtain ⟨dated, hdated, h⟩ := bind_eq_ok_iff.mp h
    obtain ⟨total, htotal, h⟩ := bind_eq_ok_iff.mp h
    have hle : dated.months ≤ maxInt64 :=
      foldlM_keeps (P := fun t => t.months ≤ maxInt64)
        (fun _ _ _ hle hstep => months_le_of_addDatePart hle hstep) (Nat.zero_le _) hdated
    refine isReadable_of_toDuration ?_ h
    unfold addTimeSection at htotal
    split at htotal
    · exact Except.ok.inj htotal ▸ hle
    · cases htotal
    · obtain ⟨timeParts, -, htotal⟩ := bind_eq_ok_iff.mp htotal
      exact foldlM_keeps (P := fun t => t.months ≤ maxInt64)
        (fun _ _ _ hle hstep => months_le_of_addTimePart hle hstep) hle htotal

theorem sign_append (negative : Bool) (cs : List Char) :
    (if negative then ['-'] else []) ++ cs = signed negative cs := by
  cases negative <;> rfl

theorem sign_of_isNegative {n : Int} : if decide (n < 0) then n ≤ 0 else 0 ≤ n := by
  split
  case isTrue h => exact Int.le_of_lt (of_decide_eq_true h)
  case isFalse h => simpa using h

theorem readChars_months {m : Months} (h : m.toInt.natAbs ≤ maxInt64) :
    readChars m.toChars = .ok (.months m) := by
  have hchars : m.toChars = signed m.isNegative
      ('P' :: (sectionChars (monthParts m.toInt.natAbs) ++ timeChars [])) := by
    rw [Months.toChars, magnitudeChars_eq_monthParts, sign_append, timeChars, List.append_nil]
  have hsum : addParts ⟨0, 0, false, false⟩ (monthParts m.toInt.natAbs) [] =
      .ok ⟨m.toInt.natAbs, 0, true, false⟩ := by
    rw [addParts, foldlM_monthParts (by rwa [Nat.zero_add]), Total.plusMonths, Nat.zero_add]
    rfl
  rw [hchars, readChars_sections _ (isWritten_monthParts _) (by simp) (.inl (monthParts_ne_nil _)),
    hsum]
  exact toDuration_natAbs (e := ⟨0⟩) sign_of_isNegative (by simp) (by decide)

theorem magnitude_of_inInt64 {e : Elapsed} (h : InInt64 e.nanos) :
    e.magnitude = e.nanos.natAbs := by
  have hmax : maxInt64 + 1 ≤ Elapsed.maxNanos := by decide
  unfold InInt64 at h
  exact Nat.min_eq_left (by omega)

theorem natAbs_le_of_inInt64 {n : Int} (h : InInt64 n) : n.natAbs ≤ maxInt64 + 1 := by
  unfold InInt64 at h
  omega

/-- The parts of the time that has elapsed add up to it, after whatever months were read before. -/
theorem addParts_elapsed {nanos : Nat} {t : Total} (h : nanos ≤ maxInt64 + 1)
    (ht : t.nanos = 0) :
    addParts t (dayParts nanos) (timeParts nanos) = .ok (t.plusNanos nanos true) := by
  have hsum : t.nanos + nanos ≤ maxInt128 := by
    rw [ht, Nat.zero_add]
    exact Nat.le_trans h (by decide)
  have htime : (t.plusNanos (nanos / nanosPerDay * nanosPerDay) (0 < nanos / nanosPerDay)).nanos +
      nanos % nanosPerDay ≤ maxInt128 := by
    rwa [Total.plusNanos, Nat.add_assoc, Nat.div_add_mod']
  have hsaw : (decide (0 < nanos / nanosPerDay) ||
      decide (0 < nanos % nanosPerDay ∨ nanos / nanosPerDay = 0)) = true := by
    rw [Bool.or_eq_true, decide_eq_true_iff, decide_eq_true_iff]
    exact (Nat.eq_zero_or_pos _).elim (fun hdays => .inr (.inr hdays)) .inl
  rw [addParts, foldlM_dayParts h hsum, ok_bind, foldlM_timeParts htime,
    Total.plusNanos_plusNanos, hsaw, Nat.div_add_mod']

theorem elapsedParts_ne_nil (nanos : Nat) : dayParts nanos ≠ [] ∨ timeParts nanos ≠ [] := by
  rcases Nat.eq_zero_or_pos (nanos / nanosPerDay) with hdays | hdays
  · rw [timeParts, if_pos (.inr hdays)]
    exact .inr (clockParts_ne_nil nanos)
  · rw [dayParts, ne_eq, partIf_eq_nil_iff, not_not]
    exact .inl hdays

theorem readChars_elapsed {e : Elapsed} (h : InInt64 e.nanos) :
    readChars e.toChars = .ok (.elapsed e) := by
  have hchars : e.toChars = signed e.isNegative ('P' :: (sectionChars (dayParts e.nanos.natAbs) ++
      timeChars (timeParts e.nanos.natAbs))) := by
    rw [Elapsed.toChars, magnitude_of_inInt64 h, magnitudeChars_eq_timeParts, sign_append]
  have hsum : addParts ⟨0, 0, false, false⟩ (dayParts e.nanos.natAbs) (timeParts e.nanos.natAbs) =
      .ok ⟨0, e.nanos.natAbs, false, true⟩ := by
    rw [addParts_elapsed (natAbs_le_of_inInt64 h) rfl, Total.plusNanos, Nat.zero_add]
    rfl
  rw [hchars, readChars_sections _ (isWritten_dayParts _) (isWritten_timeParts _)
    (elapsedParts_ne_nil _), hsum]
  exact toDuration_natAbs (m := ⟨0⟩) (by simp [Months.toInt]) sign_of_isNegative h

theorem sign_of_composite {m n : Int} (h : 0 ≤ m ∧ 0 ≤ n ∨ m ≤ 0 ∧ n ≤ 0) :
    (if decide (m < 0) || decide (n < 0) then m ≤ 0 else 0 ≤ m) ∧
      (if decide (m < 0) || decide (n < 0) then n ≤ 0 else 0 ≤ n) := by
  by_cases hneg : m < 0 ∨ n < 0
  · rw [if_pos (by simpa using hneg), if_pos (by simpa using hneg)]
    omega
  · rw [if_neg (by simpa using hneg), if_neg (by simpa using hneg)]
    omega

theorem readChars_composite {d : Composite} (h : (Duration.composite d).IsReadable) :
    readChars d.toChars = .ok (.composite d) := by
  obtain ⟨hmonths, hrange, hsigns⟩ := h
  have hchars : d.toChars = signed (d.months.isNegative || d.elapsed.isNegative)
      ('P' :: (sectionChars (monthParts d.months.toInt.natAbs ++ dayParts d.elapsed.nanos.natAbs) ++
        timeChars (timeParts d.elapsed.nanos.natAbs))) := by
    rw [Composite.toChars, magnitude_of_inInt64 hrange, magnitudeChars_eq_timeParts,
      Months.magnitude, Nat.min_eq_left hmonths, magnitudeChars_eq_monthParts, List.append_assoc,
      sign_append, sectionChars_append]
    simp only [List.cons_append, List.append_assoc]
  have hsum : addParts ⟨0, 0, false, false⟩
      (monthParts d.months.toInt.natAbs ++ dayParts d.elapsed.nanos.natAbs)
      (timeParts d.elapsed.nanos.natAbs) =
      .ok ⟨d.months.toInt.natAbs, d.elapsed.nanos.natAbs, true, true⟩ := by
    rw [addParts, List.foldlM_append, foldlM_monthParts (by rwa [Nat.zero_add]), ok_bind]
    show addParts _ _ _ = _
    rw [addParts_elapsed (natAbs_le_of_inInt64 hrange) rfl, Total.plusNanos, Total.plusMonths,
      Nat.zero_add, Nat.zero_add]
    rfl
  rw [hchars, readChars_sections _
    (List.forall_mem_append.mpr ⟨isWritten_monthParts _, isWritten_dayParts _⟩)
    (isWritten_timeParts _) ((elapsedParts_ne_nil _).imp_left (by simp +contextual)), hsum]
  obtain ⟨hm, he⟩ := sign_of_composite hsigns
  exact toDuration_natAbs hm he hrange

theorem readChars_toChars {d : Duration} (h : d.IsReadable) : readChars d.toChars = .ok d := by
  cases d with
  | months m => exact readChars_months h
  | elapsed e => exact readChars_elapsed h
  | composite d => exact readChars_composite h

theorem toText_ofDuration (d : Duration) :
    (Value.ofDuration d).toText = String.ofList d.toChars := by
  cases d with
  | months m => rw [Value.ofDuration, Value.toText, toChars, Months.toText]
  | elapsed e => rw [Value.ofDuration, Value.toText, toChars, Elapsed.toText]
  | composite d => rw [Value.ofDuration, Value.toText, toChars, Composite.toText]

theorem read_eq_ok_iff {text : String} {d : Duration} :
    read text = .ok d ↔ readChars text.toList = .ok d := by
  unfold read
  cases readChars text.toList with
  | ok duration => simp
  | error fault => cases fault <;> simp

theorem isReadable_of_read {text : String} {d : Duration} (h : read text = .ok d) : d.IsReadable :=
  isReadable_of_readChars (read_eq_ok_iff.mp h)

theorem read_toText {d : Duration} (h : d.IsReadable) : read (Value.ofDuration d).toText = .ok d := by
  rw [read_eq_ok_iff, toText_ofDuration, String.toList_ofList]
  exact readChars_toChars h

/-- **A duration that was read reads back from its text.** It is the same duration, so it belongs to
the same family, whatever amounts were zero, repeated or in weeks. The others, which only arithmetic
reaches, are not read from any text, and so not from their own. -/
theorem text_of_read_reads_back (d : Duration) :
    (∀ text, read text = .ok d → read (Value.ofDuration d).toText = .ok d) ∧
      (read (Value.ofDuration d).toText = .ok d ↔ d.IsReadable) :=
  ⟨fun _ h => read_toText (isReadable_of_read h), isReadable_of_read, read_toText⟩

/-- The months are zero and stay written, and the sign is that of the rest. -/
theorem zero_months_read_back :
    let d : Duration := .composite ⟨⟨0⟩, ⟨-1306800000000001⟩⟩
    read "-P0Y2W1DT90M90M0.000000001S" = .ok d ∧
      (Value.ofDuration d).toText = "-P0M15DT3H0.000000001S" ∧
      read (Value.ofDuration d).toText = .ok d := by
  intro d
  have hread : read "-P0Y2W1DT90M90M0.000000001S" = .ok d := rfl
  exact ⟨hread, rfl, (text_of_read_reads_back d).1 _ hread⟩

end Duration

end DecisionModel
