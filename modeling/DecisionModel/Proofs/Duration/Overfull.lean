import DecisionModel.Proofs.Duration.Grammar
import DecisionModel.Proofs.Text.Blank
import DecisionModel.Temporal

/-!
# Durations that are too much to add up

The nanoseconds of a text are added up in a word of 128 bits, and nobody looks whether they still fit
it. Where they do not, the text is neither read nor refused: the evaluation is broken off. What
counts is the text as far as it is added up. Components whose sum is too large may stand in front of
a part that would have been refused, so the texts for which that happens need not be spelled like
durations, and only the sections that are looked at before have to be cut into parts.

With these texts the language of durations is complete: `read_is_exact` says of every text whether it
is read, refused or given up. An amount takes nineteen digits before it comes near a week for every
word, so only a text of more than half a million characters is given up.
-/

namespace DecisionModel

open Calendar

namespace Duration

variable {cs dateSection : List Char} {timeSection : Option (List Char)} {negative : Bool}
  {ps : List Part}

/-! ## Sections that are given up -/

/-- Whether the components in front of a section come to more nanoseconds than a word of 128 bits
holds. What stands behind them has been cut into parts, but not looked at; the months are a word, or
they would have been refused. -/
inductive Overfull : List Char → Option (List Char) → Prop
  | date {date : List DateComponent} {rest : List Part} {timeSection : Option (List Char)} :
      (∀ part ∈ rest, IsCut part) → (date.map (·.months)).sum ≤ maxInt64 →
      maxInt128 < (date.map (·.nanos)).sum →
      Overfull (sectionChars (date.map (·.part) ++ rest)) timeSection
  | time {date : List DateComponent} {time : List TimeComponent} {rest : List Part} :
      (∀ part ∈ rest, IsCut part) → (date.map (·.months)).sum ≤ maxInt64 →
      maxInt128 < (date.map (·.nanos)).sum + (time.map (·.nanos)).sum →
      Overfull (sectionChars (date.map (·.part)))
        (some (sectionChars (time.map (·.part) ++ rest)))

/-- What is left of a text without blanks has sections of which one is overfull. -/
def IsOverfull (text : String) : Prop :=
  ∃ negative dateSection timeSection,
    Text.IsTrimmed text.toList (signed negative ('P' :: joinSections dateSection timeSection)) ∧
      'T' ∉ dateSection ∧ Overfull dateSection timeSection

/-- The total of the components of a date. -/
def dateTotal (date : List DateComponent) : Total :=
  Total.plusAll DateComponent.worth ⟨0, 0, false, false⟩ date

theorem months_dateTotal (date : List DateComponent) :
    (dateTotal date).months = (date.map (·.months)).sum := by
  rw [dateTotal, Total.plusAll_eq]
  exact Nat.zero_add _

theorem nanos_dateTotal (date : List DateComponent) :
    (dateTotal date).nanos = (date.map (·.nanos)).sum := by
  rw [dateTotal, Total.plusAll_eq]
  exact Nat.zero_add _

theorem exceeds_dateTotal_iff {date : List DateComponent} : (dateTotal date).Exceeds ↔
    (date.map (·.months)).sum ≤ maxInt64 ∧ maxInt128 < (date.map (·.nanos)).sum := by
  rw [Total.Exceeds, months_dateTotal, nanos_dateTotal]

theorem exceeds_plusAll_dateTotal_iff {date : List DateComponent} {time : List TimeComponent} :
    ((dateTotal date).plusAll TimeComponent.worth time).Exceeds ↔
      (date.map (·.months)).sum ≤ maxInt64 ∧
        maxInt128 < (date.map (·.nanos)).sum + (time.map (·.nanos)).sum := by
  have hmonths : (time.map fun c => (TimeComponent.worth c).months).sum = 0 := by
    simp [TimeComponent.worth]
  rw [Total.plusAll_eq, Total.Exceeds, hmonths, months_dateTotal, nanos_dateTotal, Nat.add_zero]
  rfl

theorem parts_ne_sumTooLarge (acc : List Char) : partsFrom acc cs ≠ .error .sumTooLarge := by
  intro h
  induction cs generalizing acc with
  | nil =>
    rw [partsFrom] at h
    split at h <;> cases h
  | cons c cs ih =>
    rw [partsFrom] at h
    split at h
    · split at h
      · cases h
      · cases hrest : partsFrom [] cs with
        | ok ps =>
          rw [hrest] at h
          cases h
        | error fault =>
          rw [hrest] at h
          cases h
          exact ih [] hrest
    · exact ih (c :: acc) h

theorem isCut_append {α : Type} {toPart : α → Part} (hwritten : ∀ c, IsWritten (toPart c))
    (components : List α) {rest : List Part} (h : ∀ part ∈ rest, IsCut part) :
    ∀ part ∈ components.map toPart ++ rest, IsCut part :=
  List.forall_mem_append.mpr ⟨List.forall_mem_map.mpr fun c _ => (hwritten c).isCut, h⟩

/-- The section of the time gives up what its components add to a total too large for it. -/
theorem addTimeSection_eq_sumTooLarge_iff {t : Total} (ht : t.Fits) :
    addTimeSection t timeSection = .error .sumTooLarge ↔
      ∃ (time : List TimeComponent) (rest : List Part),
        timeSection = some (sectionChars (time.map (·.part) ++ rest)) ∧
          (∀ part ∈ rest, IsCut part) ∧ (t.plusAll TimeComponent.worth time).Exceeds := by
  constructor
  · intro h
    unfold addTimeSection at h
    split at h
    · cases h
    · cases h
    · next cs _ =>
      rcases bind_eq_error_iff.mp h with hparts | ⟨ps, hparts, hadded⟩
      · exact absurd hparts (parts_ne_sumTooLarge [])
      · obtain ⟨time, rest, rfl, hexceeds⟩ :=
          (TimeComponent.addsUp.foldlM_eq_sumTooLarge_iff ht).mp hadded
        have hcut := (List.forall_mem_append.mp (isCut_of_parts hparts)).2
        exact ⟨time, rest, congrArg some (eq_sectionChars_of_parts hparts), hcut, hexceeds⟩
  · rintro ⟨time, rest, rfl, hcut, hexceeds⟩
    have hparts := parts_sectionChars (isCut_append TimeComponent.isWritten time hcut)
    have hadded := (TimeComponent.addsUp.foldlM_eq_sumTooLarge_iff ht).mpr
      ⟨time, rest, rfl, hexceeds⟩
    unfold addTimeSection
    split
    · next hnone => cases hnone
    · next hempty =>
      -- without components nothing was added
      rw [Option.some.inj hempty] at hparts
      rw [← Except.ok.inj hparts] at hadded
      cases hadded
    · next hsome =>
      rw [← Option.some.inj hsome, hparts, ok_bind, hadded]

/-- Components that are too much come up in the sum over the sections. -/
theorem overfull_of_ofSections
    (h : ofSections negative dateSection timeSection = .error .sumTooLarge) :
    Overfull dateSection timeSection := by
  unfold ofSections at h
  split at h
  · cases h
  rcases bind_eq_error_iff.mp h with hparts | ⟨ps, hparts, hadded⟩
  · exact absurd hparts (parts_ne_sumTooLarge [])
  obtain rfl := eq_sectionChars_of_parts hparts
  rcases bind_eq_error_iff.mp hadded with hdate | ⟨dated, hdated, htimed⟩
  · obtain ⟨date, rest, rfl, hexceeds⟩ :=
      (DateComponent.addsUp.foldlM_eq_sumTooLarge_iff fits_zero).mp hdate
    obtain ⟨hmonths, hnanos⟩ := exceeds_dateTotal_iff.mp hexceeds
    exact .date (List.forall_mem_append.mp (isCut_of_parts hparts)).2 hmonths hnanos
  obtain ⟨date, rfl⟩ := DateComponent.addsUp.exists_components hdated
  obtain ⟨hfits, rfl⟩ := (DateComponent.addsUp.foldlM_eq_ok_iff fits_zero date).mp hdated
  rcases bind_eq_error_iff.mp htimed with htime | ⟨total, -, hsigned⟩
  · obtain ⟨time, rest, rfl, hcut, hexceeds⟩ := (addTimeSection_eq_sumTooLarge_iff hfits).mp htime
    obtain ⟨hmonths, hnanos⟩ := exceeds_plusAll_dateTotal_iff.mp hexceeds
    exact .time hcut hmonths hnanos
  · rw [toDuration_eq] at hsigned
    split at hsigned <;> cases hsigned

theorem Overfull.not_empty (h : Overfull dateSection timeSection) :
    ¬(dateSection.isEmpty ∧ timeSection.isNone) := by
  rintro ⟨hempty, hnone⟩
  cases h with
  | @date date rest _ _ _ hnanos =>
    cases date with
    | nil => exact absurd hnanos (Nat.not_lt_zero _)
    | cons c date =>
      exact sectionChars_ne_nil (List.cons_ne_nil _ _) (List.isEmpty_iff.mp hempty)
  | time _ _ _ => cases hnone

theorem parts_date (date : List DateComponent) :
    parts (sectionChars (date.map (·.part))) = .ok (date.map (·.part)) := by
  have hparts := parts_sectionChars
    (isCut_append DateComponent.isWritten date (List.forall_mem_nil _))
  rwa [List.append_nil] at hparts

theorem Overfull.ofSections_eq (h : Overfull dateSection timeSection) :
    ofSections negative dateSection timeSection = .error .sumTooLarge := by
  rw [ofSections, if_neg h.not_empty]
  cases h with
  | @date date rest _ hcut hmonths hnanos =>
    have hparts := parts_sectionChars (isCut_append DateComponent.isWritten date hcut)
    have hadded := (DateComponent.addsUp.foldlM_eq_sumTooLarge_iff fits_zero).mpr
      ⟨date, rest, rfl, exceeds_dateTotal_iff.mpr ⟨hmonths, hnanos⟩⟩
    rw [hparts, ok_bind, hadded, error_bind]
  | @time date time rest hcut hmonths hnanos =>
    rw [parts_date, ok_bind]
    -- the date alone may be too much already
    by_cases hdate : (date.map (·.nanos)).sum ≤ maxInt128
    · have hfits : (dateTotal date).Fits := by
        rw [Total.Fits, months_dateTotal, nanos_dateTotal]
        exact ⟨hmonths, hdate⟩
      have hdated := (DateComponent.addsUp.foldlM_eq_ok_iff fits_zero date).mpr ⟨hfits, rfl⟩
      have htime := (addTimeSection_eq_sumTooLarge_iff hfits).mpr
        ⟨time, rest, rfl, hcut, exceeds_plusAll_dateTotal_iff.mpr ⟨hmonths, hnanos⟩⟩
      rw [hdated, ok_bind]
      exact congrArg (· >>= fun t => t.toDuration negative) htime
    · have hexceeds := exceeds_dateTotal_iff.mpr ⟨hmonths, Nat.not_le.mp hdate⟩
      rw [(DateComponent.addsUp.foldlM_eq_sumTooLarge_iff fits_zero).mpr
        ⟨date, [], (List.append_nil _).symm, hexceeds⟩, error_bind]

theorem ofSections_eq_sumTooLarge_iff :
    ofSections negative dateSection timeSection = .error .sumTooLarge ↔
      Overfull dateSection timeSection :=
  ⟨overfull_of_ofSections, Overfull.ofSections_eq⟩

theorem cutSections_joinSections (h : 'T' ∉ dateSection) :
    cutSections (joinSections dateSection timeSection) = (dateSection, timeSection) := by
  unfold cutSections
  cases timeSection with
  | none => rw [joinSections, Text.cut?_eq_none h]
  | some time => rw [joinSections, Text.cut?_append h]

theorem readChars_eq_sumTooLarge_iff {text : String} :
    readChars text.toList = .error .sumTooLarge ↔ IsOverfull text := by
  constructor
  · intro h
    obtain hnone | ⟨negative, dateSection, timeSection, htrim, hmark, hread⟩ :=
      readChars_cases text.toList
    · rw [hnone] at h
      cases h
    · rw [hread, ofSections_eq_sumTooLarge_iff] at h
      exact ⟨negative, dateSection, timeSection, Text.trim_eq_iff.mp htrim, hmark, h⟩
  · rintro ⟨negative, dateSection, timeSection, htrim, hmark, hoverfull⟩
    rw [readChars_of_signed (Text.trim_eq_iff.mpr htrim), cutSections_joinSections hmark]
    exact ofSections_eq_sumTooLarge_iff.mpr hoverfull

/-! ## How much a text can say -/

/-- The nanoseconds of the most weeks that an amount can be. -/
def mostNanos : Nat := maxInt64 * (7 * nanosPerDay)

theorem Amount.value_lt (a : Amount) : a.value < tenTo a.digits.length := by
  rw [← a.valueOf_eq]
  exact Text.valueOf_lt a.all

/-- The largest amount takes nineteen digits, and a smaller one is worth less for its length. -/
theorem Amount.value_le (a : Amount) : 19 * a.value ≤ (a.digits.length + 1) * maxInt64 := by
  rcases Nat.lt_or_ge a.digits.length 18 with hshort | hlong
  · have hvalue : a.value < tenTo 17 :=
      a.value_lt.trans_le (Nat.pow_le_pow_right (by decide) (by omega))
    calc 19 * a.value ≤ 19 * tenTo 17 := Nat.mul_le_mul_left 19 hvalue.le
      _ ≤ maxInt64 := by decide
      _ ≤ (a.digits.length + 1) * maxInt64 := Nat.le_mul_of_pos_left _ (Nat.succ_pos _)
  · exact Nat.mul_le_mul (by omega) a.le_maxInt64

theorem Decimals.nanos_lt (d : Decimals) : d.nanos < nanosPerSecond := by
  have hvalue : Nat.ofDigitChars 10 d.digits 0 < tenTo d.digits.length := by
    rw [← Text.valueOf_eq d.all]
    exact Text.valueOf_lt d.all
  calc d.nanos < tenTo d.digits.length * tenTo (9 - d.digits.length) :=
      Nat.mul_lt_mul_of_pos_right hvalue (tenTo_pos _)
    _ = tenTo 9 := by rw [← tenTo_add, Nat.add_sub_cancel' d.length_le]

theorem DateComponent.nanos_le (c : DateComponent) :
    19 * c.nanos ≤ (c.part.1.length + 1) * mostNanos := by
  have hunit : c.unit.nanos ≤ 7 * nanosPerDay := by cases c.unit <;> decide
  calc 19 * c.nanos = 19 * c.amount.value * c.unit.nanos := (Nat.mul_assoc ..).symm
    _ ≤ (c.amount.digits.length + 1) * maxInt64 * (7 * nanosPerDay) :=
      Nat.mul_le_mul c.amount.value_le hunit
    _ = (c.part.1.length + 1) * mostNanos := Nat.mul_assoc ..

/-- A component of the time is worth at most as many hours as its amount says, and one more for the
decimals. -/
theorem TimeComponent.exists_amount (c : TimeComponent) : ∃ a : Amount,
    a.digits.length ≤ c.part.1.length ∧ c.nanos ≤ (a.value + 1) * nanosPerHour := by
  cases c with
  | hours a =>
    exact ⟨a, Nat.le_refl _, Nat.mul_le_mul_right _ (Nat.le_succ _)⟩
  | minutes a =>
    exact ⟨a, Nat.le_refl _, Nat.mul_le_mul (Nat.le_succ _) (by decide)⟩
  | seconds a d =>
    cases d with
    | none => exact ⟨a, Nat.le_refl _, Nat.mul_le_mul (Nat.le_succ _) (by decide)⟩
    | some d =>
      refine ⟨a, by simp [part], ?_⟩
      calc nanos (.seconds a (some d)) ≤ (a.value + 1) * nanosPerSecond := by
            rw [nanos, Nat.succ_mul]
            exact Nat.add_le_add_left d.nanos_lt.le _
        _ ≤ (a.value + 1) * nanosPerHour := Nat.mul_le_mul_left _ (by decide)

theorem TimeComponent.nanos_le (c : TimeComponent) :
    19 * c.nanos ≤ (c.part.1.length + 1) * mostNanos := by
  obtain ⟨a, hlength, hnanos⟩ := c.exists_amount
  have hmany : maxInt64 * nanosPerHour + 19 * nanosPerHour ≤ mostNanos := by decide
  calc 19 * c.nanos ≤ 19 * ((a.value + 1) * nanosPerHour) := Nat.mul_le_mul_left 19 hnanos
    _ = 19 * a.value * nanosPerHour + 19 * nanosPerHour := by
      rw [Nat.succ_mul a.value, Nat.mul_add, Nat.mul_assoc]
    _ ≤ (a.digits.length + 1) * maxInt64 * nanosPerHour + 19 * nanosPerHour :=
      Nat.add_le_add_right (Nat.mul_le_mul_right _ a.value_le) _
    _ ≤ (a.digits.length + 1) * (maxInt64 * nanosPerHour + 19 * nanosPerHour) := by
      rw [Nat.mul_add, Nat.mul_assoc]
      exact Nat.add_le_add_left (Nat.le_mul_of_pos_left _ (Nat.succ_pos _)) _
    _ ≤ (c.part.1.length + 1) * mostNanos := Nat.mul_le_mul (by omega) hmany

theorem sum_nanos_le {α : Type} {toPart : α → Part} {nanos : α → Nat}
    (h : ∀ c, 19 * nanos c ≤ ((toPart c).1.length + 1) * mostNanos) (cs : List α) :
    19 * (cs.map nanos).sum ≤ (sectionChars (cs.map toPart)).length * mostNanos := by
  induction cs with
  | nil => exact Nat.zero_le _
  | cons c cs ih =>
    have hlength : (sectionChars ((c :: cs).map toPart)).length =
        ((toPart c).1.length + 1) + (sectionChars (cs.map toPart)).length := by
      simp only [List.map_cons, sectionChars, List.flatMap_cons, List.length_append,
        List.length_singleton]
    rw [List.map_cons, List.sum_cons, hlength, Nat.mul_add, Nat.add_mul]
    exact Nat.add_le_add (h c) ih

theorem length_sectionChars_append_le (ps qs : List Part) :
    (sectionChars ps).length ≤ (sectionChars (ps ++ qs)).length := by
  rw [sectionChars_append, List.length_append]
  exact Nat.le_add_right _ _

/-- The components of an overfull text are worth no more than its length allows. -/
theorem Overfull.lt_length (h : Overfull dateSection timeSection) :
    19 * maxInt128 < (joinSections dateSection timeSection).length * mostNanos := by
  cases h with
  | @date date rest timeSection _ _ hnanos =>
    have hlength : (sectionChars (date.map (·.part) ++ rest)).length ≤
        (joinSections (sectionChars (date.map (·.part) ++ rest)) timeSection).length := by
      cases timeSection with
      | none => exact Nat.le_refl _
      | some time =>
        rw [joinSections, List.length_append]
        exact Nat.le_add_right _ _
    calc 19 * maxInt128 < 19 * (date.map (·.nanos)).sum :=
        Nat.mul_lt_mul_of_pos_left hnanos (by decide)
      _ ≤ (sectionChars (date.map (·.part))).length * mostNanos :=
        sum_nanos_le DateComponent.nanos_le date
      _ ≤ _ := Nat.mul_le_mul_right _ ((length_sectionChars_append_le _ rest).trans hlength)
  | @time date time rest _ _ hnanos =>
    have hlength : (sectionChars (date.map (·.part))).length +
        (sectionChars (time.map (·.part))).length ≤
          (joinSections (sectionChars (date.map (·.part)))
            (some (sectionChars (time.map (·.part) ++ rest)))).length := by
      have hrest := length_sectionChars_append_le (time.map (·.part)) rest
      rw [joinSections, List.length_append, List.length_cons]
      omega
    calc 19 * maxInt128 < 19 * ((date.map (·.nanos)).sum + (time.map (·.nanos)).sum) :=
          Nat.mul_lt_mul_of_pos_left hnanos (by decide)
      _ ≤ ((sectionChars (date.map (·.part))).length +
            (sectionChars (time.map (·.part))).length) * mostNanos := by
          rw [Nat.mul_add, Nat.add_mul]
          exact Nat.add_le_add (sum_nanos_le DateComponent.nanos_le date)
            (sum_nanos_le TimeComponent.nanos_le time)
      _ ≤ _ := Nat.mul_le_mul_right _ hlength

/-- A text has to be long to be overfull. -/
theorem not_isOverfull_of_length {text : String} (h : text.length ≤ 500000) : ¬IsOverfull text := by
  rintro ⟨negative, dateSection, timeSection, htrim, -, hoverfull⟩
  have hlength : (joinSections dateSection timeSection).length ≤ 500000 := by
    have hle := htrim.length_le
    have hsigned : (joinSections dateSection timeSection).length ≤
        (signed negative ('P' :: joinSections dateSection timeSection)).length := by
      unfold signed
      split
      · simp only [List.length_cons]
        omega
      · exact Nat.le_succ _
    rw [String.length_toList] at hle
    omega
  have hfew : 500000 * mostNanos ≤ 19 * maxInt128 := by decide
  have hmany := hoverfull.lt_length
  exact absurd (Nat.lt_of_lt_of_le hmany (Nat.mul_le_mul_right _ hlength)) (Nat.not_lt.mpr hfew)

/-! ## The language -/

variable {text : String}

theorem read_eq_brokenOff_iff {cause : Breakdown} :
    read text = .error (.brokenOff cause) ↔ cause = .addedNanoseconds ∧ IsOverfull text := by
  rw [← readChars_eq_sumTooLarge_iff]
  unfold read
  cases readChars text.toList with
  | ok duration => simp
  | error fault => cases fault <;> simp [eq_comm]

/-- What a text that does not read and is not given up comes to. -/
theorem exists_fault_iff :
    (∃ fault, read text = .error (.invalidArgument "duration" (.durationText text fault))) ↔
      ¬IsOverfull text ∧ ∀ d, read text ≠ .ok d := by
  rw [← readChars_eq_sumTooLarge_iff]
  unfold read
  cases readChars text.toList with
  | ok duration => simp
  | error fault => cases fault <;> simp

/-- A text reads as a duration if it is spelled like it, and in range. -/
theorem read_eq_ok_iff_spelled {d : Duration} : read text = .ok d ↔
    ∃ s : Spelling, Text.IsTrimmed text.toList s.chars ∧ s.InRange ∧ s.Denotes d := by
  simp only [read_eq_ok_iff, readChars_eq_ok_iff, Text.trim_eq_iff]

theorem forall_read_ne_ok_iff : (∀ d, read text ≠ .ok d) ↔
    (¬∃ s : Spelling, Text.IsTrimmed text.toList s.chars) ∨
      ∃ s : Spelling, Text.IsTrimmed text.toList s.chars ∧ ¬s.InRange := by
  constructor
  · intro hread
    by_cases hspelled : ∃ s : Spelling, Text.IsTrimmed text.toList s.chars
    · obtain ⟨s, hs⟩ := hspelled
      refine .inr ⟨s, hs, fun hrange => ?_⟩
      have hdenotes : s.Denotes s.duration := (Spelling.denotes_iff hrange).mpr rfl
      exact hread s.duration (read_eq_ok_iff_spelled.mpr ⟨s, hs, hrange, hdenotes⟩)
    · exact .inl hspelled
  · rintro (hspelled | ⟨s, hs, hrange⟩) d hread
    · obtain ⟨s, hs, -⟩ := read_eq_ok_iff_spelled.mp hread
      exact hspelled ⟨s, hs⟩
    · -- a text that reads has no spelling out of range
      rw [read_eq_ok_iff, Spelling.readChars_of_trim (Text.trim_eq_iff.mpr hs)] at hread
      exact hrange hread.1

/-- **The texts that read as durations are those of the spellings in range.** Such a text stands for
the exact signed sum of its components, in the family of its letters. Every other text, one that is
not spelled like a duration or whose months or nanoseconds are not words, is refused under the name
of the function, with the text and a fault, unless it is overfull: then the evaluation is broken
off. No text of up to half a million characters is overfull. -/
theorem read_is_exact (text : String) :
    (∀ d, read text = .ok d ↔
      ∃ s : Spelling, Text.IsTrimmed text.toList s.chars ∧ s.InRange ∧ s.Denotes d) ∧
    ((∃ fault, read text = .error (.invalidArgument "duration" (.durationText text fault))) ↔
      ¬IsOverfull text ∧ ((¬∃ s : Spelling, Text.IsTrimmed text.toList s.chars) ∨
        ∃ s : Spelling, Text.IsTrimmed text.toList s.chars ∧ ¬s.InRange)) ∧
    (read text = .error (.brokenOff .addedNanoseconds) ↔ IsOverfull text) ∧
    (text.length ≤ 500000 → ¬IsOverfull text) := by
  refine ⟨fun d => read_eq_ok_iff_spelled, ?_, ?_, not_isOverfull_of_length⟩
  · rw [exists_fault_iff, forall_read_ne_ok_iff]
  · rw [read_eq_brokenOff_iff, and_iff_right rfl]

/-- A year, two weeks, a day, ninety minutes and half a second, back. -/
def fortnight : Spelling where
  negative := true
  date := [⟨⟨['1'], by decide, List.all_eq_true.mp rfl, by decide⟩, .year⟩,
    ⟨⟨['2'], by decide, List.all_eq_true.mp rfl, by decide⟩, .week⟩,
    ⟨⟨['1'], by decide, List.all_eq_true.mp rfl, by decide⟩, .day⟩]
  time := [.minutes ⟨['9', '0'], by decide, List.all_eq_true.mp rfl, by decide⟩,
    .seconds ⟨['0'], by decide, List.all_eq_true.mp rfl, by decide⟩
      (some ⟨['5'], List.all_eq_true.mp rfl, by decide⟩)]
  ne_nil := .inl (List.cons_ne_nil _ _)

theorem fortnight_read_and_month_refused :
    read " -P1Y2W1DT90M0.5S\n" = .ok (.composite ⟨⟨-12⟩, ⟨-1301400500000000⟩⟩) ∧
      ¬IsOverfull " -P1Y2W1DT90M0.5S\n" ∧
      (∃ fault, read "P1M1" = .error (.invalidArgument "duration" (.durationText "P1M1" fault))) ∧
      ¬∃ s : Spelling, Text.IsTrimmed "P1M1".toList s.chars ∧ s.InRange := by
  obtain ⟨hok, -, -, hshort⟩ := read_is_exact " -P1Y2W1DT90M0.5S\n"
  have hspelled : Text.IsTrimmed " -P1Y2W1DT90M0.5S\n".toList fortnight.chars :=
    Text.trim_eq_iff.mp rfl
  have hdenotes : fortnight.Denotes (.composite ⟨⟨-12⟩, ⟨-1301400500000000⟩⟩) :=
    ⟨rfl, rfl, rfl, rfl⟩
  refine ⟨(hok _).mpr ⟨fortnight, hspelled, by decide, hdenotes⟩, hshort (by decide),
    ⟨.withoutDesignator ['1'], rfl⟩, ?_⟩
  rintro ⟨s, hs, hrange⟩
  have hread := ((read_is_exact "P1M1").1 s.duration).mpr
    ⟨s, hs, hrange, (Spelling.denotes_iff hrange).mpr rfl⟩
  cases hread

/-- As many weeks as an amount can be. -/
def mostWeeks : DateComponent where
  amount := ⟨"9223372036854775807".toList, by decide, List.all_eq_true.mp rfl, by decide⟩
  unit := .week

theorem sectionChars_replicate (n : Nat) (c : DateComponent) :
    sectionChars ((List.replicate n c).map (·.part)) =
      (List.replicate n (c.part.1 ++ [c.part.2])).flatten := by
  rw [List.map_replicate, sectionChars, List.flatMap_def, List.map_replicate]

/-- The most weeks, and then again as many, until no word of 128 bits holds them. -/
def weeksOnWeeks : Spelling where
  negative := false
  date := List.replicate 30501 mostWeeks
  time := []
  ne_nil := .inl fun h => absurd (congrArg List.length h) (by rw [List.length_replicate]; decide)

theorem overfull_weeksOnWeeks : Overfull (sectionChars (weeksOnWeeks.date.map (·.part))) none := by
  have hnanos : maxInt128 < (weeksOnWeeks.date.map (·.nanos)).sum := by
    rw [weeksOnWeeks, List.map_replicate, List.sum_replicate_nat]
    decide
  have hmonths : (weeksOnWeeks.date.map (·.months)).sum ≤ maxInt64 := by
    rw [weeksOnWeeks, List.map_replicate, List.sum_replicate_nat]
    decide
  have hoverfull : Overfull _ none := .date (List.forall_mem_nil _) hmonths hnanos
  rwa [List.append_nil] at hoverfull

/-- It is spelled like a duration and out of range, and yet it is not refused. -/
theorem weeks_on_weeks_given_up :
    let text := String.ofList ('P' :: (List.replicate 30501 "9223372036854775807W".toList).flatten)
    Text.IsTrimmed text.toList weeksOnWeeks.chars ∧ ¬weeksOnWeeks.InRange ∧
      read text = .error (.brokenOff .addedNanoseconds) := by
  intro text
  have hpart : mostWeeks.part.1 ++ [mostWeeks.part.2] = "9223372036854775807W".toList := by decide
  have hsection : text.toList = 'P' :: sectionChars (weeksOnWeeks.date.map (·.part)) := by
    rw [String.toList_ofList, weeksOnWeeks, sectionChars_replicate, hpart]
  have hchars : text.toList = weeksOnWeeks.chars := by
    rw [hsection, Spelling.chars, weeksOnWeeks, List.map_nil, timeChars, List.append_nil, signed,
      if_neg Bool.false_ne_true]
  have htrim : Text.IsTrimmed text.toList weeksOnWeeks.chars := by
    rw [← Text.trim_eq_iff, hchars]
    exact Text.trim_of_solid weeksOnWeeks.solid_chars
  have hoverfull : IsOverfull text := by
    refine ⟨false, _, none, ?_, ?_, overfull_weeksOnWeeks⟩
    · rw [signed, if_neg Bool.false_ne_true, joinSections, ← hsection, hchars]
      rwa [hchars] at htrim
    · exact not_mem_sectionChars weeksOnWeeks.isWritten_date
  have hread : read text = .error (.brokenOff .addedNanoseconds) :=
    read_eq_brokenOff_iff.mpr ⟨rfl, hoverfull⟩
  refine ⟨htrim, fun hrange => ?_, hread⟩
  have hok := (Spelling.readChars_of_trim (Text.trim_eq_iff.mpr htrim)).mpr ⟨hrange, rfl⟩
  rw [read_eq_ok_iff.mpr hok] at hread
  cases hread

end Duration
end DecisionModel
