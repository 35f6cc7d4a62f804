import DecisionModel.Proofs.Duration.Text
import Mathlib.Algebra.GroupWithZero.Nat

/-!
# The language of durations

The texts that read as durations, given by what they are made of: a sign, components of days and
more, and components of hours and less. A `Spelling` holds its components together with what makes
them well-formed, so that every spelling has a text, and the two main facts are about all of them.
A text that reads is the text of a spelling, and the text of a spelling reads as the exact sum of
its components, unless the months or the nanoseconds leave their words.

The reader cuts a section at its letters before it looks at an amount. So one direction goes from
parts to components, one part after the other, and in the other one a fold over the components is
computed in closed form. Both are facts about one section, and the two sections differ only in what
their components are (`AddsUp`).
-/

namespace DecisionModel

open Calendar

namespace Duration

/-! ## Spellings -/

/-- A whole amount, in digits. -/
structure Amount where
  digits : List Char
  ne_nil : digits ≠ []
  all_isDigit : ∀ c ∈ digits, c.isDigit = true
  le_maxInt64 : Nat.ofDigitChars 10 digits 0 ≤ maxInt64

def Amount.value (a : Amount) : Nat := Nat.ofDigitChars 10 a.digits 0

/-- The digits after the point of an amount of seconds. There may be none of them. -/
structure Decimals where
  digits : List Char
  all_isDigit : ∀ c ∈ digits, c.isDigit = true
  length_le : digits.length ≤ 9

/-- The nanoseconds that decimals of a second stand for. -/
def Decimals.nanos (d : Decimals) : Nat :=
  Nat.ofDigitChars 10 d.digits 0 * tenTo (9 - d.digits.length)

inductive DateUnit where
  | year
  | month
  | week
  | day
  deriving DecidableEq, Repr

namespace DateUnit

@[simp] def letter : DateUnit → Char
  | .year => 'Y'
  | .month => 'M'
  | .week => 'W'
  | .day => 'D'

@[simp] def months : DateUnit → Nat
  | .year => 12
  | .month => 1
  | .week => 0
  | .day => 0

@[simp] def nanos : DateUnit → Nat
  | .year => 0
  | .month => 0
  | .week => 7 * nanosPerDay
  | .day => nanosPerDay

/-- Whether the unit counts months; the others have a fixed length. -/
@[simp] def isMonths : DateUnit → Bool
  | .year => true
  | .month => true
  | .week => false
  | .day => false

end DateUnit

/-- A component in front of the `T`. -/
structure DateComponent where
  amount : Amount
  unit : DateUnit

namespace DateComponent

def months (c : DateComponent) : Nat := c.amount.value * c.unit.months

def nanos (c : DateComponent) : Nat := c.amount.value * c.unit.nanos

def part (c : DateComponent) : Part := (c.amount.digits, c.unit.letter)

end DateComponent

/-- A component after the `T`. Only seconds may have a point. -/
inductive TimeComponent where
  | hours (amount : Amount)
  | minutes (amount : Amount)
  | seconds (amount : Amount) (decimals : Option Decimals)

namespace TimeComponent

def nanos : TimeComponent → Nat
  | .hours a => a.value * nanosPerHour
  | .minutes a => a.value * nanosPerMinute
  | .seconds a none => a.value * nanosPerSecond
  | .seconds a (some d) => a.value * nanosPerSecond + d.nanos

def part : TimeComponent → Part
  | .hours a => (a.digits, 'H')
  | .minutes a => (a.digits, 'M')
  | .seconds a none => (a.digits, 'S')
  | .seconds a (some d) => (a.digits ++ '.' :: d.digits, 'S')

end TimeComponent

/-- What a text of a duration is made of. -/
structure Spelling where
  negative : Bool
  date : List DateComponent
  time : List TimeComponent
  ne_nil : date ≠ [] ∨ time ≠ []

namespace Spelling

/-- The form `[-]P`, the components of the date, and if there are any, a `T` and those of the
time. -/
def chars (s : Spelling) : List Char :=
  signed s.negative
    ('P' :: (sectionChars (s.date.map (·.part)) ++ timeChars (s.time.map (·.part))))

/-- The months in total, without the sign. -/
def months (s : Spelling) : Nat := (s.date.map (·.months)).sum

/-- The nanoseconds in total, without the sign. -/
def nanos (s : Spelling) : Nat := (s.date.map (·.nanos)).sum + (s.time.map (·.nanos)).sum

/-- Whether a letter occurs that stands for months. -/
def hasMonths (s : Spelling) : Bool := s.date.any (·.unit.isMonths)

/-- Whether a letter occurs that stands for a length of time. -/
def hasElapsed (s : Spelling) : Bool := s.date.any (!·.unit.isMonths) || !s.time.isEmpty

/-- Whether the totals are words: the months without the sign, the nanoseconds with it. -/
def InRange (s : Spelling) : Prop :=
  s.months ≤ maxInt64 ∧ InInt64 (withSign s.negative s.nanos)

instance (s : Spelling) : Decidable s.InRange := inferInstanceAs (Decidable (_ ∧ _))

/-- The family is that of the letters that occur, and the amount is the exact signed sum. -/
def Denotes (s : Spelling) : Duration → Prop
  | .months m =>
    s.hasMonths = true ∧ s.hasElapsed = false ∧ m.toInt = withSign s.negative s.months
  | .elapsed e => s.hasMonths = false ∧ e.nanos = withSign s.negative s.nanos
  | .composite d => s.hasMonths = true ∧ s.hasElapsed = true ∧
      d.months.toInt = withSign s.negative s.months ∧
        d.elapsed.nanos = withSign s.negative s.nanos

end Spelling

/-! ## Amounts -/

variable {cs : List Char} {part : Part} {ps : List Part} {t t' : Total} {n : Nat}

theorem all_isDigit_iff : cs.all Text.isDigit = true ↔ ∀ c ∈ cs, c.isDigit = true := by
  rw [List.all_eq_true]
  exact forall₂_congr fun c _ => by rw [Text.isDigit_eq]

theorem Amount.all (a : Amount) : a.digits.all Text.isDigit = true :=
  all_isDigit_iff.mpr a.all_isDigit

theorem Amount.valueOf_eq (a : Amount) : Text.valueOf a.digits = a.value := Text.valueOf_eq a.all

theorem Decimals.all (d : Decimals) : d.digits.all Text.isDigit = true :=
  all_isDigit_iff.mpr d.all_isDigit

/-- Reading comes to a result, or it is given up for a sum that is too large; there is no fault in
the text as far as it is read. -/
def Unfaulted {α : Type} (r : Except Fault α) : Prop :=
  ∀ fault, r = .error fault → fault = .sumTooLarge

section Unfaulted

variable {α β : Type}

theorem unfaulted_ok (a : α) : Unfaulted (.ok a) := nofun

theorem not_unfaulted_error {fault : Fault} (h : fault ≠ .sumTooLarge) :
    ¬Unfaulted (.error fault : Except Fault α) := fun hr => h (hr fault rfl)

theorem unfaulted_sumTooLarge : Unfaulted (.error .sumTooLarge : Except Fault α) := by
  rintro _ ⟨⟩
  rfl

theorem Unfaulted.of_map {r : Except Fault α} {f : α → β} (h : Unfaulted (r.map f)) :
    Unfaulted r := by
  cases r with
  | ok a => exact unfaulted_ok a
  | error fault => exact fun _ hfault => h _ (congrArg (·.map f) hfault)

theorem Unfaulted.of_bind {r : Except Fault α} {f : α → Except Fault β} (h : Unfaulted (r >>= f)) :
    Unfaulted r := by
  cases r with
  | ok a => exact unfaulted_ok a
  | error fault => exact fun _ hfault => h _ (congrArg (· >>= f) hfault)

end Unfaulted

theorem wholeAmount_digits (a : Amount) : wholeAmount a.digits = .ok a.value := by
  unfold wholeAmount
  rw [a.all, if_neg (by decide), if_neg, a.valueOf_eq]
  rw [not_or, List.isEmpty_iff, Nat.not_lt, a.valueOf_eq]
  exact ⟨a.ne_nil, a.le_maxInt64⟩

/-- Amounts are too short to be given up, so that what is no fault is a result. -/
theorem exists_amount_of_wholeAmount (h : Unfaulted (wholeAmount cs)) :
    ∃ a : Amount, a.digits = cs := by
  unfold wholeAmount at h
  split at h
  · exact absurd h (not_unfaulted_error nofun)
  · next hdigits =>
    split at h
    · exact absurd h (not_unfaulted_error nofun)
    · next hrange =>
      have hall : cs.all Text.isDigit = true := by simpa using hdigits
      rw [not_or, List.isEmpty_iff, Nat.not_lt, Text.valueOf_eq hall] at hrange
      exact ⟨⟨cs, hrange.1, all_isDigit_iff.mp hall, hrange.2⟩, rfl⟩

theorem secondsAmount_digits (a : Amount) :
    secondsAmount a.digits = .ok (a.value * nanosPerSecond) := by
  have hpoint : '.' ∉ a.digits := Text.not_mem_of_all_isDigit a.all (by decide)
  unfold secondsAmount
  rw [Text.cut?_eq_none hpoint]
  simp only [Option.getD_none, wholeAmount_digits]
  rw [if_neg (by decide)]
  show Except.ok (a.value * nanosPerSecond + Text.valueOf [] * tenTo 9) = _
  rw [show Text.valueOf [] = 0 from rfl, Nat.zero_mul, Nat.add_zero]

theorem secondsAmount_decimals (a : Amount) (d : Decimals) :
    secondsAmount (a.digits ++ '.' :: d.digits) = .ok (a.value * nanosPerSecond + d.nanos) := by
  have hpoint : '.' ∉ a.digits := Text.not_mem_of_all_isDigit a.all (by decide)
  unfold secondsAmount
  rw [Text.cut?_append hpoint]
  simp only [Option.getD_some, wholeAmount_digits, utf8ByteSize_of_all_isDigit d.all]
  rw [d.all, if_neg (by simpa using d.length_le), Text.valueOf_eq d.all]
  rfl

theorem exists_seconds_of_secondsAmount (h : Unfaulted (secondsAmount cs)) :
    ∃ (a : Amount) (d : Option Decimals), (TimeComponent.seconds a d).part = (cs, 'S') := by
  unfold secondsAmount at h
  cases hcut : Text.cut? '.' cs with
  | none =>
    rw [hcut] at h
    dsimp only [Option.getD_none] at h
    split at h
    · exact absurd h (not_unfaulted_error nofun)
    · obtain ⟨a, rfl⟩ := exists_amount_of_wholeAmount h.of_map
      exact ⟨a, none, rfl⟩
  | some pieces =>
    obtain ⟨whole, decimals⟩ := pieces
    obtain rfl := Text.eq_append_of_cut? hcut
    rw [hcut] at h
    dsimp only [Option.getD_some] at h
    split at h
    · exact absurd h (not_unfaulted_error nofun)
    · next hdecimals =>
      obtain ⟨a, rfl⟩ := exists_amount_of_wholeAmount h.of_map
      rw [not_or, Nat.not_lt, Bool.not_eq_true', Bool.not_eq_false] at hdecimals
      obtain ⟨hlength, hdigits⟩ := hdecimals
      rw [utf8ByteSize_of_all_isDigit hdigits] at hlength
      exact ⟨a, some ⟨decimals, all_isDigit_iff.mp hdigits, hlength⟩, rfl⟩

/-! ## Components are what adds up -/

theorem isWritten_digits (a : Amount) {c : Char} (h : c ∈ designators) :
    IsWritten (a.digits, c) :=
  ⟨a.ne_nil, fun c hc => .inl (List.all_eq_true.mp a.all c hc), h⟩

theorem DateComponent.isWritten (c : DateComponent) : IsWritten c.part := by
  refine isWritten_digits c.amount ?_
  cases c.unit <;> decide

theorem TimeComponent.isWritten (c : TimeComponent) : IsWritten c.part := by
  cases c with
  | hours a => exact isWritten_digits a (by decide)
  | minutes a => exact isWritten_digits a (by decide)
  | seconds a d =>
    cases d with
    | none => exact isWritten_digits a (by decide)
    | some d =>
      refine ⟨by simp [part], fun c hc => ?_, (by decide : 'S' ∈ designators)⟩
      rcases List.mem_append.mp hc with hc | hc
      · exact .inl (List.all_eq_true.mp a.all c hc)
      · rcases List.mem_cons.mp hc with rfl | hc
        · exact .inr rfl
        · exact .inl (List.all_eq_true.mp d.all c hc)

/-- A part in which the section of the date finds no fault is a component. -/
theorem exists_dateComponent (h : Unfaulted (t.addDatePart part)) :
    ∃ c : DateComponent, c.part = part := by
  obtain ⟨amount, letter⟩ := part
  unfold Total.addDatePart at h
  obtain ⟨a, rfl⟩ := exists_amount_of_wholeAmount h.of_bind
  rw [wholeAmount_digits, ok_bind] at h
  dsimp only at h
  split at h
  · exact ⟨⟨a, .year⟩, rfl⟩
  · exact ⟨⟨a, .month⟩, rfl⟩
  · exact ⟨⟨a, .week⟩, rfl⟩
  · exact ⟨⟨a, .day⟩, rfl⟩
  · exact absurd h (not_unfaulted_error nofun)

theorem exists_timeComponent (h : Unfaulted (t.addTimePart part)) :
    ∃ c : TimeComponent, c.part = part := by
  obtain ⟨amount, letter⟩ := part
  unfold Total.addTimePart at h
  dsimp only at h
  split at h
  case h_1 =>
    obtain ⟨a, rfl⟩ := exists_amount_of_wholeAmount h.of_bind
    exact ⟨.hours a, rfl⟩
  case h_2 =>
    obtain ⟨a, rfl⟩ := exists_amount_of_wholeAmount h.of_bind
    exact ⟨.minutes a, rfl⟩
  case h_3 =>
    obtain ⟨a, d, hpart⟩ := exists_seconds_of_secondsAmount h.of_bind
    exact ⟨.seconds a d, hpart⟩
  case h_4 => exact absurd h (not_unfaulted_error nofun)

/-! ## What a section adds up to -/

namespace Total

/-- Both totals together. -/
def join (t u : Total) : Total :=
  ⟨t.months + u.months, t.nanos + u.nanos, t.sawMonths || u.sawMonths,
    t.sawElapsed || u.sawElapsed⟩

/-- Whether a total is in the words in which it is added up. -/
def Fits (t : Total) : Prop := t.months ≤ maxInt64 ∧ t.nanos ≤ maxInt128

/-- Whether the nanoseconds of a total, and not its months, have left their word. -/
def Exceeds (t : Total) : Prop := t.months ≤ maxInt64 ∧ maxInt128 < t.nanos

/-- A total, if it fits. -/
def checked (t : Total) : Except Fault Total :=
  if t.months ≤ maxInt64 then if t.nanos ≤ maxInt128 then .ok t else .error .sumTooLarge
  else .error .outOfRange

theorem checked_eq_ok_iff : t.checked = .ok t' ↔ t.Fits ∧ t = t' := by
  unfold checked Fits
  split
  · split <;> simp [*]
  · simp [*]

theorem checked_eq_sumTooLarge_iff : t.checked = .error .sumTooLarge ↔ t.Exceeds := by
  unfold checked Exceeds
  rw [← Nat.not_le]
  split
  · split <;> simp [*]
  · simp [*]

theorem Exceeds.not_fits (h : t.Exceeds) : ¬t.Fits := fun hfits => Nat.not_le.mpr h.2 hfits.2

theorem addMonths_eq_checked (h : t.Fits) (n : Nat) :
    t.addMonths n = (t.join ⟨n, 0, true, false⟩).checked := by
  unfold addMonths checked join
  simp only [Nat.add_zero, Bool.or_true, Bool.or_false, h.2, if_true]

theorem addNanos_eq_checked (h : t.Fits) (n : Nat) :
    t.addNanos n = (t.join ⟨0, n, false, true⟩).checked := by
  unfold addNanos checked join
  simp only [Nat.add_zero, Bool.or_true, Bool.or_false, h.1, if_true]

/-- What components are worth, on top of a total. -/
def plusAll {α : Type} (worth : α → Total) (t : Total) (cs : List α) : Total :=
  cs.foldl (fun t c => t.join (worth c)) t

theorem plusAll_eq {α : Type} (worth : α → Total) (t : Total) (cs : List α) :
    t.plusAll worth cs = ⟨t.months + (cs.map fun c => (worth c).months).sum,
      t.nanos + (cs.map fun c => (worth c).nanos).sum,
      t.sawMonths || cs.any fun c => (worth c).sawMonths,
      t.sawElapsed || cs.any fun c => (worth c).sawElapsed⟩ := by
  induction cs generalizing t with
  | nil => simp [plusAll]
  | cons c cs ih =>
    show (t.join (worth c)).plusAll worth cs = _
    rw [ih]
    simp only [join, List.map_cons, List.sum_cons, List.any_cons, Nat.add_assoc, Bool.or_assoc]

theorem fits_of_plusAll {α : Type} {worth : α → Total} {cs : List α}
    (h : (t.plusAll worth cs).Fits) : t.Fits := by
  rw [plusAll_eq] at h
  exact ⟨Nat.le_of_add_right_le h.1, Nat.le_of_add_right_le h.2⟩

end Total

/-- How the parts of a section are added up. A part without a fault is that of a component, and what
the component is worth is added to the total. -/
structure AddsUp {α : Type} (step : Total → Part → Except Fault Total) (toPart : α → Part)
    (worth : α → Total) : Prop where
  exists_component : ∀ {t part}, Unfaulted (step t part) → ∃ c, toPart c = part
  step_eq : ∀ {t}, t.Fits → ∀ c, step t (toPart c) = (t.join (worth c)).checked

namespace AddsUp

variable {α : Type} {step : Total → Part → Except Fault Total} {toPart : α → Part}
  {worth : α → Total}

theorem exists_components (h : AddsUp step toPart worth) (hps : ps.foldlM step t = .ok t') :
    ∃ cs : List α, cs.map toPart = ps := by
  induction ps generalizing t with
  | nil => exact ⟨[], rfl⟩
  | cons part ps ih =>
    rw [List.foldlM_cons] at hps
    obtain ⟨_, hpart, hrest⟩ := bind_eq_ok_iff.mp hps
    obtain ⟨c, rfl⟩ := h.exists_component (hpart ▸ unfaulted_ok _)
    obtain ⟨cs, rfl⟩ := ih hrest
    exact ⟨c :: cs, rfl⟩

/-- As totals only grow, it does not matter that they are looked at after every component. -/
theorem foldlM_eq_ok_iff (h : AddsUp step toPart worth) (ht : t.Fits) (cs : List α) :
    (cs.map toPart).foldlM step t = .ok t' ↔
      (t.plusAll worth cs).Fits ∧ t.plusAll worth cs = t' := by
  induction cs generalizing t with
  | nil =>
    show Except.ok t = .ok t' ↔ t.Fits ∧ t = t'
    rw [Except.ok.injEq, and_iff_right ht]
  | cons c cs ih =>
    rw [List.map_cons, List.foldlM_cons, h.step_eq ht, bind_eq_ok_iff]
    show _ ↔ ((t.join (worth c)).plusAll worth cs).Fits ∧ (t.join (worth c)).plusAll worth cs = t'
    constructor
    · rintro ⟨next, hnext, hrest⟩
      obtain ⟨hfits, rfl⟩ := Total.checked_eq_ok_iff.mp hnext
      exact (ih hfits).mp hrest
    · intro hall
      have hfits := Total.fits_of_plusAll hall.1
      exact ⟨_, Total.checked_eq_ok_iff.mpr ⟨hfits, rfl⟩, (ih hfits).mpr hall⟩

/-- The sum is given up where the first components exceed, whatever comes after them. -/
theorem foldlM_eq_sumTooLarge_iff (h : AddsUp step toPart worth) (ht : t.Fits) :
    ps.foldlM step t = .error .sumTooLarge ↔
      ∃ (cs : List α) (rest : List Part), ps = cs.map toPart ++ rest ∧
        (t.plusAll worth cs).Exceeds := by
  constructor
  · intro hps
    induction ps generalizing t with
    | nil => cases hps
    | cons part ps ih =>
      rw [List.foldlM_cons] at hps
      rcases bind_eq_error_iff.mp hps with hpart | ⟨next, hpart, hrest⟩
      · obtain ⟨c, rfl⟩ := h.exists_component (hpart ▸ unfaulted_sumTooLarge)
        rw [h.step_eq ht, Total.checked_eq_sumTooLarge_iff] at hpart
        exact ⟨[c], ps, rfl, hpart⟩
      · obtain ⟨c, rfl⟩ := h.exists_component (hpart ▸ unfaulted_ok _)
        rw [h.step_eq ht, Total.checked_eq_ok_iff] at hpart
        obtain ⟨hfits, rfl⟩ := hpart
        obtain ⟨cs, rest, rfl, hexceeds⟩ := ih hfits hrest
        exact ⟨c :: cs, rest, rfl, hexceeds⟩
  · rintro ⟨cs, rest, rfl, hexceeds⟩
    induction cs generalizing t with
    | nil => exact absurd ht hexceeds.not_fits
    | cons c cs ih =>
      rw [List.map_cons, List.cons_append, List.foldlM_cons, h.step_eq ht]
      have hexceeds' : ((t.join (worth c)).plusAll worth cs).Exceeds := hexceeds
      by_cases hfits : (t.join (worth c)).Fits
      · rw [Total.checked_eq_ok_iff.mpr ⟨hfits, rfl⟩, ok_bind]
        exact ih hfits hexceeds'
      · have hmonths : (t.join (worth c)).months ≤ maxInt64 := by
          have hall := hexceeds'.1
          rw [Total.plusAll_eq] at hall
          exact Nat.le_of_add_right_le hall
        have hnanos : maxInt128 < (t.join (worth c)).nanos :=
          Nat.not_le.mp fun hle => hfits ⟨hmonths, hle⟩
        rw [Total.checked_eq_sumTooLarge_iff.mpr ⟨hmonths, hnanos⟩, error_bind]

end AddsUp

/-! ## The two sections -/

namespace DateComponent

def worth (c : DateComponent) : Total :=
  ⟨c.months, c.nanos, c.unit.isMonths, !c.unit.isMonths⟩

theorem addsUp : AddsUp Total.addDatePart DateComponent.part worth where
  exists_component := exists_dateComponent
  step_eq ht c := by
    obtain ⟨amount, unit⟩ := c
    cases unit with
    | year =>
      rw [DateComponent.part, DateUnit.letter, addDatePart_year _ (wholeAmount_digits amount),
        Total.addMonths_eq_checked ht]
      rfl
    | month =>
      rw [DateComponent.part, DateUnit.letter, addDatePart_month _ (wholeAmount_digits amount),
        Total.addMonths_eq_checked ht]
      simp [worth, months, nanos]
    | week =>
      rw [DateComponent.part, DateUnit.letter, addDatePart_week _ (wholeAmount_digits amount),
        Nat.mul_comm, Total.addNanos_eq_checked ht]
      rfl
    | day =>
      rw [DateComponent.part, DateUnit.letter, addDatePart_day _ (wholeAmount_digits amount),
        Nat.mul_comm, Total.addNanos_eq_checked ht]
      rfl

end DateComponent

namespace TimeComponent

def worth (c : TimeComponent) : Total := ⟨0, c.nanos, false, true⟩

theorem addsUp : AddsUp Total.addTimePart TimeComponent.part worth where
  exists_component := exists_timeComponent
  step_eq ht c := by
    cases c with
    | hours a =>
      rw [TimeComponent.part, addTimePart_hour _ (wholeAmount_digits a), Nat.mul_comm,
        Total.addNanos_eq_checked ht]
      rfl
    | minutes a =>
      rw [TimeComponent.part, addTimePart_minute _ (wholeAmount_digits a), Nat.mul_comm,
        Total.addNanos_eq_checked ht]
      rfl
    | seconds a d =>
      cases d with
      | none =>
        rw [TimeComponent.part, addTimePart_second _ (secondsAmount_digits a),
          Total.addNanos_eq_checked ht]
        rfl
      | some d =>
        rw [TimeComponent.part, addTimePart_second _ (secondsAmount_decimals a d),
          Total.addNanos_eq_checked ht]
        rfl

end TimeComponent

/-- A section is the parts that it was cut into, one after the other. -/
theorem eq_sectionChars_of_partsFrom {acc : List Char} (hacc : ∀ c ∈ acc, c.isAlpha = false)
    (h : partsFrom acc cs = .ok ps) :
    acc.reverse ++ cs = sectionChars ps ∧ ∀ part ∈ ps, IsCut part := by
  induction cs generalizing acc ps with
  | nil =>
    rw [partsFrom] at h
    split at h
    · next hempty =>
      cases h
      rw [List.isEmpty_iff.mp hempty]
      exact ⟨rfl, List.forall_mem_nil _⟩
    · cases h
  | cons c cs ih =>
    rw [partsFrom] at h
    split at h
    · next hletter =>
      split at h
      · cases h
      · next hsome =>
        obtain ⟨rest, hrest, rfl⟩ := map_eq_ok_iff.mp h
        obtain ⟨hcs, hcut⟩ := ih (List.forall_mem_nil _) hrest
        refine ⟨?_, List.forall_mem_cons.mpr ⟨⟨?_, ?_, hletter⟩, hcut⟩⟩
        · rw [sectionChars, List.flatMap_cons, List.append_assoc, List.singleton_append]
          exact congrArg (fun cs => acc.reverse ++ c :: cs) hcs
        · simpa using hsome
        · simpa using hacc
    · next hletter =>
      have hcons : ∀ c' ∈ c :: acc, c'.isAlpha = false :=
        List.forall_mem_cons.mpr ⟨Bool.eq_false_iff.mpr hletter, hacc⟩
      have hcs := ih hcons h
      rwa [List.reverse_cons, List.append_assoc, List.singleton_append] at hcs

theorem eq_sectionChars_of_parts (h : parts cs = .ok ps) : cs = sectionChars ps :=
  (eq_sectionChars_of_partsFrom (List.forall_mem_nil _) h).1

theorem isCut_of_parts (h : parts cs = .ok ps) : ∀ part ∈ ps, IsCut part :=
  (eq_sectionChars_of_partsFrom (List.forall_mem_nil _) h).2

/-- **A text that reads is the text of a spelling.** -/
theorem exists_spelling_of_readChars {d : Duration} (h : readChars cs = .ok d) :
    ∃ s : Spelling, Text.trim cs = s.chars := by
  obtain hnone | ⟨negative, dateSection, timeSection, htrim, -, hread⟩ := readChars_cases cs
  · rw [hnone] at h
    cases h
  rw [hread] at h
  unfold ofSections at h
  split at h
  case isTrue => cases h
  case isFalse hsome =>
    obtain ⟨dateParts, hdate, hadded⟩ := bind_eq_ok_iff.mp h
    obtain ⟨dated, hdated, htimed⟩ := bind_eq_ok_iff.mp hadded
    obtain ⟨total, htotal, -⟩ := bind_eq_ok_iff.mp htimed
    obtain ⟨date, rfl⟩ := DateComponent.addsUp.exists_components hdated
    have hdateChars := eq_sectionChars_of_parts hdate
    cases timeSection with
    | none =>
      have hne : date ≠ [] := by
        rintro rfl
        exact hsome ⟨List.isEmpty_iff.mpr hdateChars, rfl⟩
      refine ⟨⟨negative, date, [], .inl hne⟩, ?_⟩
      rw [htrim, Spelling.chars, List.map_nil, timeChars, List.append_nil, ← hdateChars,
        joinSections]
    | some timeSection =>
      cases timeSection with
      | nil => cases htotal
      | cons c rest =>
        obtain ⟨timeParts, htime, hfold⟩ := bind_eq_ok_iff.mp htotal
        obtain ⟨time, rfl⟩ := TimeComponent.addsUp.exists_components hfold
        have htimeChars := eq_sectionChars_of_parts htime
        have hne : time.map (·.part) ≠ [] := by
          intro hnil
          rw [hnil] at htimeChars
          cases htimeChars
        refine ⟨⟨negative, date, time, .inr (by simpa using hne)⟩, ?_⟩
        rw [htrim, Spelling.chars, timeChars_of_ne_nil hne, ← hdateChars, ← htimeChars,
          joinSections]

/-! ## What a spelling reads as -/

theorem solid_timeChars (h : ∀ part ∈ ps, IsWritten part) : Text.Solid (timeChars ps) := by
  cases ps with
  | nil => exact Text.solid_nil
  | cons part ps => exact Text.solid_cons.mpr ⟨by decide, solid_sectionChars h⟩

theorem fits_zero : Total.Fits ⟨0, 0, false, false⟩ := ⟨Nat.zero_le _, Nat.zero_le _⟩

namespace Spelling

variable {d : Duration}

/-- The duration of a spelling whose totals are words. -/
def duration (s : Spelling) : Duration :=
  ofFamilies ⟨.ofInt (withSign s.negative s.months)⟩ ⟨withSign s.negative s.nanos⟩ s.hasMonths
    s.hasElapsed

def total (s : Spelling) : Total := ⟨s.months, s.nanos, s.hasMonths, s.hasElapsed⟩

theorem plusAll_components (s : Spelling) :
    (Total.plusAll DateComponent.worth ⟨0, 0, false, false⟩ s.date).plusAll TimeComponent.worth
      s.time = s.total := by
  have hmonths : (s.time.map fun _ => 0).sum = 0 := by simp
  have hnone : (s.time.any fun _ => false) = false := by simp
  have hsome : (s.time.any fun _ => true) = !s.time.isEmpty := by cases s.time <;> simp
  rw [Total.plusAll_eq, Total.plusAll_eq]
  simp only [DateComponent.worth, TimeComponent.worth, Nat.zero_add, Bool.false_or, hmonths, hnone,
    hsome, Bool.or_false, Nat.add_zero]
  rfl

/-- The components add up to the total of the spelling, if it fits. -/
theorem addParts_components (s : Spelling) :
    addParts ⟨0, 0, false, false⟩ (s.date.map (·.part)) (s.time.map (·.part)) = .ok t ↔
      s.total.Fits ∧ s.total = t := by
  rw [addParts, bind_eq_ok_iff, ← plusAll_components]
  constructor
  · rintro ⟨dated, hdated, htimed⟩
    obtain ⟨hfits, rfl⟩ := (DateComponent.addsUp.foldlM_eq_ok_iff fits_zero _).mp hdated
    exact (TimeComponent.addsUp.foldlM_eq_ok_iff hfits _).mp htimed
  · intro h
    have hfits := Total.fits_of_plusAll h.1
    exact ⟨_, (DateComponent.addsUp.foldlM_eq_ok_iff fits_zero _).mpr ⟨hfits, rfl⟩,
      (TimeComponent.addsUp.foldlM_eq_ok_iff hfits _).mpr h⟩

theorem isWritten_date (s : Spelling) : ∀ part ∈ s.date.map (·.part), IsWritten part :=
  List.forall_mem_map.mpr fun c _ => c.isWritten

theorem isWritten_time (s : Spelling) : ∀ part ∈ s.time.map (·.part), IsWritten part :=
  List.forall_mem_map.mpr fun c _ => c.isWritten

theorem solid_chars (s : Spelling) : Text.Solid s.chars :=
  solid_signed (Text.solid_cons.mpr ⟨by decide, Text.solid_append.mpr
    ⟨solid_sectionChars s.isWritten_date, solid_timeChars s.isWritten_time⟩⟩)

/-- The nanoseconds of a spelling in range are far within the word in which they are added up. -/
theorem InRange.fits {s : Spelling} (h : s.InRange) : s.total.Fits := by
  have hnanos : s.nanos ≤ maxInt64 + 1 := by
    have hrange := h.2
    unfold withSign InInt64 at hrange
    split at hrange <;> omega
  exact ⟨h.1, Nat.le_trans hnanos (by decide)⟩

/-- **The text of a spelling in range reads as its duration**, and no other text of a spelling
reads. So does the text with blanks around it. -/
theorem readChars_of_trim {s : Spelling} (h : Text.trim cs = s.chars) :
    readChars cs = .ok d ↔ s.InRange ∧ d = s.duration := by
  have htrim : readChars cs = readChars s.chars := by
    unfold readChars
    rw [h, Text.trim_of_solid s.solid_chars]
  rw [htrim, chars, readChars_sections s.negative s.isWritten_date s.isWritten_time
    (by simpa using s.ne_nil), bind_eq_ok_iff]
  constructor
  · rintro ⟨total, htotal, hd⟩
    obtain ⟨hfits, rfl⟩ := s.addParts_components.mp htotal
    rw [toDuration_eq] at hd
    split at hd
    case isTrue hrange => exact ⟨⟨hfits.1, hrange⟩, (Except.ok.inj hd).symm⟩
    case isFalse => cases hd
  · rintro ⟨hrange, rfl⟩
    refine ⟨s.total, s.addParts_components.mpr ⟨hrange.fits, rfl⟩, ?_⟩
    rw [toDuration_eq]
    exact if_pos hrange.2

theorem toInt_eq_iff {m : Months} {n : Int} (h : InInt64 n) : m.toInt = n ↔ m = ⟨.ofInt n⟩ := by
  constructor
  · rintro rfl
    rw [Months.toInt, Int64.ofInt_toInt]
  · rintro rfl
    exact h.toInt_ofInt

/-- A spelling in range denotes one duration. -/
theorem denotes_iff {s : Spelling} (h : s.InRange) : s.Denotes d ↔ d = s.duration := by
  have hword : InInt64 (withSign s.negative s.months) := inInt64_withSign h.1
  have hmonths {m : Months} := toInt_eq_iff (m := m) hword
  unfold Denotes duration
  cases d with
  | months m => cases s.hasMonths <;> cases s.hasElapsed <;> simp [ofFamilies, hmonths]
  | elapsed e =>
    obtain ⟨nanos⟩ := e
    cases s.hasMonths <;> cases s.hasElapsed <;> simp [ofFamilies]
  | composite d =>
    obtain ⟨m, ⟨nanos⟩⟩ := d
    cases s.hasMonths <;> cases s.hasElapsed <;> simp [ofFamilies, hmonths]

end Spelling

/-- The texts that read, and what they read as. -/
theorem readChars_eq_ok_iff {d : Duration} : readChars cs = .ok d ↔
    ∃ s : Spelling, Text.trim cs = s.chars ∧ s.InRange ∧ s.Denotes d := by
  constructor
  · intro h
    obtain ⟨s, hs⟩ := exists_spelling_of_readChars h
    obtain ⟨hrange, rfl⟩ := (Spelling.readChars_of_trim hs).mp h
    exact ⟨s, hs, hrange, (Spelling.denotes_iff hrange).mpr rfl⟩
  · rintro ⟨s, hs, hrange, hd⟩
    exact (Spelling.readChars_of_trim hs).mpr ⟨hrange, (Spelling.denotes_iff hrange).mp hd⟩

end Duration
end DecisionModel
