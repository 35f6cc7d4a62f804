import DecisionModel.Proofs.Calendar.Instant
import DecisionModel.Proofs.Bind
import DecisionModel.Proofs.Text.Blank
import DecisionModel.Temporal
import DecisionModel.Value.Json
import DecisionModel.Value.Text
import DecisionModel.Evaluation
import Mathlib.Data.List.TakeWhile

/-!
# Dates and times read back

What is written for a date, a time or a date-time is read again component by component: the digits
of one component end where its width ends, and a separator follows that no component contains. Every
clock reading and every date comes back as it was.

An offset is written in hours and minutes, while it may be any number of seconds. What comes back is
the offset without the seconds beyond its last whole minute, `Offset.toMinute`, so a time or
date-time reads back exactly if its offset has none.
-/

namespace DecisionModel

open Calendar

variable {rest : List Char}

/-! ## Components -/

namespace Calendar

section readNumber

variable {component : Component} {count low high n : Nat}

theorem readNumber_padded (hcount : 0 < count) (hfit : high < tenTo count) (hlow : low ≤ n)
    (hhigh : n ≤ high) :
    readNumber component count low high (Text.padded count n ++ rest) = .ok (n, rest) := by
  have hlength := Text.length_padded hcount (Nat.lt_of_le_of_lt hhigh hfit)
  unfold readNumber
  simp only [List.take_left' hlength, List.drop_left' hlength, Text.valueOf_padded]
  rw [if_pos ⟨hlength, Text.all_isDigit_padded count n, hlow, hhigh⟩]

/-- The last component of a text. -/
theorem readNumber_padded_nil (hcount : 0 < count) (hfit : high < tenTo count) (hlow : low ≤ n)
    (hhigh : n ≤ high) :
    readNumber component count low high (Text.padded count n) = .ok (n, []) := by
  have hread : readNumber component count low high (Text.padded count n ++ []) = .ok (n, []) :=
    readNumber_padded hcount hfit hlow hhigh
  rwa [List.append_nil] at hread

end readNumber

theorem readSeparator_cons (mark : Char) (rest : List Char) :
    readSeparator mark (mark :: rest) = .ok rest := if_pos rfl

end Calendar

/-! ## Dates -/

theorem readYear_of_isDigit {c : Char} (hc : Text.isDigit c = true) (cs : List Char) :
    readYear (c :: cs) = (do
      let (year, rest) ← readNumber .year 4 0 9999 (c :: cs)
      return (year, rest)) := by
  unfold readYear
  split
  · next hcs =>
    cases hcs
    exact absurd hc (by decide)
  · next hcs =>
    cases hcs
    exact absurd hc (by decide)
  · rfl

theorem readYear_padded {year : Int} (h : year.natAbs ≤ 9999) :
    readYear ((if year < 0 then ['-'] else []) ++ (Text.padded 4 year.natAbs ++ rest)) =
      .ok (year, rest) := by
  have hread : readNumber .year 4 0 9999 (Text.padded 4 year.natAbs ++ rest) =
      .ok (year.natAbs, rest) :=
    readNumber_padded (by decide) (by decide) (Nat.zero_le _) h
  split
  · rw [List.singleton_append, readYear, hread]
    have hyear : -(year.natAbs : Int) = year := by omega
    show Except.ok (-(year.natAbs : Int), rest) = _
    rw [hyear]
  · obtain ⟨c, ds, hpadded, hc⟩ := Text.exists_padded_eq_cons 4 year.natAbs
    rw [hpadded] at hread ⊢
    rw [List.nil_append, List.cons_append, readYear_of_isDigit hc, ← List.cons_append, hread]
    have hyear : (year.natAbs : Int) = year := by omega
    show Except.ok ((year.natAbs : Int), rest) = _
    rw [hyear]

namespace Date

theorem toChars_eq (d : Date) :
    d.toChars = (if d.year < 0 then ['-'] else []) ++ (Text.padded 4 d.year.natAbs ++
      '-' :: (Text.padded 2 d.month ++ '-' :: Text.padded 2 d.day)) := by
  simp only [toChars, List.append_assoc, List.cons_append]

theorem ofComponents_self (d : Date) : ofComponents d.year d.month d.day = .ok d := by
  obtain ⟨hmin, hmax, hmonth, hmonth', -, -⟩ := d.valid
  unfold ofComponents
  rw [if_neg (by omega), if_neg (by omega), dif_pos d.valid]

theorem not_mem_toChars {c : Char} (hdigit : Text.isDigit c = false) (hminus : c ≠ '-')
    (d : Date) : c ∉ d.toChars := by
  have hpadded (width n : Nat) : c ∉ Text.padded width n :=
    Text.not_mem_of_all_isDigit (Text.all_isDigit_padded width n) hdigit
  rw [toChars_eq]
  split <;> simp [hpadded, hminus]

theorem solid_toChars (d : Date) : Text.Solid d.toChars := by
  have hpadded (width n : Nat) : Text.Solid (Text.padded width n) :=
    Text.solid_of_all_isDigit (Text.all_isDigit_padded width n)
  rw [toChars_eq]
  split <;> simp [hpadded] <;> decide

theorem monthLength_le (year : Int) (month : Nat) : monthLength year month ≤ 31 := by
  unfold monthLength
  split
  · split <;> decide
  · decide
  · decide
  · decide
  · decide
  · decide

theorem readChars_toChars (d : Date) : readChars d.toChars = .ok d := by
  obtain ⟨hmin, hmax, hmonth, hmonth', hday, hday'⟩ := d.valid
  have hlength := monthLength_le d.year d.month
  unfold minYear at hmin
  unfold maxYear at hmax
  have hyears : d.year.natAbs ≤ 9999 := by omega
  unfold readChars
  rw [Text.trim_of_solid d.solid_toChars, toChars_eq, readYear_padded hyears, ok_bind]
  dsimp only
  rw [readSeparator_cons, ok_bind, readNumber_padded (by decide) (by decide) hmonth hmonth',
    ok_bind]
  dsimp only
  rw [readSeparator_cons, ok_bind,
    readNumber_padded_nil (by decide) (by decide) hday (Nat.le_trans hday' hlength), ok_bind]
  exact d.ofComponents_self

end Date

/-! ## Clock readings -/

namespace Clock

theorem hour_le (c : Clock) : c.hour ≤ 23 := by
  have := c.nanos_lt
  unfold hour nanosPerHour nanosPerMinute nanosPerSecond
  unfold nanosPerDay nanosPerHour nanosPerMinute nanosPerSecond at this
  omega

theorem minute_le (c : Clock) : c.minute ≤ 59 := Nat.le_of_lt_succ (Nat.mod_lt _ (by decide))

theorem second_le (c : Clock) : c.second ≤ 59 := Nat.le_of_lt_succ (Nat.mod_lt _ (by decide))

theorem nanosecond_lt (c : Clock) : c.nanosecond < nanosPerSecond := Nat.mod_lt _ (by decide)

theorem wrap_components (c : Clock) :
    wrap (((c.hour * 60 + c.minute) * 60 + c.second) * nanosPerSecond + c.nanosecond : Nat) =
      c := by
  have hnanos : ((c.hour * 60 + c.minute) * 60 + c.second) * nanosPerSecond + c.nanosecond =
      c.nanos := by
    unfold hour minute second nanosecond nanosPerHour nanosPerMinute nanosPerSecond
    omega
  rw [hnanos]
  apply nanos_injective
  have := wrap_nanos c.nanos
  rw [c.nanos_emod] at this
  exact Int.ofNat_inj.mp this

theorem ofComponents_self (c : Clock) :
    ofComponents c.hour c.minute c.second c.nanosecond = .ok c := by
  have hhour := c.hour_le
  have hminute := c.minute_le
  have hsecond := c.second_le
  have hnanosecond := c.nanosecond_lt
  unfold ofComponents
  rw [if_neg (by omega), if_neg (by omega), if_neg (by omega), if_neg (by omega),
    c.wrap_components]

/-! ### Fractions -/

theorem fractionChars_eq {n : Nat} (h : n ≠ 0) :
    fractionChars n = '.' :: Text.dropTrailingZeros (Text.padded 9 n) := if_neg h

theorem all_isDigit_fraction (n : Nat) :
    (Text.dropTrailingZeros (Text.padded 9 n)).all Text.isDigit = true :=
  Text.all_isDigit_dropTrailingZeros (Text.all_isDigit_padded 9 n)

/-- Nine digits at most, and the value that they have in their places. -/
theorem fraction_spec {n : Nat} (h : n < nanosPerSecond) :
    (Text.dropTrailingZeros (Text.padded 9 n)).length ≤ 9 ∧
      Text.valueOf (Text.dropTrailingZeros (Text.padded 9 n)) *
        tenTo (9 - (Text.dropTrailingZeros (Text.padded 9 n)).length) = n := by
  have hlength : (Text.padded 9 n).length = 9 := Text.length_padded (by decide) h
  have hvalue := Text.valueOf_dropTrailingZeros (Text.padded 9 n)
  have hle := Text.length_dropTrailingZeros_le (Text.padded 9 n)
  rw [hlength, Text.valueOf_padded] at hvalue
  rw [hlength] at hle
  exact ⟨hle, hvalue⟩

theorem readSubsecond_fraction {n : Nat} (h : n < nanosPerSecond) (hpos : n ≠ 0) :
    readSubsecond (Text.dropTrailingZeros (Text.padded 9 n)) = .ok (n, []) := by
  obtain ⟨hlength, hvalue⟩ := fraction_spec h
  have hdigits := all_isDigit_fraction n
  have hne : Text.dropTrailingZeros (Text.padded 9 n) ≠ [] :=
    Text.dropTrailingZeros_ne_nil (by rwa [Text.valueOf_padded])
  generalize Text.dropTrailingZeros (Text.padded 9 n) = ds at *
  have htake : ds.takeWhile Text.isDigit = ds :=
    List.takeWhile_eq_self_iff.mpr (List.all_eq_true.mp hdigits)
  have hdrop : ds.dropWhile Text.isDigit = [] :=
    List.dropWhile_eq_nil_iff.mpr (List.all_eq_true.mp hdigits)
  unfold readSubsecond
  simp only [htake, hdrop, List.take_of_length_le hlength, hvalue]
  rw [if_neg (by simpa using hne)]

/-! ### The reading -/

theorem toChars_eq (c : Clock) :
    c.toChars = Text.padded 2 c.hour ++ ':' :: (Text.padded 2 c.minute ++
      ':' :: (Text.padded 2 c.second ++ fractionChars c.nanosecond)) := by
  simp only [toChars, List.append_assoc, List.cons_append]

theorem toChars_ne_nil (c : Clock) : c.toChars ≠ [] := by
  rw [toChars_eq]
  simp

theorem not_mem_padded {mark : Char} (h : Text.isDigit mark = false) (width n : Nat) :
    mark ∉ Text.padded width n :=
  Text.not_mem_of_all_isDigit (Text.all_isDigit_padded width n) h

/-- A clock reading holds digits, colons and a point, and the point only before a fraction. -/
theorem mem_toChars {mark : Char} {c : Clock} (hdigit : Text.isDigit mark = false)
    (hcolon : mark ≠ ':') (h : mark ∈ c.toChars) : mark = '.' ∧ c.nanosecond ≠ 0 := by
  have hpadded := not_mem_padded hdigit
  have hfraction := Text.not_mem_of_all_isDigit (all_isDigit_fraction c.nanosecond) hdigit
  rw [toChars_eq] at h
  by_cases hzero : c.nanosecond = 0
  · simp [hpadded, hcolon, fractionChars, hzero] at h
  · simp [hpadded, hcolon, fractionChars_eq hzero, hfraction] at h
    exact ⟨h, hzero⟩

theorem contains_point (c : Clock) : c.toChars.contains '.' = decide (c.nanosecond ≠ 0) := by
  rw [Bool.eq_iff_iff, List.contains_iff_mem, decide_eq_true_iff]
  refine ⟨fun h => (mem_toChars (by decide) (by decide) h).2, fun h => ?_⟩
  simp [toChars_eq, fractionChars_eq h]

theorem solid_toChars (c : Clock) : Text.Solid c.toChars := by
  have hpadded (width n : Nat) : Text.Solid (Text.padded width n) :=
    Text.solid_of_all_isDigit (Text.all_isDigit_padded width n)
  have hfraction := Text.solid_of_all_isDigit (all_isDigit_fraction c.nanosecond)
  have hcolon : Text.isBlank ':' = false := by decide
  have hpoint : Text.isBlank '.' = false := by decide
  rw [toChars_eq]
  by_cases hzero : c.nanosecond = 0
  · simp [hpadded, hcolon, fractionChars, hzero]
  · simp [hpadded, hcolon, fractionChars_eq hzero, hfraction, hpoint]

theorem readClock_toChars (c : Clock) : readClock c.toChars = .ok c := by
  have hread := c.ofComponents_self
  unfold readClock
  rw [contains_point, toChars_eq]
  rw [readNumber_padded (by decide) (by decide) (Nat.zero_le _) c.hour_le, ok_bind]
  dsimp only
  rw [readSeparator_cons, ok_bind,
    readNumber_padded (by decide) (by decide) (Nat.zero_le _) c.minute_le, ok_bind]
  dsimp only
  rw [readSeparator_cons, ok_bind, readNumber_padded (by decide) (by decide) (Nat.zero_le _)
    (Nat.le_succ_of_le c.second_le), ok_bind]
  dsimp only
  by_cases hzero : c.nanosecond = 0
  · rw [if_neg (by simpa using hzero), fractionChars, if_pos hzero]
    rw [hzero] at hread
    exact hread
  · rw [if_pos (by simpa using hzero), fractionChars_eq hzero, readSeparator_cons, ok_bind,
      readSubsecond_fraction c.nanosecond_lt hzero, ok_bind]
    exact hread

end Clock

/-! ## Offsets -/

namespace Offset

/-- The offset without the seconds beyond its last whole minute, which its text does not show. -/
def toMinute (o : Offset) : Offset where
  seconds := if o.seconds < 0 then -(o.seconds.natAbs / 60 * 60 : Nat)
    else (o.seconds.natAbs / 60 * 60 : Nat)
  seconds_bound := by
    have := o.seconds_bound
    split <;> omega

theorem seconds_injective {o o' : Offset} (h : o.seconds = o'.seconds) : o = o' := by
  cases o
  cases o'
  cases h
  rfl

theorem toMinute_eq_self_iff {o : Offset} : o.toMinute = o ↔ o.seconds % 60 = 0 := by
  constructor
  · intro h
    have : (toMinute o).seconds = o.seconds := by rw [h]
    unfold toMinute at this
    dsimp only at this
    split at this <;> omega
  · intro h
    apply seconds_injective
    unfold toMinute
    dsimp only
    split <;> omega

theorem ofSeconds_self (o : Offset) : ofSeconds o.seconds = .ok o := dif_pos o.seconds_bound

/-- The hours and minutes after the sign. -/
def amountChars (o : Offset) : List Char :=
  Text.padded 2 (o.seconds.natAbs / 3600) ++ ':' :: Text.padded 2 (o.seconds.natAbs / 60 % 60)

theorem toChars_eq {o : Offset} (h : o.seconds ≠ 0) :
    o.toChars = (if o.seconds < 0 then '-' else '+') :: o.amountChars := by
  unfold toChars amountChars
  rw [if_neg h, List.cons_append]

theorem readOffset_toChars {o : Offset} (h : o.seconds ≠ 0) :
    readOffset o.toChars = .ok o.toMinute := by
  have hbound := o.seconds_bound
  have hhours : o.seconds.natAbs / 3600 ≤ 25 := by omega
  have hminutes : o.seconds.natAbs / 60 % 60 ≤ 59 := by omega
  have hread := o.toMinute.ofSeconds_self
  have hsum : o.seconds.natAbs / 3600 * 3600 + o.seconds.natAbs / 60 % 60 * 60 =
      o.seconds.natAbs / 60 * 60 := by omega
  have hamount (negative : Bool) : (do
      let (hours, rest) ← readNumber .offsetHour 2 0 25 o.amountChars
      let rest ← readSeparator ':' rest
      let (minutes, rest) ← readNumber .offsetMinute 2 0 59 rest
      readEnd rest
      let seconds : Int := (hours * 3600 + minutes * 60 : Nat)
      Offset.ofSeconds (if negative then -seconds else seconds)) =
        ofSeconds (if negative then -(o.seconds.natAbs / 60 * 60 : Nat)
          else (o.seconds.natAbs / 60 * 60 : Nat)) := by
    unfold amountChars
    rw [readNumber_padded (by decide) (by decide) (Nat.zero_le _) hhours, ok_bind]
    dsimp only
    rw [readSeparator_cons, ok_bind,
      readNumber_padded_nil (by decide) (by decide) (Nat.zero_le _) hminutes, ok_bind]
    dsimp only
    rw [hsum]
    rfl
  rw [toChars_eq h, ← hread]
  unfold toMinute
  split
  · exact hamount true
  · exact hamount false

end Offset

namespace Calendar

/-! ## Clock reading and offset apart -/

variable {clock offset : List Char} {sign : Char}

theorem all_unsigned (hplus : '+' ∉ offset) (hminus : '-' ∉ offset) :
    ∀ c ∈ offset.reverse, (!(c == '+' || c == '-')) = true := by
  intro c hc
  have hmem := List.mem_reverse.mp hc
  have hp : c ≠ '+' := fun h => hplus (h ▸ hmem)
  have hm : c ≠ '-' := fun h => hminus (h ▸ hmem)
  simp [hp, hm]

theorem cutOffset?_append (hclock : clock ≠ []) (hsign : sign = '+' ∨ sign = '-')
    (hplus : '+' ∉ offset) (hminus : '-' ∉ offset) :
    cutOffset? (clock ++ sign :: offset) = some (clock, sign :: offset) := by
  have hreverse : (clock ++ sign :: offset).reverse = offset.reverse ++ sign :: clock.reverse := by
    simp
  have hstop : ¬(!(sign == '+' || sign == '-')) = true := by
    rcases hsign with rfl | rfl <;> decide
  have htake : (clock ++ sign :: offset).reverse.takeWhile (fun c => !(c == '+' || c == '-')) =
      offset.reverse := by
    rw [hreverse, List.takeWhile_append_of_pos (all_unsigned hplus hminus),
      List.takeWhile_cons, if_neg hstop, List.append_nil]
  have hdrop : (clock ++ sign :: offset).reverse.dropWhile (fun c => !(c == '+' || c == '-')) =
      sign :: clock.reverse := by
    rw [hreverse, List.dropWhile_append_of_pos (all_unsigned hplus hminus),
      List.dropWhile_cons, if_neg hstop]
  obtain ⟨last, front, hlast⟩ := List.exists_cons_of_ne_nil (mt List.reverse_eq_nil_iff.mp hclock)
  unfold cutOffset?
  rw [hlast] at hdrop
  simp only [htake, hdrop]
  rw [← hlast, List.reverse_reverse, List.reverse_reverse]

theorem cutOffset?_eq_none (hplus : '+' ∉ clock) (hminus : '-' ∉ clock) :
    cutOffset? clock = none := by
  unfold cutOffset?
  simp only [List.dropWhile_eq_nil_iff.mpr (all_unsigned hplus hminus)]

theorem splitOffset_utc (clock : List Char) :
    splitOffset (clock ++ ['Z']) = .ok (clock, some .utc) := by
  unfold splitOffset
  rw [List.reverse_append, List.reverse_singleton, List.singleton_append]
  show Except.ok (clock.reverse.reverse, _) = _
  rw [List.reverse_reverse]

/-- A text that does not end in `Z`. -/
theorem splitOffset_of_not_mem (h : 'Z' ∉ clock) :
    splitOffset clock = match cutOffset? clock with
      | none => .ok (clock, none)
      | some (clock, offset) => (readOffset offset).map fun o => (clock, some o) := by
  unfold splitOffset
  split
  · next before hbefore =>
    exact absurd (List.mem_reverse.mp (hbefore ▸ List.mem_cons_self)) h
  · rfl

theorem splitOffset_toChars (c : Clock) (offset : Option Offset) :
    splitOffset (c.toChars ++ Offset.optionChars offset) =
      .ok (c.toChars, offset.map Offset.toMinute) := by
  have hclock {mark : Char} (hdigit : Text.isDigit mark = false) (hcolon : mark ≠ ':')
      (hpoint : mark ≠ '.') : mark ∉ c.toChars :=
    fun h => hpoint (Clock.mem_toChars hdigit hcolon h).1
  have hz : 'Z' ∉ c.toChars := hclock (by decide) (by decide) (by decide)
  have hplus : '+' ∉ c.toChars := hclock (by decide) (by decide) (by decide)
  have hminus : '-' ∉ c.toChars := hclock (by decide) (by decide) (by decide)
  cases offset with
  | none =>
    rw [Offset.optionChars, List.append_nil, splitOffset_of_not_mem hz,
      cutOffset?_eq_none hplus hminus]
    rfl
  | some o =>
    by_cases hzero : o.seconds = 0
    · have hutc : o = .utc := Offset.seconds_injective hzero
      subst hutc
      exact splitOffset_utc c.toChars
    · have hplain (mark : Char) (hdigit : Text.isDigit mark = false) (hcolon : mark ≠ ':') :
          mark ∉ o.amountChars := by
        simp [Offset.amountChars, Clock.not_mem_padded hdigit, hcolon]
      have hsign : (if o.seconds < 0 then '-' else '+') = '+' ∨
          (if o.seconds < 0 then '-' else '+') = '-' := by
        split <;> simp
      have hz' : 'Z' ∉ c.toChars ++ o.toChars := by
        rw [Offset.toChars_eq hzero, List.mem_append, List.mem_cons, not_or, not_or]
        refine ⟨hz, ?_, hplain 'Z' (by decide) (by decide)⟩
        split <;> decide
      have hcut : cutOffset? (c.toChars ++ o.toChars) = some (c.toChars, o.toChars) := by
        rw [Offset.toChars_eq hzero]
        exact cutOffset?_append c.toChars_ne_nil hsign (hplain '+' (by decide) (by decide))
          (hplain '-' (by decide) (by decide))
      rw [Offset.optionChars, splitOffset_of_not_mem hz', hcut]
      dsimp only
      rw [Offset.readOffset_toChars hzero]
      rfl

end Calendar

/-! ## Times and date-times -/

theorem Offset.solid_optionChars (offset : Option Offset) :
    Text.Solid (Offset.optionChars offset) := by
  have hpadded (width n : Nat) : Text.Solid (Text.padded width n) :=
    Text.solid_of_all_isDigit (Text.all_isDigit_padded width n)
  cases offset with
  | none => exact Text.solid_nil
  | some o =>
    show Text.Solid o.toChars
    by_cases hzero : o.seconds = 0
    · have hutc : o = .utc := seconds_injective hzero
      subst hutc
      exact Text.solid_cons.mpr ⟨by decide, Text.solid_nil⟩
    · rw [toChars_eq hzero, Text.solid_cons, amountChars, Text.solid_append, Text.solid_cons]
      refine ⟨?_, hpadded _ _, by decide, hpadded _ _⟩
      split <;> decide

namespace Time

/-- The time that the text of a time shows. -/
def toMinute (t : Time) : Time := { t with offset := t.offset.map Offset.toMinute }

theorem solid_toChars (t : Time) : Text.Solid t.toChars :=
  Text.solid_append.mpr ⟨t.clock.solid_toChars, Offset.solid_optionChars t.offset⟩

theorem readChars_toChars (t : Time) : readChars t.toChars = .ok t.toMinute := by
  have hsplit : splitOffset t.toChars = _ := splitOffset_toChars t.clock t.offset
  obtain ⟨c, ds, hpadded, hc⟩ := Text.exists_padded_eq_cons 2 t.clock.hour
  unfold readChars
  rw [Text.trim_of_solid t.solid_toChars]
  dsimp only
  split
  · next rest hrest =>
    rw [toChars, Clock.toChars_eq, hpadded] at hrest
    cases hrest
    exact absurd hc (by decide)
  · rw [hsplit, ok_bind]
    dsimp only
    rw [Clock.readClock_toChars]
    rfl

end Time

namespace DateTime

/-- The date-time that the text of a date-time shows. -/
def toMinute (dt : DateTime) : DateTime := { dt with offset := dt.offset.map Offset.toMinute }

theorem toChars_eq (dt : DateTime) : dt.toChars = dt.date.toChars ++ 'T' :: dt.time.toChars := by
  simp only [toChars, Time.toChars, time, List.append_assoc, List.cons_append]

theorem readChars_toChars (dt : DateTime) : readChars dt.toChars = .ok dt.toMinute := by
  have hsolid : Text.Solid dt.toChars := by
    rw [toChars_eq, Text.solid_append, Text.solid_cons]
    exact ⟨dt.date.solid_toChars, by decide, dt.time.solid_toChars⟩
  have hcut : Text.cut? 'T' dt.toChars = some (dt.date.toChars, dt.time.toChars) := by
    rw [toChars_eq]
    exact Text.cut?_append (Date.not_mem_toChars (by decide) (by decide) dt.date)
  unfold readChars
  simp only [Text.trim_of_solid hsolid, hcut, Date.readChars_toChars, Time.readChars_toChars]
  rfl

end DateTime

/-! ## Whole texts -/

theorem Date.read_toText (d : Date) : Date.read d.toText = .ok d := by
  simp only [Date.read, toText, String.toList_ofList, readChars_toChars]

theorem Time.read_toText (t : Time) : Time.read t.toText = .ok t.toMinute := by
  simp only [Time.read, toText, String.toList_ofList, readChars_toChars]

theorem DateTime.read_toText (dt : DateTime) : DateTime.read dt.toText = .ok dt.toMinute := by
  simp only [DateTime.read, toText, String.toList_ofList, readChars_toChars]

/-- There are no seconds in the offset, if there is one. -/
def Offset.InMinutes (offset : Option Offset) : Prop := ∀ o, offset = some o → o.seconds % 60 = 0

theorem Offset.map_toMinute_eq_self_iff {offset : Option Offset} :
    offset.map toMinute = offset ↔ InMinutes offset := by
  cases offset with
  | none => simp [InMinutes]
  | some o => simp [InMinutes, toMinute_eq_self_iff]

theorem Time.toMinute_eq_self_iff {t : Time} : t.toMinute = t ↔ Offset.InMinutes t.offset := by
  rw [← Offset.map_toMinute_eq_self_iff]
  cases t
  simp [toMinute]

theorem DateTime.toMinute_eq_self_iff {dt : DateTime} :
    dt.toMinute = dt ↔ Offset.InMinutes dt.offset := by
  rw [← Offset.map_toMinute_eq_self_iff]
  cases dt
  simp [toMinute]

namespace Value

/-- **Dates and times read back from their text.** The text of a value is its form in JSON too.
Every date reads back, and every time and date-time without seconds in its offset; with them it
reads back at the offset without them. -/
theorem calendar_text_reads_back :
    (∀ d : Date, (Value.date d).toJson = .string (Value.date d).toText ∧
      Date.read (Value.date d).toText = .ok d) ∧
    (∀ t : Time, (Value.time t).toJson = .string (Value.time t).toText ∧
      Time.read (Value.time t).toText = .ok t.toMinute ∧
      (Time.read (Value.time t).toText = .ok t ↔ Offset.InMinutes t.offset)) ∧
    (∀ dt : DateTime, (Value.dateTime dt).toJson = .string (Value.dateTime dt).toText ∧
      DateTime.read (Value.dateTime dt).toText = .ok dt.toMinute ∧
      (DateTime.read (Value.dateTime dt).toText = .ok dt ↔ Offset.InMinutes dt.offset)) := by
  refine ⟨fun d => ⟨?_, ?_⟩, fun t => ⟨?_, ?_, ?_⟩, fun dt => ⟨?_, ?_, ?_⟩⟩
  · rw [toJson, toText]
  · rw [toText, d.read_toText]
  · rw [toJson, toText]
  · rw [toText, t.read_toText]
  · rw [toText, t.read_toText, Except.ok.injEq, Time.toMinute_eq_self_iff]
  · rw [toJson, toText]
  · rw [toText, dt.read_toText]
  · rw [toText, dt.read_toText, Except.ok.injEq, DateTime.toMinute_eq_self_iff]

/-- The last nanosecond of a leap day before the year 0, half an hour and more behind. -/
def leapDayEnd : DateTime where
  date := ⟨-4, 2, 29, by decide⟩
  clock := ⟨86399999999999, by decide⟩
  offset := some ⟨-34200, by decide⟩

theorem leap_day_end_reads_back :
    (Value.dateTime leapDayEnd).toText = "-0004-02-29T23:59:59.999999999-09:30" ∧
      DateTime.read (Value.dateTime leapDayEnd).toText = .ok leapDayEnd ∧
      Date.read (Value.date leapDayEnd.date).toText = .ok leapDayEnd.date ∧
      Time.read (Value.time leapDayEnd.time).toText = .ok leapDayEnd.time := by
  obtain ⟨hdate, htime, hdateTime⟩ := calendar_text_reads_back
  have hminutes : Offset.InMinutes leapDayEnd.offset := by
    intro o ho
    cases ho
    decide
  exact ⟨rfl, (hdateTime leapDayEnd).2.2.mpr hminutes, (hdate leapDayEnd.date).2,
    (htime leapDayEnd.time).2.2.mpr hminutes⟩

/-- An offset of an hour and half a minute, which the components of a time may give, is written as
one of an hour. -/
theorem offset_seconds_lost :
    let half : Expr := .call "time" [.number (.ofNat 10), .number (.ofNat 15), .number (.ofNat 0),
      .call "duration" [.string "PT1H0M30S"]]
    ∃ t t' : Time, half.evaluate (.root [] 64 []) = .ok (.time t) ∧
      (Value.time t).toText = "10:15:00+01:00" ∧ Time.read (Value.time t).toText = .ok t' ∧
      (Value.time t).equals (Value.time t') = .ok false := by
  intro half
  refine ⟨⟨⟨36900000000000, by decide⟩, some ⟨3630, by decide⟩⟩,
    ⟨⟨36900000000000, by decide⟩, some ⟨3600, by decide⟩⟩, ?_, ?_, ?_, ?_⟩
  · have hcalls : (Scope.root [] 64 []).callsLeft = 64 := rfl
    have htime : (Expr.name "time").evaluateWith (Function.invokeWithin 64)
        ((Scope.root [] 64 []).part 0) = .ok (.function (.builtin .time)) := rfl
    have hparams : evaluateAll (Function.invokeWithin 64) 1
        [.number (.ofNat 10), .number (.ofNat 15), .number (.ofNat 0),
          .call "duration" [.string "PT1H0M30S"]] (.root [] 64 []) =
        .ok [.ofNat 10, .ofNat 15, .ofNat 0, .elapsed ⟨3630000000000⟩] := by rfl
    show Expr.evaluate (.invocation (.name "time") _) _ = _
    rw [Expr.evaluate, hcalls, Expr.evaluateWith, htime, ok_bind]
    dsimp only
    rw [hparams]
    rfl
  · rfl
  · rfl
  · rfl

end Value

end DecisionModel
