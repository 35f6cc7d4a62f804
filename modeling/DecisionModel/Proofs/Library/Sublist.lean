import DecisionModel.Library.Call
import DecisionModel.Proofs.Breakdown
import DecisionModel.Proofs.Decimal.Whole
import DecisionModel.Proofs.Library.AbsentArgument

/-!
# Parts of lists and of texts

`sublist` and `substring` look a position up, counted from one or from the end, and take the
elements from there on. Both are one function of a sequence, `cut`; they differ in the order in
which they look at their arguments, and in that no elements of a list, and elements of an empty one,
are there at every position. What they take is always within the sequence, so neither of them is
ever broken off.

A position and a length are words. A whole number beyond that is an overflow, also where it would be
a position outside, or a length that is more than there is.
-/

namespace DecisionModel.Library

variable {α β : Type} {function : String} {outside : Int → Nat → ArgumentFault}
  {items part : List α} {count : Nat} {place first : Int} {length? : Option Int}

/-! ## What is taken -/

/-- The elements at the positions from `first` on, as many as are asked for. Fewer are taken only if
there are no more. -/
def Selects (items : List α) (first : Int) (length? : Option Int) (part : List α) : Prop :=
  ∃ before after, items = before ++ part ++ after ∧ (before.length : Int) + 1 = first ∧
    (∀ n ∈ length?, (part.length : Int) ≤ n) ∧ (after ≠ [] → length? = some (part.length : Int))

/-- What taking a part of a sequence comes to. -/
inductive Takes (function : String) (outside : ArgumentFault) (items : List α) (place : Int)
    (length? : Option Int) : Result (List α) → Prop
  | outside : ¬Within items.length place →
      Takes function outside items place length? (.error (.invalidArgument function outside))
  | negative {n : Int} : Within items.length place → length? = some n → n < 0 →
      Takes function outside items place length?
        (.error (.invalidArgument function (.negativeLength n)))
  | selected {part : List α} : Within items.length place → (∀ n ∈ length?, 0 ≤ n) →
      Selects items (fromStart items.length place) length? part →
      Takes function outside items place length? (.ok part)

/-! ## Cutting a part out -/

theorem map_following (f : α → β) (items : List α) (first : Nat) (length? : Option Int) :
    (following items first length?).map f = following (items.map f) first length? := by
  cases length? with
  | none => exact List.map_drop
  | some n =>
    show ((items.drop first).take n.toNat).map f = ((items.map f).drop first).take n.toNat
    rw [List.map_take, List.map_drop]

theorem selects_following {first : Nat} (hfirst : first ≤ items.length)
    (hlength : ∀ n ∈ length?, 0 ≤ n) :
    Selects items (first + 1) length? (following items first length?) := by
  have hbefore : ((items.take first).length : Int) + 1 = first + 1 := by
    rw [List.length_take_of_le hfirst]
  cases length? with
  | none =>
    refine ⟨items.take first, [], ?_, hbefore, nofun, fun h => absurd rfl h⟩
    rw [List.append_nil]
    exact (List.take_append_drop first items).symm
  | some n =>
    have hn : 0 ≤ n := hlength n rfl
    refine ⟨items.take first, (items.drop first).drop n.toNat, ?_, hbefore, ?_, ?_⟩
    · rw [List.append_assoc]
      exact ((congrArg _ (List.take_append_drop n.toNat _)).trans
        (List.take_append_drop first items)).symm
    · rintro _ ⟨⟩
      rw [following, List.length_take]
      omega
    · intro hafter
      have hmore : n.toNat < (items.drop first).length := by
        rwa [ne_eq, List.drop_eq_nil_iff, Nat.not_le] at hafter
      rw [following, List.length_take_of_le hmore.le, Int.toNat_of_nonneg hn]

/-- The part of a sequence that a function takes from a position on. -/
def cut (function : String) (outside : Int → Nat → ArgumentFault) (items : List α) (place : Int)
    (length? : Option Int) : Result (List α) := do
  let first ← startOffset function outside items.length place
  takeFrom function items first length?

theorem takes_cut :
    Takes function (outside place items.length) items place length?
      (cut function outside items place length?) := by
  unfold cut
  by_cases hwithin : Within items.length place
  · obtain ⟨first, hfirst, hfrom, hnonneg, hlt⟩ := exists_startOffset hwithin
    rw [hfirst, ok_bind]
    -- only inside the sequence is the length looked at
    by_cases hlength : ∀ n ∈ length?, 0 ≤ n
    · rw [takeFrom_of_nonneg hnonneg hlt.le hlength]
      have hoffset : first.toNat ≤ items.length := by omega
      have hselects := selects_following hoffset hlength
      rw [Int.toNat_of_nonneg hnonneg, hfrom] at hselects
      exact .selected hwithin hlength hselects
    · obtain ⟨n, hsome, hneg, hrefused⟩ := exists_negative_length items first hlength
      rw [hrefused]
      exact .negative hwithin hsome hneg
  · rw [startOffset_of_not_within hwithin]
    exact .outside hwithin

theorem cut_eq_ok_iff :
    cut function outside items place length? = .ok part ↔
      ∃ first, offset? items.length place = some first ∧ (∀ n ∈ length?, 0 ≤ n) ∧
        following items first.toNat length? = part := by
  simp only [cut, bind_eq_ok_iff, startOffset_eq_ok_iff]
  refine exists_congr fun first => and_congr_right fun hfirst => ?_
  obtain ⟨hnonneg, hlt⟩ := bounds_of_offset? hfirst
  exact takeFrom_eq_ok_iff hnonneg hlt.le

/-- A part is taken at the same places whatever the elements are. -/
theorem cut_map_eq_ok_iff {function' : String} {outside' : Int → Nat → ArgumentFault} {f : α → β}
    {part : List β} :
    cut function outside (items.map f) place length? = .ok part ↔
      ∃ own, cut function' outside' items place length? = .ok own ∧ own.map f = part := by
  simp only [cut_eq_ok_iff, List.length_map]
  constructor
  · rintro ⟨first, hfirst, hlength, rfl⟩
    exact ⟨following items first.toNat length?, ⟨first, hfirst, hlength, rfl⟩, map_following ..⟩
  · rintro ⟨_, ⟨first, hfirst, hlength, rfl⟩, rfl⟩
    exact ⟨first, hfirst, hlength, (map_following ..).symm⟩

/-! ## The arguments after the sequence -/

/-- The length that an argument asks for: everything, if it is missing. -/
inductive AsksFor : Value → Option Int → Prop
  | everything {v : Value} : v.isMissing = true → AsksFor v none
  | number {n : Decimal} {z : Int} : n.toRat = z → AsksFor (.number n) (some z)

theorem exists_number_of_asksFor {v : Value} {z : Int} (h : AsksFor v (some z)) :
    ∃ n, v = .number n ∧ n.toRat = z := by
  cases h with
  | number hn => exact ⟨_, rfl, hn⟩

/-- A whole start and a length, if one is asked for, that are words. -/
structure Reads (args : List Value) (place : Int) (length? : Option Int) : Prop where
  start : ∃ n, argument args 0 = .number n ∧ n.toRat = place
  length : AsksFor (argument args 1) length?
  start_word : InInt64 place
  length_word : ∀ n ∈ length?, InInt64 n

theorem askedLength?_eq_ok_iff {v : Value} :
    askedLength? function v = .ok length? ↔ AsksFor v length? ∧ ∀ n ∈ length?, InInt64 n := by
  unfold askedLength?
  split
  · next hmissing =>
    constructor
    · rintro ⟨⟩
      exact ⟨.everything hmissing, nofun⟩
    · rintro ⟨hasks, -⟩
      cases hasks with
      | everything _ => rfl
      | number _ => cases hmissing
  · next hthere =>
    rw [map_eq_ok_iff]
    constructor
    · rintro ⟨z, hz, rfl⟩
      obtain ⟨n, rfl, hn, hword⟩ := position_eq_ok_iff.mp hz
      refine ⟨.number hn, ?_⟩
      rintro _ ⟨⟩
      exact hword
    · rintro ⟨hasks, hword⟩
      cases hasks with
      | everything hmissing => exact absurd hmissing hthere
      | number hn => exact ⟨_, position_eq_ok_iff.mpr ⟨_, rfl, hn, hword _ rfl⟩, rfl⟩

theorem reads_iff {args : List Value} :
    Reads args place length? ↔
      position function (argument args 0) = .ok place ∧
        askedLength? function (argument args 1) = .ok length? := by
  rw [position_eq_ok_iff, askedLength?_eq_ok_iff]
  constructor
  · rintro ⟨⟨n, hn, hplace⟩, hlength, hword, hwords⟩
    exact ⟨⟨n, hn, hplace, hword⟩, hlength, hwords⟩
  · rintro ⟨⟨n, hn, hplace, hword⟩, hlength, hwords⟩
    exact ⟨⟨n, hn, hplace⟩, hlength, hword, hwords⟩

/-! ## The two functions -/

variable {args : List Value}

/-- Of a list the length is looked at before the position is looked up. -/
theorem sublist_list {items : List Value} (h : (argument args 0).isMissing = false) :
    sublist (.list items :: args) =
      position "sublist" (argument args 0) >>= fun place =>
      askedLength? "sublist" (argument args 1) >>= fun length? =>
      if length? = some 0 ∨ items.isEmpty then .ok (.list [])
      else (cut "sublist" .startOutsideList items place length?).map .list := by
  have hlist : argument (.list items :: args) 0 = .list items := rfl
  have hstart : argument (.list items :: args) 1 = argument args 0 := rfl
  have hlength : argument (.list items :: args) 2 = argument args 1 := rfl
  have hthere : (Value.list items).isMissing ≠ true := Bool.false_ne_true
  unfold sublist
  dsimp only
  rw [hlist, hstart, hlength, if_neg hthere, if_neg (Bool.eq_false_iff.mp h), expectList, ok_bind]
  refine congrArg _ (funext fun place => congrArg _ (funext fun length? => ?_))
  refine if_congr Iff.rfl rfl ?_
  unfold cut
  cases startOffset "sublist" .startOutsideList items.length place <;> rfl

/-- Of a text the position is looked up before the length is looked at. -/
theorem substring_string {s : String} (h : (argument args 0).isMissing = false) :
    substring (.string s :: args) =
      position "substring" (argument args 0) >>= fun place =>
      startOffset "substring" .startOutsideString s.toList.length place >>= fun first =>
      (askedLength? "substring" (argument args 1) >>= takeFrom "substring" s.toList first).map
        fun own => .string (String.ofList own) := by
  have htext : argument (.string s :: args) 0 = .string s := rfl
  have hstart : argument (.string s :: args) 1 = argument args 0 := rfl
  have hlength : argument (.string s :: args) 2 = argument args 1 := rfl
  have hthere : (Value.string s).isMissing ≠ true := Bool.false_ne_true
  unfold substring
  dsimp only
  rw [htext, hstart, hlength, if_neg hthere, if_neg (Bool.eq_false_iff.mp h), expectString, ok_bind]
  refine congrArg _ (funext fun place => congrArg _ (funext fun first => ?_))
  cases askedLength? "substring" (argument args 1) <;> rfl

/-! ## Words -/

variable {start : Decimal} {items : List Value} {s : String}

theorem isMissing_start (h : argument args 0 = .number start) :
    (argument args 0).isMissing = false := by
  rw [h]
  rfl

theorem sublist_of_reads (h : Reads args place length?) :
    sublist (.list items :: args) =
      if length? = some 0 ∨ items.isEmpty then .ok (.list [])
      else (cut "sublist" .startOutsideList items place length?).map .list := by
  obtain ⟨hplace, hlength⟩ := reads_iff.mp h
  obtain ⟨_, hstart, -⟩ := h.start
  rw [sublist_list (isMissing_start hstart), hplace, ok_bind, hlength, ok_bind]

theorem substring_of_reads (h : Reads args place length?) :
    substring (.string s :: args) =
      (cut "substring" .startOutsideString s.toList place length?).map
        fun own => .string (String.ofList own) := by
  obtain ⟨hplace, hlength⟩ := reads_iff.mp h
  obtain ⟨_, hstart, -⟩ := h.start
  rw [substring_string (isMissing_start hstart), hplace, ok_bind, hlength, cut]
  cases startOffset "substring" .startOutsideString s.toList.length place <;> rfl

theorem call_of_start_beyond_words (hstart : argument args 0 = .number start)
    (hplace : start.toRat = place) (hword : ¬InInt64 place) :
    sublist (.list items :: args) = .error (.overflow (.position start)) ∧
      substring (.string s :: args) = .error (.overflow (.position start)) := by
  rw [sublist_list (isMissing_start hstart), substring_string (isMissing_start hstart), hstart,
    position_number_of_not_inInt64 hplace hword, position_number_of_not_inInt64 hplace hword,
    error_bind, error_bind]
  exact ⟨rfl, rfl⟩

/-- The length is looked at before the start is looked up in a list, and after it in a text. -/
theorem call_of_length_beyond_words {length : Decimal} {z : Int}
    (hstart : argument args 0 = .number start) (hplace : start.toRat = place)
    (hword : InInt64 place) (hlength : argument args 1 = .number length)
    (hz : length.toRat = z) (hlong : ¬InInt64 z) :
    sublist (.list items :: args) = .error (.overflow (.position length)) ∧
      substring (.string s :: args) =
        if Within s.toList.length place then .error (.overflow (.position length))
        else .error (.invalidArgument "substring" (.startOutsideString place s.toList.length)) := by
  have hposition (function : String) : position function (argument args 0) = .ok place :=
    position_eq_ok_iff.mpr ⟨start, hstart, hplace, hword⟩
  have hasked (function : String) :
      askedLength? function (argument args 1) = .error (.overflow (.position length)) := by
    have hthere : (Value.number length).isMissing ≠ true := Bool.false_ne_true
    rw [hlength, askedLength?, if_neg hthere, position_number_of_not_inInt64 hz hlong]
    rfl
  rw [sublist_list (isMissing_start hstart), substring_string (isMissing_start hstart), hposition,
    hposition, ok_bind, ok_bind, hasked, hasked, error_bind]
  refine ⟨rfl, ?_⟩
  split
  · next hwithin =>
    obtain ⟨first, hfirst, -⟩ := exists_startOffset hwithin
    rw [hfirst]
    rfl
  · next hwithin =>
    rw [startOffset_of_not_within hwithin]
    rfl

/-! ## A text as the list of its characters -/

theorem sublist_eq_ok_iff {v : Value} (h : (argument args 0).isMissing = false)
    (hitems : items ≠ []) (hlength : ∀ n, argument args 1 = .number n → n.toRat ≠ 0) :
    sublist (.list items :: args) = .ok v ↔
      ∃ place length? part, Reads args place length? ∧
        cut "sublist" .startOutsideList items place length? = .ok part ∧ .list part = v := by
  have hproper {place : Int} {length? : Option Int} (hreads : Reads args place length?) :
      ¬(length? = some 0 ∨ items.isEmpty = true) := by
    rintro (rfl | hempty)
    · obtain ⟨n, hn, hzero⟩ := exists_number_of_asksFor hreads.length
      exact hlength n hn (hzero.trans Int.cast_zero)
    · exact hitems (List.isEmpty_iff.mp hempty)
  constructor
  · intro hv
    rw [sublist_list h] at hv
    obtain ⟨place, hplace, hv⟩ := bind_eq_ok_iff.mp hv
    obtain ⟨length?, hasked, hv⟩ := bind_eq_ok_iff.mp hv
    have hreads := reads_iff.mpr ⟨hplace, hasked⟩
    rw [if_neg (hproper hreads)] at hv
    obtain ⟨part, hpart, hv⟩ := map_eq_ok_iff.mp hv
    exact ⟨place, length?, part, hreads, hpart, hv⟩
  · rintro ⟨place, length?, part, hreads, hpart, rfl⟩
    rw [sublist_of_reads hreads, if_neg (hproper hreads), hpart]
    rfl

theorem substring_eq_ok_iff {v : Value} (h : (argument args 0).isMissing = false) :
    substring (.string s :: args) = .ok v ↔
      ∃ place length? part, Reads args place length? ∧
        cut "substring" .startOutsideString s.toList place length? = .ok part ∧
        .string (String.ofList part) = v := by
  constructor
  · intro hv
    rw [substring_string h] at hv
    obtain ⟨place, hplace, hv⟩ := bind_eq_ok_iff.mp hv
    obtain ⟨first, hfirst, hv⟩ := bind_eq_ok_iff.mp hv
    obtain ⟨part, hpart, hv⟩ := map_eq_ok_iff.mp hv
    obtain ⟨length?, hasked, hpart⟩ := bind_eq_ok_iff.mp hpart
    exact ⟨place, length?, part, reads_iff.mpr ⟨hplace, hasked⟩,
      bind_eq_ok_iff.mpr ⟨first, hfirst, hpart⟩, hv⟩
  · rintro ⟨place, length?, part, hreads, hpart, rfl⟩
    rw [substring_of_reads hreads, hpart]
    rfl

/-- A character as a text. -/
def letter (c : Char) : Value := .string (String.singleton c)

/-- The characters of a text; there are none in other values. -/
def charactersOf : Value → List Char
  | .string s => s.toList
  | _ => []

/-- A list of texts as one text. Other values stay. -/
def joined : Value → Value
  | .list items => .string (String.ofList (items.flatMap charactersOf))
  | v => v

theorem joined_letters (cs : List Char) :
    joined (.list (cs.map letter)) = .string (String.ofList cs) := by
  have hletters : (cs.map letter).flatMap charactersOf = cs := by
    induction cs with
    | nil => rfl
    | cons c cs ih => rw [List.map_cons, List.flatMap_cons, ih, letter, charactersOf,
        String.toList_singleton, List.singleton_append]
  rw [joined, hletters]

theorem substring_eq_ok_iff_sublist {v : Value} (hs : s ≠ "")
    (hlength : ∀ n, argument args 1 = .number n → n.toRat ≠ 0) :
    substring (.string s :: args) = .ok v ↔
      ∃ w, sublist (.list (s.toList.map letter) :: args) = .ok w ∧ joined w = v := by
  cases h : (argument args 0).isMissing with
  | true =>
    have hstart : joined (argument args 0) = argument args 0 := by
      revert h
      cases argument args 0 <;> first | exact fun _ => rfl | exact nofun
    have htext : substring (.string s :: args) = .ok (argument args 0) := if_pos h
    have hlist : sublist (.list (s.toList.map letter) :: args) = .ok (argument args 0) := if_pos h
    rw [htext, hlist]
    constructor
    · rintro ⟨⟩
      exact ⟨_, rfl, hstart⟩
    · rintro ⟨_, ⟨⟩, rfl⟩
      rw [hstart]
  | false =>
    have hitems : s.toList.map letter ≠ [] := by simpa using hs
    rw [substring_eq_ok_iff h]
    constructor
    · rintro ⟨place, length?, part, hreads, hpart, rfl⟩
      exact ⟨.list (part.map letter), (sublist_eq_ok_iff h hitems hlength).mpr ⟨place, length?, _,
        hreads, cut_map_eq_ok_iff.mpr ⟨part, hpart, rfl⟩, rfl⟩, joined_letters part⟩
    · rintro ⟨w, hw, rfl⟩
      obtain ⟨place, length?, _, hreads, hpart, rfl⟩ :=
        (sublist_eq_ok_iff h hitems hlength).mp hw
      obtain ⟨part, hpart, rfl⟩ := cut_map_eq_ok_iff.mp hpart
      exact ⟨place, length?, part, hreads, hpart, (joined_letters part).symm⟩

/-- **Parts of lists and of texts, and the one as the other.** Neither function is ever broken off:
the offset on which a position falls and the one up to which a part is taken are within the sequence.
With a whole start and a whole length
that are words, a start outside and a negative length are refused, and else the part is the elements
at the positions asked for that exist. Only of an empty list, and where no elements of a list are
asked for, is the result the empty list in any case. A whole number that is no word is an overflow.
Of a text that is not empty a part is taken exactly if one of the list of its characters is, and it
consists of the same characters, unless the length is zero. -/
theorem parts_by_position :
    (∀ args, Unbroken (Builtin.sublist.call args) ∧ Unbroken (Builtin.substring.call args)) ∧
    (∀ function count place first length? taken, offset? count place = some first →
      takeCount function (count - first) length? = .ok taken →
        0 ≤ first ∧ first ≤ first + taken ∧ first + taken ≤ count) ∧
    (∀ items args place length?, Reads args place length? →
      (items = [] ∨ length? = some 0 →
        Builtin.sublist.call (.list items :: args) = .ok (.list [])) ∧
      (items ≠ [] → length? ≠ some 0 → ∃ taken,
        Takes "sublist" (.startOutsideList place items.length) items place length? taken ∧
          Builtin.sublist.call (.list items :: args) = taken.map .list)) ∧
    (∀ s args place length?, Reads args place length? → ∃ taken,
      Takes "substring" (.startOutsideString place s.toList.length) s.toList place length? taken ∧
        Builtin.substring.call (.string s :: args) =
          taken.map fun own => .string (String.ofList own)) ∧
    (∀ items s args start (place : Int), argument args 0 = .number start → start.toRat = place →
      ¬InInt64 place →
        Builtin.sublist.call (.list items :: args) = .error (.overflow (.position start)) ∧
        Builtin.substring.call (.string s :: args) = .error (.overflow (.position start))) ∧
    (∀ items s args start (place : Int) length (z : Int), argument args 0 = .number start →
      start.toRat = place → InInt64 place → argument args 1 = .number length →
      length.toRat = z → ¬InInt64 z →
        Builtin.sublist.call (.list items :: args) = .error (.overflow (.position length)) ∧
        Builtin.substring.call (.string s :: args) =
          if Within s.toList.length place then .error (.overflow (.position length))
          else .error
            (.invalidArgument "substring" (.startOutsideString place s.toList.length))) ∧
    (∀ s args v, s ≠ "" → (∀ n, argument args 1 = .number n → n.toRat ≠ 0) →
      (Builtin.substring.call (.string s :: args) = .ok v ↔
        ∃ w, Builtin.sublist.call (.list (s.toList.map letter) :: args) = .ok w ∧
          joined w = v)) := by
  refine ⟨fun args => ⟨unbroken_sublist args, unbroken_substring args⟩,
    fun function count place first length? taken hfirst htaken => ?_,
    fun items args place length? hreads => ?_, fun s args place length? hreads => ?_,
    fun items s args start place => call_of_start_beyond_words,
    fun items s args start place length z => call_of_length_beyond_words,
    fun s args v => substring_eq_ok_iff_sublist⟩
  · obtain ⟨hnonneg, hlt⟩ := bounds_of_offset? hfirst
    exact bounds_of_takeCount hnonneg hlt.le htaken
  · have hcall : Builtin.sublist.call (.list items :: args) = _ := sublist_of_reads hreads
    constructor
    · intro hnone
      exact hcall.trans (if_pos (hnone.symm.imp_right List.isEmpty_iff.mpr))
    · intro hitems hlength
      refine ⟨_, takes_cut, hcall.trans (if_neg ?_)⟩
      rw [List.isEmpty_iff]
      tauto
  · exact ⟨_, takes_cut, substring_of_reads hreads⟩

/-- The last but one position, and the least number above the words. -/
def lastButOne : Decimal := (Decimal.ofNat 2).neg

def aboveWords : Decimal := .ofNat 9223372036854775808

theorem toRat_lastButOne : lastButOne.toRat = (-2 : Int) := by
  rw [lastButOne, Decimal.toRat_neg, Decimal.toRat_ofNat (by decide)]
  norm_num

theorem toRat_aboveWords : aboveWords.toRat = (9223372036854775808 : Int) := by
  rw [aboveWords, Decimal.toRat_ofNat (by decide)]
  norm_num

theorem not_inInt64_aboveWords : ¬InInt64 9223372036854775808 := by decide

theorem reads_lastButOne : Reads [.number lastButOne] (-2) none where
  start := ⟨lastButOne, rfl, toRat_lastButOne⟩
  length := .everything rfl
  start_word := by decide
  length_word := nofun

theorem last_two_taken :
    (offset? 3 (-2) = some 1 ∧ takeCount "sublist" (3 - 1) none = .ok 2 ∧ 1 + 2 ≤ (3 : Int)) ∧
    (Reads [.number lastButOne] (-2) none ∧
      Takes "sublist" (.startOutsideList (-2) 3) [Value.ofNat 1, .ofNat 2, .ofNat 3] (-2) none
        (.ok [.ofNat 2, .ofNat 3]) ∧
      Takes "substring" (.startOutsideString (-2) 3) ['a', 'b', 'c'] (-2) none
        (.ok ['b', 'c'])) ∧
    (aboveWords.toRat = (9223372036854775808 : Int) ∧ ¬InInt64 9223372036854775808 ∧
      Builtin.sublist.call [.list [], .number aboveWords] =
        .error (.overflow (.position aboveWords)) ∧
      Builtin.substring.call [.string "abc", .number lastButOne, .number aboveWords] =
        .error (.overflow (.position aboveWords))) ∧
    "abc" ≠ "" ∧ (∀ n, argument [.number lastButOne] 1 = .number n → n.toRat ≠ 0) ∧
      ∃ w, Builtin.sublist.call [.list (['a', 'b', 'c'].map letter), .number lastButOne] = .ok w ∧
        joined w = .string "bc" := by
  obtain ⟨-, hbounds, hlists, htexts, hstarts, hlengths, hjoined⟩ := parts_by_position
  refine ⟨⟨rfl, rfl, (hbounds "sublist" 3 (-2) 1 none 2 rfl rfl).2.2⟩,
    ⟨reads_lastButOne, ?_, ?_⟩, ⟨toRat_aboveWords, not_inInt64_aboveWords, ?_, ?_⟩,
    by decide, nofun, ?_⟩
  · have hrun : Builtin.sublist.call
        [.list [.ofNat 1, .ofNat 2, .ofNat 3], .number lastButOne] =
          .ok (.list [.ofNat 2, .ofNat 3]) := rfl
    obtain ⟨taken, htaken, hcall⟩ :=
      (hlists [.ofNat 1, .ofNat 2, .ofNat 3] _ _ _ reads_lastButOne).2 (List.cons_ne_nil _ _) nofun
    obtain ⟨part, rfl, hpart⟩ := map_eq_ok_iff.mp (hcall.symm.trans hrun)
    cases hpart
    exact htaken
  · have hrun : Builtin.substring.call [.string "abc", .number lastButOne] =
        .ok (.string (String.ofList ['b', 'c'])) := rfl
    obtain ⟨taken, htaken, hcall⟩ := htexts "abc" _ _ _ reads_lastButOne
    obtain ⟨part, rfl, hpart⟩ := map_eq_ok_iff.mp (hcall.symm.trans hrun)
    rw [Value.string.injEq, String.ofList_inj] at hpart
    cases hpart
    exact htaken
  · exact (hstarts [] "abc" _ _ _ rfl toRat_aboveWords not_inInt64_aboveWords).1
  · have hcall := (hlengths [] "abc" [.number lastButOne, .number aboveWords] _ _ _ _ rfl
      toRat_lastButOne (by decide) rfl toRat_aboveWords not_inInt64_aboveWords).2
    exact hcall.trans (if_pos (by decide))
  · exact (hjoined "abc" [.number lastButOne] (.string "bc") (by decide) nofun).mp rfl

/-- A start far outside is an overflow, as is a length that is more than there is. -/
theorem above_words_refused :
    aboveWords.toRat = (9223372036854775808 : Int) ∧ ¬Within 2 9223372036854775808 ∧
      Builtin.sublist.call [.list [.ofNat 1, .ofNat 2], .number aboveWords] =
        .error (.overflow (.position aboveWords)) ∧
      Builtin.substring.call [.string "ab", .number aboveWords] =
        .error (.overflow (.position aboveWords)) ∧
    Selects [Value.ofNat 1, .ofNat 2] 1 (some 9223372036854775808) [.ofNat 1, .ofNat 2] ∧
      Builtin.sublist.call [.list [.ofNat 1, .ofNat 2], .ofNat 1, .number aboveWords] =
        .error (.overflow (.position aboveWords)) := by
  refine ⟨toRat_aboveWords, by decide, rfl, rfl, ⟨[], [], rfl, rfl, ?_, nofun⟩, rfl⟩
  rintro _ ⟨⟩
  decide

end DecisionModel.Library
