import DecisionModel.Proofs.Decimal.Whole
import DecisionModel.Proofs.Library.AbsentArgument
import Mathlib.Data.List.InsertIdx

/-!
# Positions of elements

`insert before`, `remove` and `index of` count positions from zero. An element can be put at one
more position than elements can be taken from, the one behind the last. Both functions look the
position up in the same way, `placeAmong`, and refuse it in words of their own; what one of them
does to a list the other one undoes.

A position is asked for as a word, which is no restriction of what can be reached: a list has no
more elements than a word counts.
-/

namespace DecisionModel.Library

variable {function : String} {fault : Int → Nat → ArgumentFault} {count room place : Nat}
  {items : List Value} {p : Decimal} {x needle v : Value}

/-! ## Looking a position up -/

/-- The place, among `room` ones, that a number stands for in a list of so many elements. -/
def placeAmong (function : String) (fault : Int → Nat → ArgumentFault) (count room : Nat)
    (p : Decimal) : Result Nat := do
  let index ← position function (.number p)
  if index < 0 ∨ room ≤ index then throw (.invalidArgument function (fault index count))
  else return index.toNat

theorem placeAmong_eq_ok_iff :
    placeAmong function fault count room p = .ok place ↔
      p.toRat = place ∧ place < room ∧ InInt64 place := by
  unfold placeAmong
  rw [bind_eq_ok_iff]
  constructor
  · rintro ⟨index, hindex, h⟩
    obtain ⟨_, ⟨⟩, hvalue, hword⟩ := position_eq_ok_iff.mp hindex
    split at h
    · cases h
    · next hinside =>
      have hplace : (place : Int) = index := by
        cases h
        omega
      rw [hvalue, ← hplace, Int.cast_natCast]
      exact ⟨rfl, by omega, hplace ▸ hword⟩
  · rintro ⟨hvalue, hplace, hword⟩
    refine ⟨place, position_eq_ok_iff.mpr ⟨p, rfl, by rw [hvalue, Int.cast_natCast], hword⟩, ?_⟩
    rw [if_neg (by omega), Int.toNat_natCast]
    rfl

theorem insertBefore_eq (hx : x.isAbsent = false) :
    insertBefore [.list items, .number p, x] =
      (placeAmong "insert before" .insertPosition items.length (items.length + 1) p).map
        fun place => .list (items.insertIdx place x) := by
  show (if x.isAbsent = true then _ else _) = _
  rw [hx, if_neg Bool.false_ne_true, placeAmong]
  show (position "insert before" (.number p) >>= _) = _
  cases position "insert before" (.number p) with
  | error e => rfl
  | ok index =>
    rw [ok_bind, ok_bind]
    by_cases hinside : index < 0 ∨ (items.length : Int) < index
    · rw [if_pos hinside, if_pos (by push_cast; omega)]
      rfl
    · rw [if_neg hinside, if_neg (by push_cast; omega)]
      rfl

theorem remove_eq :
    remove [.list items, .number p] =
      (placeAmong "remove" .removePosition items.length items.length p).map
        fun place => .list (items.eraseIdx place) := by
  rw [placeAmong]
  show (position "remove" (.number p) >>= _) = _
  cases position "remove" (.number p) with
  | error e => rfl
  | ok index =>
    rw [ok_bind, ok_bind]
    split <;> rfl

/-- Whatever is put into a list, absent apart, can be put before every element and behind all of
them. -/
theorem insertBefore_eq_ok_iff (hx : x.isAbsent = false) :
    insertBefore [.list items, .number p, x] = .ok v ↔
      ∃ place : Nat, (p.toRat = place ∧ place ≤ items.length ∧ InInt64 place) ∧
        .list (items.insertIdx place x) = v := by
  rw [insertBefore_eq hx, map_eq_ok_iff]
  simp only [placeAmong_eq_ok_iff, Nat.lt_succ_iff]

theorem remove_eq_ok_iff :
    remove [.list items, .number p] = .ok v ↔
      ∃ place : Nat, (p.toRat = place ∧ place < items.length ∧ InInt64 place) ∧
        .list (items.eraseIdx place) = v := by
  rw [remove_eq, map_eq_ok_iff]
  simp only [placeAmong_eq_ok_iff]

theorem inInt64_of_le (hcount : InInt64 count) (h : place ≤ count) : InInt64 place := by
  unfold InInt64 at *
  omega

theorem succeeds_insertBefore_iff (hcount : InInt64 items.length) (hx : x.isAbsent = false) :
    Succeeds (insertBefore [.list items, .number p, x]) ↔
      ∃ place : Nat, p.toRat = place ∧ place ≤ items.length := by
  constructor
  · rintro ⟨v, hv⟩
    obtain ⟨place, ⟨hvalue, hle, -⟩, -⟩ := (insertBefore_eq_ok_iff hx).mp hv
    exact ⟨place, hvalue, hle⟩
  · rintro ⟨place, hvalue, hle⟩
    exact ⟨_, (insertBefore_eq_ok_iff hx).mpr
      ⟨place, ⟨hvalue, hle, inInt64_of_le hcount hle⟩, rfl⟩⟩

theorem succeeds_remove_iff (hcount : InInt64 items.length) :
    Succeeds (remove [.list items, .number p]) ↔
      ∃ place : Nat, p.toRat = place ∧ place < items.length := by
  constructor
  · rintro ⟨v, hv⟩
    obtain ⟨place, ⟨hvalue, hlt, -⟩, -⟩ := remove_eq_ok_iff.mp hv
    exact ⟨place, hvalue, hlt⟩
  · rintro ⟨place, hvalue, hlt⟩
    exact ⟨_, remove_eq_ok_iff.mpr ⟨place, ⟨hvalue, hlt, inInt64_of_le hcount hlt.le⟩, rfl⟩⟩

/-! ## Putting in and taking out -/

/-- What was put in is what is taken out. -/
theorem remove_insertBefore (hx : x.isAbsent = false)
    (h : insertBefore [.list items, .number p, x] = .ok v) :
    remove [v, .number p] = .ok (.list items) := by
  obtain ⟨place, ⟨hvalue, hle, hword⟩, rfl⟩ := (insertBefore_eq_ok_iff hx).mp h
  have hlength : (items.insertIdx place x).length = items.length + 1 :=
    List.length_insertIdx_of_le_length hle x
  refine remove_eq_ok_iff.mpr ⟨place, ⟨hvalue, by omega, hword⟩, ?_⟩
  rw [List.eraseIdx_insertIdx_self]

/-- What was taken out can be put back. -/
theorem insertBefore_remove (hx : x.isAbsent = false) (hvalue : p.toRat = place)
    (hplace : items[place]? = some x) (h : remove [.list items, .number p] = .ok v) :
    insertBefore [v, .number p, x] = .ok (.list items) := by
  obtain ⟨place', ⟨hvalue', hlt, hword⟩, rfl⟩ := remove_eq_ok_iff.mp h
  obtain rfl : place = place' := by exact_mod_cast hvalue.symm.trans hvalue'
  have hlength := List.length_eraseIdx_of_lt hlt
  refine (insertBefore_eq_ok_iff hx).mpr ⟨place, ⟨hvalue, by omega, hword⟩, ?_⟩
  rw [List.getElem?_eq_getElem hlt, Option.some_inj] at hplace
  rw [← hplace, List.insertIdx_eraseIdx_getElem hlt]

/-! ## Finding positions -/

/-- The numbers found are the positions of the elements that equal what is looked for, from the
first one on. -/
structure Locates (items : List Value) (needle : Value) (found : List Decimal) : Prop where
  ascending : found.Pairwise fun p q => p.toRat < q.toRat
  within : ∀ p ∈ found, ∃ place : Nat, p.toRat = place ∧ place < items.length
  exact : ∀ place : Nat, (∃ p ∈ found, p.toRat = place) ↔
    ∃ item, items[place]? = some item ∧ item.equals needle = .ok true

theorem positionsFrom_eq_findIdxs (first : Nat) (needle : Value) (items : List Value) :
    positionsFrom first needle items = items.findIdxs (·.agrees needle) first := by
  induction items generalizing first with
  | nil => rfl
  | cons item items ih => rw [positionsFrom, List.findIdxs_cons, ih]

theorem agrees_iff_equals : x.agrees needle = true ↔ x.equals needle = .ok true := by
  unfold Value.agrees
  cases x.equals needle <;> simp [Value.holds]

theorem mem_positionsFrom_iff :
    place ∈ positionsFrom 0 needle items ↔
      ∃ item, items[place]? = some item ∧ item.equals needle = .ok true := by
  rw [positionsFrom_eq_findIdxs, List.mem_findIdxs_iff_exists_getElem_pos]
  simp only [agrees_iff_equals, List.getElem?_eq_some_iff]
  constructor
  · rintro ⟨hplace, hequals⟩
    exact ⟨_, ⟨hplace, rfl⟩, hequals⟩
  · rintro ⟨_, ⟨hplace, rfl⟩, hequals⟩
    exact ⟨hplace, hequals⟩

theorem lt_length_of_mem_positionsFrom (h : place ∈ positionsFrom 0 needle items) :
    place < items.length := by
  obtain ⟨item, hitem, -⟩ := mem_positionsFrom_iff.mp h
  exact (List.getElem?_eq_some_iff.mp hitem).1

/-- A position of a list is written as the number that it is. -/
theorem toRat_ofNat_of_lt (hcount : InInt64 count) (h : place < count) :
    (Decimal.ofNat place).toRat = place := by
  refine Decimal.toRat_ofNat ?_
  have := Decimal.natAbs_le_of_inInt64 (inInt64_of_le hcount h.le)
  rwa [Int.natAbs_natCast] at this

theorem locates_positionsFrom (hcount : InInt64 items.length) :
    Locates items needle ((positionsFrom 0 needle items).map .ofNat) where
  ascending := by
    have hascending : (positionsFrom 0 needle items).Pairwise (· < ·) := by
      rw [positionsFrom_eq_findIdxs]
      exact List.pairwise_findIdxs
    refine List.pairwise_map.mpr (hascending.imp_of_mem fun {i j} hi hj hij => ?_)
    rw [toRat_ofNat_of_lt hcount (lt_length_of_mem_positionsFrom hi),
      toRat_ofNat_of_lt hcount (lt_length_of_mem_positionsFrom hj)]
    exact_mod_cast hij
  within p hp := by
    obtain ⟨place, hplace, rfl⟩ := List.mem_map.mp hp
    have hlt := lt_length_of_mem_positionsFrom hplace
    exact ⟨place, toRat_ofNat_of_lt hcount hlt, hlt⟩
  exact place := by
    rw [← mem_positionsFrom_iff]
    constructor
    · rintro ⟨_, hp, hvalue⟩
      obtain ⟨found, hfound, rfl⟩ := List.mem_map.mp hp
      rw [toRat_ofNat_of_lt hcount (lt_length_of_mem_positionsFrom hfound), Nat.cast_inj] at hvalue
      exact hvalue ▸ hfound
    · intro hplace
      exact ⟨_, List.mem_map_of_mem hplace,
        toRat_ofNat_of_lt hcount (lt_length_of_mem_positionsFrom hplace)⟩

theorem indexOf_eq (hneedle : needle.isAbsent = false) :
    indexOf [.list items, needle] =
      .ok (.list (((positionsFrom 0 needle items).map Decimal.ofNat).map .number)) := by
  show (if needle.isAbsent = true then _ else _) = _
  rw [hneedle, if_neg Bool.false_ne_true, List.map_map]
  rfl

/-- **Positions count from zero.** In a list of no more elements than a word can count, an element
goes in at the whole numbers from zero to the number of elements, and comes out at those below it.
Putting an element in and taking out what is at its position leaves the list as it was, and so does
taking an element out and putting it back. The positions of the elements that equal a value are
found in ascending order, each of them once, and at each of them an element can be taken out. -/
theorem positions_count_from_zero (items : List Value) (hcount : InInt64 items.length) :
    (∃ count, Builtin.count.call [.list items] = .ok (.number count) ∧
      count.toRat = items.length) ∧
    (∀ p x, x.isAbsent = false →
      (Succeeds (Builtin.insertBefore.call [.list items, .number p, x]) ↔
        ∃ place : Nat, p.toRat = place ∧ place ≤ items.length) ∧
      ∀ inserted, Builtin.insertBefore.call [.list items, .number p, x] = .ok inserted →
        Builtin.remove.call [inserted, .number p] = .ok (.list items)) ∧
    (∀ p,
      (Succeeds (Builtin.remove.call [.list items, .number p]) ↔
        ∃ place : Nat, p.toRat = place ∧ place < items.length) ∧
      ∀ (place : Nat) x, p.toRat = place → items[place]? = some x → x.isAbsent = false →
        ∃ removed, Builtin.remove.call [.list items, .number p] = .ok removed ∧
          Builtin.insertBefore.call [removed, .number p, x] = .ok (.list items)) ∧
    ∀ needle, needle.isAbsent = false → ∃ found : List Decimal,
      Builtin.indexOf.call [.list items, needle] = .ok (.list (found.map .number)) ∧
      Locates items needle found ∧
      ∀ p ∈ found, Succeeds (Builtin.remove.call [.list items, .number p]) := by
  refine ⟨⟨.ofNat items.length, rfl, ?_⟩, fun p x hx => ⟨?_, fun inserted => ?_⟩,
    fun p => ⟨?_, fun place x hvalue hplace hx => ?_⟩, fun needle hneedle => ?_⟩
  · have hle := Decimal.natAbs_le_of_inInt64 hcount
    rw [Int.natAbs_natCast] at hle
    exact Decimal.toRat_ofNat hle
  · exact succeeds_insertBefore_iff hcount hx
  · exact remove_insertBefore hx
  · exact succeeds_remove_iff hcount
  · have hlt : place < items.length := (List.getElem?_eq_some_iff.mp hplace).1
    obtain ⟨removed, hremoved⟩ := (succeeds_remove_iff hcount).mpr ⟨place, hvalue, hlt⟩
    exact ⟨removed, hremoved, insertBefore_remove hx hvalue hplace hremoved⟩
  · have hlocates : Locates items needle ((positionsFrom 0 needle items).map .ofNat) :=
      locates_positionsFrom hcount
    exact ⟨_, indexOf_eq hneedle, hlocates, fun p hp =>
      (succeeds_remove_iff hcount).mpr (hlocates.within p hp)⟩

/-- A zero without and one with a sign, null between them and a text at the end. -/
def twoZeros : List Value :=
  [.number .zero, .null, .number Decimal.zero.neg, .string "a"]

/-- Behind the text at the end something can be put in, but nothing taken out, and both zeros are
found. -/
theorem two_zeros_located :
    InInt64 twoZeros.length ∧ (Value.string "a").isAbsent = false ∧
    Succeeds (Builtin.insertBefore.call [.list twoZeros, .ofNat 4, .string "a"]) ∧
    ¬Succeeds (Builtin.remove.call [.list twoZeros, .ofNat 4]) ∧
    (∃ removed, Builtin.remove.call [.list twoZeros, .ofNat 3] = .ok removed ∧
      Builtin.insertBefore.call [removed, .ofNat 3, .string "a"] = .ok (.list twoZeros)) ∧
    Locates twoZeros (.number .zero) [.ofNat 0, .ofNat 2] := by
  have hthree : (Decimal.ofNat 3).toRat = (3 : Nat) := Decimal.toRat_ofNat (by decide)
  have hfour : (Decimal.ofNat 4).toRat = (4 : Nat) := Decimal.toRat_ofNat (by decide)
  obtain ⟨-, hinsert, hremove, hindex⟩ := positions_count_from_zero twoZeros (by decide)
  refine ⟨by decide, rfl, (hinsert (.ofNat 4) (.string "a") rfl).1.mpr ⟨4, hfour, by decide⟩, ?_,
    (hremove (.ofNat 3)).2 3 (.string "a") hthree rfl rfl, ?_⟩
  · intro hsucceeds
    obtain ⟨place, hvalue, hlt⟩ := (hremove (.ofNat 4)).1.mp hsucceeds
    obtain rfl : 4 = place := by exact_mod_cast hfour.symm.trans hvalue
    exact absurd hlt (by decide)
  · obtain ⟨found, hfound, hlocates, -⟩ := hindex (.number .zero) rfl
    have hrun : Builtin.indexOf.call [.list twoZeros, .number .zero] =
        .ok (.list ([Decimal.ofNat 0, .ofNat 2].map .number)) := rfl
    rw [hrun, Except.ok.injEq, Value.list.injEq] at hfound
    have hinjective : Function.Injective Value.number := fun _ _ h => Value.number.inj h
    rw [List.map_injective_iff.mpr hinjective hfound]
    exact hlocates

end DecisionModel.Library
