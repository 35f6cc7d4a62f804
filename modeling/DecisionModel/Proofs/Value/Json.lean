import DecisionModel.Proofs.Decimal.Whole
import DecisionModel.Proofs.Value.Binding
import DecisionModel.Value.Json
import Mathlib.Data.List.Forall2

/-!
# Values and JSON read back

Null, booleans, numbers, strings, lists and contexts have a form of their own in JSON, and reading it
leads back to the same value. What could go wrong is the numbers, since a decimal is offered to a
reader that takes it for a double. It does not, because a double is written only after it was read
again and found to be the same number; for that it does not matter which double was tried. Any other
number is written as a string of all its digits. That is the one change there is: the digits are a
string when they come back.

Lists and contexts are gone through in one way whatever their numbers are written as, so the writer
of numbers is a parameter here, and only the last step says which one it is.
-/

namespace DecisionModel

/-! ## Entries -/

namespace Entries

variable {α β : Type} {entries : List (String × α)} {name : String}

/-- A name above all others comes last. -/
theorem insert_of_forall_lt (value : α) (h : ∀ n ∈ names entries, n < name) :
    insert entries name value = entries ++ [(name, value)] := by
  induction entries with
  | nil => rfl
  | cons entry entries ih =>
    obtain ⟨hentry, hentries⟩ := List.forall_mem_cons.mp h
    rw [insert, if_neg hentry.ne', if_neg hentry.not_gt, ih hentries, List.cons_append]

/-- The next name of a list that is sorted is put after those before it. -/
theorem insert_next {before : List (String × α)} {entry : String × β} {after : List (String × β)}
    (value : α) (h : (names before ++ names (entry :: after)).Pairwise (· < ·)) :
    insert before entry.1 value = before ++ [(entry.1, value)] ∧
      (names (before ++ [(entry.1, value)]) ++ names after).Pairwise (· < ·) := by
  constructor
  · apply insert_of_forall_lt
    intro n hn
    exact (List.pairwise_append.mp h).2.2 n hn entry.1 List.mem_cons_self
  · simpa [names] using h

theorem map_insert (f : α → β) (entries : List (String × α)) (name : String) (value : α) :
    (insert entries name value).map (fun entry => (entry.1, f entry.2)) =
      insert (entries.map fun entry => (entry.1, f entry.2)) name (f value) := by
  induction entries with
  | nil => rfl
  | cons entry entries ih =>
    rw [List.map_cons, insert, insert]
    split
    · rfl
    · split
      · rfl
      · rw [List.map_cons, ih]

end Entries

/-! ## Numbers -/

namespace Decimal

variable {n : Decimal}

theorem toRat_stripZeros (negative : Bool) (mantissa scale : Nat) (hm : mantissa ≤ maxMantissa)
    (hs : scale ≤ maxScale) :
    (stripZeros negative mantissa scale hm hs).toRat =
      toRat ⟨negative, mantissa, scale, hm, hs⟩ := by
  induction scale generalizing mantissa with
  | zero => rfl
  | succ scale ih =>
    rw [stripZeros]
    split
    case isTrue hzero =>
      rw [ih]
      refine (toRat_eq_of_mul 1 ?_ ?_ ?_).symm
      · rfl
      · rfl
      · exact (Nat.div_mul_cancel (Nat.dvd_of_mod_eq_zero hzero)).symm
    case isFalse => rfl

/-- Zeros at the end and the sign of a zero are not part of the number. -/
theorem toRat_normalize (d : Decimal) : d.normalize.toRat = d.toRat := by
  unfold normalize
  split
  case isTrue hzero => rw [toRat_zero, toRat_eq_zero_iff.mpr hzero]
  case isFalse => exact toRat_stripZeros _ _ _ _ _

/-- Whether the text of a double is read as the decimal. -/
def isReadFrom (d : Decimal) (x : Double) : Bool :=
  match ofDouble x with
  | .ok back => back.same d
  | .error _ => false

/-- The number in JSON, where `pick` says which double is tried. -/
def toJsonBy (pick : Decimal → Option Double) (d : Decimal) : Json :=
  match d.wholeInt64? with
  | some i => .ofInt i.toInt
  | none => match (pick d.normalize).filter d.normalize.isReadFrom with
    | some x => .number (.double x)
    | none => .string d.normalize.toText

theorem toJsonBy_toDouble? (d : Decimal) : d.toJsonBy toDouble? = d.toJson := by
  have hexact : (toDouble? d.normalize).filter d.normalize.isReadFrom =
      d.normalize.exactDouble? := by
    unfold exactDouble? isReadFrom
    cases toDouble? d.normalize with
    | none => rfl
    | some x =>
      dsimp only
      cases hread : ofDouble x <;> simp [Option.filter_some, hread]
  rw [toJsonBy, hexact]
  rfl

theorem wholeInt64?_eq_some_iff {w : Int64} : n.wholeInt64? = some w ↔ n.toRat = w.toInt := by
  unfold wholeInt64?
  cases hwhole : n.isWhole with
  | false =>
    refine iff_of_false (Option.some_ne_none w).symm ?_
    intro hw
    rw [isWhole_of_toRat hw] at hwhole
    cases hwhole
  | true =>
    rw [if_pos rfl, toInt64?_eq_some_iff, toRat_of_isWhole hwhole, Int.cast_inj]
    exact eq_comm

/-- The text holds all the digits of the number, and is read as it. -/
def IsTextOf (text : String) (n : Decimal) : Prop :=
  text = n.normalize.toText ∧ ∃ d, read text = .ok d ∧ d.toRat = n.toRat

theorem isTextOf_normalize (n : Decimal) : IsTextOf n.normalize.toText n := by
  refine ⟨rfl, _, read_toText n.normalize, ?_⟩
  rw [← same_iff.mp (same_unsignedZero _), toRat_normalize]

end Decimal

/-! ## Values that have a form of their own -/

namespace Value

/-- Null, booleans, numbers and strings, and lists and contexts of such values. The entries of a
context are sorted by name. -/
inductive Plain : Value → Prop where
  | null : Plain .null
  | bool (b : Bool) : Plain (.bool b)
  | number (n : Decimal) : Plain (.number n)
  | string (s : String) : Plain (.string s)
  | list {items : List Value} (h : ∀ item ∈ items, Plain item) : Plain (.list items)
  | context {entries : Context} (hnames : (Entries.names entries).Pairwise (· < ·))
    (h : ∀ entry ∈ entries, Plain entry.2) : Plain (.context entries)

/-- The second value is the first one with its numbers as they are or as their texts. -/
inductive ComesBack : Value → Value → Prop where
  | null : ComesBack .null .null
  | bool (b : Bool) : ComesBack (.bool b) (.bool b)
  | number {n d : Decimal} (h : n.same d = true) : ComesBack (.number n) (.number d)
  | digits {n : Decimal} {text : String} (h : Decimal.IsTextOf text n) :
    ComesBack (.number n) (.string text)
  | string (s : String) : ComesBack (.string s) (.string s)
  | list {items others : List Value} (h : List.Forall₂ ComesBack items others) :
    ComesBack (.list items) (.list others)
  | context {entries others : Context} (hnames : Entries.names entries = Entries.names others)
    (h : List.Forall₂ ComesBack (entries.map (·.2)) (others.map (·.2))) :
    ComesBack (.context entries) (.context others)

theorem fromJson_ofInt {z : Int} {d : Decimal} (h : Decimal.ofInt? z = some d) :
    fromJson (.ofInt z) = .ok (.number d) := by
  show (Decimal.ofJson (.integer z)).map Value.number = _
  rw [Decimal.ofJson, h]
  rfl

theorem number_comes_back (pick : Decimal → Option Double) (n : Decimal) :
    ∃ w, fromJson (n.toJsonBy pick) = .ok w ∧ ComesBack (.number n) w := by
  unfold Decimal.toJsonBy
  cases hwhole : n.wholeInt64? with
  | some i =>
    obtain ⟨d, hd⟩ :=
      Decimal.exists_ofInt?_eq_some (Decimal.natAbs_le_of_inInt64 (inInt64_toInt i))
    refine ⟨.number d, fromJson_ofInt hd, .number ?_⟩
    rw [Decimal.same_iff, Decimal.wholeInt64?_eq_some_iff.mp hwhole, Decimal.toRat_of_ofInt? hd]
  | none =>
    cases hx : (pick n.normalize).filter n.normalize.isReadFrom with
    | none => exact ⟨_, rfl, .digits (Decimal.isTextOf_normalize n)⟩
    | some x =>
      obtain ⟨-, hread⟩ := Option.filter_eq_some_iff.mp hx
      unfold Decimal.isReadFrom at hread
      cases hback : Decimal.ofDouble x with
      | error fault =>
        rw [hback] at hread
        cases hread
      | ok back =>
        rw [hback] at hread
        refine ⟨.number back, ?_, .number ?_⟩
        · show (Decimal.ofJson (.double x)).map Value.number = _
          rw [Decimal.ofJson, hback]
          rfl
        · rw [Decimal.same_iff, Decimal.same_iff.mp hread, Decimal.toRat_normalize]

/-! ## Writing and reading back -/

mutual

/-- The value in JSON, with numbers as `number` has them. -/
def toJsonWith (number : Decimal → Json) : Value → Json
  | .number n => number n
  | .list items => .array (toJsonAllWith number items)
  | .context entries => .object (toJsonFieldsWith number entries)
  | v => v.toJson

def toJsonAllWith (number : Decimal → Json) : List Value → List Json
  | [] => []
  | item :: items => item.toJsonWith number :: toJsonAllWith number items

def toJsonFieldsWith (number : Decimal → Json) : List (String × Value) → List (String × Json)
  | [] => []
  | (name, value) :: entries => (name, value.toJsonWith number) :: toJsonFieldsWith number entries

end

variable {number : Decimal → Json} {α : Type} {write : α → Json} {R : α → Value → Prop}

mutual

theorem toJsonWith_toJson : ∀ v : Value, v.toJsonWith Decimal.toJson = v.toJson
  | .list items => by rw [toJsonWith, toJson, toJsonAllWith_toJson items]
  | .context entries => by rw [toJsonWith, toJson, toJsonFieldsWith_toJson entries]
  | .null | .absent | .bool _ | .number _ | .string _ | .date _ | .time _ | .dateTime _ | .months _
  | .elapsed _ | .composite _ | .function _ | .predicate _ => by rfl

theorem toJsonAllWith_toJson : ∀ items : List Value,
    toJsonAllWith Decimal.toJson items = toJsonAll items
  | [] => by rfl
  | item :: items => by
    rw [toJsonAllWith, toJsonAll, toJsonWith_toJson item, toJsonAllWith_toJson items]

theorem toJsonFieldsWith_toJson : ∀ entries : List (String × Value),
    toJsonFieldsWith Decimal.toJson entries = toJsonFields entries
  | [] => by rfl
  | (name, value) :: entries => by
    rw [toJsonFieldsWith, toJsonFields, toJsonWith_toJson value, toJsonFieldsWith_toJson entries]

end

theorem toJsonAllWith_eq_map (number : Decimal → Json) (items : List Value) :
    toJsonAllWith number items = items.map (toJsonWith number) := by
  induction items with
  | nil => rfl
  | cons item items ih => rw [toJsonAllWith, ih, List.map_cons]

theorem toJsonFieldsWith_eq_map (number : Decimal → Json) (entries : List (String × Value)) :
    toJsonFieldsWith number entries =
      entries.map fun entry => (entry.1, entry.2.toJsonWith number) := by
  induction entries with
  | nil => rfl
  | cons entry entries ih => rw [toJsonFieldsWith, ih, List.map_cons]

/-- A list is read if every element of it is. -/
theorem fromJsonAll_map {items : List α}
    (h : ∀ item ∈ items, ∃ w, fromJson (write item) = .ok w ∧ R item w) :
    ∃ values, fromJsonAll (items.map write) = .ok values ∧ List.Forall₂ R items values := by
  induction items with
  | nil => exact ⟨[], rfl, .nil⟩
  | cons item items ih =>
    obtain ⟨⟨w, hw, hitem⟩, hitems⟩ := List.forall_mem_cons.mp h
    obtain ⟨values, hvalues, hrest⟩ := ih hitems
    refine ⟨w :: values, ?_, .cons hitem hrest⟩
    rw [List.map_cons, fromJsonAll, hw, hvalues]
    rfl

/-- Sorted fields are read one after another, and the entries have the names of the fields. -/
theorem fromJsonFields_map {read : Context} {entries : List (String × α)}
    (hnames : (Entries.names read ++ Entries.names entries).Pairwise (· < ·))
    (h : ∀ entry ∈ entries, ∃ w, fromJson (write entry.2) = .ok w ∧ R entry.2 w) :
    ∃ others, fromJsonFields read (entries.map fun entry => (entry.1, write entry.2)) =
        .ok (read ++ others) ∧
      Entries.names entries = Entries.names others ∧
      List.Forall₂ R (entries.map (·.2)) (others.map (·.2)) := by
  induction entries generalizing read with
  | nil => exact ⟨[], by rw [List.append_nil]; rfl, rfl, .nil⟩
  | cons entry entries ih =>
    obtain ⟨⟨w, hw, hentry⟩, hentries⟩ := List.forall_mem_cons.mp h
    obtain ⟨hlast, hnext⟩ := Entries.insert_next w hnames
    obtain ⟨others, hothers, hsame, hrest⟩ := ih hnext hentries
    refine ⟨(entry.1, w) :: others, ?_, ?_, .cons hentry hrest⟩
    · rw [List.map_cons, fromJsonFields, hw, ok_bind, hlast, hothers, List.append_assoc,
        List.singleton_append]
    · simpa [Entries.names] using hsame

/-- **A plain value comes back** if its numbers do. -/
theorem plain_comes_back {v : Value} (h : v.Plain)
    (hnumber : ∀ n, ∃ w, fromJson (number n) = .ok w ∧ ComesBack (.number n) w) :
    ∃ w, fromJson (v.toJsonWith number) = .ok w ∧ v.ComesBack w := by
  induction h with
  | null => exact ⟨.null, rfl, .null⟩
  | bool b => exact ⟨.bool b, rfl, .bool b⟩
  | number n => exact hnumber n
  | string s => exact ⟨.string s, rfl, .string s⟩
  | @list items _ ih =>
    obtain ⟨values, hvalues, hback⟩ := fromJsonAll_map ih
    refine ⟨.list values, ?_, .list hback⟩
    rw [toJsonWith, toJsonAllWith_eq_map, fromJson, hvalues]
    rfl
  | @context entries hnames _ ih =>
    have hsorted : (Entries.names ([] : Context) ++
        Entries.names entries).Pairwise (· < ·) := hnames
    obtain ⟨others, hothers, hsame, hback⟩ := fromJsonFields_map hsorted ih
    refine ⟨.context others, ?_, .context hsame hback⟩
    rw [toJsonWith, toJsonFieldsWith_eq_map, fromJson, hothers]
    rfl

end Value

/-! ## Reading and writing again -/

namespace Json

/-- Every number in the document is an integer of 64 bits. -/
inductive OfWords : Json → Prop where
  | null : OfWords .null
  | bool (b : Bool) : OfWords (.bool b)
  | number {i : Int} (h : InInt64 i) : OfWords (.ofInt i)
  | string (s : String) : OfWords (.string s)
  | array {items : List Json} (h : ∀ item ∈ items, OfWords item) : OfWords (.array items)
  | object {fields : List (String × Json)} (h : ∀ field ∈ fields, OfWords field.2) :
    OfWords (.object fields)

/-- The fields of every object are sorted by name, and no name comes twice. -/
inductive Settled : Json → Prop where
  | null : Settled .null
  | bool (b : Bool) : Settled (.bool b)
  | number (n : Number) : Settled (.number n)
  | string (s : String) : Settled (.string s)
  | array {items : List Json} (h : ∀ item ∈ items, Settled item) : Settled (.array items)
  | object {fields : List (String × Json)} (hnames : (Entries.names fields).Pairwise (· < ·))
    (h : ∀ field ∈ fields, Settled field.2) : Settled (.object fields)

theorem settleAll_eq_self {items : List Json} (h : ∀ item ∈ items, item.settle = item) :
    settleAll items = items := by
  induction items with
  | nil => rfl
  | cons item items ih =>
    obtain ⟨hitem, hitems⟩ := List.forall_mem_cons.mp h
    rw [settleAll, hitem, ih hitems]

theorem settleFields_eq_append {settled fields : List (String × Json)}
    (hnames : (Entries.names settled ++ Entries.names fields).Pairwise (· < ·))
    (h : ∀ field ∈ fields, field.2.settle = field.2) :
    settleFields settled fields = settled ++ fields := by
  induction fields generalizing settled with
  | nil => rw [List.append_nil, settleFields]
  | cons field fields ih =>
    obtain ⟨hfield, hfields⟩ := List.forall_mem_cons.mp h
    obtain ⟨hlast, hnext⟩ := Entries.insert_next field.2 hnames
    rw [settleFields, hfield, hlast, ih hnext hfields, List.append_assoc, List.singleton_append]

/-- Where no field has to be moved or dropped, settling changes nothing. -/
theorem settle_eq_self {json : Json} (h : json.Settled) : json.settle = json := by
  induction h with
  | null | bool | number | string => rw [settle]
  | array _ ih => rw [settle, settleAll_eq_self ih]
  | @object fields hnames _ ih =>
    have hsorted : (Entries.names ([] : List (String × Json)) ++
        Entries.names fields).Pairwise (· < ·) := hnames
    rw [settle, settleFields_eq_append hsorted ih, List.nil_append]

end Json

namespace Value

variable {number : Decimal → Json}

theorem fromJsonAll_settles {items : List Json}
    (h : ∀ item ∈ items, ∃ v, fromJson item = .ok v ∧ v.toJsonWith number = item.settle) :
    ∃ values, fromJsonAll items = .ok values ∧
      toJsonAllWith number values = Json.settleAll items := by
  induction items with
  | nil => exact ⟨[], rfl, rfl⟩
  | cons item items ih =>
    obtain ⟨⟨v, hv, hitem⟩, hitems⟩ := List.forall_mem_cons.mp h
    obtain ⟨values, hvalues, hrest⟩ := ih hitems
    refine ⟨v :: values, ?_, ?_⟩
    · rw [fromJsonAll, hv, hvalues]
      rfl
    · rw [toJsonAllWith, Json.settleAll, hitem, hrest]

/-- Fields are put among those read before in the way in which settling puts them. -/
theorem fromJsonFields_settles {fields : List (String × Json)} (read : Context)
    (h : ∀ field ∈ fields, ∃ v, fromJson field.2 = .ok v ∧
      v.toJsonWith number = field.2.settle) :
    ∃ entries, fromJsonFields read fields = .ok entries ∧
      toJsonFieldsWith number entries =
        Json.settleFields (toJsonFieldsWith number read) fields := by
  induction fields generalizing read with
  | nil => exact ⟨read, rfl, by rw [Json.settleFields]⟩
  | cons field fields ih =>
    obtain ⟨⟨v, hv, hfield⟩, hfields⟩ := List.forall_mem_cons.mp h
    obtain ⟨entries, hentries, hrest⟩ := ih (Entries.insert read field.1 v) hfields
    refine ⟨entries, ?_, ?_⟩
    · rw [fromJsonFields, hv, ok_bind, hentries]
    · rw [hrest, Json.settleFields, toJsonFieldsWith_eq_map, toJsonFieldsWith_eq_map,
        Entries.map_insert, hfield]

/-- **A document comes back settled** if its numbers do. -/
theorem words_come_back {json : Json} (h : json.OfWords)
    (hnumber : ∀ i, InInt64 i → ∃ v, fromJson (.ofInt i) = .ok v ∧
      v.toJsonWith number = .ofInt i) :
    ∃ v, fromJson json = .ok v ∧ v.toJsonWith number = json.settle := by
  induction h with
  | null => exact ⟨.null, rfl, rfl⟩
  | bool b => exact ⟨.bool b, rfl, rfl⟩
  | number h => exact hnumber _ h
  | string s => exact ⟨.string s, rfl, rfl⟩
  | array _ ih =>
    obtain ⟨values, hvalues, hback⟩ := fromJsonAll_settles ih
    refine ⟨.list values, ?_, ?_⟩
    · rw [fromJson, hvalues]
      rfl
    · rw [toJsonWith, hback, Json.settle]
  | object _ ih =>
    obtain ⟨entries, hentries, hback⟩ := fromJsonFields_settles [] ih
    refine ⟨.context entries, ?_, ?_⟩
    · rw [fromJson, hentries]
      rfl
    · rw [toJsonWith, hback, Json.settle, toJsonFieldsWith]

theorem word_comes_back (pick : Decimal → Option Double) {i : Int} (h : InInt64 i) :
    ∃ v, fromJson (.ofInt i) = .ok v ∧
      v.toJsonWith (Decimal.toJsonBy pick) = .ofInt i := by
  obtain ⟨d, hd⟩ := Decimal.exists_ofInt?_eq_some (Decimal.natAbs_le_of_inInt64 h)
  have hword : d.wholeInt64? = some (.ofInt i) := by
    rw [Decimal.wholeInt64?_eq_some_iff, h.toInt_ofInt, Decimal.toRat_of_ofInt? hd]
  refine ⟨.number d, fromJson_ofInt hd, ?_⟩
  show d.toJsonBy pick = _
  rw [Decimal.toJsonBy, hword]
  dsimp only
  rw [h.toInt_ofInt]

/-! ## Both ways -/

/-- The value in JSON, where `pick` says which double is tried for a number. -/
def toJsonBy (pick : Decimal → Option Double) (v : Value) : Json :=
  v.toJsonWith (Decimal.toJsonBy pick)

/-- **Plain values come back from JSON, and no number is changed on the way**, whichever doubles are
tried: it comes back as the same number, or else as a string of its digits. A document whose numbers
are integers of 64 bits is written as it was read, with the fields of its objects settled. The
doubles that are tried are those near the numbers. -/
theorem json_there_and_back (pick : Decimal → Option Double) :
    (∀ v : Value, v.Plain → ∃ w, fromJson (v.toJsonBy pick) = .ok w ∧ v.ComesBack w) ∧
    (∀ json : Json, json.OfWords → ∃ v, fromJson json = .ok v ∧
      v.toJsonBy pick = json.settle ∧ (json.Settled → v.toJsonBy pick = json)) ∧
    ∀ v : Value, v.toJsonBy Decimal.toDouble? = v.toJson := by
  refine ⟨fun v hv => ?_, fun json hjson => ?_, fun v => ?_⟩
  · exact plain_comes_back hv (number_comes_back pick)
  · obtain ⟨v, hv, hback⟩ := words_come_back hjson fun _ hi => word_comes_back pick hi
    refine ⟨v, hv, hback, fun hsettled => ?_⟩
    rw [← Json.settle_eq_self hsettled]
    exact hback
  · have hnumber : Decimal.toJsonBy Decimal.toDouble? = Decimal.toJson :=
      funext Decimal.toJsonBy_toDouble?
    rw [toJsonBy, hnumber, toJsonWith_toJson]

/-- Too many digits for a double. -/
def manyDigits : Decimal := ⟨false, 7290123456789012345678901234, 28, by decide, by decide⟩

/-- Two and three quarters, which is a double. -/
def fewDigits : Decimal := ⟨false, 275000, 5, by decide, by decide⟩

/-- One number is written with all its digits as a string, the other as a double. The largest and
the smallest integer of 64 bits are read and written as they are. -/
theorem digits_and_words_come_back :
    let rates : Value :=
      .context [("exact", .number manyDigits), ("rounded", .list [.number fewDigits, .null])]
    let words : Json :=
      .object [("high", .ofInt 9223372036854775807), ("low", .ofInt (-9223372036854775808))]
    (rates.Plain ∧
      rates.toJson = .object [("exact", .string "0.7290123456789012345678901234"),
        ("rounded", .array [.number (.double ⟨false, 6192449487634432, -51⟩), .null])] ∧
      ∃ w, fromJson rates.toJson = .ok w ∧ rates.ComesBack w) ∧
    (words.OfWords ∧ words.Settled ∧ ∃ v, fromJson words = .ok v ∧ v.toJson = words) := by
  intro rates words
  obtain ⟨hvalues, hdocuments, hdoubles⟩ := json_there_and_back Decimal.toDouble?
  have hplain : rates.Plain := by
    apply Plain.context
    · exact List.pairwise_pair.mpr (by decide)
    · intro entry hentry
      rcases List.mem_pair.mp hentry with rfl | rfl
      · exact .number _
      · apply Plain.list
        intro item hitem
        rcases List.mem_pair.mp hitem with rfl | rfl
        · exact .number _
        · exact .null
  have hwords : words.OfWords := by
    apply Json.OfWords.object
    intro field hfield
    rcases List.mem_pair.mp hfield with rfl | rfl
    · exact .number (by decide)
    · exact .number (by decide)
  have hsettled : words.Settled := by
    apply Json.Settled.object
    · exact List.pairwise_pair.mpr (by decide)
    · intro field hfield
      rcases List.mem_pair.mp hfield with rfl | rfl
      · exact .number _
      · exact .number _
  refine ⟨⟨hplain, ?_, ?_⟩, hwords, hsettled, ?_⟩
  · have hmany : manyDigits.toJson = .string "0.7290123456789012345678901234" := by
      have hword : manyDigits.wholeInt64? = none := by decide +kernel
      have hdouble : manyDigits.normalize.exactDouble? = none := by decide +kernel
      rw [Decimal.toJson, hword, hdouble]
      rfl
    have hfew : fewDigits.toJson = .number (.double ⟨false, 6192449487634432, -51⟩) := by
      have hword : fewDigits.wholeInt64? = none := by decide +kernel
      have hdouble : fewDigits.normalize.exactDouble? = some ⟨false, 6192449487634432, -51⟩ := by
        decide +kernel
      rw [Decimal.toJson, hword, hdouble]
    simp only [rates, toJson, toJsonFields, toJsonAll, hmany, hfew]
  · rw [← hdoubles]
    exact hvalues rates hplain
  · obtain ⟨v, hv, -, hback⟩ := hdocuments words hwords
    refine ⟨v, hv, ?_⟩
    rw [← hdoubles]
    exact hback hsettled

end Value
end DecisionModel
