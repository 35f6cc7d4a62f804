import DecisionModel.Json.Basic
import DecisionModel.Text.Digits
import DecisionModel.Word

/-!
# JSON as it is written

A JSON text is well-formed before it is known what its numbers and strings stand for: a number may
be too large for every double, and an escape may name half a character. `Written` is the tree
of a well-formed text, and `Written.take?` reads the values in it, but only where a `Shape` says
that they count. What does not count may be nested to any depth and hold any number.
-/

namespace DecisionModel.Json

/-! ## Numbers -/

/-- Takes in digits as long as the significand fits a 64-bit word; answers it with the number of
digits taken and the number of digits left out. -/
def takeDigits (significand taken : Nat) : List Char → Nat × Nat × Nat
  | [] => (significand, taken, 0)
  | c :: cs =>
    let next := significand * 10 + (Text.digit? c).getD 0
    if next < wordSize64 then takeDigits next (taken + 1) cs
    else (significand, taken, cs.length + 1)

/-- The parts of a number's text: sign, digits before and after the point, and exponent. -/
structure NumberParts where
  negative : Bool
  whole : List Char
  /-- Not there when there is no point. -/
  decimals : Option (List Char)
  /-- Not there when there is no exponent. -/
  exponent : Option Int
  deriving Repr

/-- An integer when there is neither a point nor an exponent and 64 bits hold it. Everything else,
negative zero included, is a double; `none` is a number beyond the largest one. -/
def NumberParts.toNumber? (p : NumberParts) : Option Number :=
  let value := Text.valueOf p.whole
  if p.decimals.isNone ∧ p.exponent.isNone ∧
      (if p.negative then 0 < value ∧ value ≤ maxInt64 + 1 else value < wordSize64) then
    some (.integer (if p.negative then -(value : Int) else value))
  else
    let (significand, _, dropped) := takeDigits 0 0 p.whole
    let (significand, taken, _) := takeDigits significand 0 (p.decimals.getD [])
    let exponent : Int := (dropped : Int) - taken + p.exponent.getD 0
    (Double.ofScientific? p.negative significand exponent).map .double

/-- The exponent of a number: a mark, an optional sign and at least one digit, and nothing after
them. -/
def exponent? : List Char → Option (Option Int)
  | [] => some none
  | mark :: cs =>
    if mark ≠ 'e' ∧ mark ≠ 'E' then none
    else
      let (negative, digits) := match cs with
        | '-' :: ds => (true, ds)
        | '+' :: ds => (false, ds)
        | ds => (false, ds)
      if digits.isEmpty ∨ !digits.all Text.isDigit then none
      else
        let value : Int := Text.valueOf digits
        some (some (if negative then -value else value))

/-- Splits a number's text: no leading zeros, and a digit on both sides of a point. -/
def numberParts? (cs : List Char) : Option NumberParts :=
  let (negative, cs) := match cs with
    | '-' :: rest => (true, rest)
    | rest => (false, rest)
  let whole := cs.takeWhile Text.isDigit
  let rest := cs.dropWhile Text.isDigit
  if whole.isEmpty ∨ (whole.head? = some '0' ∧ 1 < whole.length) then none
  else match rest with
    | '.' :: rest =>
      let decimals := rest.takeWhile Text.isDigit
      if decimals.isEmpty then none
      else (exponent? (rest.dropWhile Text.isDigit)).map (⟨negative, whole, some decimals, ·⟩)
    | rest => (exponent? rest).map (⟨negative, whole, none, ·⟩)

/-! ## Strings -/

/-- The value of a hexadecimal digit. -/
def hexDigit? (c : Char) : Option Nat :=
  if '0' ≤ c ∧ c ≤ '9' then some (c.toNat - '0'.toNat)
  else if 'a' ≤ c ∧ c ≤ 'f' then some (c.toNat - 'a'.toNat + 10)
  else if 'A' ≤ c ∧ c ≤ 'F' then some (c.toNat - 'A'.toNat + 10)
  else none

/-- The unit that four hexadecimal digits denote. -/
def hexUnit? (a b c d : Char) : Option Nat := do
  some ((((← hexDigit? a) * 16 + (← hexDigit? b)) * 16 + (← hexDigit? c)) * 16 + (← hexDigit? d))

/-- What a single letter stands for after a backslash. -/
def escape? : Char → Option Char
  | '"' => some '"'
  | '\\' => some '\\'
  | '/' => some '/'
  | 'b' => some '\x08'
  | 'f' => some '\x0c'
  | 'n' => some '\n'
  | 'r' => some '\x0d'
  | 't' => some '\t'
  | _ => none

def isHighSurrogate (n : Nat) : Bool := 0xD800 ≤ n ∧ n < 0xDC00
def isLowSurrogate (n : Nat) : Bool := 0xDC00 ≤ n ∧ n < 0xE000

/-- Whether every backslash begins an escape, whatever character that would be. -/
def isWellEscaped : List Char → Bool
  | [] => true
  | '\\' :: 'u' :: a :: b :: c :: d :: rest => (hexUnit? a b c d).isSome && isWellEscaped rest
  | '\\' :: c :: rest => (escape? c).isSome && isWellEscaped rest
  | ['\\'] => false
  | _ :: rest => isWellEscaped rest

/-- Replaces the escapes of a string. A surrogate is read only as half of a pair. -/
def unescape? : List Char → Option (List Char)
  | [] => some []
  | '\\' :: 'u' :: a :: b :: c :: d :: rest => do
    let unit ← hexUnit? a b c d
    if isHighSurrogate unit then
      match rest with
      | '\\' :: 'u' :: a' :: b' :: c' :: d' :: rest' =>
        let low ← hexUnit? a' b' c' d'
        if isLowSurrogate low then
          (unescape? rest').map
            (Char.ofNat (0x10000 + (unit - 0xD800) * 0x400 + (low - 0xDC00)) :: ·)
        else none
      | _ => none
    else if isLowSurrogate unit then none
    else (unescape? rest).map (Char.ofNat unit :: ·)
  | '\\' :: c :: rest => do
    let plain ← escape? c
    (unescape? rest).map (plain :: ·)
  | ['\\'] => none
  | c :: rest => (unescape? rest).map (c :: ·)

/-! ## Trees -/

/-- A tree whose numbers are digits and whose strings hold their escapes. -/
inductive Written where
  | null
  | bool (value : Bool)
  | number (parts : NumberParts)
  | string (chars : List Char)
  | array (items : List Written)
  | object (fields : List (List Char × Written))
  deriving Repr

instance : Inhabited Written := ⟨.null⟩

/-- Which values of a tree count. -/
inductive Shape where
  /-- All of them. -/
  | whole
  /-- Those of the fields that are listed. In an array they stand in that order. -/
  | record (fields : List (String × Shape))
  /-- Those that count in each element. -/
  | list (element : Shape)

namespace Shape

instance : Inhabited Shape := ⟨.whole⟩

/-- The shape of the element at a position. -/
def element (position : Nat) : Shape → Shape
  | .whole => .whole
  | .list shape => shape
  | .record fields => match fields[position]? with
    | some (_, shape) => shape
    | none => .whole

/-- The shape of a field, if the field counts. -/
def field? (name : String) : Shape → Option Shape
  | .record fields => Entries.get? fields name
  | .whole => some .whole
  | .list _ => some .whole

end Shape

/-- The text of a string. -/
def text? (chars : List Char) : Option String := (unescape? chars).map String.ofList

mutual

/-- Reads what counts of a tree in which arrays and objects are nested to at most `levels`. Fields
that do not count are left out, but all names are read. -/
def Written.take? (shape : Shape) (levels : Nat) : Written → Option Json
  | .null => some .null
  | .bool b => some (.bool b)
  | .number parts => parts.toNumber?.map .number
  | .string chars => (text? chars).map .string
  | .array items => match levels with
    | 0 => none
    | levels + 1 => (takeItems? shape levels 0 items).map .array
  | .object fields => match levels with
    | 0 => none
    | levels + 1 => (takeFields? shape levels fields).map .object

def takeItems? (shape : Shape) (levels position : Nat) : List Written → Option (List Json)
  | [] => some []
  | item :: items => do
    let item ← item.take? (shape.element position) levels
    return item :: (← takeItems? shape levels (position + 1) items)

def takeFields? (shape : Shape) (levels : Nat) :
    List (List Char × Written) → Option (List (String × Json))
  | [] => some []
  | (chars, value) :: fields => do
    let name ← text? chars
    match shape.field? name with
    | none => takeFields? shape levels fields
    | some inner =>
      let value ← value.take? inner levels
      return (name, value) :: (← takeFields? shape levels fields)

end

end DecisionModel.Json
