import DecisionModel.Duration.Basic
import DecisionModel.Text.Blank
import DecisionModel.Powers

/-!
# Reading durations

The form `[-]PnYnMnWnDTnHnMn.nS`, with the parts of either section in any order and repeated at
will. A section is first cut at its designators, so a fault in that comes before one in an amount.
Which family the duration belongs to depends on the designators that occur, not on the amounts.
-/

namespace DecisionModel

open Calendar

namespace Duration

/-- Why a text is not a duration. -/
inductive Fault where
  | noDesignatorP
  | noComponents
  | emptyTime
  | withoutAmount (designator : Char)
  | withoutDesignator (rest : List Char)
  | notWhole (amount : List Char)
  | amountOutOfRange (amount : List Char)
  | notSeconds (amount : List Char)
  | unexpectedDesignator (designator : Char)
  /-- The months or the nanoseconds in total are too many. -/
  | outOfRange
  /-- No fault that is found in the text: it is given up while its nanoseconds are added up, since
  their sum is no word of 128 bits. -/
  | sumTooLarge
  deriving DecidableEq, Repr

def Fault.message : Fault → String
  | .noDesignatorP => "missing 'P' designator"
  | .noComponents => "no components"
  | .emptyTime => "empty time section"
  | .withoutAmount c => "designator '" ++ String.singleton c ++ "' without a value"
  | .withoutDesignator cs => "trailing '" ++ String.ofList cs ++ "' without a designator"
  | .notWhole cs => "'" ++ String.ofList cs ++ "' is not a whole number"
  | .amountOutOfRange cs => "'" ++ String.ofList cs ++ "' is out of range"
  | .notSeconds cs => "'" ++ String.ofList cs ++ "' is not a valid seconds value"
  | .unexpectedDesignator c => "unexpected designator '" ++ String.singleton c ++ "'"
  | .outOfRange => "out of range"
  | .sumTooLarge => "attempt to add with overflow"

/-! ## Amounts -/

/-- An amount and the designator after it. -/
abbrev Part := List Char × Char

/-- Cuts a section after each letter; `amount` holds, in reverse, what has been read since the
last one. -/
def partsFrom (amount : List Char) : List Char → Except Fault (List Part)
  | [] => if amount.isEmpty then .ok [] else .error (.withoutDesignator amount.reverse)
  | c :: cs =>
    if c.isAlpha then
      if amount.isEmpty then .error (.withoutAmount c)
      else (partsFrom [] cs).map ((amount.reverse, c) :: ·)
    else partsFrom (c :: amount) cs

def parts (cs : List Char) : Except Fault (List Part) := partsFrom [] cs

/-- A whole number within a 64-bit word. -/
def wholeAmount (amount : List Char) : Except Fault Nat :=
  if !amount.all Text.isDigit then .error (.notWhole amount)
  else if amount.isEmpty ∨ maxInt64 < Text.valueOf amount then .error (.amountOutOfRange amount)
  else .ok (Text.valueOf amount)

/-- Seconds with up to nine decimals, in nanoseconds. -/
def secondsAmount (amount : List Char) : Except Fault Nat :=
  let (whole, decimals) := (Text.cut? '.' amount).getD (amount, [])
  if 9 < (String.ofList decimals).utf8ByteSize ∨ !decimals.all Text.isDigit then
    .error (.notSeconds amount)
  else (wholeAmount whole).map fun seconds =>
    seconds * nanosPerSecond + Text.valueOf decimals * tenTo (9 - decimals.length)

/-! ## Sections -/

/-- What the parts read so far add up to. `sawMonths` and `sawElapsed` remember which families
they belong to. -/
structure Total where
  months : Nat
  nanos : Nat
  sawMonths : Bool
  sawElapsed : Bool

def Total.addMonths (t : Total) (months : Nat) : Except Fault Total :=
  if t.months + months ≤ maxInt64 then
    .ok { t with months := t.months + months, sawMonths := true }
  else .error .outOfRange

/-- Months that are too many are a fault. Nanoseconds are added up in a wide word, and nobody looks
whether they still fit it. -/
def Total.addNanos (t : Total) (nanos : Nat) : Except Fault Total :=
  if t.nanos + nanos ≤ maxInt128 then
    .ok { t with nanos := t.nanos + nanos, sawElapsed := true }
  else .error .sumTooLarge

/-- A part of the section before the `T`. -/
def Total.addDatePart (t : Total) (part : Part) : Except Fault Total := do
  let amount ← wholeAmount part.1
  match part.2 with
  | 'Y' => t.addMonths (amount * 12)
  | 'M' => t.addMonths amount
  | 'W' => t.addNanos (7 * nanosPerDay * amount)
  | 'D' => t.addNanos (nanosPerDay * amount)
  | c => .error (.unexpectedDesignator c)

/-- A part of the section after the `T`. -/
def Total.addTimePart (t : Total) (part : Part) : Except Fault Total := do
  match part.2 with
  | 'H' => t.addNanos (nanosPerHour * (← wholeAmount part.1))
  | 'M' => t.addNanos (nanosPerMinute * (← wholeAmount part.1))
  | 'S' => t.addNanos (← secondsAmount part.1)
  | c => .error (.unexpectedDesignator c)

/-- The section after the `T` adds to what the section before it gave. -/
def addTimeSection (t : Total) : Option (List Char) → Except Fault Total
  | none => .ok t
  | some [] => .error .emptyTime
  | some cs => do (← parts cs).foldlM Total.addTimePart t

/-- The duration of a total, of the family of the parts that were read. -/
def Total.toDuration (t : Total) (negative : Bool) : Except Fault Duration :=
  let signed (n : Nat) : Int := if negative then -(n : Int) else n
  let months : Months := ⟨.ofInt (signed t.months)⟩
  let nanos := signed t.nanos
  if ¬ InInt64 nanos then .error .outOfRange
  else match t.sawMonths, t.sawElapsed with
    | true, true => .ok (.composite ⟨months, ⟨nanos⟩⟩)
    | true, false => .ok (.months months)
    | false, _ => .ok (.elapsed ⟨nanos⟩)

def readChars (cs : List Char) : Except Fault Duration := do
  let (negative, rest) := match Text.trim cs with
    | '-' :: rest => (true, rest)
    | rest => (false, rest)
  let body ← match rest with
    | 'P' :: body => .ok body
    | _ => .error .noDesignatorP
  let (dateSection, timeSection) := match Text.cut? 'T' body with
    | some (date, time) => (date, some time)
    | none => (body, none)
  if dateSection.isEmpty ∧ timeSection.isNone then .error .noComponents
  else
    let dated ← (← parts dateSection).foldlM Total.addDatePart ⟨0, 0, false, false⟩
    (← addTimeSection dated timeSection).toDuration negative

end Duration

end DecisionModel
