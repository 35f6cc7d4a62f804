import DecisionModel.Decimal.Basic
import DecisionModel.Text.Digits

/-!
# Decimals as text

A decimal is written positionally, with exactly as many digits after the point as its scale.

Reading is more liberal than writing: one sign, digits with at most one point, underscores after
the first digit, and, when the plain form does not read, an exponent. Digits are taken in one by
one. The first one that would be the 29th decimal, or that would carry the mantissa past its
bound, only rounds, and the digits after it are passed over; too many digits *before* the point
are an error instead, since nothing can be dropped there. An underscore after the last decimal is
looked past for that digit only in a number of many digits.
-/

namespace DecisionModel.Decimal

/-! ## Writing -/

/-- The digits, with the point in front of the last `scale` of them. -/
def toChars (d : Decimal) : List Char :=
  let digits := Text.padded (d.scale + 1) d.mantissa
  let whole := digits.take (digits.length - d.scale)
  let sign := if d.negative then ['-'] else []
  if d.scale = 0 then sign ++ whole
  else sign ++ whole ++ '.' :: digits.drop (digits.length - d.scale)

def toText (d : Decimal) : String := String.ofList d.toChars

/-! ## Reading -/

/-- Why a text is not a decimal. -/
inductive ReadFault where
  /-- It does not have the form of a number, or has too many digits before the point. -/
  | malformed
  /-- Its exponent moves the point by more places than a decimal has. -/
  | exponentTooLarge (exponent : Nat)
  /-- Its exponent makes it too large. -/
  | tooLarge
  deriving DecidableEq, Repr

def ReadFault.message : ReadFault → String
  | .malformed => "Failed to parse"
  | .exponentTooLarge n =>
    s!"Scale exceeds the maximum precision allowed: {n} > {maxScale}"
  | .tooLarge => "Number exceeds maximum value that can be represented."

/-- A mantissa and a scale that are still being read. -/
structure Reading where
  mantissa : Nat
  scale : Nat
  mantissa_le : mantissa ≤ maxMantissa
  scale_le : scale ≤ maxScale

/-- The number read, with its sign; zero has none. -/
def Reading.toDecimal (r : Reading) (negative : Bool) : Decimal :=
  ⟨negative && r.mantissa != 0, r.mantissa, r.scale, r.mantissa_le, r.scale_le⟩

/-- Rounds by the digit that found no room. Should that carry the mantissa past its bound, one
decimal is given up for it. -/
def Reading.roundBy (r : Reading) (digit : Nat) : Option Reading :=
  if digit < 5 then some r
  else if h : r.mantissa + 1 ≤ maxMantissa then
    some { r with mantissa := r.mantissa + 1, mantissa_le := h }
  else match hs : r.scale with
    | 0 => none
    | scale + 1 => some ⟨(r.mantissa + 5) / 10, scale, by
        have hm := r.mantissa_le
        simp only [maxMantissa] at hm ⊢
        omega, Nat.le_of_succ_le (hs ▸ r.scale_le)⟩

/-- Whether the digits have outgrown 64 bits before the last one, with some bits to spare. -/
def Reading.isLong (r : Reading) : Bool := 1844674407370954906 ≤ r.mantissa / 10

/-- Whether only digits and underscores follow, so that they can be passed over. -/
def isIgnorable (cs : List Char) : Bool := cs.all fun c => Text.isDigit c || c == '_'

/-- Reads the rest of the plain form: `point` says that the point has been passed, `started` that
a digit has been seen. -/
def readPlain (r : Reading) (point started : Bool) : List Char → Option Reading
  | [] => if started then some r else none
  | c :: cs =>
    if point && maxScale ≤ r.scale then
      match Text.digit? c with
      | some v => if isIgnorable cs then r.roundBy v else none
      | none =>
        if c != '_' then none
        else if r.isLong then readPlain r point started cs
        else if isIgnorable cs then some r
        else none
    else match Text.digit? c with
      | some v =>
        if h : r.mantissa * 10 + v ≤ maxMantissa then
          if hp : point ∧ r.scale + 1 ≤ maxScale then
            readPlain ⟨r.mantissa * 10 + v, r.scale + 1, h, hp.2⟩ point true cs
          else readPlain ⟨r.mantissa * 10 + v, r.scale, h, r.scale_le⟩ point true cs
        else if point && isIgnorable cs then r.roundBy v
        else none
      | none =>
        if c == '.' && !point then readPlain r true started cs
        else if c == '_' && started then readPlain r point started cs
        else none

/-- Splits off one leading sign. -/
def splitSign : List Char → Bool × List Char
  | '-' :: cs => (true, cs)
  | '+' :: cs => (false, cs)
  | cs => (false, cs)

/-- The plain form: sign, digits, point. -/
def readPositional? (cs : List Char) : Option Decimal :=
  let (negative, digits) := splitSign cs
  (readPlain ⟨0, 0, Nat.zero_le _, Nat.zero_le _⟩ false false digits).map (·.toDecimal negative)

/-- The part of an exponent after its minus sign, or all of it: digits with an optional plus sign,
within 32 bits. -/
def readExponent? (cs : List Char) : Option Nat :=
  let digits := match cs with
    | '+' :: ds => ds
    | ds => ds
  if digits ≠ [] ∧ digits.all Text.isDigit ∧ Text.valueOf digits < wordSize32 then
    some (Text.valueOf digits)
  else none

/-- Moves the point `n` places to the left. Decimals that would go beyond the last one are
rounded away first, half away from zero. The sign stays, even where no digit is left. -/
def shiftDown (d : Decimal) (n : Nat) : Decimal :=
  if hs : d.scale + n ≤ maxScale then { d with scale := d.scale + n, scale_le := hs }
  else
    { d.round .awayFromZero (maxScale - n) with
      negative := d.negative, scale := maxScale, scale_le := Nat.le_refl _ }

/-- Moves the point `n` places to the right; beyond the last decimal the mantissa grows. -/
def shiftUp? (d : Decimal) (n : Nat) : Option Decimal :=
  if n ≤ d.scale then
    some { d with
      scale := d.scale - n, scale_le := Nat.le_trans (Nat.sub_le ..) d.scale_le }
  else if h : d.mantissa * tenTo (n - d.scale) ≤ maxMantissa then
    some { d with mantissa := d.mantissa * tenTo (n - d.scale), scale := 0, mantissa_le := h,
                  scale_le := Nat.zero_le _ }
  else none

/-- The form with an exponent: the plain form, `e` or `E`, and how far the point moves. -/
def readScientific (cs : List Char) : Except ReadFault Decimal :=
  let isMark (c : Char) : Bool := c == 'e' || c == 'E'
  match cs.dropWhile (!isMark ·) with
  | [] => .error .malformed
  | _ :: exponent =>
    match readPositional? (cs.takeWhile (!isMark ·)) with
    | none => .error .malformed
    | some base =>
      let (down, digits) := match exponent with
        | '-' :: ds => (true, ds)
        | ds => (false, ds)
      match readExponent? digits with
      | none => .error .malformed
      | some n =>
        if n ≤ maxScale then
          if down then .ok (base.shiftDown n)
          else match base.shiftUp? n with
            | some d => .ok d
            | none => .error .tooLarge
        else .error (.exponentTooLarge n)

/-- Reads the plain form, or else the form with an exponent. -/
def readChars (cs : List Char) : Except ReadFault Decimal :=
  match readPositional? cs with
  | some d => .ok d
  | none => readScientific cs

def read (text : String) : Except ReadFault Decimal := readChars text.toList

end DecisionModel.Decimal
