import DecisionModel.Double.Basic
import DecisionModel.Text.Digits

/-!
# The shortest digits of a double

The digits written for a double are the fewest that read back as it, and of those the nearest to
it. They are found by trying one digit, two digits, and so on: if any decimal with that many
digits lies in the interval that rounds to the double, then so does one of the two neighbours of
the double on that grid, so only these are tested.
-/

namespace DecisionModel.Double

/-! ## Digits -/

/-- The power `10 ^ exponent` as numerator and denominator. -/
def powerOfTen (exponent : Int) : Nat × Nat := (tenTo exponent.toNat, tenTo (-exponent).toNat)

/-- The reals that round to a double: both ends as numerators over one denominator, and whether
the ends themselves belong to it. -/
structure Interval where
  low : Nat
  high : Nat
  den : Nat
  closed : Bool

/-- Half a step to both sides, except below a power of two, where the steps are half as wide. -/
def interval (x : Double) : Interval :=
  let (up, down) := powerOfTwo x.exponent
  let narrow := x.mantissa = twoTo (precision - 1) ∧ x.exponent ≠ minExponent
  { low := (4 * x.mantissa - if narrow then 1 else 2) * up
    high := (4 * x.mantissa + 2) * up
    den := 4 * down
    closed := x.mantissa % 2 = 0 }

/-- Whether `num / den` rounds to the double. -/
def Interval.contains (i : Interval) (num den : Nat) : Bool :=
  if i.closed then i.low * den ≤ num * i.den ∧ num * i.den ≤ i.high * den
  else i.low * den < num * i.den ∧ num * i.den < i.high * den

/-- The position of the first digit of `num / den`: the exponent of the largest power of ten that
is not above it, looked for upwards from an estimate that is never too high. -/
def leading (num den : Nat) : (steps : Nat) → Int → Int
  | 0, exponent => exponent
  | steps + 1, exponent =>
    let (up, down) := powerOfTen (exponent + 1)
    if den * up ≤ num * down then leading num den steps (exponent + 1) else exponent

def leadingExponent (x : Double) : Int :=
  let (num, den) := x.ratio
  let bits : Int := (num.log2 : Int) - den.log2
  leading num den 4 (Int.fdiv (bits * 30103) 100000 - 2)

/-- The neighbour of the double on the grid of step `10 ^ exponent` that rounds to it; of two, the
nearer one, and the even one of two equally near. -/
def onGrid? (x : Double) (exponent : Int) : Option Nat :=
  let (num, den) := x.ratio
  let (up, down) := powerOfTen exponent
  let below := num * down / (den * up)
  let fits (c : Nat) : Bool := x.interval.contains (c * up) down
  match fits below, fits (below + 1) with
  | true, true => some (roundDiv .toEven (num * down) (den * up))
  | true, false => some below
  | false, true => some (below + 1)
  | false, false => none

/-- Tries grids of growing fineness; seventeen digits always suffice. -/
def shortestFrom (x : Double) (leading : Int) : (fuel count : Nat) → Nat × Int
  | 0, _ => (0, 0)
  | fuel + 1, count =>
    let exponent := leading - count
    match x.onGrid? exponent with
    | some digits => (digits, exponent)
    | none => shortestFrom x leading fuel (count + 1)

/-- The shortest digits of the magnitude, as a number without trailing zeros and the power of ten
of its last digit. -/
def shortest (x : Double) : List Char × Int :=
  if x.isZero then (['0'], 0)
  else
    let (digits, exponent) := shortestFrom x x.leadingExponent 17 0
    let all := Text.ofNat digits
    let kept := Text.dropTrailingZeros all
    (kept, exponent + (all.length - kept.length : Nat))

/-! ## Texts -/

private def withSign (x : Double) (cs : List Char) : List Char :=
  if x.negative then '-' :: cs else cs

/-- Digits with the point after `before` of them; zeros fill the places between. -/
private def positional (digits : List Char) (before : Int) : List Char × List Char :=
  if before ≤ 0 then (['0'], List.replicate before.natAbs '0' ++ digits)
  else (digits.take before.toNat ++ List.replicate (before.toNat - digits.length) '0',
    digits.drop before.toNat)

/-- The form of a JSON number: positional from `10 ^ -5` up to `10 ^ 16`, with a decimal also on a
whole number, and otherwise one digit, the rest as decimals, and a signed exponent. -/
def toChars (x : Double) : List Char :=
  let (digits, exponent) := x.shortest
  let before : Int := digits.length + exponent
  x.withSign <|
    if x.isZero ∨ (-5 < before ∧ before ≤ 16) then
      let (whole, decimals) := positional digits before
      whole ++ '.' :: (if decimals.isEmpty then ['0'] else decimals)
    else
      let mark := if before - 1 < 0 then '-' else '+'
      let decimals := digits.drop 1
      digits.take 1 ++ (if decimals.isEmpty then [] else '.' :: decimals)
        ++ 'e' :: mark :: Text.ofNat (before - 1).natAbs

/-- The plain form: positional whatever the size, and no decimals on a whole number. -/
def toPlainChars (x : Double) : List Char :=
  let (digits, exponent) := x.shortest
  let (whole, decimals) := positional digits (digits.length + exponent)
  x.withSign (whole ++ if decimals.isEmpty then [] else '.' :: decimals)

end DecisionModel.Double
