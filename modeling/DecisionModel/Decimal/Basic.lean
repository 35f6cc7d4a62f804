import DecisionModel.Powers
import DecisionModel.Word

/-!
# Decimals of 96 bits

A decimal is a sign, a mantissa below `2 ^ 96` and a scale of at most 28 places, and denotes
`± mantissa / 10 ^ scale`. The two bounds are proof fields: no operation can build a number
outside the range, so every arithmetic function has to say what it does there. A number with
trailing zeros (`2.50`) is kept as it is written, and so is the sign that negation leaves on a
zero; neither takes part in comparison.

Everything that loses digits goes through `roundDiv`, and everything that has to find a scale
goes through `Decimal.nearest?`: the largest scale not above a given one at which the rounded
mantissa still fits.
-/

namespace DecisionModel

/-! ## Rounded quotients -/

/-- Which way a quotient goes that lies exactly between two integers. -/
inductive Tie where
  | toEven
  | awayFromZero
  deriving DecidableEq, Repr

/-- The quotient of two naturals rounded to the nearest one. -/
def roundDiv (tie : Tie) (num den : Nat) : Nat :=
  let quotient := num / den
  let twice := 2 * (num % den)
  if twice < den then quotient
  else if den < twice then quotient + 1
  else match tie with
    | .toEven => quotient + quotient % 2
    | .awayFromZero => quotient + 1

/-- Rounding moves a quotient by less than one. -/
theorem roundDiv_le (tie : Tie) (num den : Nat) : roundDiv tie num den ≤ num / den + 1 := by
  unfold roundDiv
  have : num / den % 2 < 2 := Nat.mod_lt _ (by decide)
  cases tie <;> dsimp only <;> repeat' split
  all_goals omega

/-! ## The type -/

namespace Decimal

/-- The largest mantissa, `2 ^ 96 - 1`. -/
def maxMantissa : Nat := 79228162514264337593543950335

/-- The largest scale. -/
def maxScale : Nat := 28

end Decimal

/-- A sign, a mantissa and a number of decimal places. -/
structure Decimal where
  negative : Bool
  mantissa : Nat
  scale : Nat
  mantissa_le : mantissa ≤ Decimal.maxMantissa
  scale_le : scale ≤ Decimal.maxScale
  deriving DecidableEq, Repr

namespace Decimal

/-- The natural number `n` without decimals; counts beyond the largest mantissa read as it. -/
def ofNat (n : Nat) : Decimal :=
  ⟨false, min n maxMantissa, 0, Nat.min_le_right .., by decide⟩

def zero : Decimal := ⟨false, 0, 0, by decide, by decide⟩
def one : Decimal := ⟨false, 1, 0, by decide, by decide⟩
def two : Decimal := ⟨false, 2, 0, by decide, by decide⟩

instance : Inhabited Decimal := ⟨zero⟩

/-- The integer `n`, when its magnitude is a mantissa. -/
def ofInt? (n : Int) : Option Decimal :=
  if h : n.natAbs ≤ maxMantissa then some ⟨decide (n < 0), n.natAbs, 0, h, by decide⟩ else none

/-- The integer a 64-bit word holds; its magnitude always is a mantissa. -/
def ofInt64 (n : Int64) : Decimal :=
  ⟨decide (n.toInt < 0), n.toInt.natAbs, 0, by
    have := n.toInt_lt
    have := n.le_toInt
    show n.toInt.natAbs ≤ 79228162514264337593543950335
    omega, by decide⟩

def isZero (d : Decimal) : Bool := d.mantissa == 0

/-- The mantissa with its sign. -/
def signed (d : Decimal) : Int := if d.negative then -(d.mantissa : Int) else d.mantissa

/-- Numeric order: `1.0` and `1` are the same number, and so are both zeros. -/
def order (a b : Decimal) : Ordering :=
  compare (a.signed * tenTo b.scale) (b.signed * tenTo a.scale)

/-- Numeric equality. -/
def same (a b : Decimal) : Bool := a.order b == .eq

def neg (d : Decimal) : Decimal := { d with negative := !d.negative }

def abs (d : Decimal) : Decimal := { d with negative := false }

/-- The number itself, but a zero without its sign. -/
def unsignedZero (d : Decimal) : Decimal := if d.isZero then d.abs else d

/-! ## Finding a scale -/

/-- The number `± num / den` at the largest scale, counted down from `scale`, whose half-even
rounding has a mantissa that fits; `none` when even the integer nearest to it is too large. The
sign stays on a result that rounds to zero. -/
def nearest? (negative : Bool) (num den : Nat) : (scale : Nat) → scale ≤ maxScale → Option Decimal
  | scale, hs =>
    if h : roundDiv .toEven (num * tenTo scale) den ≤ maxMantissa then
      some ⟨negative, roundDiv .toEven (num * tenTo scale) den, scale, h, hs⟩
    else match scale with
      | 0 => none
      | scale + 1 => nearest? negative num den scale (Nat.le_of_succ_le hs)

/-- The number `± units / 10 ^ places`, brought into range by dropping as few places as possible. -/
def fit? (negative : Bool) (units places : Nat) : Option Decimal :=
  nearest? negative units (tenTo places) (min places maxScale) (Nat.min_le_right ..)

/-! ## Trailing zeros -/

/-- Removes the zeros at the end of the decimals. -/
def stripZeros (negative : Bool) :
    (mantissa scale : Nat) → mantissa ≤ maxMantissa → scale ≤ maxScale → Decimal
  | mantissa, 0, hm, hs => ⟨negative, mantissa, 0, hm, hs⟩
  | mantissa, scale + 1, hm, hs =>
    if mantissa % 10 = 0 then
      stripZeros negative (mantissa / 10) scale (Nat.le_trans (Nat.div_le_self ..) hm)
        (Nat.le_of_succ_le hs)
    else ⟨negative, mantissa, scale + 1, hm, hs⟩

/-- The same number without trailing decimal zeros; a zero loses its sign and its decimals. -/
def normalize (d : Decimal) : Decimal :=
  if d.isZero then zero else stripZeros d.negative d.mantissa d.scale d.mantissa_le d.scale_le

/-! ## Whole and fractional parts -/

/-- Whether no digit after the point differs from zero. -/
def isWhole (d : Decimal) : Bool := d.mantissa % tenTo d.scale == 0

/-- Cuts the decimals off; the sign stays, also on a zero. -/
def trunc (d : Decimal) : Decimal :=
  ⟨d.negative, d.mantissa / tenTo d.scale, 0,
    Nat.le_trans (Nat.div_le_self ..) d.mantissa_le, by decide⟩

/-- What `trunc` cuts off. -/
def fract (d : Decimal) : Decimal :=
  ⟨d.negative && !d.isWhole, d.mantissa % tenTo d.scale, d.scale,
    Nat.le_trans (Nat.mod_le ..) d.mantissa_le, d.scale_le⟩

private theorem next_le {mantissa places : Nat} (hm : mantissa ≤ maxMantissa) (hp : 0 < places) :
    mantissa / tenTo places + 1 ≤ maxMantissa := by
  obtain ⟨p, rfl⟩ : ∃ p, places = p + 1 := ⟨places - 1, by omega⟩
  have h : mantissa / tenTo (p + 1) ≤ mantissa / 10 := by
    rw [tenTo_succ, Nat.mul_comm, ← Nat.div_div_eq_div_mul]
    exact Nat.div_le_self ..
  simp only [maxMantissa] at hm ⊢
  omega

private theorem scale_pos {d : Decimal} (h : ¬ d.isWhole = true) : 0 < d.scale := by
  cases hs : d.scale with
  | zero => simp [isWhole, hs, Nat.mod_one] at h
  | succ => exact Nat.succ_pos _

/-- What `trunc` gives, moved one away from zero when something was cut off. -/
def truncUp (d : Decimal) : Decimal :=
  if h : d.isWhole then d.trunc
  else
    ⟨d.negative, d.mantissa / tenTo d.scale + 1, 0, next_le d.mantissa_le (scale_pos h), by decide⟩

/-- The largest whole number that is not above `d`. -/
def floor (d : Decimal) : Decimal := if d.negative then d.truncUp else d.trunc

/-- The smallest whole number that is not below `d`. -/
def ceiling (d : Decimal) : Decimal := if d.negative then d.trunc else d.truncUp

/-- Rounds to `places` decimals; a number that has no more of them is left alone. A number that
becomes zero loses its sign. One that is zero keeps it, and gets the decimals that are asked for. -/
def round (tie : Tie) (places : Nat) (d : Decimal) : Decimal :=
  if d.isZero then ⟨d.negative, 0, min places maxScale, Nat.zero_le _, Nat.min_le_right ..⟩
  else if h : d.scale ≤ places then d
  else
    let mantissa := roundDiv tie d.mantissa (tenTo (d.scale - places))
    ⟨d.negative && mantissa != 0, mantissa, places,
      Nat.le_trans (roundDiv_le ..) (next_le d.mantissa_le (by omega)),
      Nat.le_trans (by omega) d.scale_le⟩

/-- Half to even, the rounding used wherever none is named. -/
def roundHalfEven (d : Decimal) (places : Nat) : Decimal := d.round .toEven places

/-- The integer part. -/
def toInt (d : Decimal) : Int := d.trunc.signed

/-- The integer part as a 64-bit word, if it is one. -/
def toInt64? (d : Decimal) : Option Int64 :=
  if InInt64 d.toInt then some (Int64.ofInt d.toInt) else none

end Decimal

end DecisionModel
