import DecisionModel.Decimal.Basic

/-!
# Division of decimals

Long division writes the digits of a quotient in groups of up to nine, and stops as soon as nothing
is left to divide, or when there is no room for another digit. So a quotient that ends inside a
group is padded with zeros, and an endless one is rounded at the largest scale that fits.

Only some of the padding is taken off again: four zeros, then two, then one, each of them once and
only if they are there. This is why a half is written `0.50` and not `0.5`: of the eight zeros in
`0.500000000` seven are removed. A quotient that comes out without a remainder has no group of
its own and keeps the decimals that the scales of the operands give it.
-/

namespace DecisionModel.Decimal

/-! ## Digits in groups -/

/-- The most digits that are written at a time. -/
def groupSize : Nat := 9

/-- For how many of `limit` further digits a quotient has room. -/
def room (quotient : Nat) : (limit : Nat) → Nat
  | 0 => 0
  | limit + 1 =>
    if quotient * tenTo (limit + 1) ≤ maxMantissa then limit + 1 else room quotient limit

theorem room_le (quotient limit : Nat) : room quotient limit ≤ limit := by
  induction limit with
  | zero => exact Nat.le_refl _
  | succ limit ih =>
    unfold room
    split
    · exact Nat.le_refl _
    · exact Nat.le_succ_of_le ih

/-- How many places remain unused when long division stops, of `left` that are still free; none
when it cannot come to an end. There are more places than decimals as long as the digits stand
before the point, and those are filled with zeros. -/
def placesLeft (divisor quotient remainder left : Nat) : Nat :=
  if remainder = 0 then min left maxScale
  else
    let places := room quotient (min groupSize left)
    let scaled := remainder * tenTo places
    let next := quotient * tenTo places + scaled / divisor
    if places = 0 ∨ maxMantissa < next then 0
    else placesLeft divisor next (scaled % divisor) (left - places)
termination_by left
decreasing_by
  have := room_le quotient (min groupSize left)
  omega

/-! ## Padding -/

/-- Drops the last `places` decimals if all of them are zeros. -/
def dropZeros (places : Nat) (d : Decimal) : Decimal :=
  if places ≤ d.scale ∧ d.mantissa % tenTo places = 0 then
    ⟨d.negative, d.mantissa / tenTo places, d.scale - places,
      Nat.le_trans (Nat.div_le_self ..) d.mantissa_le,
      Nat.le_trans (Nat.sub_le ..) d.scale_le⟩
  else d

/-- Drops eight zeros at once, which is done only when the last 32 bits are zero as well. -/
def dropEight (d : Decimal) : Decimal :=
  if d.mantissa % wordSize32 = 0 then d.dropZeros 8 else d

/-- Takes padding off. Eight zeros go as often as they can, which is three times at most; four, two
and one go once. -/
def dropPadding (d : Decimal) : Decimal :=
  ((d.dropEight.dropEight.dropEight.dropZeros 4).dropZeros 2).dropZeros 1

/-! ## The quotient -/

/-- The quotient for a divisor other than zero. It has no sign when it is zero. -/
def div? (a b : Decimal) : Option Decimal :=
  if a.isZero then some zero
  else
    let remainder := a.mantissa % b.mantissa
    let left :=
      placesLeft b.mantissa (a.mantissa / b.mantissa) remainder (maxScale + b.scale - a.scale)
    (nearest? (a.negative != b.negative) (a.mantissa * tenTo b.scale) (b.mantissa * tenTo a.scale)
      (maxScale - left) (Nat.sub_le ..)).map fun quotient =>
        if remainder = 0 then quotient else quotient.dropPadding.unsignedZero

end DecisionModel.Decimal
