import DecisionModel.Decimal.Arithmetic

/-!
# Fractional powers

`base ^ exponent = exp (exponent * log base)`, computed in integers that count units of
`10 ^ -60`. Both series are summed over an argument that is reduced first: the logarithm by
powers of two and the identity `log y = 2 * artanh ((y - 1) / (y + 1))`, the exponential by
multiples of `log 2`. The remaining error is far below the 28th decimal, so the result is the
decimal nearest to the power in all but contrived cases.
-/

namespace DecisionModel.Decimal

/-- The number of units in one. -/
private def unit : Int := tenTo 60

/-- The sum `z + z³/3 + z⁵/5 + …`, where `power` is the current odd power of `z`. -/
private def artanhFrom (square : Int) : (terms odd : Nat) → (power : Int) → Int
  | 0, _, _ => 0
  | terms + 1, odd, power =>
    power / odd + artanhFrom square terms (odd + 2) (power * square / unit)

private def artanh (z : Int) : Int := artanhFrom (z * z / unit) 130 1 z

/-- The natural logarithm of two. -/
private def logTwo : Int := 2 * artanh (unit / 3)

/-- The natural logarithm of `num / den`, both positive. -/
private def log (num den : Nat) : Int :=
  let shift : Int := (num.log2 : Int) - den.log2
  let num' := num * twoTo (-shift).toNat
  let den' := den * twoTo shift.toNat
  2 * artanh (unit * ((num' : Int) - den') / (num' + den')) + shift * logTwo

/-- The sum `1 + x + x²/2! + …`, where `term` is the current term. -/
private def expFrom (x : Int) : (terms n : Nat) → (term : Int) → Int
  | 0, _, _ => 0
  | terms + 1, n, term => term + expFrom x terms (n + 1) (term * x / unit / n)

/-- The exponential of `x` as a multiple of a power of two: mantissa in units, and exponent. -/
private def exp (x : Int) : Nat × Int :=
  let turns := x / logTwo
  ((expFrom (x - turns * logTwo) 70 1 unit).toNat, turns)

/-- The largest argument of `exp`. The power that belongs to it is just below the largest decimal,
and that of its opposite just above the smallest one. -/
private def expBound : Int := 6653 * unit / 100

/-- The power `base ^ exponent` for a non-negative base and an exponent that is not whole. Zero and
one keep their value under every exponent. A power whose inverse is too large overflows like one
that is too large itself. -/
def fractionalPower? (base exponent : Decimal) : Option Decimal :=
  if base.isZero then some zero
  else if base.same one then some one
  else
    let x := log base.mantissa (tenTo base.scale) * exponent.signed / tenTo exponent.scale
    if x < -expBound ∨ expBound < x then none
    else
      let (mantissa, turns) := exp x.natAbs
      let num := mantissa * twoTo turns.toNat
      let den := tenTo 60 * twoTo (-turns).toNat
      if x < 0 then nearest? false den num maxScale (Nat.le_refl _)
      else nearest? false num den maxScale (Nat.le_refl _)

end DecisionModel.Decimal
