import DecisionModel.Decimal.Basic

/-!
# Binary doubles

JSON numbers with a fraction or an exponent are doubles. Here a finite one is an exact dyadic
number, `± mantissa * 2 ^ exponent` with a mantissa below `2 ^ 53`, and every operation is the
exact result brought to the nearest double, ties to even. Nothing depends on the machine's
floating-point unit.
-/

namespace DecisionModel

/-- A finite double in canonical form: the mantissa has 53 bits, unless the exponent is the
smallest one. -/
structure Double where
  negative : Bool
  mantissa : Nat
  exponent : Int
  deriving DecidableEq, Repr

namespace Double

/-- The number of bits of a mantissa. -/
def precision : Nat := 53

def minExponent : Int := -1074
def maxExponent : Int := 971

def zero : Double := ⟨false, 0, minExponent⟩

instance : Inhabited Double := ⟨zero⟩

/-- The factor `2 ^ exponent` as numerator and denominator. -/
def powerOfTwo (exponent : Int) : Nat × Nat := (twoTo exponent.toNat, twoTo (-exponent).toNat)

/-- The exponent at which `num / den` has a mantissa of 53 bits, or the smallest one. -/
def exponentFor (num den : Nat) : Int :=
  let low : Int := (num.log2 : Int) - den.log2 - precision
  let (up, down) := powerOfTwo low
  max minExponent (if num * down < den * up * twoTo precision then low else low + 1)

/-- The double nearest to `± num / den`; `none` when it is beyond the largest one. -/
def ofRatio? (negative : Bool) (num den : Nat) : Option Double :=
  if num = 0 then some { zero with negative }
  else
    let exponent := exponentFor num den
    let (up, down) := powerOfTwo exponent
    let mantissa := roundDiv .toEven (num * down) (den * up)
    let (mantissa, exponent) :=
      if mantissa = twoTo precision then (twoTo (precision - 1), exponent + 1)
      else (mantissa, exponent)
    if maxExponent < exponent then none else some ⟨negative, mantissa, exponent⟩

/-- The magnitude as numerator and denominator. -/
def ratio (x : Double) : Nat × Nat :=
  let (up, down) := powerOfTwo x.exponent
  (x.mantissa * up, down)

def isZero (x : Double) : Bool := x.mantissa == 0

def ofNat? (n : Nat) : Option Double := ofRatio? false n 1

def mul? (x y : Double) : Option Double :=
  let (a, b) := x.ratio
  let (c, d) := y.ratio
  ofRatio? (x.negative != y.negative) (a * c) (b * d)

/-- The quotient by a divisor other than zero. -/
def div? (x y : Double) : Option Double :=
  let (a, b) := x.ratio
  let (c, d) := y.ratio
  ofRatio? (x.negative != y.negative) (a * d) (b * c)

/-- The sum of two doubles that are not negative. -/
def addMagnitudes? (x y : Double) : Option Double :=
  let (a, b) := x.ratio
  let (c, d) := y.ratio
  ofRatio? false (a * d + c * b) (b * d)

/-- The nearest whole number, half away from zero. -/
def roundToWhole? (x : Double) : Option Double :=
  let (a, b) := x.ratio
  ofRatio? x.negative (roundDiv .awayFromZero a b) 1

/-- The largest power of ten that a double comes close to. -/
def maxPowerOfTen : Nat := 308

/-- The double for `significand * 10 ^ exponent` in two roundings, one of the significand and one of
its product with, or quotient by, the power of ten. Below the inverse of the largest power of ten
it takes one division more. `none` is a number beyond the largest double. -/
def ofScientific? (negative : Bool) (significand : Nat) (exponent : Int) : Option Double := do
  let x ← ofNat? significand
  let magnitude ←
    if 0 ≤ exponent then
      if x.isZero then some x
      else if exponent ≤ maxPowerOfTen then x.mul? (← ofNat? (tenTo exponent.toNat))
      else none
    else
      let places := (-exponent).toNat
      if places ≤ maxPowerOfTen then x.div? (← ofNat? (tenTo places))
      else if places ≤ 2 * maxPowerOfTen then do
        let y ← x.div? (← ofNat? (tenTo maxPowerOfTen))
        y.div? (← ofNat? (tenTo (places - maxPowerOfTen)))
      else some zero
  some { magnitude with negative }

end Double

/-! ## Doubles near a decimal -/

/-- A double near the decimal. A whole number gives the nearest one. Otherwise the integer part
and the fraction are brought to doubles one by one and added, and the sum is rounded to the
decimals that the number has, all in doubles. -/
def Decimal.toDouble? (d : Decimal) : Option Double := do
  let power := tenTo d.scale
  let whole ← Double.ofNat? (d.mantissa / power)
  if d.mantissa % power = 0 then some { whole with negative := d.negative }
  else do
    let scale ← Double.ofNat? power
    let sum ← whole.addMagnitudes? (← (← Double.ofNat? (d.mantissa % power)).div? scale)
    let rounded ← (← (← sum.mul? scale).roundToWhole?).div? scale
    some { rounded with negative := d.negative }

end DecisionModel
