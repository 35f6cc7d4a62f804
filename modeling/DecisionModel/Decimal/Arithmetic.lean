import DecisionModel.Decimal.Division

/-!
# Decimal arithmetic

Each operation computes its exact result and then takes the nearest decimal at the largest scale
that fits. `none` is overflow: the result's integer part alone needs more than 96 bits. Zero
operands are answered before that, because they keep the other operand's digits as they are
written. Results that are zero are equal, but their signs and their decimals are not always the
same, and both can be seen where a number is named in a message.
-/

namespace DecisionModel.Decimal

/-- The number counted in units of `10 ^ -places`, for `places` not below its scale. -/
def units (d : Decimal) (places : Nat) : Int := d.signed * tenTo (places - d.scale)

/-- The sum. A zero operand gives the other one back, and two operands that cancel leave a zero
without sign. -/
def add? (a b : Decimal) : Option Decimal :=
  if a.isZero then some b
  else if b.isZero then some a
  else
    let places := max a.scale b.scale
    let sum := a.units places + b.units places
    if sum = 0 then
      some ⟨false, 0, places, Nat.zero_le _, Nat.max_le.2 ⟨a.scale_le, b.scale_le⟩⟩
    else fit? (sum < 0) sum.natAbs places

/-- The difference. Taking a number from zero negates it, unless it is zero itself. -/
def sub? (a b : Decimal) : Option Decimal :=
  if b.isZero then (if a.isZero then some b else some a) else a.add? b.neg

/-- Whether the mantissa is a word of 32 bits. -/
def isShort (d : Decimal) : Bool := d.mantissa < wordSize32

/-- How many digits of a product of two short mantissas may lie beyond the last decimal before it
is not rounded any more. -/
def shortDigits : Nat := 19

/-- The product; a zero factor gives plain zero. A product that rounds to zero keeps its sign and all
its decimals, except that of two short factors: it has no sign, and no decimals either when
more than `shortDigits` of them would have to be rounded away. -/
def mul? (a b : Decimal) : Option Decimal :=
  if a.isZero || b.isZero then some zero
  else
    let product :=
      fit? (a.negative != b.negative) (a.mantissa * b.mantissa) (a.scale + b.scale)
    if !(a.isShort && b.isShort) then product
    else if maxScale + shortDigits < a.scale + b.scale then some zero
    else product.map unsignedZero

/-- The member after `root` of Newton's iteration for the square root of `x`. -/
def newtonStep? (x root : Decimal) : Option Decimal := do
  let quotient ← x.div? root
  let sum ← root.add? quotient
  sum.div? two

/-- Follows the iteration until it repeats a value. After so many rounds it is given up, with no
value at all. -/
def newton? (x : Decimal) : (rounds : Nat) → (last root : Decimal) → Option Decimal
  | 0, last, root => if last.same root then some root else none
  | rounds + 1, last, root =>
    if last.same root then some root
    else do newton? x rounds root (← newtonStep? x root)

/-- The rounds that the iteration for a square root may take. -/
def rootRounds : Nat := 999

/-- The first member of the iteration: half the number, or the number itself where the half is
rounded to zero. -/
def rootStart? (x : Decimal) : Option Decimal := do
  let half ← x.div? two
  return if half.isZero then x else half

/-- The square root of a number that is not negative, if the iteration comes to one. -/
def sqrt? (x : Decimal) : Option Decimal :=
  if x.isZero then some zero
  else do
    let start ← rootStart? x
    newton? x rootRounds (← start.add? one) start

/-! ## Whole powers -/

/-- The product `result * factor ^ exponent` by repeated squaring, the lowest bit of the exponent
first. The factor is squared only while bits remain, so no square is taken that the result does not
need. -/
def powerFrom? (result factor : Decimal) (exponent : Nat) : Option Decimal :=
  if h : exponent = 0 then some result
  else do
    let result ← if exponent % 2 = 1 then result.mul? factor else some result
    if exponent / 2 = 0 then some result
    else powerFrom? result (← factor.mul? factor) (exponent / 2)
termination_by exponent
decreasing_by omega

/-- The power `base ^ exponent` for a natural exponent. -/
def power? (base : Decimal) (exponent : Nat) : Option Decimal := powerFrom? one base exponent

end DecisionModel.Decimal
