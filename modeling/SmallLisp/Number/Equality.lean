-- Numbers are equal by value, whatever their kinds. Each number is sent to its exact value, a
-- pair of amounts on the two axes of the plane, and two numbers are equal if these agree.
import SmallLisp.Number.Basic

namespace SmallLisp

/-- A value on the extended real line in the one form it has: a decimal with no trailing
zero in its coefficient, a rational that no decimal equals, or an infinity. -/
inductive Amount where
  | decimal (coefficient : Int) (exponent : Int)
  | rational (value : Rat)
  | infinite (negative : Bool)
  deriving DecidableEq, Repr

namespace Amount

def zero : Amount := decimal 0 0

/-- The amount of the decimal `coefficient · 10 ^ exponent`. -/
def ofDecimal (negative : Bool) (coefficient : Nat) (exponent : Int) : Amount :=
  if coefficient = 0 then zero
  else
    let (c, e) := stripZeros (digitCount coefficient) coefficient exponent
    decimal (if negative then -c else c) e

/-- The amount of a rational. It is a decimal if its denominator divides a power of ten,
and then the exponent of that power is at most the denominator's bit length. -/
def ofRat (r : Rat) : Amount :=
  let places := r.den.log2
  let power := Nat.pow 10 places
  if power % r.den = 0
  then ofDecimal (decide (r < 0)) (r.num.natAbs * (power / r.den)) (-(places : Int))
  else rational r

/-- The amount of a double, unless it is a NaN. -/
def ofDouble? : Double → Option Amount
  | .finite value => some (ofRat value)
  | .negativeZero => some zero
  | .infinite negative => some (infinite negative)
  | .nan _ => none

/-- The amount of a decimal, unless it is a NaN. -/
def ofDecimal? : Decimal → Option Amount
  | .finite negative coefficient exponent => some (ofDecimal negative coefficient exponent)
  | .infinite negative => some (infinite negative)
  | .nan .. => none

end Amount

namespace Number

/-- The exact value of a number as amounts on the real and the imaginary axis. A number
with a NaN in it has none. -/
def exactValue? : Number → Option (Amount × Amount)
  | int n => some (.ofRat (Rat.ofInt n), .zero)
  | fraction r => some (.ofRat r, .zero)
  | double d => (Amount.ofDouble? d).map (·, .zero)
  | decimal d => (Amount.ofDecimal? d).map (·, .zero)
  | complex re im =>
    match Amount.ofDouble? re, Amount.ofDouble? im with
    | some x, some y => some (x, y)
    | _, _ => none

/-- The number is complex and its imaginary part is not zero. -/
def offAxis : Number → Bool
  | complex _ im => !im.isZero
  | _ => false

/-- Whether two numbers are equal. The same NaN is equal to itself and to nothing else. A
signalling NaN refuses to be compared with any other number on the real line, which leaves
the question undecided. -/
def equal (a b : Number) : Option Bool :=
  if a = b then some true
  else if (a.isSignalling && !b.offAxis) || (b.isSignalling && !a.offAxis) then none
  else
    match a.exactValue?, b.exactValue? with
    | some x, some y => some (decide (x = y))
    | _, _ => some false

end Number

end SmallLisp
