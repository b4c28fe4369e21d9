-- Decimal floating point with 28 digits: signed coefficients with an exponent, infinities,
-- and NaNs that may signal. A sum is exact, then rounded once to the nearest 28 digits, a tie
-- going to the even digit, and its exponent is the smaller one of the operands where the
-- digits allow it.
import SmallLisp.Number.Fault
import SmallLisp.Number.Rounding

namespace SmallLisp

/-- A decimal number. A NaN carries a diagnostic payload, and a label that tells it from
every other NaN. -/
inductive Decimal where
  | finite (negative : Bool) (coefficient : Nat) (exponent : Int)
  | infinite (negative : Bool)
  | nan (negative signalling : Bool) (payload label : Nat)
  deriving DecidableEq, Repr, Inhabited

namespace Decimal

/-! ## The limits of the arithmetic -/

/-- How many digits a sum keeps. -/
def precision : Nat := 28

/-- The greatest exponent of a leading digit. -/
def greatestExponent : Int := 999999

/-- The least exponent of a last digit: the leading one goes down to -999999. -/
def leastPlace : Int := -1000026

/-- The decimal of a whole number. -/
def ofInt (n : Int) : Decimal := finite (decide (n < 0)) n.natAbs 0

def isNaN : Decimal → Bool
  | nan .. => true
  | _ => false

def isSignalling : Decimal → Bool
  | nan _ signalling _ _ => signalling
  | _ => false

/-! ## Rounding -/

/-- The quotient `coefficient / 10 ^ drop`, rounded. A quotient below a tenth is zero, so its
power of ten need not be formed. -/
def dropDigits (coefficient drop : Nat) : Nat :=
  if digitCount coefficient < drop then 0
  else roundHalfEven coefficient (Nat.pow 10 drop)

/-- Brings a decimal into the range of the arithmetic: at most 28 digits, and no place
below the least one. A leading digit above the greatest exponent is an overflow; zero has
its exponent moved into range instead. -/
def fit (negative : Bool) (coefficient : Nat) (exponent : Int) : Except SumFault Decimal :=
  if coefficient = 0 then
    let e := if exponent < leastPlace then leastPlace else exponent
    .ok (finite negative 0 (if greatestExponent < e then greatestExponent else e))
  else
    let lead := exponent + digitCount coefficient - 1
    let wanted := lead + 1 - precision
    let place := if wanted < leastPlace then leastPlace else wanted
    if greatestExponent < lead then .error .decimalOverflow
    else if place ≤ exponent then .ok (finite negative coefficient exponent)
    else
      let c := dropDigits coefficient (place - exponent).toNat
      let (c, place) := if digitCount c = precision + 1 then (c / 10, place + 1) else (c, place)
      if greatestExponent < place + precision - 1 then .error .decimalOverflow
      else .ok (finite negative c place)

/-! ## Sums -/

/-- A decimal as a signed whole number times a power of ten. -/
def signed (negative : Bool) (coefficient : Nat) : Int :=
  if negative then -coefficient else coefficient

/-- The addend with the smaller exponent, seen from a `lead` addend with the greater one: if
it lies wholly below the digits that rounding looks at, a single unit there does the same. -/
def addendSeenFrom (leadCoefficient : Nat) (leadExponent : Int) (coefficient : Nat)
    (exponent : Int) : Nat × Int :=
  let digits : Int := digitCount leadCoefficient
  let reach := digits - precision - 2
  let floor := leadExponent + (if reach < -1 then reach else -1)
  if exponent + digitCount coefficient - 1 < floor then (1, floor) else (coefficient, exponent)

/-- The sum of two nonzero decimals, of which the first has the greater exponent or an
equal one. -/
def addOrdered (s : Bool) (c : Nat) (e : Int) (t : Bool) (d : Nat) (f : Int) :
    Except SumFault Decimal :=
  let (d', f') := addendSeenFrom c e d f
  let total := signed s (c * Nat.pow 10 (e - f').toNat) + signed t d'
  if total = 0 then fit false 0 f else fit (decide (total < 0)) total.natAbs f'

/-- The sum of a nonzero decimal and a zero: the decimal with its digits written out
towards the exponent of the zero, one place past the precision at most. -/
def addZero (negative : Bool) (coefficient : Nat) (exponent zeroExponent : Int) :
    Except SumFault Decimal :=
  let low := exponent - precision - 1
  let ideal := if zeroExponent < exponent then zeroExponent else exponent
  let place := if ideal < low then low else ideal
  fit negative (coefficient * Nat.pow 10 (exponent - place).toNat) place

/-- The sum of two finite decimals. The sum of two zeros is negative only if both are. -/
def addFinite (s : Bool) (c : Nat) (e : Int) (t : Bool) (d : Nat) (f : Int) :
    Except SumFault Decimal :=
  if c = 0 ∧ d = 0 then fit (s && t) 0 (if e < f then e else f)
  else if c = 0 then addZero t d f e
  else if d = 0 then addZero s c e f
  else if e < f then addOrdered t d f s c e
  else addOrdered s c e t d f

/-- A NaN as a sum hands it on: quiet, under a new label, its payload cut to 28 digits. -/
def handOn (negative : Bool) (payload label : Nat) : Decimal :=
  nan negative false (payload % Nat.pow 10 precision) label

/-- The sum of two decimals. A signalling NaN has none, a quiet one is handed on, the first
one of two; opposite infinities have none. -/
def add (label : Nat) : Decimal → Decimal → Except SumFault Decimal
  | nan s signalling p _, y =>
    if signalling || y.isSignalling then .error .decimalInvalid else .ok (handOn s p label)
  | _, nan t signalling p _ =>
    if signalling then .error .decimalInvalid else .ok (handOn t p label)
  | infinite s, infinite t => if s = t then .ok (infinite s) else .error .decimalInvalid
  | infinite s, _ => .ok (infinite s)
  | _, infinite t => .ok (infinite t)
  | finite s c e, finite t d f => addFinite s c e t d f

end Decimal

end SmallLisp
