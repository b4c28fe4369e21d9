-- Double-precision numbers: two infinities, a zero of either sign, finite values held
-- exactly, and NaNs that each carry a label. Every rational in range has one nearest double,
-- so sums and conversions are exact sums and values rounded once.
import SmallLisp.Number.Rounding

namespace SmallLisp

/-- A double-precision number. The zero of `finite` is positive, and a NaN is the same as
another only if their labels agree. -/
inductive Double where
  | finite (value : Rat)
  | negativeZero
  | infinite (negative : Bool)
  | nan (label : Nat)
  deriving DecidableEq, Repr, Inhabited

namespace Double

/-- The exact value of a finite double; infinities and NaNs count as zero. -/
def toRat : Double → Rat
  | finite value => value
  | _ => 0

def isNaN : Double → Bool
  | nan _ => true
  | _ => false

/-- Zero of either sign. -/
def isZero : Double → Bool
  | finite value => value == 0
  | negativeZero => true
  | _ => false

/-! ## Rounding to a double -/

/-- The exponent of the last binary place that a double near `n / d` keeps: 53 places, and
none past the 1074th after the point. -/
def lastPlace (n d : Nat) : Int :=
  let place := floorLog2 n d - 52
  if place < -1074 then -1074 else place

/-- The double nearest to `r`, a tie going to the even last place, or nothing when that
would reach 2 to the 1024. A negative number too small for a place becomes the negative zero. -/
def nearest? (r : Rat) : Option Double :=
  if r = 0 then some (finite 0)
  else
    let n := r.num.natAbs
    let place := lastPlace n r.den
    let (a, b) := overPower 2 place n r.den
    let significand := roundHalfEven a b
    let numerator := significand * Nat.pow 2 place.toNat
    if significand = 0 then some (if r < 0 then negativeZero else finite 0)
    else if Nat.pow 2 1024 ≤ numerator then none
    else
      let magnitude := mkRat numerator (Nat.pow 2 (-place).toNat)
      some (finite (if r < 0 then -magnitude else magnitude))

/-- The double nearest to `r`, an infinity where `nearest?` finds none. -/
def nearest (r : Rat) : Double :=
  (nearest? r).getD (infinite (decide (r < 0)))

/-! ## Sums -/

/-- The sum of two doubles, rounded once. A NaN that comes out carries the given label. -/
def add (label : Nat) : Double → Double → Double
  | nan _, _ => nan label
  | _, nan _ => nan label
  | infinite s, infinite t => if s = t then infinite s else nan label
  | infinite s, _ => infinite s
  | _, infinite t => infinite t
  | negativeZero, negativeZero => negativeZero
  | x, y => nearest (x.toRat + y.toRat)

theorem add_nan_left (label l : Nat) (y : Double) : add label (nan l) y = nan label := by
  cases y <;> rfl

theorem add_nan_right (label l : Nat) (x : Double) : add label x (nan l) = nan label := by
  cases x <;> rfl

end Double

end SmallLisp
