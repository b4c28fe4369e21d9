-- The shortest decimal digits that read back as a given double: of all decimals with the
-- fewest digits that round to it, the nearest, and of two equally near ones the even one.
import SmallLisp.Number.Double

namespace SmallLisp

/-- A positive double `significand · 2 ^ exponent` in the form that fixes which decimals
read back as it. -/
structure BinaryPlace where
  significand : Nat
  exponent : Int

namespace BinaryPlace

/-- The form of the positive double `n / d`. -/
def ofQuotient (n d : Nat) : BinaryPlace :=
  let place := Double.lastPlace n d
  let (a, b) := overPower 2 place n d
  ⟨a / b, place⟩

/-- Four times the significand less the distance to the lower end of the numbers that
round to the double: half a place, or a quarter where the place below is half as wide. -/
def lowEnd (p : BinaryPlace) : Nat :=
  if p.significand = 4503599627370496 ∧ -1074 < p.exponent
  then 4 * p.significand - 1 else 4 * p.significand - 2

/-- Four times the significand and half a place more. -/
def highEnd (p : BinaryPlace) : Nat := 4 * p.significand + 2

/-- The decimal `c · 10 ^ e` reads back as the double. The ends of the interval belong to
it exactly if the significand is even. -/
def readsBack (p : BinaryPlace) (c : Nat) (e : Int) : Bool :=
  let (a, b) := overPower 2 (p.exponent - 2) (c * Nat.pow 10 e.toNat) (Nat.pow 10 (-e).toNat)
  if p.significand % 2 = 0
  then decide (p.lowEnd * b ≤ a ∧ a ≤ p.highEnd * b)
  else decide (p.lowEnd * b < a ∧ a < p.highEnd * b)

end BinaryPlace

/-- The decimal with last place `e` that is the best of the two neighbours of `n / d` which
read back as it, if one does. -/
def bestNeighbour? (p : BinaryPlace) (n d : Nat) (e : Int) : Option Nat :=
  let (a, b) := overPower 10 e n d
  let low := a / b
  let nearer := roundHalfEven a b
  let other := if nearer = low then low + 1 else low
  if p.readsBack nearer e then some nearer
  else if p.readsBack other e then some other
  else none

/-- Tries one digit more at a time, from last place `e` down; after `bound` places the
nearest decimal there is taken. -/
def shortestFrom (p : BinaryPlace) (n d : Nat) : (bound : Nat) → (e : Int) → Nat × Int
  | 0, e =>
    let (a, b) := overPower 10 e n d
    (roundHalfEven a b, e)
  | bound + 1, e =>
    match bestNeighbour? p n d e with
    | some c => (c, e)
    | none => shortestFrom p n d bound (e - 1)

/-- The shortest decimal `c · 10 ^ e` that reads back as the positive double `n / d`, with
no trailing zero in `c`. Seventeen digits always suffice. -/
def shortest (n d : Nat) : Nat × Int :=
  let (c, e) := shortestFrom (.ofQuotient n d) n d 16 (floorLog10 n d)
  stripZeros (digitCount c) c e

end SmallLisp
