-- The numbers of the language: whole numbers, fractions, doubles, decimals and complex
-- numbers. Whole numbers and fractions add exactly; a double or a complex operand draws both
-- into its kind; a decimal adds only to decimals and whole numbers.
import SmallLisp.Number.Double
import SmallLisp.Number.Decimal

namespace SmallLisp

/-- A number. A fraction stays one even if its value is whole. -/
inductive Number where
  | int (value : Int)
  | fraction (value : Rat)
  | double (value : Double)
  | decimal (value : Decimal)
  | complex (re im : Double)
  deriving DecidableEq, Repr, Inhabited

namespace Number

/-- Whole numbers and fractions, on which sums are exact. -/
def IsExact : Number → Prop
  | int _ | fraction _ => True
  | _ => False

instance (n : Number) : Decidable n.IsExact := by
  cases n <;> unfold IsExact <;> infer_instance

/-- A NaN that signals. -/
def isSignalling : Number → Bool
  | decimal d => d.isSignalling
  | _ => false

/-- The double nearest to a number on the real line. A number beyond the doubles has none,
nor has a decimal. -/
def toDouble : Number → Except SumFault Double
  | int n =>
    match Double.nearest? (Rat.ofInt n) with
    | some d => .ok d
    | none => .error .integerTooLarge
  | fraction r =>
    match Double.nearest? r with
    | some d => .ok d
    | none => .error .fractionTooLarge
  | double d => .ok d
  | decimal _ | complex .. => .error .unaddable

/-- A number as a point of the complex plane; one on the real line has the positive zero as
its imaginary part. -/
def toComplex : Number → Except SumFault (Double × Double)
  | complex re im => .ok (re, im)
  | n => do .ok (← n.toDouble, .finite 0)

/-- The sum of two numbers of which one is complex. The two parts are added apart, so each
may take a label. -/
def addComplex (label : Nat) (a b : Number) : Except SumFault Number := do
  let (re, im) ← a.toComplex
  let (re', im') ← b.toComplex
  .ok (complex (re.add label re') (im.add (label + 1) im'))

/-- The sum of two numbers. A NaN in it carries the given label or the next one. -/
def add (label : Nat) : Number → Number → Except SumFault Number
  | int a, int b => .ok (int (a + b))
  | int a, fraction b => .ok (fraction (Rat.ofInt a + b))
  | fraction a, int b => .ok (fraction (a + Rat.ofInt b))
  | fraction a, fraction b => .ok (fraction (a + b))
  | decimal a, decimal b => (a.add label b).map decimal
  | decimal a, int b => (a.add label (.ofInt b)).map decimal
  | int a, decimal b => ((Decimal.ofInt a).add label b).map decimal
  | decimal _, _ => .error .unaddable
  | _, decimal _ => .error .unaddable
  | complex re im, b => addComplex label (complex re im) b
  | a, complex re im => addComplex label a (complex re im)
  | a, b => do .ok (double ((← a.toDouble).add label (← b.toDouble)))

end Number

end SmallLisp
