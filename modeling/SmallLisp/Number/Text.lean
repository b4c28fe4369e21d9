-- The written forms of numbers and their readings. A double is written with the fewest digits
-- that read back as it, a decimal with all its digits; both keep plain notation near the point
-- and use an exponent far from it.
import SmallLisp.Number.Basic
import SmallLisp.Number.Shortest

namespace SmallLisp

/-! ## Writing -/

/-- Digits with the point after the first `point` of them; zeros fill what is missing on
either side, and `fill` is written where no digit follows the point. -/
def pointedText (digits : String) (point : Int) (fill : String) : String :=
  if point ≤ 0 then "0." ++ "".pushn '0' (-point).toNat ++ digits
  else
    let before := point.toNat
    if digits.length ≤ before then digits.pushn '0' (before - digits.length) ++ fill
    else
      String.ofList (digits.toList.take before) ++ "." ++ String.ofList (digits.toList.drop before)

/-- An exponent with its sign and at least `width` digits. -/
def exponentText (width : Nat) (e : Int) : String :=
  let digits := digitText e.natAbs
  (if e < 0 then "-" else "+") ++ "".pushn '0' (width - digits.length) ++ digits

namespace Double

/-- A positive finite double: with its point in place if the first digit stands at most
three zeros after the point and at most sixteen digits stand before it, else with one digit
before the point and an exponent of two digits or more. -/
def magnitudeText (fill : String) (magnitude : Rat) : String :=
  let (c, e) := shortest magnitude.num.natAbs magnitude.den
  let digits := digitText c
  let point := e + digits.length
  if -4 < point ∧ point ≤ 16 then pointedText digits point fill
  else pointedText digits 1 "" ++ "e" ++ exponentText 2 (point - 1)

/-- The text of a double, with `fill` after a whole number in plain notation. -/
def textWith (fill : String) : Double → String
  | finite value =>
    if value = 0 then "0" ++ fill
    else if value < 0 then "-" ++ magnitudeText fill (-value)
    else magnitudeText fill value
  | negativeZero => "-0" ++ fill
  | infinite negative => if negative then "-inf" else "inf"
  | nan _ => "nan"

/-- The text of a double on its own: a whole number ends in `.0`. -/
def text : Double → String := textWith ".0"

/-- A minus sign is written before this double. -/
def isNegative : Double → Bool
  | finite value => decide (value < 0)
  | negativeZero => true
  | infinite negative => negative
  | nan _ => false

end Double

/-- The text of a complex number: the imaginary part alone if the real part is the positive
zero, else both parts, signed and in parentheses. -/
def complexText (re im : Double) : String :=
  if re = .finite 0 then im.textWith "" ++ "j"
  else
    "(" ++ re.textWith "" ++ (if im.isNegative then "" else "+") ++ im.textWith "" ++ "j)"

namespace Decimal

/-- The text of a finite decimal's magnitude: plain if its exponent is not positive and its
first digit stands at most five zeros after the point, else with an exponent. -/
def magnitudeText (coefficient : Nat) (exponent : Int) : String :=
  let digits := digitText coefficient
  let lead := exponent + digits.length
  if exponent ≤ 0 ∧ -6 < lead then pointedText digits lead ""
  else pointedText digits 1 "" ++ "E" ++ exponentText 1 (lead - 1)

/-- The text of a decimal. A payload of zero is not written. -/
def text : Decimal → String
  | finite negative coefficient exponent =>
    (if negative then "-" else "") ++ magnitudeText coefficient exponent
  | infinite negative => if negative then "-Infinity" else "Infinity"
  | nan negative signalling payload _ =>
    (if negative then "-" else "") ++ (if signalling then "sNaN" else "NaN") ++
      (if payload = 0 then "" else digitText payload)

end Decimal

/-- The digits of a whole number with its sign, however many there are. -/
def intText (n : Int) : String :=
  (if n < 0 then "-" else "") ++ digitText n.natAbs

/-- The text of a number inside a message or a list. -/
def Number.text : Number → String
  | int n => intText n
  | fraction r => "Fraction(" ++ intText r.num ++ ", " ++ digitText r.den ++ ")"
  | double d => d.text
  | decimal d => "Decimal('" ++ d.text ++ "')"
  | complex re im => complexText re im

/-! ## The limit on writing -/

/-- The host writes no whole number that has more digits than this. -/
def digitLimit : Nat := 4300

/-- The host is ready to write the number. Only whole numbers and the two parts of a fraction are
held to the limit; decimals have their digits at hand. -/
def Number.isWritable : Number → Bool
  | int n => decide (digitCount n.natAbs ≤ digitLimit)
  | fraction r => decide (digitCount r.num.natAbs ≤ digitLimit ∧ digitCount r.den ≤ digitLimit)
  | double _ | decimal _ | complex .. => true

/-- The greatest whole number that the host writes. -/
def greatestWritten : Nat := Nat.pow 10 digitLimit - 1

theorem greatestWritten_pos : 0 < greatestWritten := by
  -- The limit stays a variable here, so that nothing evaluates the power.
  have hpow : ∀ k, k ≠ 0 → 1 < Nat.pow 10 k := fun _ hk => Nat.one_lt_pow hk (by decide)
  exact Nat.sub_pos_of_lt (hpow digitLimit (by decide))

theorem Number.isWritable_int_iff (n : Int) :
    (int n).isWritable = true ↔ n.natAbs ≤ greatestWritten := by
  have hpos := greatestWritten_pos
  rw [greatestWritten] at hpos ⊢
  rw [isWritable, decide_eq_true_iff, digitCount_le_iff (by decide)]
  omega

/-- The greatest whole number that is written, and its double, which is not. -/
theorem Number.isWritable_greatest :
    (int greatestWritten).isWritable = true ∧
      (int (greatestWritten + greatestWritten)).isWritable = false := by
  have hpos := greatestWritten_pos
  rw [← Bool.not_eq_true, isWritable_int_iff, isWritable_int_iff]
  omega

/-! ## Reading -/

/-- The value of a run of decimal digits. -/
def readDigits? (cs : List Char) : Option Nat :=
  if cs.isEmpty || !cs.all Char.isDigit then none
  else some (cs.foldl (fun n c => 10 * n + (c.toNat - 48)) 0)

/-- A sign in front of a text, and the rest. -/
def splitSign : List Char → Bool × List Char
  | '-' :: cs => (true, cs)
  | '+' :: cs => (false, cs)
  | cs => (false, cs)

/-- A whole number with an optional sign. -/
def readInt? (text : String) : Option Int :=
  let (negative, cs) := splitSign text.toList
  (readDigits? cs).map fun n => if negative then -n else n

/-- Digits with an optional point and exponent, as `coefficient · 10 ^ exponent`. -/
def readScaled? (cs : List Char) : Option (Nat × Int) :=
  let isMark (c : Char) : Bool := c == 'e' || c == 'E'
  let mantissa := cs.takeWhile (!isMark ·)
  let whole := mantissa.takeWhile (· != '.')
  let places := (mantissa.dropWhile (· != '.')).drop 1
  let exponent? :=
    match cs.dropWhile (!isMark ·) with
    | [] => some 0
    | _ :: e => readInt? (String.ofList e)
  match readDigits? (whole ++ places), exponent? with
  | some c, some e => some (c, e - places.length)
  | _, _ => none

/-- The rational `coefficient · 10 ^ exponent`. -/
def scaledRat (coefficient : Nat) (exponent : Int) : Rat :=
  mkRat (coefficient * Nat.pow 10 exponent.toNat) (Nat.pow 10 (-exponent).toNat)

/-- Reads a double; a NaN receives the given label. -/
def Double.read? (label : Nat) (text : String) : Option Double :=
  let (negative, cs) := splitSign text.toList
  match String.ofList cs with
  | "inf" => some (.infinite negative)
  | "nan" => some (.nan label)
  | _ =>
    (readScaled? cs).map fun (c, e) =>
      let r := scaledRat c e
      match negative, decide (r = 0) with
      | true, true => .negativeZero
      | true, false => .nearest (-r)
      | false, _ => .nearest r

/-- A payload: no digits at all mean zero. -/
def readPayload? (cs : List Char) : Option Nat :=
  if cs.isEmpty then some 0 else readDigits? cs

/-- Reads a decimal; a NaN receives the given label. -/
def Decimal.read? (label : Nat) (text : String) : Option Decimal :=
  let (negative, cs) := splitSign text.toList
  match cs with
  | 's' :: 'N' :: 'a' :: 'N' :: payload =>
    (readPayload? payload).map fun p => .nan negative true p label
  | 'N' :: 'a' :: 'N' :: payload =>
    (readPayload? payload).map fun p => .nan negative false p label
  | 'I' :: 'n' :: 'f' :: _ => some (.infinite negative)
  | _ => (readScaled? cs).map fun (c, e) => .finite negative c e

end SmallLisp
