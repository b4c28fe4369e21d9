-- Quoted texts. A text stands in single quotes, or in double ones if it holds a single quote
-- and no double one; the quote in use, the backslash and every character that is not shown
-- are escaped. Byte strings are quoted by the same rule, one byte a character.
import SmallLisp.Text.Printable

namespace SmallLisp

/-- The mark that quotes these characters. -/
def quoteFor (cs : List Char) : Char :=
  if cs.contains '\'' && !cs.contains '"' then '"' else '\''

/-- A number in lower-case hexadecimal, filled with zeros to `width` digits. -/
def hexText (width n : Nat) : String :=
  let digits := Nat.toDigits 16 n
  "".pushn '0' (width - digits.length) ++ String.ofList digits

/-- The escapes that quoted texts and byte strings share. -/
def commonEscape? (quote c : Char) : Option String :=
  if c = quote ∨ c = '\\' then some ("\\".push c)
  else if c = '\n' then some "\\n"
  else if c = '\r' then some "\\r"
  else if c = '\t' then some "\\t"
  else none

/-- A character inside quotes. A hidden one is given by its code point in as few of two,
four or eight digits as hold it. -/
def escapeChar (quote c : Char) : String :=
  match commonEscape? quote c with
  | some text => text
  | none =>
    if isPrintable c then c.toString
    else if c.toNat ≤ 0xff then "\\x" ++ hexText 2 c.toNat
    else if c.toNat ≤ 0xffff then "\\u" ++ hexText 4 c.toNat
    else "\\U" ++ hexText 8 c.toNat

/-- A text in quotes. -/
def quoted (text : String) : String :=
  let cs := text.toList
  let quote := quoteFor cs
  quote.toString ++ String.join (cs.map (escapeChar quote)) ++ quote.toString

/-- A byte inside quotes: plain ASCII as itself, any other by two digits. -/
def escapeByte (quote : Char) (b : UInt8) : String :=
  let c := Char.ofNat b.toNat
  match commonEscape? quote c with
  | some text => text
  | none => if 0x20 ≤ b ∧ b < 0x7f then c.toString else "\\x" ++ hexText 2 b.toNat

/-- A byte string in quotes, marked by a `b`. -/
def quotedBytes (bytes : List UInt8) : String :=
  let quote := quoteFor (bytes.map fun b => Char.ofNat b.toNat)
  "b" ++ quote.toString ++ String.join (bytes.map (escapeByte quote)) ++ quote.toString

end SmallLisp
