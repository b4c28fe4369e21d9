-- Switches that a host sets by a text. Four words turn a switch on, a blank or missing text
-- leaves it at its default, and any other text turns it off.
import SmallLisp.Text.Blank

namespace SmallLisp

namespace Setting

/-- The words that turn a switch on. -/
def onWords : List String := ["1", "true", "yes", "on"]

/-- The switch that a text sets. Case does not matter; only ASCII letters have a lower case
among the words, so only they are lowered. -/
def flag (text : Option String) (default : Bool) : Bool :=
  match text with
  | none => default
  | some text =>
    let word := trimBlank text.toList
    if word.isEmpty then default
    else onWords.contains (String.ofList (word.map Char.toLower))

/-- Whether a text asks for tracing, which is off by default. -/
def traceEnabled (text : Option String) : Bool := flag text false

end Setting

end SmallLisp
