-- The printed form of values, as messages and logs show them: symbols in quotes, lists in their
-- brackets, a closure as the `lambda` that made it. The host writes a value only if none of the
-- whole numbers in it is too long, so next to each form stands the test whether it is written.
import SmallLisp.Number.Text
import SmallLisp.Text.Quoted
import SmallLisp.Value

namespace SmallLisp

/-- Texts with a comma and a space between them. -/
def commaSeparated (texts : List String) : String := ", ".intercalate texts

/-- A key and its value, as many times as there are. -/
def pairTexts : List String → List String
  | key :: value :: rest => (key ++ ": " ++ value) :: pairTexts rest
  | _ => []

/-- A list of printed items in its brackets. A single item in round ones has a comma after it. -/
def bracketed : Brackets → List String → String
  | .square, texts => "[" ++ commaSeparated texts ++ "]"
  | .round, [text] => "(" ++ text ++ ",)"
  | .round, texts => "(" ++ commaSeparated texts ++ ")"

/-- A value of the host with its printed parts. -/
def hostText : HostKind → List String → String
  | .mapping, texts => "\x7b" ++ commaSeparated (pairTexts texts) ++ "\x7d"
  | .set, [] => "set()"
  | .set, texts => "\x7b" ++ commaSeparated texts ++ "\x7d"
  | .bytes data, _ => quotedBytes data
  | .ellipsis, _ => "Ellipsis"
  | .notImplemented, _ => "NotImplemented"
  | .intClass, _ => "<class 'int'>"
  | .textClass, _ => "<class 'str'>"

/-- The `lambda` form of a closure with these parameters and printed body. -/
def lambdaText (params : List String) (body : List String) : String :=
  "(lambda (" ++ " ".intercalate params ++ ")" ++ String.join (body.map (" " ++ ·)) ++ ")"

namespace Value

mutual
/-- The printed form of a value. -/
def text : Value → String
  | .nil => "nil"
  | .null => "None"
  | .bool b => if b then "True" else "False"
  | .number n => n.text
  | .symbol name => quoted name
  | .list brackets items => bracketed brackets (texts items)
  | .closure c => "<Closure " ++ lambdaText c.params (texts c.body) ++ ">"
  | .host kind parts => hostText kind (texts parts)
termination_by structural v => v

def texts : List Value → List String
  | [] => []
  | v :: vs => text v :: texts vs
termination_by structural vs => vs
end

@[simp] theorem texts_eq_map (vs : List Value) : texts vs = vs.map text := by
  induction vs with
  | nil => rfl
  | cons v vs ih => simp [texts, ih]

mutual
/-- The host is ready to write all the numbers in the value. -/
def isWritable : Value → Bool
  | .number n => n.isWritable
  | .list _ items => areWritable items
  | .closure c => areWritable c.body
  | .host _ parts => areWritable parts
  | .nil | .null | .bool _ | .symbol _ => true
termination_by structural v => v

def areWritable : List Value → Bool
  | [] => true
  | v :: vs => isWritable v && areWritable vs
termination_by structural vs => vs
end

@[simp] theorem areWritable_eq_all (vs : List Value) : areWritable vs = vs.all isWritable := by
  induction vs with
  | nil => rfl
  | cons v vs ih => simp [areWritable, ih]

end Value

/-- A closure as the `lambda` that made it. -/
def Closure.text (c : Closure Value) : String := lambdaText c.params (c.body.map Value.text)

/-- A value by itself, not inside another: a symbol bare and a closure as its `lambda`. -/
def Value.display : Value → String
  | .symbol name => name
  | .closure c => c.text
  | v => v.text

/-- A list of values in square brackets. -/
def listText (values : List Value) : String := bracketed .square (values.map Value.text)

/-- What the host calls the kind of a value. -/
def Value.kindText : Value → String
  | .nil => "NilType"
  | .null => "NoneType"
  | .bool _ => "bool"
  | .number (.int _) => "int"
  | .number (.fraction _) => "Fraction"
  | .number (.double _) => "float"
  | .number (.decimal _) => "decimal.Decimal"
  | .number (.complex ..) => "complex"
  | .symbol _ => "str"
  | .list .square _ => "list"
  | .list .round _ => "tuple"
  | .closure _ => "Closure"
  | .host .mapping _ => "dict"
  | .host .set _ => "set"
  | .host (.bytes _) _ => "bytes"
  | .host .ellipsis _ => "ellipsis"
  | .host .notImplemented _ => "NotImplementedType"
  | .host .intClass _ | .host .textClass _ => "type"

end SmallLisp
