-- The nine built-in operations, by what they do. A registry decides which names they answer to.
namespace SmallLisp

/-- A built-in operation. -/
inductive Builtin where
  | add
  | car
  | cdr
  | quote
  | cons
  /-- The choice between two nodes by a condition. -/
  | choose
  /-- The assignment to a name. -/
  | assign
  | equal
  | lambda
  deriving DecidableEq, Repr

namespace Builtin

/-- The name that a built-in goes by unless a registry says otherwise. -/
def name : Builtin → String
  | add => "+"
  | car => "car"
  | cdr => "cdr"
  | quote => "quote"
  | cons => "cons"
  | choose => "if"
  | assign => "set"
  | equal => "equal"
  | lambda => "lambda"

/-- All built-ins in the order in which the standard registry lists them. -/
def all : List Builtin := [add, car, cdr, quote, cons, choose, assign, equal, lambda]

/-- The built-in of a standard name. -/
def ofName? (name : String) : Option Builtin := all.find? (·.name == name)

end Builtin

end SmallLisp
