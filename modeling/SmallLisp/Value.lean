-- The values of the language. Programs and data are one type: a node is a symbol, a number, a
-- truth value, an empty value, a list of nodes, or a closure put into the program by its host.
-- Other values of the host pass through a program but are no nodes.
import SmallLisp.Number.Basic

namespace SmallLisp

/-- The brackets of a list. Evaluation treats both alike, printing does not. -/
inductive Brackets where
  | square
  | round
  deriving DecidableEq, Repr

/-- What a value of the host that is no node is. -/
inductive HostKind where
  /-- A mapping; its parts are a key, its value, the next key and so on. -/
  | mapping
  /-- A set; its parts are its members. -/
  | set
  | bytes (data : List UInt8)
  | ellipsis
  | notImplemented
  | intClass
  | textClass
  deriving DecidableEq, Repr

/-- An operation made by `lambda`: parameters, body, the scope it was made in, and the machine
that evaluates its arguments and body. The number tells it from every other closure. -/
structure Closure (Node : Type) where
  id : Nat
  params : List String
  body : List Node
  scope : Nat
  machine : Nat
  deriving Repr

/-- A program node or a value. -/
inductive Value where
  /-- The empty value of the language, its only false one with `null` and the empty lists. -/
  | nil
  /-- The empty value of the host. -/
  | null
  | bool (b : Bool)
  | number (n : Number)
  | symbol (name : String)
  | list (brackets : Brackets) (items : List Value)
  | closure (c : Closure Value)
  | host (kind : HostKind) (parts : List Value)
  deriving Inhabited

namespace Value

/-- A list in square brackets, as operations make them. -/
abbrev ofList (items : List Value) : Value := list .square items

/-- False for `if`: both empty values and the empty lists. -/
def isNil : Value → Bool
  | nil | null => true
  | list _ items => items.isEmpty
  | _ => false

def isSymbol : Value → Bool
  | symbol _ => true
  | _ => false

def isNumber : Value → Bool
  | number _ => true
  | _ => false

def isList : Value → Bool
  | list .. => true
  | _ => false

@[simp] theorem isNil_list (b : Brackets) (items : List Value) :
    (list b items).isNil = items.isEmpty := rfl

/-! ## Induction over values -/

mutual
/-- A property of values holds of all of them if it passes from the items of a list, the body
of a closure and the parts of a host value to the whole. -/
@[elab_as_elim]
theorem induct {motive : Value → Prop} (nil : motive nil) (null : motive null)
    (bool : ∀ b, motive (bool b)) (number : ∀ n, motive (number n))
    (symbol : ∀ name, motive (symbol name))
    (list : ∀ b items, (∀ v ∈ items, motive v) → motive (list b items))
    (closure : ∀ c : Closure Value, (∀ v ∈ c.body, motive v) → motive (closure c))
    (host : ∀ k parts, (∀ v ∈ parts, motive v) → motive (host k parts)) (v : Value) : motive v :=
  match v with
  | .nil => nil
  | .null => null
  | .bool b => bool b
  | .number n => number n
  | .symbol name => symbol name
  | .list b items =>
    list b items (induct_all nil null bool number symbol list closure host items)
  | .closure c => closure c (induct_all nil null bool number symbol list closure host c.body)
  | .host k parts => host k parts (induct_all nil null bool number symbol list closure host parts)
termination_by structural v

theorem induct_all {motive : Value → Prop} (nil : motive nil) (null : motive null)
    (bool : ∀ b, motive (bool b)) (number : ∀ n, motive (number n))
    (symbol : ∀ name, motive (symbol name))
    (list : ∀ b items, (∀ v ∈ items, motive v) → motive (list b items))
    (closure : ∀ c : Closure Value, (∀ v ∈ c.body, motive v) → motive (closure c))
    (host : ∀ k parts, (∀ v ∈ parts, motive v) → motive (host k parts)) (vs : List Value) :
    ∀ v ∈ vs, motive v :=
  match vs with
  | [] => by simp
  | w :: ws => fun v hv => (List.mem_cons.mp hv).elim
      (fun h => h ▸ induct nil null bool number symbol list closure host w)
      (fun h => induct_all nil null bool number symbol list closure host ws v h)
termination_by structural vs
end

end Value

end SmallLisp
