-- What each built-in operation does with its argument nodes. The nodes arrive unevaluated, and
-- each operation has those evaluated that it needs, in its own order. A wrong number of nodes is
-- found before any of them is evaluated.
import SmallLisp.Run
import SmallLisp.Value.Equality

namespace SmallLisp

namespace Form

open Run

/-- Adds a number to the sum so far. -/
def addTo (total n : Number) : Run Number := do
  match total.add (← reserve 2) n with
  | .ok sum => return sum
  | .error cause => fail (.sum cause n total)

/-- Evaluates nodes from left to right and adds their values to the total. -/
def sum (eval : Value → Run Value) : (total : Number) → List Value → Run Number
  | total, [] => return total
  | total, node :: rest => do
    match ← eval node with
    | .number n => sum eval (← addTo total n) rest
    | value => fail (.notANumber value)

/-- The sum of all arguments, zero if there are none. -/
def add (eval : Value → Run Value) (tail : List Value) : Run Value := do
  return .number (← sum eval (.int 0) tail)

/-- The items of a list; nil has none. -/
def itemsOf (operation : Builtin) : Value → Run (List Value)
  | .nil => return []
  | .list _ items => return items
  | value => fail (.notAList operation value)

/-- The first item of a list, nil if it is empty. -/
def car (eval : Value → Run Value) : List Value → Run Value
  | [node] => do
    let items ← itemsOf .car (← eval node)
    return items.head?.getD .nil
  | _ => fail (.argumentCount .car)

/-- Items as a list, or nil if there are none. -/
def listOrNil : List Value → Value
  | [] => .nil
  | items => .ofList items

/-- A list without its first item, nil if none is left. -/
def cdr (eval : Value → Run Value) : List Value → Run Value
  | [node] => do
    let items ← itemsOf .cdr (← eval node)
    return listOrNil items.tail
  | _ => fail (.argumentCount .cdr)

/-- The node itself. -/
def quote : List Value → Run Value
  | [node] => return node
  | _ => fail (.argumentCount .quote)

/-- The pair of the first node as it stands and the value of the second. -/
def cons (eval : Value → Run Value) : List Value → Run Value
  | [head, rest] => do return .ofList [head, ← eval rest]
  | _ => fail (.argumentCount .cons)

/-- The value of the second node, or of the third if the first one's value is an empty one. -/
def choose (eval : Value → Run Value) : List Value → Run Value
  | [condition, yes, no] => do
    if (← eval condition).isNil then eval no else eval yes
  | _ => fail (.argumentCount .choose)

/-- Assigns in the root of the scope; both nodes are evaluated first, the name before the
value. -/
def assign (eval : Value → Run Value) (scope : Nat) : List Value → Run Value
  | [nameNode, valueNode] => do
    let name ← eval nameNode
    let value ← eval valueNode
    match name with
    | .symbol name => Run.assign scope name value
    | other => fail (.unassignable other)
    return value
  | _ => fail (.argumentCount .assign)

/-- True if two values are equal, else nil. -/
def equal (eval : Value → Run Value) : List Value → Run Value
  | [left, right] => do
    let a ← eval left
    let b ← eval right
    match a.equal b with
    | some same => return if same then .bool true else .nil
    | none => fail .undecided
  | _ => fail (.argumentCount .equal)

/-- The names of parameters; the first one that is no symbol is a fault. -/
def symbolNames : List Value → Except Fault (List String)
  | [] => .ok []
  | .symbol name :: rest => do return name :: (← symbolNames rest)
  | other :: _ => .error (.parameterNotSymbol other)

/-- The parameters that a node lists. -/
def parameters : Value → Except Fault (List String)
  | .list _ items => symbolNames items
  | node => if node.isNil then .ok [] else .error (.parametersNotList node)

/-- A closure of the scope, to be run by the machine. -/
def lambda (machine scope : Nat) : List Value → Run Value
  | [] => fail (.argumentCount .lambda)
  | params :: body => do
    return .closure (← makeClosure (← ofExcept (parameters params)) body scope machine)

end Form

/-- Runs a built-in operation on argument nodes. -/
def Builtin.run (eval : Value → Run Value) (machine scope : Nat) (operation : Builtin)
    (tail : List Value) : Run Value :=
  match operation with
  | add => Form.add eval tail
  | car => Form.car eval tail
  | cdr => Form.cdr eval tail
  | quote => Form.quote tail
  | cons => Form.cons eval tail
  | choose => Form.choose eval tail
  | assign => Form.assign eval scope tail
  | equal => Form.equal eval tail
  | lambda => Form.lambda machine scope tail

end SmallLisp
