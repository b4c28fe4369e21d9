-- A second semantics of the language, with lexical scope and no store. A scope is a list of frames,
-- and a closure carries a copy of the scope that it was made in. Calls put a frame in front of the
-- closure's scope; only the global table is ever written to.
import SmallLisp.Form

namespace SmallLisp

namespace Lexical

/-! ## Values and states -/

/-- A value of a run. Closures have the frames of their scope inside, each frame a list of
parameters with their arguments. -/
inductive Term where
  | nil
  | null
  | bool (b : Bool)
  | number (n : Number)
  | symbol (name : String)
  | list (brackets : Brackets) (items : List Term)
  | closure (id : Nat) (params : List String) (body : List Value)
      (frames : List (List (String × Term)))
  | host (kind : HostKind) (parts : List Value)
  deriving Inhabited

/-- The frames around a place in a program, innermost first. -/
abbrev Scope := List (List (String × Term))

mutual
/-- A node as a value. -/
def Term.ofNode : Value → Term
  | .nil => .nil
  | .null => .null
  | .bool b => .bool b
  | .number n => .number n
  | .symbol name => .symbol name
  | .list brackets items => .list brackets (Term.ofNodes items)
  | .closure c => .closure c.id c.params c.body []
  | .host kind parts => .host kind parts
termination_by structural v => v

def Term.ofNodes : List Value → List Term
  | [] => []
  | v :: vs => Term.ofNode v :: Term.ofNodes vs
termination_by structural vs => vs
end

mutual
/-- A value without the scopes of its closures: what printing and comparing can see of it. -/
def Term.plain : Term → Value
  | .nil => .nil
  | .null => .null
  | .bool b => .bool b
  | .number n => .number n
  | .symbol name => .symbol name
  | .list brackets items => .list brackets (Term.plains items)
  | .closure id params body _ => .closure ⟨id, params, body, 0, 0⟩
  | .host kind parts => .host kind parts
termination_by structural t => t

def Term.plains : List Term → List Value
  | [] => []
  | t :: ts => Term.plain t :: Term.plains ts
termination_by structural ts => ts
end

/-- The last value that some pairs have for a name. -/
def last? {α : Type} (name : String) : List (String × α) → Option α
  | [] => none
  | (n, a) :: rest =>
    match last? name rest with
    | some later => some later
    | none => if n = name then some a else none

/-- A table of pairs has the last value of each name. -/
theorem get?_ofList {α : Type} (pairs : List (String × α)) (name : String) :
    (Table.ofList pairs).get? name = last? name pairs := by
  have main : ∀ (pairs : List (String × α)) (t : Table α),
      (pairs.foldl (fun t p => t.put p.1 p.2) t).get? name =
        (last? name pairs).or (t.get? name) := by
    intro pairs
    induction pairs with
    | nil => exact fun _ => rfl
    | cons p rest ih =>
      intro t
      rw [List.foldl_cons, ih, last?]
      cases last? name rest with
      | some later => rfl
      | none =>
        by_cases h : p.1 = name
        · rw [← h, if_pos rfl]
          exact Table.get?_put_self t p.1 p.2
        · rw [if_neg h]
          exact Table.get?_put_of_ne t p.2 (Ne.symm h)
  have h : (Table.ofList pairs).get? name = _ := main pairs Table.empty
  rw [h]
  cases last? name pairs <;> rfl

/-- The value of a name in the innermost frame that has one. -/
def nearest? (name : String) : Scope → Option Term
  | [] => none
  | frame :: rest =>
    match last? name frame with
    | some t => some t
    | none => nearest? name rest

/-- The one table that is written to, and the next unused number. -/
structure State where
  globals : Table Term
  supply : Nat

/-- The value of a name: in the frames of the scope first, then in the global table. -/
def State.lookup? (s : State) (scope : Scope) (name : String) : Option Term :=
  match nearest? name scope with
  | some t => some t
  | none => s.globals.get? name

/-- A run that ends with a value or a stop. -/
abbrev Run := EStateM Stop State

def fail {α : Type} (cause : Fault) : Run α := throw (.fault cause)

def ofExcept {α : Type} : Except Fault α → Run α
  | .ok a => pure a
  | .error cause => fail cause

/-- Takes `count` numbers from the supply and gives the first. -/
def reserve (count : Nat) : Run Nat :=
  modifyGet fun s => (s.supply, { s with supply := s.supply + count })

/-- The value of a name as it is now. -/
def lookup (scope : Scope) (name : String) : Run (Option Term) := do
  return (← get).lookup? scope name

/-- Binds a name in the global table. -/
def assign (name : String) (t : Term) : Run Unit :=
  modify fun s => { s with globals := s.globals.put name t }

/-! ## The built-in operations -/

/-- The values of nodes, from left to right. -/
def each (eval : Value → Run Term) : List Value → Run (List Term)
  | [] => return []
  | node :: rest => do
    let t ← eval node
    return t :: (← each eval rest)

/-- The value of the last node, the given one if there are no nodes. -/
def inTurn (eval : Value → Run Term) : (last : Term) → List Value → Run Term
  | last, [] => return last
  | _, node :: rest => do inTurn eval (← eval node) rest

def addTo (total n : Number) : Run Number := do
  match total.add (← reserve 2) n with
  | .ok sum => return sum
  | .error cause => fail (.sum cause n total)

def sum (eval : Value → Run Term) : (total : Number) → List Value → Run Number
  | total, [] => return total
  | total, node :: rest => do
    match ← eval node with
    | .number n => sum eval (← addTo total n) rest
    | t => fail (.notANumber t.plain)

def itemsOf (operation : Builtin) : Term → Run (List Term)
  | .nil => return []
  | .list _ items => return items
  | t => fail (.notAList operation t.plain)

/-- Items as a list, or nil if there are none. -/
def listOrNil : List Term → Term
  | [] => .nil
  | items => .list .square items

/-- What a built-in operation does with its argument nodes. -/
def operation (eval : Value → Run Term) (scope : Scope) : Builtin → List Value → Run Term
  | .add, tail => do return .number (← sum eval (.int 0) tail)
  | .car, [node] => do return (← itemsOf .car (← eval node)).head?.getD .nil
  | .cdr, [node] => do return listOrNil (← itemsOf .cdr (← eval node)).tail
  | .quote, [node] => return .ofNode node
  | .cons, [head, rest] => do return .list .square [.ofNode head, ← eval rest]
  | .choose, [condition, yes, no] => do
    if (← eval condition).plain.isNil then eval no else eval yes
  | .assign, [nameNode, valueNode] => do
    let name ← eval nameNode
    let t ← eval valueNode
    match name with
    | .symbol name => assign name t
    | other => fail (.unassignable other.plain)
    return t
  | .equal, [left, right] => do
    let a ← eval left
    let b ← eval right
    match a.plain.equal b.plain with
    | some same => return if same then .bool true else .nil
    | none => fail .undecided
  | .lambda, params :: body => do
    let names ← ofExcept (Form.parameters params)
    return .closure (← reserve 1) names body scope
  | operation, _ => fail (.argumentCount operation)

/-! ## Evaluation -/

/-- Calls a closure: the arguments have their values in the caller's scope, the body in the
closure's own with a new frame in front. -/
def call (eval : Scope → Value → Run Term) (params : List String) (body : List Value)
    (frames : Scope) (arguments : List Value) (caller : Scope) : Run Term := do
  if arguments.length ≠ params.length then
    fail (.callCount params.length arguments.length)
  let values ← each (eval caller) arguments
  inTurn (eval (params.zip values :: frames)) .nil body

/-- Applies the value of an operator to argument nodes. -/
def apply (eval : Scope → Value → Run Term) (tail : List Value) (scope : Scope) :
    Term → Run Term
  | .closure _ params body frames => call eval params body frames tail scope
  | .symbol name => do
    match ← lookup scope name with
    | some (.closure _ params body frames) => call eval params body frames tail scope
    | _ =>
      match Registry.standard.lookup? name with
      | some builtin => operation (eval scope) scope builtin tail
      | none => fail (.undefinedOperation (.symbol name))
  | other => fail (.undefinedOperation other.plain)

/-- Evaluates one node, with `eval` for the nodes inside. -/
def evaluateWith (eval : Scope → Value → Run Term) (scope : Scope) : Value → Run Term
  | .nil | .null | .list _ [] => return .nil
  | .symbol name => return (← lookup scope name).getD (.symbol name)
  | .list _ (head :: tail) => do
    let operator ← if head.isList then eval scope head else pure (.ofNode head)
    apply eval tail scope operator
  | .host kind parts => fail (.notANode (.host kind parts))
  | node => return .ofNode node

/-- Evaluates a node in a scope, with evaluations nested at most `bound` deep. -/
def evaluate : (bound : Nat) → Scope → Value → Run Term
  | 0 => fun _ _ => throw .exhausted
  | bound + 1 => evaluateWith (evaluate bound)

end Lexical

end SmallLisp
