-- Evaluation. A symbol has its nearest value, or stands for itself; a list calls a closure or a
-- built-in operation; a closure's arguments and body are evaluated by the machine that made it.
-- A bound on the nesting of evaluations makes it total, and running out of it is a stop of its
-- own that no program result can be taken for.
import SmallLisp.Form

namespace SmallLisp

open Run

/-- How a machine evaluates a node in a scope. -/
abbrev Evaluation := (machine : Nat) → (node : Value) → (scope : Nat) → Run Value

/-- Evaluates nodes from left to right and gives all their values. -/
def evaluateEach (eval : Value → Run Value) : List Value → Run (List Value)
  | [] => return []
  | node :: rest => do
    let value ← eval node
    return value :: (← evaluateEach eval rest)

/-- Evaluates nodes one after the other and gives the last value, the given one if there are
no nodes. -/
def evaluateInTurn (eval : Value → Run Value) : (last : Value) → List Value → Run Value
  | last, [] => return last
  | _, node :: rest => do evaluateInTurn eval (← eval node) rest

namespace Closure

/-- A frame in the closure's scope that binds its parameters to values; whatever is left over
on either side is ignored. -/
def frame (c : Closure Value) (values : List Value) : Frame :=
  ⟨.ofList (c.params.zip values), some c.scope⟩

/-- Calls the closure: evaluates the arguments in the caller's scope, binds them in a new frame
and evaluates the body there. -/
def invoke (eval : Evaluation) (c : Closure Value) (arguments : List Value) (caller : Nat) :
    Run Value := do
  if arguments.length ≠ c.params.length then
    fail (.callCount c.params.length arguments.length)
  let values ← evaluateEach (eval c.machine · caller) arguments
  let frame ← newFrame (c.frame values)
  record (.closureCalled c values)
  evaluateInTurn (eval c.machine · frame) .nil c.body

end Closure

/-- Applies an operator to argument nodes. A list in operator position is evaluated once; a
symbol bound to a closure calls it, any other symbol is looked up in the machine's registry. -/
def applyWith (registries : Nat → Registry) (eval : Evaluation) (machine : Nat) (head : Value)
    (tail : List Value) (scope : Nat) : Run Value := do
  let operator ← if head.isList then eval machine head scope else pure head
  match operator with
  | .closure c => c.invoke eval tail scope
  | .symbol name =>
    record (.dispatched name)
    match (← store).lookup? scope name with
    | some (.closure c) => c.invoke eval tail scope
    | _ =>
      match (registries machine).lookup? name with
      | some operation => operation.run (eval machine · scope) machine scope tail
      | none => fail (.undefinedOperation (.symbol name))
  | other => fail (.undefinedOperation other)

/-- Evaluates one node, with `eval` for the nodes inside. -/
def evaluateWith (registries : Nat → Registry) (eval : Evaluation) : Evaluation :=
  fun machine node scope => do
    record (.evaluated machine node scope)
    match node with
    | .nil | .null => return .nil
    | .symbol name => return ((← store).lookup? scope name).getD node
    | .bool _ | .number _ | .closure _ => return node
    | .list _ [] => return .nil
    | .list _ (head :: tail) => applyWith registries eval machine head tail scope
    | .host .. => fail (.notANode node)

/-- Evaluates a node by one of the machines, whose registries are given, with evaluations
nested at most `bound` deep. -/
def evaluate (registries : Nat → Registry) : (bound : Nat) → Evaluation
  | 0 => fun _ _ _ => exhaust
  | bound + 1 => fun machine node scope =>
    evaluateWith registries (evaluate registries bound) machine node scope

theorem evaluate_succ (registries : Nat → Registry) (bound machine : Nat) (node : Value)
    (scope : Nat) : evaluate registries (bound + 1) machine node scope =
      evaluateWith registries (evaluate registries bound) machine node scope := rfl

/-- Applies an operator, with evaluations nested at most `bound` deep. -/
def apply (registries : Nat → Registry) (bound : Nat) :=
  applyWith registries (evaluate registries bound)

end SmallLisp
