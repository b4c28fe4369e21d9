-- Evaluation with an announcement of each node that a machine comes to. To announce is to put the
-- evaluation on the trail, or to do something else; what follows does not depend on it.
import SmallLisp.Proofs.Correspondence

namespace SmallLisp

open Run

/-- What a machine does when it comes to a node in a scope. -/
abbrev Announcement := (machine : Nat) → (node : Value) → (scope : Nat) → Run Unit

/-- Evaluates a node that has been announced. -/
def evaluateAnnounced (registries : Nat → Registry) (eval : Evaluation) : Evaluation :=
  fun machine node scope =>
    match node with
    | .nil | .null => return .nil
    | .symbol name => do return ((← store).lookup? scope name).getD node
    | .bool _ | .number _ | .closure _ => return node
    | .list _ [] => return .nil
    | .list _ (head :: tail) => applyWith registries eval machine head tail scope
    | .host .. => fail (.notANode node)

/-- Evaluation that announces each node, those inside as well. -/
def evaluateAnnouncing (announce : Announcement) (registries : Nat → Registry) :
    (bound : Nat) → Evaluation
  | 0 => fun _ _ _ => exhaust
  | bound + 1 => fun machine node scope => do
    announce machine node scope
    evaluateAnnounced registries (evaluateAnnouncing announce registries bound) machine node scope

/-- Puts the evaluation on the trail, whichever machine it is. -/
def announceAll : Announcement := fun machine node scope => record (.evaluated machine node scope)

theorem evaluate_eq_announcing (registries : Nat → Registry) (bound : Nat) :
    evaluate registries bound = evaluateAnnouncing announceAll registries bound := by
  induction bound with
  | zero => rfl
  | succ bound ih =>
    funext machine node scope
    rw [evaluate_succ, ih]
    rfl

/-- The run of an entry by some evaluation. -/
def Entry.runBy (registries : Nat → Registry) (eval : Evaluation) : Entry → Run Value
  | evaluate machine node scope => eval machine node scope
  | apply machine head tail scope => applyWith registries eval machine head tail scope
  | form operation machine tail scope => operation.run (eval machine · scope) machine scope tail
  | invoke closure arguments caller => closure.invoke eval arguments caller

theorem Entry.run_eq (registries : Nat → Registry) (bound : Nat) (x : Entry) :
    x.run registries bound =
      x.runBy registries (evaluateAnnouncing announceAll registries bound) := by
  rw [← evaluate_eq_announcing]
  cases x <;> rfl

end SmallLisp
