-- Correspondences between two runs of the evaluator. A correspondence says which states, scopes
-- and nodes of two runs stand for each other. If the few steps that touch a state respect it,
-- then every operation does, and so does evaluation as a whole: the two runs end alike.
import SmallLisp.Evaluate
import SmallLisp.Proofs.Alike
import SmallLisp.Proofs.Coupled

namespace SmallLisp

open Run

/-! ## Ways into the evaluator -/

namespace Run

/-- Makes the frame of a call whose arguments have been evaluated. -/
def enter (c : Closure Value) (values : List Value) : Run Nat := do
  let frame ← newFrame (c.frame values)
  record (.closureCalled c values)
  return frame

/-- The state that a run ends in, with a value or without. -/
def endState {ε σ α : Type} : EStateM.Result ε σ α → σ
  | .ok _ s | .error _ s => s

/-- A run has not been cut off by its bound: it has a value or a fault. -/
def Finished {σ α : Type} (r : EStateM.Result Stop σ α) : Prop := ∀ s, r ≠ .error .exhausted s

/-- The value that a run ends with, if any. -/
def endValue? {ε σ α : Type} : EStateM.Result ε σ α → Option α
  | .ok a _ => some a
  | .error _ _ => none

end Run

theorem Closure.invoke_eq (eval : Evaluation) (c : Closure Value) (arguments : List Value)
    (caller : Nat) (h : arguments.length = c.params.length) :
    c.invoke eval arguments caller = (do
      let values ← evaluateEach (eval c.machine · caller) arguments
      let frame ← enter c values
      evaluateInTurn (eval c.machine · frame) .nil c.body) := by
  unfold invoke enter
  simp [h]

theorem Closure.invoke_of_ne (eval : Evaluation) (c : Closure Value) (arguments : List Value)
    (caller : Nat) (h : arguments.length ≠ c.params.length) :
    c.invoke eval arguments caller = fail (.callCount c.params.length arguments.length) := by
  unfold invoke
  rw [if_pos h]
  rfl

/-- What application does with an operator that needs no evaluation any more. -/
def operate (registries : Nat → Registry) (eval : Evaluation) (machine : Nat) (tail : List Value)
    (scope : Nat) (operator : Value) : Run Value := do
  match operator with
  | .closure c => c.invoke eval tail scope
  | .symbol name =>
    record (.dispatched name)
    match (← store).lookup? scope name with
    | some (.closure c) => c.invoke eval tail scope
    | _ =>
      match (registries machine).lookup? name with
      | some operation => operation.run (eval machine · scope) machine scope tail
      | none => fail (.undefinedOperation (.symbol name))
  | other => fail (.undefinedOperation other)

theorem applyWith_eq (registries : Nat → Registry) (eval : Evaluation) (machine : Nat)
    (head : Value) (tail : List Value) (scope : Nat) :
    applyWith registries eval machine head tail scope =
      (if head.isList then eval machine head scope else pure head) >>=
        operate registries eval machine tail scope := by
  unfold applyWith
  split <;> rfl

/-- A symbol that is bound to no closure has its operation run. -/
theorem operate_of_lookup? {registries : Nat → Registry} {machine scope : Nat} {name : String}
    {operation : Builtin} {s : State} (eval : Evaluation) (tail : List Value)
    (hreg : (registries machine).lookup? name = some operation)
    (hbound : ∀ c, s.store.lookup? scope name ≠ some (.closure c)) :
    operate registries eval machine tail scope (.symbol name) s =
      operation.run (eval machine · scope) machine scope tail
        { s with trail := s.trail.push (.dispatched name) } := by
  show (match s.store.lookup? scope name with
    | some (.closure c) => c.invoke eval tail scope
    | _ =>
      match (registries machine).lookup? name with
      | some operation => operation.run (eval machine · scope) machine scope tail
      | none => fail (.undefinedOperation (.symbol name)))
        { s with trail := s.trail.push (.dispatched name) } = _
  rw [hreg]
  cases hl : s.store.lookup? scope name with
  | none => rfl
  | some v =>
    cases v with
    | closure c => exact absurd hl (hbound c)
    | _ => rfl

/-- A list that is no empty one is an application. -/
theorem evaluate_list (registries : Nat → Registry) (bound machine : Nat) (b : Brackets)
    (head : Value) (tail : List Value) (scope : Nat) (s : State) :
    evaluate registries (bound + 1) machine (.list b (head :: tail)) scope s =
      apply registries bound machine head tail scope
        { s with trail := s.trail.push (.evaluated machine (.list b (head :: tail)) scope) } := rfl

/-- A call of the evaluator from outside. -/
inductive Entry where
  | evaluate (machine : Nat) (node : Value) (scope : Nat)
  | apply (machine : Nat) (head : Value) (tail : List Value) (scope : Nat)
  /-- A built-in operation by itself, under whatever name. -/
  | form (operation : Builtin) (machine : Nat) (tail : List Value) (scope : Nat)
  | invoke (closure : Closure Value) (arguments : List Value) (caller : Nat)

/-- The run of an entry, with evaluations nested at most `bound` deep. -/
def Entry.run (registries : Nat → Registry) (bound : Nat) : Entry → Run Value
  | evaluate machine node scope => SmallLisp.evaluate registries bound machine node scope
  | apply machine head tail scope => SmallLisp.apply registries bound machine head tail scope
  | form operation machine tail scope =>
    operation.run (SmallLisp.evaluate registries bound machine · scope) machine scope tail
  | invoke closure arguments caller =>
    closure.invoke (SmallLisp.evaluate registries bound) arguments caller

/-! ## Faults -/

/-- Faults that two corresponding runs raise at the same place, with what is known there. -/
inductive Raised (L : Likeness) (registries : Nat → Registry) : Fault → Fault → Prop
  | notANode {v v' : Value} (h : v.Alike L v') : Raised L registries (.notANode v) (.notANode v')
  | argumentCount (operation : Builtin) :
      Raised L registries (.argumentCount operation) (.argumentCount operation)
  | parametersNotList {v v' : Value} (h : v.Alike L v') :
      Raised L registries (.parametersNotList v) (.parametersNotList v')
  | parameterNotSymbol {v v' : Value} (h : v.Alike L v') :
      Raised L registries (.parameterNotSymbol v) (.parameterNotSymbol v')
  | callCount (required given : Nat) :
      Raised L registries (.callCount required given) (.callCount required given)
  | unassignable {v v' : Value} (h : v.Alike L v') :
      Raised L registries (.unassignable v) (.unassignable v')
  | notAList (operation : Builtin) {v v' : Value} (h : v.Alike L v') :
      Raised L registries (.notAList operation v) (.notAList operation v')
  | notANumber {v v' : Value} (h : v.Alike L v') :
      Raised L registries (.notANumber v) (.notANumber v')
  | sum {cause : SumFault} {n n' total total' : Number} (label : Nat) (h : n.Alike L.label n')
      (ht : total.Alike L.label total') (unaddable : total.add label n = .error cause) :
      Raised L registries (.sum cause n total) (.sum cause n' total')
  | undecided {a a' b b' : Value} (ha : a.Alike L a') (hb : b.Alike L b')
      (unequal : a.equal b = none) : Raised L registries .undecided .undecided
  | undefinedOperation {v v' : Value} (h : v.Alike L v') (open_ : ∀ c, v ≠ .closure c)
      (unknown : ∀ name, v = .symbol name → ∃ machine, (registries machine).lookup? name = none) :
      Raised L registries (.undefinedOperation v) (.undefinedOperation v')

variable {L : Likeness} {registries registries' : Nat → Registry}

theorem Raised.intended_eq {f f' : Fault} (h : Raised L registries f f') :
    f.intended = f'.intended := by
  cases h with
  | @sum cause => cases cause <;> rfl
  | _ => rfl

/-- The wording shows a value by its printed form only. -/
theorem Raised.wording_eq {f f' : Fault} (h : Raised L registries f f') :
    f.wording = f'.wording := by
  delta Fault.wording
  cases h with
  | argumentCount | callCount | undecided => rfl
  | sum _ h ht =>
    dsimp only
    unfold Fault.sumMessage
    rw [h.text_eq, ht.text_eq]
  | notANode h | parametersNotList h | parameterNotSymbol h | unassignable h | notAList _ h
  | notANumber h | undefinedOperation h =>
    dsimp only
    rw [h.text_eq]

/-- The host is ready to write the one wording if it is ready to write the other. -/
theorem Raised.isWritable_eq {f f' : Fault} (h : Raised L registries f f') :
    f.isWritable = f'.isWritable := by
  unfold Fault.isWritable
  cases h with
  | argumentCount | callCount | undecided => rfl
  | @sum cause _ _ _ _ _ h ht =>
    cases cause with
    | unaddable =>
      simp only [Fault.shown, List.all_cons, (Value.Alike.number h).isWritable_eq,
        (Value.Alike.number ht).isWritable_eq, List.all_nil]
    | _ => rfl
  | notANode h | parametersNotList h | parameterNotSymbol h | unassignable h | notAList _ h
  | notANumber h | undefinedOperation h =>
    simp only [Fault.shown, List.all_cons, h.isWritable_eq, List.all_nil]

theorem Raised.kind_eq {f f' : Fault} (h : Raised L registries f f') : f.kind = f'.kind := by
  unfold Fault.kind
  rw [h.isWritable_eq, h.intended_eq]

theorem Raised.message_eq {f f' : Fault} (h : Raised L registries f f') :
    f.message = f'.message := by
  unfold Fault.message
  rw [h.isWritable_eq, h.wording_eq]

/-- Stops of two corresponding runs. -/
inductive StopsAlike (L : Likeness) (registries : Nat → Registry) : Stop → Stop → Prop
  | fault {f f' : Fault} (h : Raised L registries f f') :
      StopsAlike L registries (.fault f) (.fault f')
  | exhausted : StopsAlike L registries .exhausted .exhausted

/-- Ends of two runs that a user cannot tell apart: related values, or faults of one kind with one
message. -/
inductive EndsAlike {σ τ α β : Type} (A : α → β → Prop) :
    EStateM.Result Stop σ α → EStateM.Result Stop τ β → Prop
  | value {a : α} {b : β} {s : σ} {t : τ} (h : A a b) : EndsAlike A (.ok a s) (.ok b t)
  | fault {f f' : Fault} {s : σ} {t : τ} (kind : f.kind = f'.kind)
      (message : f.message = f'.message) :
      EndsAlike A (.error (.fault f) s) (.error (.fault f') t)
  | exhausted {s : σ} {t : τ} : EndsAlike A (.error .exhausted s) (.error .exhausted t)

theorem EndsAlike.finished_iff {σ τ α β : Type} {A : α → β → Prop}
    {r : EStateM.Result Stop σ α} {r' : EStateM.Result Stop τ β} (h : EndsAlike A r r') :
    Finished r ↔ Finished r' := by
  cases h <;> simp [Finished]

theorem StopsAlike.ends {σ τ α β : Type} {A : α → β → Prop} {e e' : Stop} {s : σ} {t : τ}
    (h : StopsAlike L registries e e') : EndsAlike A (.error e s) (.error e' t) := by
  cases h with
  | fault h => exact .fault h.kind_eq h.message_eq
  | exhausted => exact .exhausted

/-! ## Correspondences -/

/-- Which parts of two runs stand for each other, as seen from a world. -/
structure Correspondence (W : Type) where
  like : W → Likeness
  scope : W → Nat → Nat → Prop
  /-- Nodes that may be evaluated, each with the scope for it. -/
  node : W → Value → Nat → Value → Nat → Prop
  machine : Nat → Nat → Prop
  state : W → State → State → Prop
  excused : Stop → Prop

namespace Correspondence

variable {W : Type} [Preorder W]

/-- The values of two runs are alike. -/
def value (C : Correspondence W) (w : W) (v v' : Value) : Prop := v.Alike (C.like w) v'

/-- Nodes of a list stand for each other one by one. -/
def nodes (C : Correspondence W) (w : W) (e e' : Nat) (ns ns' : List Value) : Prop :=
  List.Forall₂ (fun n n' => C.node w n e n' e') ns ns'

/-- The bond of the correspondence; the registries are those of the first run. -/
def bond (C : Correspondence W) (registries : Nat → Registry) : Bond W State State Stop Stop where
  state := C.state
  stop w := StopsAlike (C.like w) registries
  excused := C.excused

/-- What the steps that touch a state have to respect. -/
structure Lawful (C : Correspondence W) (registries registries' : Nat → Registry) : Prop where
  label_mono {w w' : W} (h : w ≤ w') (l l' : Nat) :
    (C.like w).label l l' → (C.like w').label l l'
  tie_mono {w w' : W} (h : w ≤ w') (c c' : Closure Value) :
    (C.like w).tie c c' → (C.like w').tie c c'
  scope_mono {w w' : W} (h : w ≤ w') (e e' : Nat) : C.scope w e e' → C.scope w' e e'
  node_mono {w w' : W} (h : w ≤ w') (n : Value) (e : Nat) (n' : Value) (e' : Nat) :
    C.node w n e n' e' → C.node w' n e n' e'
  oneToOne (w : W) : OneToOne (C.like w).label
  node_alike {w : W} {n n' : Value} {e e' : Nat} : C.node w n e n' e' → C.value w n n'
  node_items {w : W} {b : Brackets} {items items' : List Value} {e e' : Nat} :
    C.node w (.list b items) e (.list b items') e' → C.nodes w e e' items items'
  machine_of_tie {w : W} {c c' : Closure Value} :
    (C.like w).tie c c' → C.machine c.machine c'.machine
  registry {m m' : Nat} (h : C.machine m m') (name : String) :
    (registries m).lookup? name = (registries' m').lookup? name ∨
      (registries m).lookup? name = none ∧
        C.excused (.fault (.undefinedOperation (.symbol name)))
  lookup {w : W} {s t : State} {e e' : Nat} (name : String) (hs : C.state w s t)
    (he : C.scope w e e') :
    Option.Rel (C.value w) (s.store.lookup? e name) (t.store.lookup? e' name)
  evaluated {w : W} {m m' e e' : Nat} {n n' : Value} (hm : C.machine m m') (he : C.scope w e e')
    (hn : C.node w n e n' e') :
    (C.bond registries).Coupled (fun _ _ _ => True) w (record (.evaluated m n e))
      (record (.evaluated m' n' e'))
  dispatched (w : W) (name : String) :
    (C.bond registries).Coupled (fun _ _ _ => True) w (record (.dispatched name))
      (record (.dispatched name))
  assign {w : W} {e e' : Nat} (name : String) {v v' : Value} (he : C.scope w e e')
    (hv : C.value w v v') :
    (C.bond registries).Coupled (fun _ _ _ => True) w (Run.assign e name v) (Run.assign e' name v')
  labels (w : W) :
    (C.bond registries).Coupled
      (fun w l l' => (C.like w).label l l' ∧ (C.like w).label (l + 1) (l' + 1)) w (reserve 2)
      (reserve 2)
  makeClosure {w : W} {e e' m m' : Nat} (params : List String) {body body' : List Value}
    (he : C.scope w e e') (hm : C.machine m m') (hb : C.nodes w e e' body body') :
    (C.bond registries).Coupled (fun w c c' => C.value w (.closure c) (.closure c')) w
      (makeClosure params body e m) (makeClosure params body' e' m')
  enter {w : W} {c c' : Closure Value} {vs vs' : List Value}
    (hc : C.value w (.closure c) (.closure c')) (hlen : vs.length = c.params.length)
    (hvs : List.Forall₂ (C.value w) vs vs') :
    (C.bond registries).Coupled
      (fun w f f' => C.scope w f f' ∧ C.nodes w f f' c.body c'.body) w (enter c vs) (enter c' vs')

variable {C : Correspondence W} {w : W}

theorem Lawful.value_mono (hC : C.Lawful registries registries') {w' : W} (hw : w ≤ w')
    {v v' : Value} (h : C.value w v v') : C.value w' v v' :=
  h.mono (hC.label_mono hw) (hC.tie_mono hw)

theorem Lawful.nodes_mono (hC : C.Lawful registries registries') {w' : W} (hw : w ≤ w')
    {e e' : Nat} {ns ns' : List Value} (h : C.nodes w e e' ns ns') : C.nodes w' e e' ns ns' :=
  h.imp fun _ _ => hC.node_mono hw _ _ _ _

theorem coupled_fail {α β : Type} {A : W → α → β → Prop} {f f' : Fault}
    (h : Raised (C.like w) registries f f') :
    (C.bond registries).Coupled A w (fail f) (fail f') :=
  Bond.coupled_throw (.fault h)

/-- Two ways to evaluate nodes in two scopes, alike from world `w` on. -/
def EvaluatesAlike (C : Correspondence W) (registries : Nat → Registry) (w : W) (e e' : Nat)
    (eval eval' : Value → Run Value) : Prop :=
  ∀ w', w ≤ w' → ∀ n n', C.node w' n e n' e' →
    (C.bond registries).Coupled C.value w' (eval n) (eval' n')

theorem EvaluatesAlike.mono {e e' : Nat} {eval eval' : Value → Run Value} {w' : W} (hw : w ≤ w')
    (h : C.EvaluatesAlike registries w e e' eval eval') :
    C.EvaluatesAlike registries w' e e' eval eval' :=
  fun w'' hw' => h w'' (hw.trans hw')

end Correspondence

end SmallLisp
