-- Invocations of a wrong shape. Once its operator is resolved, an invocation with argument nodes that
-- do not fit is refused before any of them is evaluated and before anything is made. In all other
-- invocations an invalid argument is reported only where one is by an evaluation inside.
import SmallLisp.Proofs.Judgement

namespace SmallLisp

open Run

/-! ## Operators -/

/-- What an invocation calls. -/
inductive Operator where
  | builtin (operation : Builtin)
  | closure (c : Closure Value)

/-- Calls the operator with argument nodes. -/
def Operator.run (eval : Evaluation) (machine scope : Nat) (tail : List Value) :
    Operator → Run Value
  | builtin operation => operation.run (eval machine · scope) machine scope tail
  | closure c => c.invoke eval tail scope

/-- A value in operator position stands for an operator: a closure for itself, a symbol for the
closure that it is bound to, any other symbol for the operation of this name. To resolve a symbol
leaves a mark on the trail. -/
inductive StandsFor (registries : Nat → Registry) (machine scope : Nat) :
    Value → State → Operator → State → Prop
  | closure (c : Closure Value) (s : State) :
      StandsFor registries machine scope (.closure c) s (.closure c) s
  | called {name : String} {s : State} {c : Closure Value}
      (h : s.store.lookup? scope name = some (.closure c)) :
      StandsFor registries machine scope (.symbol name) s (.closure c)
        { s with trail := s.trail.push (.dispatched name) }
  | named {name : String} {s : State} {operation : Builtin}
      (hbound : ∀ c, s.store.lookup? scope name ≠ some (.closure c))
      (h : (registries machine).lookup? name = some operation) :
      StandsFor registries machine scope (.symbol name) s (.builtin operation)
        { s with trail := s.trail.push (.dispatched name) }

/-- The head of an invocation is resolved to an operator: as it stands, or by its value if it is a
list. The state changes from the first to the second on the way. -/
inductive Resolves (registries : Nat → Registry) (eval : Evaluation) (machine scope : Nat) :
    Value → State → Operator → State → Prop
  | direct {head : Value} {s t : State} {op : Operator}
      (h : StandsFor registries machine scope head s op t) :
      Resolves registries eval machine scope head s op t
  | computed {b : Brackets} {items : List Value} {s u t : State} {v : Value} {op : Operator}
      (heval : eval machine (.list b items) scope s = .ok v u)
      (h : StandsFor registries machine scope v u op t) :
      Resolves registries eval machine scope (.list b items) s op t

section

variable {registries : Nat → Registry} {machine scope : Nat} {s t : State} {op : Operator}

theorem StandsFor.isList_eq_false {v : Value} (h : StandsFor registries machine scope v s op t) :
    v.isList = false := by
  cases h <;> rfl

theorem StandsFor.operate_eq {v : Value} (h : StandsFor registries machine scope v s op t)
    (eval : Evaluation) (tail : List Value) :
    operate registries eval machine tail scope v s = op.run eval machine scope tail t := by
  cases h with
  | closure c s => rfl
  | @called name s c h =>
    have hcallee : callee scope name s =
        .ok (some c) { s with trail := s.trail.push (.dispatched name) } :=
      congrArg (fun v => EStateM.Result.ok (calledBy v) _) h
    rw [operate_symbol, bind_of_ok hcallee]
    rfl
  | named hbound h => exact operate_of_lookup? eval tail h hbound

/-- An invocation does what its operator does. -/
theorem Resolves.applyWith_eq {eval : Evaluation} {head : Value}
    (h : Resolves registries eval machine scope head s op t) (tail : List Value) :
    applyWith registries eval machine head tail scope s = op.run eval machine scope tail t := by
  rw [SmallLisp.applyWith_eq]
  cases h with
  | direct h =>
    rw [if_neg (by simp [h.isList_eq_false])]
    exact h.operate_eq eval tail
  | @computed b items s u t v op heval h =>
    show (eval machine (.list b items) scope >>= _) s = _
    rw [bind_of_ok heval]
    exact h.operate_eq eval tail

/-- What an invocation does whose operator needs no evaluation. -/
theorem evaluate_invocation (registries : Nat → Registry) (bound machine : Nat) {b : Brackets}
    {head : Value} (tail : List Value) (h : StandsFor registries machine scope head
      { s with trail := s.trail.push (.evaluated machine (.list b (head :: tail)) scope) } op t) :
    evaluate registries (bound + 1) machine (.list b (head :: tail)) scope s =
      op.run (evaluate registries bound) machine scope tail t := by
  rw [evaluate_list]
  exact (Resolves.direct h).applyWith_eq tail

end

/-! ## Shapes -/

/-- What stands in the place of the parameters of a `lambda` is not written by the host. -/
def Operator.Unwritable : Operator → List Value → Prop
  | builtin .lambda, params :: _ => params.isWritable = false
  | _, _ => False

/-- The fault of an invocation of a wrong shape, which shows at most the parameters of a `lambda`. -/
structure Operator.RefusedBy (op : Operator) (tail : List Value) (cause : Fault) : Prop where
  intended : cause.intended = .invalidArgument
  unwritable : cause.isWritable = false → op.Unwritable tail

theorem Operator.RefusedBy.kind {op : Operator} {tail : List Value} {cause : Fault}
    (h : op.RefusedBy tail cause) :
    cause.kind = .invalidArgument ∨ cause.kind = .badValue ∧ op.Unwritable tail := by
  rcases cause.kind_eq_or with hkind | ⟨hwritable, hkind⟩
  · exact .inl (hkind.trans h.intended)
  · exact .inr ⟨hkind, h.unwritable hwritable⟩

/-- The first run means to report an invalid argument only where the second, in which no evaluation
shows its faults, is cut off. -/
structure Blameless {α : Type} (m k : Run α) : Prop where
  value : ∀ {s a t}, m s = .ok a t → k s = .ok a t
  fault : ∀ {s f t}, m s = .error (.fault f) t → f.intended = .invalidArgument →
    k s = .error .exhausted t

section

variable {α β : Type} {m k : Run α}

theorem Blameless.bind {f g : α → Run β} (hm : Blameless m k) (hf : ∀ a, Blameless (f a) (g a)) :
    Blameless (m >>= f) (k >>= g) where
  value {s b u} h := by
    cases hr : m s with
    | ok a t =>
      rw [bind_of_ok hr] at h
      rw [bind_of_ok (hm.value hr)]
      exact (hf a).value h
    | error stop t =>
      rw [bind_of_error hr] at h
      cases h
  fault {s f u} h hkind := by
    cases hr : m s with
    | ok a t =>
      rw [bind_of_ok hr] at h
      rw [bind_of_ok (hm.value hr)]
      exact (hf a).fault h hkind
    | error stop t =>
      rw [bind_of_error hr] at h
      cases h
      exact bind_of_error (hm.fault hr hkind)

end

/-! ## Operations on nodes that fit -/

section

variable {eval eval' : Value → Run Value} {tail : List Value}

variable (heval : ∀ n, Blameless (eval n) (eval' n))

include heval

end

end SmallLisp
