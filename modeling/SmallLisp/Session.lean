-- Sessions: machines that share one store, and the requests that a host makes of them. A failing
-- request keeps what it did before it failed, and the session goes on.
import SmallLisp.Evaluate
import SmallLisp.Log
import SmallLisp.Setting

namespace SmallLisp

/-- A machine evaluates programs by a registry, in a global frame. An interpreter announces the
programs it is given, a bare evaluator does not. -/
structure Machine where
  registry : Registry
  traces : Bool
  globals : Nat
  announces : Bool

/-- The machines made so far, known by their positions, and the state they share. -/
structure Session where
  machines : Array Machine
  state : State

/-- What a host can ask for. Machines and frames are given by their numbers. -/
inductive Request where
  /-- A new interpreter with a global frame of its own; without a choice of tracing, the text
  of the trace setting decides. -/
  | interpreter (traces : Option Bool) (setting : Option String)
  /-- A new evaluator, on a given frame or a new one, with a given pair of tables or the
  standard registry. -/
  | evaluator (globals : Option Nat) (traces : Bool)
      (tables : Option (Table Builtin × Table String))
  /-- Evaluates a program in the global frame of the machine. -/
  | eval (machine : Nat) (program : Value)
  /-- Evaluates programs one after the other, for the value of the last. -/
  | evalAll (machine : Nat) (programs : List Value)
  /-- Evaluates a node in a scope. -/
  | evalIn (machine : Nat) (node : Value) (scope : Nat)
  /-- Applies an operator to argument nodes. -/
  | apply (machine : Nat) (head : Value) (tail : List Value) (scope : Nat)
  /-- Runs the operation of a name on argument nodes. -/
  | form (machine : Nat) (name : String) (tail : List Value) (scope : Nat)
  /-- Builds a closure from values that should be texts. -/
  | closure (machine : Nat) (params body : List Value) (scope : Nat)
  /-- Calls a closure. -/
  | invoke (closure : Closure Value) (arguments : List Value) (caller : Nat)
  /-- Makes the frame of a call without the call. -/
  | extend (closure : Closure Value) (values : List Value)
  /-- Makes an empty frame. -/
  | newFrame (outer : Option Nat)
  /-- Binds a name in a frame. -/
  | define (scope : Nat) (name value : Value)
  /-- Binds a name in the root of a scope. -/
  | assign (scope : Nat) (name value : Value)

/-- What a request brings about. -/
inductive Answer where
  | value (v : Value)
  | machine (number : Nat)
  | frame (number : Nat)
  | done

namespace Session

def empty : Session := ⟨#[], ⟨.empty, 0, #[]⟩⟩

instance : Inhabited Session := ⟨empty⟩

/-- The store of the session. -/
def store (s : Session) : Store := s.state.store

/-- The registry of each machine. -/
def registries (s : Session) (machine : Nat) : Registry :=
  (s.machines[machine]?.map Machine.registry).getD .empty

/-- The machines that trace. -/
def traces (s : Session) (machine : Nat) : Bool :=
  (s.machines[machine]?.map Machine.traces).getD false

/-- The global frame of each machine. -/
def globals (s : Session) (machine : Nat) : Nat :=
  (s.machines[machine]?.map Machine.globals).getD 0

/-- The machines that announce the programs they are given. -/
def announces (s : Session) (machine : Nat) : Bool :=
  (s.machines[machine]?.map Machine.announces).getD false

/-- The log of the session's trail. -/
def log (s : Session) : List LogRecord := logOf s.traces s.state.trail

/-- The session with nothing on its trail. -/
def forgetTrail (s : Session) : Session := { s with state := { s.state with trail := #[] } }

/-! ## Requests -/

open Run

/-- A registry from its tables, put on the trail if they make one. -/
def buildRegistry (tables : Option (Table Builtin × Table String)) : Run Registry := do
  let registry ←
    match tables with
    | none => pure .standard
    | some (operations, aliases) => ofExcept (Registry.build operations aliases)
  record (.registryBuilt registry)
  return registry

/-- A new interpreter. -/
def newInterpreter (traces : Bool) : Run Machine := do
  let globals ← newFrame ⟨.empty, none⟩
  return ⟨← buildRegistry none, traces, globals, true⟩

/-- A new evaluator. Its registry comes before its frame. -/
def newEvaluator (globals : Option Nat) (traces : Bool)
    (tables : Option (Table Builtin × Table String)) : Run Machine := do
  let registry ← buildRegistry tables
  let globals ←
    match globals with
    | some frame => pure frame
    | none => newFrame ⟨.empty, none⟩
  return ⟨registry, traces, globals, false⟩

/-- Evaluates a program in the global frame of a machine. -/
def runProgram (s : Session) (bound machine : Nat) (program : Value) : Run Value := do
  if s.announces machine then record (.programGiven program)
  evaluate s.registries bound machine program (s.globals machine)

/-- The texts of parameters; the first value that is no text is a fault. -/
def parameterTexts : (index : Nat) → List Value → Except Fault (List String)
  | _, [] => .ok []
  | index, .symbol name :: rest => do return name :: (← parameterTexts (index + 1) rest)
  | index, other :: _ => .error (.parameterNotText index other)

/-- The run of a request, and what it gives besides new machines. Evaluations nest at most
`bound` deep. -/
def run (s : Session) (bound : Nat) : Request → Run (Answer ⊕ Machine)
  | .interpreter traces setting => do
    return .inr (← newInterpreter (traces.getD (Setting.traceEnabled setting)))
  | .evaluator globals traces tables => do
    return .inr (← newEvaluator globals traces tables)
  | .eval machine program => do
    return .inl (.value (← s.runProgram bound machine program))
  | .evalAll machine programs => do
    return .inl (.value (← evaluateInTurn (s.runProgram bound machine) .nil programs))
  | .evalIn machine node scope => do
    return .inl (.value (← evaluate s.registries bound machine node scope))
  | .apply machine head tail scope => do
    return .inl (.value (← SmallLisp.apply s.registries bound machine head tail scope))
  | .form machine name tail scope => do
    match (s.registries machine).lookup? name with
    | some operation =>
      let eval := (evaluate s.registries bound machine · scope)
      return .inl (.value (← operation.run eval machine scope tail))
    | none => fail (.undefinedOperation (.symbol name))
  | .closure machine params body scope => do
    let names ← ofExcept (parameterTexts 0 params)
    return .inl (.value (.closure (← makeClosure names body scope machine)))
  | .invoke closure arguments caller => do
    return .inl (.value (← closure.invoke (evaluate s.registries bound) arguments caller))
  | .extend closure values => do
    return .inl (.frame (← Run.newFrame (closure.frame values)))
  | .newFrame outer => do
    return .inl (.frame (← Run.newFrame ⟨.empty, outer⟩))
  | .define scope name value =>
    match name with
    | .symbol name => do
      Run.define scope name value
      return .inl .done
    | other => fail (.undefinable other)
  | .assign scope name value =>
    match name with
    | .symbol name => do
      Run.assign scope name value
      return .inl .done
    | other => fail (.unassignable other)

/-- Carries out a request. -/
def perform (s : Session) (bound : Nat) (request : Request) : Except Stop Answer × Session :=
  match s.run bound request s.state with
  | .ok (.inl answer) state => (.ok answer, { s with state })
  | .ok (.inr machine) state =>
    (.ok (.machine s.machines.size), ⟨s.machines.push machine, state⟩)
  | .error stop state => (.error stop, { s with state })

/-! ## Questions -/

/-- The answer to a question about a name: a value that cannot be a name is refused, and one
that is no symbol is found nowhere. -/
def ofName {α : Type} (name : Value) (absent : α) (answer : String → α) : Except Fault α :=
  match name.unkeyable? with
  | some cause => .error (.unkeyable cause)
  | none =>
    match name with
    | .symbol name => .ok (answer name)
    | _ => .ok absent

/-- The nearest value of a name, nil if it is not bound. -/
def get (s : Session) (scope : Nat) (name : Value) : Except Fault Value :=
  ofName name .nil (s.store.get scope)

/-- The nearest frame that binds a name. -/
def find (s : Session) (scope : Nat) (name : Value) : Except Fault (Option Nat) :=
  ofName name none (s.store.find? scope)

/-- The name is bound in the scope. -/
def has (s : Session) (scope : Nat) (name : Value) : Except Fault Bool :=
  ofName name false (s.store.has scope)

/-- The machine's registry knows the name. -/
def knows (s : Session) (machine : Nat) (name : Value) : Except Fault Bool :=
  ofName name false (s.registries machine).knows

/-- The operation that the machine's registry gives a name. -/
def lookup (s : Session) (machine : Nat) (name : Value) : Except Fault Builtin := do
  let answer ← ofName name (.error (.undefinedOperation name)) (s.registries machine).lookup
  answer

/-- Whether two values are equal. -/
def equal (a b : Value) : Except Fault Bool :=
  match a.equal b with
  | some same => .ok same
  | none => .error .undecided

end Session

end SmallLisp
