-- Runs: what a step of a program does to the store, and how it ends. A run keeps a trail of all
-- that happens in it, whoever listens; a run that fails keeps the store and the trail as they
-- were at its failure. How deep evaluations may nest is a number that a run is given, which stands
-- in the place of the stack of calls that a host has.
import SmallLisp.Registry
import SmallLisp.Store

namespace SmallLisp

/-- Something that happens in a run. -/
inductive Event where
  /-- A registry is built for a new machine. -/
  | registryBuilt (registry : Registry)
  /-- A program is given to an interpreter. -/
  | programGiven (program : Value)
  /-- A machine starts to evaluate a node in a scope. -/
  | evaluated (machine : Nat) (node : Value) (scope : Nat)
  /-- A symbol in operator position is resolved. -/
  | dispatched (name : String)
  /-- An assignment takes effect in a root frame. -/
  | assigned (frame : Nat) (name : String)
  /-- A closure is made. -/
  | closureMade (closure : Closure Value)
  /-- A closure is called: its arguments are evaluated and bound, its body comes next. -/
  | closureCalled (closure : Closure Value) (arguments : List Value)

/-- All that a run can change: the store, the next unused number for closures and NaNs, and
the trail. -/
structure State where
  store : Store
  supply : Nat
  trail : Array Event
  deriving Inhabited

/-- Why a run ends without a value: it fails, or its bound on nesting is used up. -/
inductive Stop where
  | fault (cause : Fault)
  | exhausted

/-- A run that may change the state and ends with a value or a stop. -/
abbrev Run := EStateM Stop State

namespace Run

/-- Ends the run with a fault. -/
def fail {α : Type} (cause : Fault) : Run α := throw (.fault cause)

/-- Ends the run as out of bound. -/
def exhaust {α : Type} : Run α := throw .exhausted

/-- A result that may be a fault, as a run. -/
def ofExcept {α : Type} : Except Fault α → Run α
  | .ok a => pure a
  | .error cause => fail cause

/-- Adds an event to the trail. -/
def record (e : Event) : Run Unit := modify fun s => { s with trail := s.trail.push e }

/-- The store as it is now. -/
def store : Run Store := do return (← get).store

/-- Takes `count` numbers from the supply and gives the first. -/
def reserve (count : Nat) : Run Nat :=
  modifyGet fun s => (s.supply, { s with supply := s.supply + count })

/-- Makes a frame and gives its number. -/
def newFrame (f : Frame) : Run Nat :=
  modifyGet fun s => (s.store.size, { s with store := s.store.add f })

/-- Binds a name in the root of a scope. -/
def assign (scope : Nat) (name : String) (value : Value) : Run Unit := do
  let root := (← store).root scope
  modify fun s => { s with store := s.store.assign scope name value }
  record (.assigned root name)

/-- Binds a name in a frame. -/
def define (frame : Nat) (name : String) (value : Value) : Run Unit :=
  modify fun s => { s with store := s.store.define frame name value }

/-- Makes a closure. -/
def makeClosure (params : List String) (body : List Value) (scope machine : Nat) :
    Run (Closure Value) := do
  let closure : Closure Value := ⟨← reserve 1, params, body, scope, machine⟩
  record (.closureMade closure)
  return closure

end Run

end SmallLisp
