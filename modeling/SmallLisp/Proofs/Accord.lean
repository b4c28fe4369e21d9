-- Two runs of one program that are to give the very same values and differ in their states only.
-- An accord says which values occur in them, which states belong together and for which faults
-- they may stop. If the few steps that touch a state keep to it, then all operations do, and so
-- does evaluation as a whole, however it announces the nodes that it comes to.
import SmallLisp.Proofs.Judgement

namespace SmallLisp

open Run

/-- What two runs that give the same values have in common. -/
structure Accord where
  value : Value → Prop
  machine : Nat → Prop
  state : State → State → Prop
  fault : Fault → Prop

namespace Accord

variable {A : Accord}

/-- Both runs stop for one reason. -/
def bond (A : Accord) : Bond Unit State State Stop Stop where
  state _ := A.state
  stop _ e e' := e = e' ∧ ∀ f, e = .fault f → A.fault f
  excused _ := False

/-- From states that belong together both runs end in such states, and with one result, of which
`P` holds if it is no stop. -/
def Agree {α : Type} (A : Accord) (P : α → Prop) (m k : Run α) : Prop :=
  A.bond.Coupled (fun _ a b => a = b ∧ P a) () m k

theorem agree_pure {α : Type} {P : α → Prop} {a : α} (h : P a) : A.Agree P (pure a) (pure a) :=
  Bond.coupled_pure ⟨rfl, h⟩

theorem agree_fail {α : Type} {P : α → Prop} {f : Fault} (h : A.fault f) :
    A.Agree (α := α) P (fail f) (fail f) :=
  Bond.coupled_throw ⟨rfl, fun _ hf => by cases hf; exact h⟩

theorem agree_exhaust {α : Type} {P : α → Prop} : A.Agree (α := α) P exhaust exhaust :=
  Bond.coupled_throw ⟨rfl, fun _ hf => by cases hf⟩

theorem Agree.bind {α β : Type} {P : α → Prop} {Q : β → Prop} {m k : Run α} {f g : α → Run β}
    (hm : A.Agree P m k) (hf : ∀ a, P a → A.Agree Q (f a) (g a)) : A.Agree Q (m >>= f) (k >>= g) :=
  Bond.Coupled.bind hm fun _ a _ _ h => h.1 ▸ hf a h.2

/-- What the steps that touch a state have to keep to, for two ways to announce nodes. -/
structure Lawful (A : Accord) (registries : Nat → Registry) (announce announce' : Announcement) :
    Prop where
  nil : A.value .nil
  bool (b : Bool) : A.value (.bool b)
  symbol (name : String) : A.value (.symbol name)
  zero : A.value (.number (.int 0))
  list_iff {b : Brackets} {items : List Value} : A.value (.list b items) ↔ ∀ v ∈ items, A.value v
  closure {c : Closure Value} (hc : A.value (.closure c)) :
    A.machine c.machine ∧ ∀ n ∈ c.body, A.value n
  lookup {s t : State} (hs : A.state s t) (scope : Nat) (name : String) :
    s.store.lookup? scope name = t.store.lookup? scope name ∧
      ∀ v, s.store.lookup? scope name = some v → A.value v
  announced {machine : Nat} {node : Value} (hm : A.machine machine) (hn : A.value node)
    (scope : Nat) :
    A.Agree (fun _ => True) (announce machine node scope) (announce' machine node scope)
  dispatched (name : String) :
    A.Agree (fun _ => True) (record (.dispatched name)) (record (.dispatched name))
  assign (scope : Nat) (name : String) {v : Value} (hv : A.value v) :
    A.Agree (fun _ => True) (Run.assign scope name v) (Run.assign scope name v)
  addTo {total n : Number} (ht : A.value (.number total)) (hn : A.value (.number n)) :
    A.Agree (fun sum => A.value (.number sum)) (Form.addTo total n) (Form.addTo total n)
  makeClosure {machine : Nat} (params : List String) {body : List Value} (scope : Nat)
    (hm : A.machine machine) (hb : ∀ n ∈ body, A.value n) :
    A.Agree (fun c => A.value (.closure c)) (makeClosure params body scope machine)
      (makeClosure params body scope machine)
  enter {c : Closure Value} {vs : List Value} (hc : A.value (.closure c))
    (hvs : ∀ v ∈ vs, A.value v) : A.Agree (fun _ => True) (enter c vs) (enter c vs)
  reported {f : Fault} (hf : f.intended = .invalidArgument ∨ f.intended = .invalidResult) :
    A.fault f
  undecided {a b : Value} (ha : A.value a) (hb : A.value b) (h : a.equal b = none) :
    A.fault .undecided
  undefinedOperation {v : Value} (hv : A.value v) (hopen : ∀ c, v ≠ .closure c)
    (hname : ∀ name, v = .symbol name →
      ∃ machine, A.machine machine ∧ (registries machine).lookup? name = none) :
    A.fault (.undefinedOperation v)

/-- The accord as a judgement, which takes no account of costs. -/
def judgement (A : Accord) : Judgement where
  value := A.value
  machine := A.machine
  holds _ P m k := A.Agree P m k

/-- Calls of the evaluator with parts that may occur. -/
abbrev Admits (A : Accord) : Entry → Prop := A.judgement.Admits

namespace Lawful

variable {registries : Nat → Registry} {announce announce' : Announcement}
  (hA : A.Lawful registries announce announce')

include hA

/-- Both runs find the same under every name. -/
theorem store :
    A.bond.Coupled (fun _ s t => ∀ scope name, s.lookup? scope name = t.lookup? scope name ∧
      ∀ v, s.lookup? scope name = some v → A.value v) () store store :=
  fun _ _ hs => .ok le_rfl hs (hA.lookup hs)

theorem read {machine : Nat} (hm : A.machine machine) (scope : Nat) (name : String) :
    A.Agree A.value (readSymbol announce machine scope name)
      (readSymbol announce' machine scope name) := by
  refine (hA.announced hm (hA.symbol name) scope).bind fun _ _ => ?_
  refine hA.store.bind fun _ s t _ hst => ?_
  obtain ⟨heq, hfound⟩ := hst scope name
  rw [← heq]
  cases hl : s.lookup? scope name with
  | none => exact agree_pure (hA.symbol name)
  | some v => exact agree_pure (hfound v hl)

theorem callee (scope : Nat) (name : String) :
    A.Agree (fun found => ∀ c, found = some c → A.value (.closure c)) (callee scope name)
      (callee scope name) := by
  refine (hA.dispatched name).bind fun _ _ => hA.store.bind fun _ s t _ hst => ?_
  obtain ⟨heq, hfound⟩ := hst scope name
  rw [← heq]
  exact agree_pure fun c hc => hfound _ (calledBy_eq_some_iff.mp hc)

/-- A lawful accord is a lawful judgement. -/
theorem judgement : A.judgement.Lawful registries announce announce' where
  give := agree_pure
  sequence := Agree.bind
  loosen h _ := h
  unpaid h := h
  nil := hA.nil
  bool := hA.bool
  zero := hA.zero
  symbol := hA.symbol
  list_iff := hA.list_iff
  reported hf := agree_fail (hA.reported (Fault.intended_of_isOfOperation hf))
  undecided ha hb h := agree_fail (hA.undecided ha hb h)
  assign := hA.assign
  addTo := hA.addTo
  closure := hA.closure
  announced := hA.announced
  read := hA.read
  callee := hA.callee
  makeClosure := hA.makeClosure
  enter := hA.enter
  undefinedOperation hv hopen hname := agree_fail (hA.undefinedOperation hv hopen hname)

/-- Whatever way the evaluator is entered, the runs agree. -/
theorem entry (bound : Nat) {x : Entry} (hx : A.Admits x) :
    A.Agree A.value (x.runBy registries (evaluateAnnouncing announce registries bound))
      (x.runBy registries (evaluateAnnouncing announce' registries bound)) :=
  hA.judgement.entry (hA.judgement.evaluate agree_exhaust bound) hx

end Lawful

end Accord

end SmallLisp
