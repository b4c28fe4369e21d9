-- Judgements about two runs of one program. A judgement says that two runs go together, that what
-- they give has a property, and what they cost. If it can be composed, and holds of the few steps
-- that touch a state, then it holds of every operation, at the cost of the argument nodes, each
-- counted once; and it holds of evaluation as a whole, if costs do not matter to it.
import Mathlib.Algebra.GroupWithZero.Nat
import SmallLisp.Proofs.Announcement

namespace SmallLisp

open Run

/-! ## One run after another -/

namespace Run

variable {α β : Type} {m : Run α} {f : α → Run β} {s t : State}

theorem bind_of_ok {a : α} (h : m s = .ok a t) : (m >>= f) s = f a t := by
  show EStateM.bind m f s = f a t
  unfold EStateM.bind
  rw [h]

theorem bind_of_error {stop : Stop} (h : m s = .error stop t) : (m >>= f) s = .error stop t := by
  show EStateM.bind m f s = .error stop t
  unfold EStateM.bind
  rw [h]

end Run

/-! ## Reading a symbol, as a node and as an operator -/

/-- The closure that an operator with this value calls. -/
def calledBy : Option Value → Option (Closure Value)
  | some (.closure c) => some c
  | _ => none

theorem calledBy_eq_some_iff {v : Option Value} {c : Closure Value} :
    calledBy v = some c ↔ v = some (.closure c) := by
  rcases v with _ | (_ | _ | _ | _ | _ | _ | _ | _) <;> simp [calledBy]

/-- The closure that a symbol in operator position calls, if it is bound to one. -/
def callee (scope : Nat) (name : String) : Run (Option (Closure Value)) := do
  record (.dispatched name)
  return calledBy ((← store).lookup? scope name)

/-- What a symbol in operator position does that calls no closure. -/
def runNamed (registries : Nat → Registry) (eval : Evaluation) (machine : Nat)
    (tail : List Value) (scope : Nat) (name : String) : Run Value :=
  match (registries machine).lookup? name with
  | some operation => operation.run (eval machine · scope) machine scope tail
  | none => fail (.undefinedOperation (.symbol name))

theorem operate_symbol (registries : Nat → Registry) (eval : Evaluation) (machine : Nat)
    (tail : List Value) (scope : Nat) (name : String) :
    operate registries eval machine tail scope (.symbol name) = (do
      match ← callee scope name with
      | some c => c.invoke eval tail scope
      | none => runNamed registries eval machine tail scope name) := by
  unfold operate callee runNamed
  simp only [bind_assoc]
  congr 1
  funext _
  congr 1
  funext s
  cases s.lookup? scope name with
  | none => rfl
  | some v => cases v <;> rfl

/-- The value of a symbol, which is announced first. -/
def readSymbol (announce : Announcement) (machine scope : Nat) (name : String) : Run Value := do
  announce machine (.symbol name) scope
  return ((← store).lookup? scope name).getD (.symbol name)

/-- The fault is one that operations and calls report. Only a host can fail to define a name: what a
call binds are names already. -/
def Fault.isOfOperation : Fault → Bool
  | undefinable _ => false
  | cause => cause.intended = .invalidArgument || cause.intended = .invalidResult

theorem Fault.intended_of_isOfOperation {f : Fault} (h : f.isOfOperation = true) :
    f.intended = .invalidArgument ∨ f.intended = .invalidResult := by
  unfold isOfOperation at h
  split at h
  · cases h
  · simpa using h

/-! ## Judgements -/

/-- What two runs have in common that go together. -/
structure Judgement where
  /-- Values that may occur in the runs. -/
  value : Value → Prop
  /-- Machines that may take part. -/
  machine : Nat → Prop
  /-- The runs go together at this cost, and what they give has the property. -/
  holds : {α : Type} → (cost : Nat) → (P : α → Prop) → (m k : Run α) → Prop

namespace Judgement

variable {J : Judgement}

/-- A judgement that can be composed. -/
structure Composes (J : Judgement) : Prop where
  give {α : Type} {P : α → Prop} {a : α} (h : P a) : J.holds 0 P (pure a) (pure a)
  sequence {α β : Type} {P : α → Prop} {Q : β → Prop} {c d : Nat} {m k : Run α}
    {f g : α → Run β} (hm : J.holds c P m k) (hf : ∀ a, P a → J.holds d Q (f a) (g a)) :
    J.holds (c + d) Q (m >>= f) (k >>= g)
  loosen {α : Type} {P : α → Prop} {c d : Nat} {m k : Run α} (h : J.holds c P m k)
    (hcd : c ≤ d) : J.holds d P m k

namespace Composes

variable (hJ : J.Composes) {α β : Type} {P : α → Prop} {Q : β → Prop} {b c d : Nat} {m k : Run α}
  {f g : α → Run β}

include hJ

/-- To give a value costs nothing. -/
theorem ret {a : α} (h : P a) : J.holds c P (pure a) (pure a) :=
  hJ.loosen (hJ.give h) (Nat.zero_le c)

/-- One run after the other, within a bound on the cost of both. -/
theorem within (hb : c + d ≤ b) (hm : J.holds c P m k)
    (hf : ∀ a, P a → J.holds d Q (f a) (g a)) : J.holds b Q (m >>= f) (k >>= g) :=
  hJ.loosen (hJ.sequence hm hf) hb

/-- A step that costs nothing, and what follows it. -/
theorem free (hm : J.holds 0 P m k) (hf : ∀ a, P a → J.holds d Q (f a) (g a)) :
    J.holds d Q (m >>= f) (k >>= g) :=
  hJ.within (by omega) hm hf

/-- To add numbers is to take labels, and then to give a number or to fail. -/
theorem addTo {P : Number → Prop} (hP : ∀ sum, P sum)
    (hreserve : J.holds 0 (fun _ => True) (reserve 2) (reserve 2))
    (hfail : ∀ cause n total, J.holds 0 P (fail (.sum cause n total)) (fail (.sum cause n total)))
    (total n : Number) : J.holds 0 P (Form.addTo total n) (Form.addTo total n) := by
  refine hJ.free hreserve fun label _ => ?_
  cases total.add label n with
  | ok sum => exact hJ.ret (hP sum)
  | error cause => exact hfail cause n total

end Composes

/-- A judgement that holds of the steps which operations take by themselves. -/
structure Operates (J : Judgement) : Prop extends Composes J where
  nil : J.value .nil
  bool (b : Bool) : J.value (.bool b)
  zero : J.value (.number (.int 0))
  list_iff {b : Brackets} {items : List Value} : J.value (.list b items) ↔ ∀ v ∈ items, J.value v
  reported {α : Type} {P : α → Prop} {f : Fault} (hf : f.isOfOperation = true) :
    J.holds (α := α) 0 P (fail f) (fail f)
  undecided {α : Type} {P : α → Prop} {a b : Value} (ha : J.value a) (hb : J.value b)
    (h : a.equal b = none) : J.holds (α := α) 0 P (fail .undecided) (fail .undecided)
  assign (scope : Nat) (name : String) {v : Value} (hv : J.value v) :
    J.holds 0 (fun _ => True) (Run.assign scope name v) (Run.assign scope name v)
  addTo {total n : Number} (ht : J.value (.number total)) (hn : J.value (.number n)) :
    J.holds 0 (fun sum => J.value (.number sum)) (Form.addTo total n) (Form.addTo total n)

/-- The cost of some nodes, each counted once. -/
def total (cost : Value → Nat) (nodes : List Value) : Nat := (nodes.map cost).sum

theorem total_cons (cost : Value → Nat) (n : Value) (ns : List Value) :
    total cost (n :: ns) = cost n + total cost ns := List.sum_cons

/-- Nodes that may occur, and whose evaluations go together, each at its cost. -/
def Evaluates (J : Judgement) (cost : Value → Nat) (eval eval' : Value → Run Value)
    (nodes : List Value) : Prop :=
  ∀ n ∈ nodes, J.value n ∧ J.holds (cost n) J.value (eval n) (eval' n)

variable {cost : Value → Nat} {eval eval' : Value → Run Value} {n : Value} {ns : List Value}

theorem evaluates_cons : J.Evaluates cost eval eval' (n :: ns) ↔
    (J.value n ∧ J.holds (cost n) J.value (eval n) (eval' n)) ∧ J.Evaluates cost eval eval' ns :=
  List.forall_mem_cons

/-! ## The built-in operations -/

namespace Operates

variable (hJ : J.Operates)

include hJ

theorem reports {α : Type} {P : α → Prop} {f : Fault} {c : Nat} (hf : f.isOfOperation = true) :
    J.holds (α := α) c P (fail f) (fail f) :=
  hJ.loosen (hJ.reported hf) (Nat.zero_le c)

theorem sum {total : Number} (ht : J.value (.number total))
    (hns : J.Evaluates cost eval eval' ns) :
    J.holds (Judgement.total cost ns) (fun sum => J.value (.number sum)) (Form.sum eval total ns)
      (Form.sum eval' total ns) := by
  induction ns generalizing total with
  | nil => exact hJ.give ht
  | cons n ns ih =>
    obtain ⟨⟨-, hn⟩, hns⟩ := evaluates_cons.mp hns
    refine hJ.within (total_cons cost n ns).ge hn fun v hv => ?_
    cases v with
    | number m => exact hJ.free (hJ.addTo ht hv) fun sum hsum => ih hsum hns
    | _ => exact hJ.reports rfl

theorem itemsOf {operation : Builtin} {v : Value} {c : Nat} (hv : J.value v) :
    J.holds c (fun vs => ∀ v ∈ vs, J.value v) (Form.itemsOf operation v)
      (Form.itemsOf operation v) := by
  cases v with
  | nil => exact hJ.ret fun _ h => by cases h
  | list b items => exact hJ.ret (hJ.list_iff.mp hv)
  | _ => exact hJ.reports rfl

theorem car (hns : J.Evaluates cost eval eval' ns) :
    J.holds (total cost ns) J.value (Form.car eval ns) (Form.car eval' ns) := by
  rcases ns with _ | ⟨n, _ | ⟨_, _⟩⟩
  · exact hJ.reports rfl
  · obtain ⟨-, hn⟩ := hns n (by simp)
    refine hJ.within (d := 0) (by simp [total]) hn fun v hv => ?_
    refine hJ.free (hJ.itemsOf hv) fun vs hvs => hJ.ret ?_
    cases vs with
    | nil => exact hJ.nil
    | cons v vs => exact hvs v (by simp)
  · exact hJ.reports rfl

theorem cdr (hns : J.Evaluates cost eval eval' ns) :
    J.holds (total cost ns) J.value (Form.cdr eval ns) (Form.cdr eval' ns) := by
  rcases ns with _ | ⟨n, _ | ⟨_, _⟩⟩
  · exact hJ.reports rfl
  · obtain ⟨-, hn⟩ := hns n (by simp)
    refine hJ.within (d := 0) (by simp [total]) hn fun v hv => ?_
    refine hJ.free (hJ.itemsOf hv) fun vs hvs => hJ.ret ?_
    rcases vs with _ | ⟨v, _ | ⟨w, vs⟩⟩
    · exact hJ.nil
    · exact hJ.nil
    · exact hJ.list_iff.mpr fun x hx => hvs x (List.mem_cons_of_mem _ hx)
  · exact hJ.reports rfl

theorem quote (hns : J.Evaluates cost eval eval' ns) :
    J.holds (total cost ns) J.value (Form.quote ns) (Form.quote ns) := by
  rcases ns with _ | ⟨n, _ | ⟨_, _⟩⟩
  · exact hJ.reports rfl
  · exact hJ.ret (hns n (by simp)).1
  · exact hJ.reports rfl

theorem cons (hns : J.Evaluates cost eval eval' ns) :
    J.holds (total cost ns) J.value (Form.cons eval ns) (Form.cons eval' ns) := by
  rcases ns with _ | ⟨head, _ | ⟨rest, _ | ⟨_, _⟩⟩⟩
  · exact hJ.reports rfl
  · exact hJ.reports rfl
  · obtain ⟨hhead, -⟩ := hns head (by simp)
    obtain ⟨-, hrest⟩ := hns rest (by simp)
    refine hJ.within (d := 0) (by simp [total]) hrest fun v hv => hJ.ret ?_
    exact hJ.list_iff.mpr (by simpa using ⟨hhead, hv⟩)
  · exact hJ.reports rfl

theorem choose (hns : J.Evaluates cost eval eval' ns) :
    J.holds (total cost ns) J.value (Form.choose eval ns) (Form.choose eval' ns) := by
  rcases ns with _ | ⟨condition, _ | ⟨yes, _ | ⟨no, _ | ⟨_, _⟩⟩⟩⟩
  · exact hJ.reports rfl
  · exact hJ.reports rfl
  · exact hJ.reports rfl
  · obtain ⟨-, hcondition⟩ := hns condition (by simp)
    obtain ⟨-, hyes⟩ := hns yes (by simp)
    obtain ⟨-, hno⟩ := hns no (by simp)
    -- one of the two branches is evaluated, and both are paid for
    refine hJ.within (d := cost yes + cost no) (by simp [total]) hcondition fun v _ => ?_
    split
    · exact hJ.loosen hno (by omega)
    · exact hJ.loosen hyes (by omega)
  · exact hJ.reports rfl

theorem assignForm (scope : Nat) (hns : J.Evaluates cost eval eval' ns) :
    J.holds (total cost ns) J.value (Form.assign eval scope ns) (Form.assign eval' scope ns) := by
  rcases ns with _ | ⟨nameNode, _ | ⟨valueNode, _ | ⟨_, _⟩⟩⟩
  · exact hJ.reports rfl
  · exact hJ.reports rfl
  · obtain ⟨-, hname⟩ := hns nameNode (by simp)
    obtain ⟨-, hvalue⟩ := hns valueNode (by simp)
    refine hJ.within (d := cost valueNode) (by simp [total]) hname fun x _ => ?_
    refine hJ.within (d := 0) (by simp) hvalue fun v hv => ?_
    cases x with
    | symbol name => exact hJ.free (hJ.assign scope name hv) fun _ _ => hJ.ret hv
    | _ => exact hJ.reports rfl
  · exact hJ.reports rfl

theorem equal (hns : J.Evaluates cost eval eval' ns) :
    J.holds (total cost ns) J.value (Form.equal eval ns) (Form.equal eval' ns) := by
  rcases ns with _ | ⟨left, _ | ⟨right, _ | ⟨_, _⟩⟩⟩
  · exact hJ.reports rfl
  · exact hJ.reports rfl
  · obtain ⟨-, hleft⟩ := hns left (by simp)
    obtain ⟨-, hright⟩ := hns right (by simp)
    refine hJ.within (d := cost right) (by simp [total]) hleft fun a ha => ?_
    refine hJ.within (d := 0) (by simp) hright fun b hb => ?_
    cases h : a.equal b with
    | none => exact hJ.undecided ha hb h
    | some same =>
      cases same with
      | true => exact hJ.ret (hJ.bool true)
      | false => exact hJ.ret hJ.nil
  · exact hJ.reports rfl

/-- Every built-in operation but `lambda` costs no more than its argument nodes, each evaluated
once. -/
theorem operation {machine scope : Nat} (operation : Builtin)
    (hlambda : operation = .lambda → J.holds (total cost ns) J.value
      (Form.lambda machine scope ns) (Form.lambda machine scope ns))
    (hns : J.Evaluates cost eval eval' ns) :
    J.holds (total cost ns) J.value (operation.run eval machine scope ns)
      (operation.run eval' machine scope ns) := by
  cases operation with
  | add => exact hJ.within (d := 0) le_rfl (hJ.sum hJ.zero hns) fun _ h => hJ.ret h
  | car => exact hJ.car hns
  | cdr => exact hJ.cdr hns
  | quote => exact hJ.quote hns
  | cons => exact hJ.cons hns
  | choose => exact hJ.choose hns
  | assign => exact hJ.assignForm scope hns
  | equal => exact hJ.equal hns
  | lambda => exact hlambda rfl

theorem symbolNames (ns : List Value) :
    J.holds 0 (fun _ => True) (ofExcept (Form.symbolNames ns)) (ofExcept (Form.symbolNames ns)) := by
  induction ns with
  | nil => exact hJ.ret trivial
  | cons n ns ih =>
    cases n with
    | symbol name =>
      unfold Form.symbolNames
      cases hr : Form.symbolNames ns with
      | ok names => exact hJ.ret trivial
      | error f =>
        rw [hr] at ih
        exact ih
    | _ => exact hJ.reports rfl

theorem parameters (n : Value) :
    J.holds 0 (fun _ => True) (ofExcept (Form.parameters n)) (ofExcept (Form.parameters n)) := by
  cases n with
  | list b items => exact hJ.symbolNames items
  | nil | null => exact hJ.ret trivial
  | _ => exact hJ.reports rfl

end Operates

/-! ## Calls, application and evaluation -/

/-- A judgement that takes no account of costs, and holds of the steps of evaluation, for two ways
to announce nodes. -/
structure Lawful (J : Judgement) (registries : Nat → Registry)
    (announce announce' : Announcement) : Prop extends Operates J where
  unpaid {α : Type} {P : α → Prop} {c d : Nat} {m k : Run α} (h : J.holds c P m k) :
    J.holds d P m k
  symbol (name : String) : J.value (.symbol name)
  closure {c : Closure Value} (hc : J.value (.closure c)) :
    J.machine c.machine ∧ ∀ n ∈ c.body, J.value n
  announced {machine : Nat} {node : Value} (hm : J.machine machine) (hn : J.value node)
    (scope : Nat) :
    J.holds 0 (fun _ => True) (announce machine node scope) (announce' machine node scope)
  read {machine : Nat} (hm : J.machine machine) (scope : Nat) (name : String) :
    J.holds 0 J.value (readSymbol announce machine scope name)
      (readSymbol announce' machine scope name)
  callee (scope : Nat) (name : String) :
    J.holds 0 (fun found => ∀ c, found = some c → J.value (.closure c)) (callee scope name)
      (callee scope name)
  makeClosure {machine : Nat} (params : List String) {body : List Value} (scope : Nat)
    (hm : J.machine machine) (hb : ∀ n ∈ body, J.value n) :
    J.holds 0 (fun c => J.value (.closure c)) (makeClosure params body scope machine)
      (makeClosure params body scope machine)
  enter {c : Closure Value} {vs : List Value} (hc : J.value (.closure c))
    (hvs : ∀ v ∈ vs, J.value v) : J.holds 0 (fun _ => True) (enter c vs) (enter c vs)
  undefinedOperation {α : Type} {P : α → Prop} {v : Value} (hv : J.value v)
    (hopen : ∀ c, v ≠ .closure c) (hname : ∀ name, v = .symbol name →
      ∃ machine, J.machine machine ∧ (registries machine).lookup? name = none) :
    J.holds (α := α) 0 P (fail (.undefinedOperation v)) (fail (.undefinedOperation v))

/-- Two evaluations that go together for all machines, scopes and nodes that may occur. -/
def Evaluations (J : Judgement) (evals evals' : Evaluation) : Prop :=
  ∀ machine, J.machine machine → ∀ scope n, J.value n →
    J.holds 0 J.value (evals machine n scope) (evals' machine n scope)

theorem Evaluations.each {evals evals' : Evaluation} (hev : J.Evaluations evals evals')
    {machine : Nat} (hm : J.machine machine) (scope : Nat) (hns : ∀ n ∈ ns, J.value n) :
    J.Evaluates (fun _ => 0) (evals machine · scope) (evals' machine · scope) ns :=
  fun n hn => ⟨hns n hn, hev machine hm scope n (hns n hn)⟩

namespace Lawful

variable {registries : Nat → Registry} {announce announce' : Announcement}
  {evals evals' : Evaluation} (hJ : J.Lawful registries announce announce')

include hJ

theorem lambda {machine : Nat} (scope : Nat) (hm : J.machine machine)
    (hns : ∀ n ∈ ns, J.value n) :
    J.holds 0 J.value (Form.lambda machine scope ns) (Form.lambda machine scope ns) := by
  cases ns with
  | nil => exact hJ.reports rfl
  | cons params body =>
    obtain ⟨-, hbody⟩ := List.forall_mem_cons.mp hns
    refine hJ.free (hJ.parameters params) fun names _ => ?_
    exact hJ.free (hJ.makeClosure names scope hm hbody) fun c hc => hJ.ret hc

theorem runOperation (hev : J.Evaluations evals evals') {machine : Nat} (hm : J.machine machine)
    (hns : ∀ n ∈ ns, J.value n) (scope : Nat) (operation : Builtin) :
    J.holds 0 J.value (operation.run (evals machine · scope) machine scope ns)
      (operation.run (evals' machine · scope) machine scope ns) :=
  hJ.unpaid (hJ.operation operation (fun _ => hJ.unpaid (hJ.lambda scope hm hns))
    (hev.each hm scope hns))

theorem evaluateEach (hev : J.Evaluations evals evals') {machine : Nat} (hm : J.machine machine)
    (hns : ∀ n ∈ ns, J.value n) (scope : Nat) :
    J.holds 0 (fun vs => ∀ v ∈ vs, J.value v) (evaluateEach (evals machine · scope) ns)
      (evaluateEach (evals' machine · scope) ns) := by
  induction ns with
  | nil => exact hJ.ret fun _ h => by cases h
  | cons n ns ih =>
    obtain ⟨hn, hns⟩ := List.forall_mem_cons.mp hns
    refine hJ.free (hev machine hm scope n hn) fun v hv => hJ.free (ih hns) fun vs hvs => ?_
    exact hJ.ret (List.forall_mem_cons.mpr ⟨hv, hvs⟩)

theorem evaluateInTurn (hev : J.Evaluations evals evals') {machine : Nat} (hm : J.machine machine)
    {last : Value} (hl : J.value last) (hns : ∀ n ∈ ns, J.value n) (scope : Nat) :
    J.holds 0 J.value (evaluateInTurn (evals machine · scope) last ns)
      (evaluateInTurn (evals' machine · scope) last ns) := by
  induction ns generalizing last with
  | nil => exact hJ.ret hl
  | cons n ns ih =>
    obtain ⟨hn, hns⟩ := List.forall_mem_cons.mp hns
    exact hJ.free (hev machine hm scope n hn) fun v hv => ih hv hns

theorem invoke (hev : J.Evaluations evals evals') {c : Closure Value} (hc : J.value (.closure c))
    (hns : ∀ n ∈ ns, J.value n) (caller : Nat) :
    J.holds 0 J.value (c.invoke evals ns caller) (c.invoke evals' ns caller) := by
  by_cases hlen : ns.length = c.params.length
  · obtain ⟨hm, hbody⟩ := hJ.closure hc
    rw [c.invoke_eq _ _ _ hlen, c.invoke_eq _ _ _ hlen]
    refine hJ.free (hJ.evaluateEach hev hm hns caller) fun vs hvs => ?_
    refine hJ.free (hJ.enter hc hvs) fun frame _ => ?_
    exact hJ.evaluateInTurn hev hm hJ.nil hbody frame
  · rw [c.invoke_of_ne _ _ _ hlen, c.invoke_of_ne _ _ _ hlen]
    exact hJ.reports rfl

/-- A symbol in operator position that calls no closure. -/
theorem runNamed (hev : J.Evaluations evals evals') {machine : Nat} (hm : J.machine machine)
    (hns : ∀ n ∈ ns, J.value n) (scope : Nat) (name : String) :
    J.holds 0 J.value (runNamed registries evals machine ns scope name)
      (runNamed registries evals' machine ns scope name) := by
  unfold SmallLisp.runNamed
  cases hl : (registries machine).lookup? name with
  | some operation => exact hJ.runOperation hev hm hns scope operation
  | none =>
    refine hJ.undefinedOperation (hJ.symbol name) (by simp) fun name' hname => ?_
    cases hname
    exact ⟨machine, hm, hl⟩

theorem operate (hev : J.Evaluations evals evals') {machine : Nat} (hm : J.machine machine)
    (hns : ∀ n ∈ ns, J.value n) (scope : Nat) {v : Value} (hv : J.value v) :
    J.holds 0 J.value (operate registries evals machine ns scope v)
      (operate registries evals' machine ns scope v) := by
  cases v with
  | closure c => exact hJ.invoke hev hv hns scope
  | symbol name =>
    rw [operate_symbol, operate_symbol]
    refine hJ.free (hJ.callee scope name) fun found hfound => ?_
    cases found with
    | some c => exact hJ.invoke hev (hfound c rfl) hns scope
    | none => exact hJ.runNamed hev hm hns scope name
  | _ => exact hJ.undefinedOperation hv (by simp) (by simp)

theorem applyWith (hev : J.Evaluations evals evals') {machine : Nat} (hm : J.machine machine)
    {head : Value} (hh : J.value head) (hns : ∀ n ∈ ns, J.value n) (scope : Nat) :
    J.holds 0 J.value (applyWith registries evals machine head ns scope)
      (applyWith registries evals' machine head ns scope) := by
  have hop : J.holds 0 J.value (if head.isList then evals machine head scope else pure head)
      (if head.isList then evals' machine head scope else pure head) := by
    split
    · exact hev machine hm scope head hh
    · exact hJ.ret hh
  rw [applyWith_eq, applyWith_eq]
  exact hJ.free hop fun v hv => hJ.operate hev hm hns scope hv

/-- One node, announced and evaluated. -/
theorem evaluateOne (hev : J.Evaluations evals evals') :
    J.Evaluations
      (fun machine n scope => do
        announce machine n scope
        evaluateAnnounced registries evals machine n scope)
      (fun machine n scope => do
        announce' machine n scope
        evaluateAnnounced registries evals' machine n scope) := by
  intro machine hm scope n hn
  cases n with
  | symbol name => exact hJ.read hm scope name
  | nil | null => exact hJ.free (hJ.announced hm hn scope) fun _ _ => hJ.ret hJ.nil
  | bool | number | closure => exact hJ.free (hJ.announced hm hn scope) fun _ _ => hJ.ret hn
  | list b items =>
    refine hJ.free (hJ.announced hm hn scope) fun _ _ => ?_
    cases items with
    | nil => exact hJ.ret hJ.nil
    | cons head tail =>
      obtain ⟨hhead, htail⟩ := List.forall_mem_cons.mp (hJ.list_iff.mp hn)
      exact hJ.applyWith hev hm hhead htail scope
  | host => exact hJ.free (hJ.announced hm hn scope) fun _ _ => hJ.reports rfl

/-- Evaluations go together however deep they nest. -/
theorem evaluate (hexhaust : J.holds (α := Value) 0 J.value exhaust exhaust) (bound : Nat) :
    J.Evaluations (evaluateAnnouncing announce registries bound)
      (evaluateAnnouncing announce' registries bound) := by
  induction bound with
  | zero => exact fun _ _ _ _ _ => hexhaust
  | succ bound ih => exact hJ.evaluateOne ih

end Lawful

/-- A call of the evaluator with parts that may occur. -/
inductive Admits (J : Judgement) : Entry → Prop
  | evaluate {machine : Nat} {node : Value} (hm : J.machine machine) (hn : J.value node)
      (scope : Nat) : Admits J (.evaluate machine node scope)
  | apply {machine : Nat} {head : Value} {tail : List Value} (hm : J.machine machine)
      (hh : J.value head) (ht : ∀ n ∈ tail, J.value n) (scope : Nat) :
      Admits J (.apply machine head tail scope)
  | form (operation : Builtin) {machine : Nat} {tail : List Value} (hm : J.machine machine)
      (ht : ∀ n ∈ tail, J.value n) (scope : Nat) : Admits J (.form operation machine tail scope)
  | invoke {c : Closure Value} {arguments : List Value} (hc : J.value (.closure c))
      (ha : ∀ n ∈ arguments, J.value n) (caller : Nat) : Admits J (.invoke c arguments caller)

theorem admits_of_forall {J : Judgement} (hm : ∀ machine, J.machine machine)
    (hv : ∀ v, J.value v) (x : Entry) : J.Admits x := by
  cases x with
  | evaluate machine node scope => exact .evaluate (hm machine) (hv node) scope
  | apply machine head tail scope => exact .apply (hm machine) (hv head) (fun n _ => hv n) scope
  | form operation machine tail scope => exact .form operation (hm machine) (fun n _ => hv n) scope
  | invoke c arguments caller => exact .invoke (hv (.closure c)) (fun n _ => hv n) caller

/-- Whatever way the evaluator is entered, the runs go together if the evaluations do. -/
theorem Lawful.entry {registries : Nat → Registry} {announce announce' : Announcement}
    (hJ : J.Lawful registries announce announce') {evals evals' : Evaluation}
    (hev : J.Evaluations evals evals') {x : Entry} (hx : J.Admits x) :
    J.holds 0 J.value (x.runBy registries evals) (x.runBy registries evals') := by
  cases hx with
  | evaluate hm hn scope => exact hev _ hm scope _ hn
  | apply hm hh ht scope => exact hJ.applyWith hev hm hh ht scope
  | form operation hm ht scope => exact hJ.runOperation hev hm ht scope operation
  | invoke hc ha caller => exact hJ.invoke hev hc ha caller

end Judgement

end SmallLisp
