-- Scope chains follow the text of a program, not its calls. A node is evaluated in a scope that has
-- room for the lists in it; a list uses up some room for its items, and a closure that a list makes
-- leaves as much for the frame of its call. So the chains of all frames are bounded by the depth
-- of the programs, at every moment of every run, however deep its calls go.
import SmallLisp.Proofs.LexicalScope
import SmallLisp.Proofs.Room

namespace SmallLisp

open Run

/-! ## Runs that keep a store staged -/

namespace Staging

/-- The bond of a run with itself, in staged stores that only grow. -/
def bond (base limit : Nat) : Bond Store State State Stop Stop where
  state w s t := s = t ∧ s.store = w ∧ w.Staged base limit
  stop _ _ _ := True
  excused _ := False

/-- From a state with this store, if it is staged, the run ends in a state with a grown and staged
store, of which `A` holds with the value of the run. -/
def Keeps {α : Type} (base limit : Nat) (A : Store → α → Prop) (w : Store) (m : Run α) : Prop :=
  (bond base limit).Coupled (fun w a b => a = b ∧ A w a) w m m

section

variable {base limit : Nat} {w : Store} {α β : Type} {A : Store → α → Prop} {B : Store → β → Prop}
  {m : Run α}

theorem keeps_pure {a : α} (h : A w a) : Keeps base limit A w (pure a) :=
  Bond.coupled_pure ⟨rfl, h⟩

theorem keeps_throw (stop : Stop) : Keeps base limit A w (throw stop) :=
  Bond.coupled_throw trivial

theorem keeps_fail (cause : Fault) : Keeps base limit A w (fail cause) := keeps_throw (.fault cause)

theorem Keeps.bind {f : α → Run β} (hm : Keeps base limit A w m)
    (hf : ∀ w' a, w ≤ w' → A w' a → Keeps base limit B w' (f a)) : Keeps base limit B w (m >>= f) :=
  Bond.Coupled.bind hm fun w' a _ hw h => h.1 ▸ hf w' a hw h.2

/-- A step that always ends with a value. -/
theorem keeps_step {a : State → α} {next : State → State} (hm : ∀ s, m s = .ok (a s) (next s))
    (h : ∀ s, s.store = w → w.Staged base limit → w ≤ (next s).store ∧
      (next s).store.Staged base limit ∧ A (next s).store (a s)) : Keeps base limit A w m := by
  rintro s _ ⟨rfl, hw, hs⟩
  obtain ⟨hle, hstaged, ha⟩ := h s hw hs
  rw [hm]
  exact .ok hle ⟨rfl, rfl, hstaged⟩ ⟨rfl, ha⟩

/-- A step that leaves the store alone. -/
theorem keeps_quiet (hm : ∀ s, (endState (m s)).store = s.store) :
    Keeps base limit (fun _ _ => True) w m := by
  rintro s _ ⟨rfl, rfl, hs⟩
  have hstore := hm s
  cases hr : m s with
  | ok a t =>
    rw [hr] at hstore
    exact .ok le_rfl ⟨rfl, hstore, hs⟩ ⟨rfl, trivial⟩
  | error stop t =>
    rw [hr] at hstore
    exact .error le_rfl ⟨rfl, hstore, hs⟩ trivial

theorem keeps_record (e : Event) : Keeps base limit (fun _ _ => True) w (record e) :=
  keeps_quiet fun _ => rfl

/-- What the run leaves, with a value or without. -/
theorem Keeps.staged (h : Keeps base limit A w m) {s : State} (hs : s.store = w)
    (hw : w.Staged base limit) :
    w ≤ (endState (m s)).store ∧ (endState (m s)).store.Staged base limit := by
  have hend := h s s ⟨rfl, hs, hw⟩
  generalize m s = r at hend ⊢
  cases hend with
  | ok grown state _ | error grown state _ => exact ⟨state.2.1 ▸ grown, state.2.1 ▸ state.2.2⟩
  | excused h => exact h.elim

end

section

variable {base limit : Nat} {w : Store} {eval : Value → Run Value} {n : Value} {ns : List Value}

/-- Nodes without closures whose evaluation keeps stores staged from `w` on, and gives values with
room. -/
def Evaluates (base limit : Nat) (w : Store) (eval : Value → Run Value) (ns : List Value) : Prop :=
  ∀ n ∈ ns, n.ClosureFree ∧
    ∀ w', w ≤ w' → Keeps base limit (Value.Fits base limit) w' (eval n)

theorem Evaluates.mono {w' : Store} (h : Evaluates base limit w eval ns) (hw : w ≤ w') :
    Evaluates base limit w' eval ns :=
  fun n hn => ⟨(h n hn).1, fun w'' hw' => (h n hn).2 w'' (hw.trans hw')⟩

theorem evaluates_cons : Evaluates base limit w eval (n :: ns) ↔
    (n.ClosureFree ∧ ∀ w', w ≤ w' → Keeps base limit (Value.Fits base limit) w' (eval n)) ∧
      Evaluates base limit w eval ns :=
  List.forall_mem_cons

/-! ## The built-in operations -/

theorem keeps_addTo (total n : Number) :
    Keeps base limit (fun _ _ => True) w (Form.addTo total n) := by
  refine (keeps_quiet (m := reserve 2) fun _ => rfl).bind fun w1 label _ _ => ?_
  cases total.add label n with
  | ok sum => exact keeps_pure trivial
  | error cause => exact keeps_fail _

theorem Evaluates.sum (h : Evaluates base limit w eval ns) (total : Number) :
    Keeps base limit (fun _ _ => True) w (Form.sum eval total ns) := by
  induction ns generalizing w total with
  | nil => exact keeps_pure trivial
  | cons n ns ih =>
    obtain ⟨⟨-, hn⟩, hns⟩ := evaluates_cons.mp h
    refine (hn w le_rfl).bind fun w1 v h1 _ => ?_
    cases v with
    | number m =>
      exact (keeps_addTo total m).bind fun w2 sum h2 _ => ih (hns.mono (h1.trans h2)) sum
    | _ => exact keeps_fail _

theorem keeps_itemsOf (operation : Builtin) {v : Value} (hv : v.Fits base limit w) :
    Keeps base limit (fun w vs => ∀ v ∈ vs, v.Fits base limit w) w (Form.itemsOf operation v) := by
  cases v with
  | nil => exact keeps_pure fun _ h => by cases h
  | list b items => exact keeps_pure (Value.fits_list.mp hv)
  | _ => exact keeps_fail _

theorem fits_head {vs : List Value} (h : ∀ v ∈ vs, v.Fits base limit w) :
    (vs.head?.getD .nil).Fits base limit w := by
  cases vs with
  | nil => exact Value.fits_nil
  | cons v vs => exact h v (by simp)

theorem fits_tail {vs : List Value} (h : ∀ v ∈ vs, v.Fits base limit w) :
    (Form.listOrNil vs.tail).Fits base limit w := by
  rcases vs with _ | ⟨v, _ | ⟨u, vs⟩⟩
  · exact Value.fits_nil
  · exact Value.fits_nil
  · exact Value.fits_list.mpr fun x hx => h x (List.mem_cons_of_mem _ hx)

theorem keeps_assign (scope : Nat) (name : String) {v : Value} (hv : v.Fits base limit w) :
    Keeps base limit (fun _ _ => True) w (Run.assign scope name v) :=
  keeps_step (fun _ => rfl) fun s hs hw => by
    subst hs
    exact ⟨Store.le_define .., hw.define _ name hv, trivial⟩

theorem keeps_makeClosure {params : List String} {body : List Value} {scope machine : Nat}
    (hroom : w.Room base limit scope (Value.depths body + 1)) (hb : ∀ b ∈ body, b.ClosureFree) :
    Keeps base limit (fun w c => (Value.closure c).Fits base limit w) w
      (makeClosure params body scope machine) :=
  keeps_step (fun _ => rfl) fun s hs hw => by
    subst hs
    exact ⟨le_rfl, hw, Value.fits_closure.mpr ⟨hroom, hb⟩⟩

theorem keeps_lambda (machine : Nat) {scope : Nat}
    (hroom : w.Room base limit scope (Value.depths ns + 1)) (hns : ∀ n ∈ ns, n.ClosureFree) :
    Keeps base limit (Value.Fits base limit) w (Form.lambda machine scope ns) := by
  cases ns with
  | nil => exact keeps_fail _
  | cons params body =>
    obtain ⟨-, hbody⟩ := List.forall_mem_cons.mp hns
    have hparams : Keeps base limit (fun _ _ => True) w (ofExcept (Form.parameters params)) := by
      cases Form.parameters params with
      | ok names => exact keeps_pure trivial
      | error cause => exact keeps_fail _
    refine hparams.bind fun w1 names h1 _ => ?_
    have hle : Value.depths body + 1 ≤ Value.depths (params :: body) + 1 :=
      Nat.succ_le_succ (Nat.le_max_right ..)
    exact (keeps_makeClosure ((hroom.mono h1).less hle) hbody).bind fun w2 c _ hc => keeps_pure hc

/-- All operations but `lambda` need no room of their own. -/
theorem Evaluates.operation (h : Evaluates base limit w eval ns) {machine scope : Nat}
    (hroom : w.Room base limit scope (Value.depths ns + 1)) (operation : Builtin) :
    Keeps base limit (Value.Fits base limit) w (operation.run eval machine scope ns) := by
  cases operation with
  | add => exact (h.sum (.int 0)).bind fun w1 n _ _ => keeps_pure (Value.closureFree_number n).fits
  | car =>
    match ns with
    | [n] =>
      refine ((h n (by simp)).2 w le_rfl).bind fun w1 v _ hv => ?_
      exact (keeps_itemsOf .car hv).bind fun w2 vs _ hvs => keeps_pure (fits_head hvs)
    | [] | _ :: _ :: _ => exact keeps_fail _
  | cdr =>
    match ns with
    | [n] =>
      refine ((h n (by simp)).2 w le_rfl).bind fun w1 v _ hv => ?_
      exact (keeps_itemsOf .cdr hv).bind fun w2 vs _ hvs => keeps_pure (fits_tail hvs)
    | [] | _ :: _ :: _ => exact keeps_fail _
  | quote =>
    match ns with
    | [n] => exact keeps_pure (h n (by simp)).1.fits
    | [] | _ :: _ :: _ => exact keeps_fail _
  | cons =>
    match ns with
    | [head, rest] =>
      refine ((h rest (by simp)).2 w le_rfl).bind fun w1 v _ hv => keeps_pure ?_
      exact Value.fits_list.mpr (by simpa using ⟨(h head (by simp)).1.fits, hv⟩)
    | [] | [_] | _ :: _ :: _ :: _ => exact keeps_fail _
  | choose =>
    match ns with
    | [condition, yes, no] =>
      refine ((h condition (by simp)).2 w le_rfl).bind fun w1 v h1 _ => ?_
      split
      · exact (h no (by simp)).2 w1 h1
      · exact (h yes (by simp)).2 w1 h1
    | [] | [_] | [_, _] | _ :: _ :: _ :: _ :: _ => exact keeps_fail _
  | assign =>
    match ns with
    | [nameNode, valueNode] =>
      refine ((h nameNode (by simp)).2 w le_rfl).bind fun w1 x h1 _ => ?_
      refine ((h valueNode (by simp)).2 w1 h1).bind fun w2 v h2 hv => ?_
      cases x with
      | symbol name =>
        exact (keeps_assign scope name hv).bind fun w3 _ h3 _ => keeps_pure (hv.mono h3)
      | _ => exact keeps_fail _
    | [] | [_] | _ :: _ :: _ :: _ => exact keeps_fail _
  | equal =>
    match ns with
    | [left, right] =>
      refine ((h left (by simp)).2 w le_rfl).bind fun w1 a h1 _ => ?_
      refine ((h right (by simp)).2 w1 h1).bind fun w2 b _ _ => ?_
      cases a.equal b with
      | none => exact keeps_fail _
      | some same =>
        refine keeps_pure ?_
        cases same
        · exact Value.fits_nil
        · intro c hc
          cases hc
    | [] | [_] | _ :: _ :: _ :: _ => exact keeps_fail _
  | lambda => exact keeps_lambda machine hroom fun n hn => (h n hn).1

end

/-! ## Calls, application and evaluation -/

section

variable {base limit : Nat} {w : Store} {registries : Nat → Registry} {evals : Evaluation}
  {machine scope : Nat} {ns : List Value}

/-- Evaluation of all nodes without closures, in all scopes that have room for the lists in them. -/
def EvaluatesAll (base limit : Nat) (evals : Evaluation) : Prop :=
  ∀ w machine scope (n : Value), n.ClosureFree → w.Room base limit scope n.depth →
    Keeps base limit (Value.Fits base limit) w (evals machine n scope)

variable (hev : EvaluatesAll base limit evals)

include hev

theorem EvaluatesAll.items (machine : Nat) (hroom : w.Room base limit scope (Value.depths ns))
    (hns : ∀ n ∈ ns, n.ClosureFree) : Evaluates base limit w (evals machine · scope) ns :=
  fun n hn => ⟨hns n hn, fun w' hw => hev w' machine scope n (hns n hn)
    ((hroom.less (Value.depth_le_depths hn)).mono hw)⟩

omit hev in
theorem Evaluates.each {eval : Value → Run Value} (h : Evaluates base limit w eval ns) :
    Keeps base limit (fun w vs => ∀ v ∈ vs, v.Fits base limit w) w (evaluateEach eval ns) := by
  induction ns generalizing w with
  | nil => exact keeps_pure fun _ h => by cases h
  | cons n ns ih =>
    obtain ⟨⟨-, hn⟩, hns⟩ := evaluates_cons.mp h
    refine (hn w le_rfl).bind fun w1 v h1 hv => ?_
    refine (ih (hns.mono h1)).bind fun w2 vs h2 hvs => keeps_pure ?_
    exact List.forall_mem_cons.mpr ⟨hv.mono h2, hvs⟩

omit hev in
theorem Evaluates.inTurn {eval : Value → Run Value} (h : Evaluates base limit w eval ns)
    {last : Value} (hl : last.Fits base limit w) :
    Keeps base limit (Value.Fits base limit) w (evaluateInTurn eval last ns) := by
  induction ns generalizing w last with
  | nil => exact keeps_pure hl
  | cons n ns ih =>
    obtain ⟨⟨-, hn⟩, hns⟩ := evaluates_cons.mp h
    exact (hn w le_rfl).bind fun w1 v h1 hv => ih (hns.mono h1) hv

/-- The frame of a call lies in the scope of the closure, whoever calls, so the caller's own chain
does not matter. -/
theorem EvaluatesAll.invoke {c : Closure Value} (hc : (Value.closure c).Fits base limit w)
    (hroom : w.Room base limit scope (Value.depths ns)) (hns : ∀ n ∈ ns, n.ClosureFree) :
    Keeps base limit (Value.Fits base limit) w (c.invoke evals ns scope) := by
  by_cases hlen : ns.length = c.params.length
  · rw [c.invoke_eq _ _ _ hlen]
    refine (hev.items c.machine hroom hns).each.bind fun w1 vs h1 hvs => ?_
    have henter : Keeps base limit (fun w f => w.Room base limit f (Value.depths c.body)) w1
        (enter c vs) :=
      keeps_step (fun _ => rfl) fun s hs hw => by
        subst hs
        obtain ⟨hstaged, hle, hframe⟩ := hw.enter (hc.mono h1) hvs
        exact ⟨hle, hstaged, hframe⟩
    refine henter.bind fun w2 f _ hf => ?_
    exact (hev.items c.machine hf (Value.fits_closure.mp hc).2).inTurn Value.fits_nil
  · rw [c.invoke_of_ne _ _ _ hlen]
    exact keeps_fail _

theorem EvaluatesAll.operate (machine : Nat)
    (hroom : w.Room base limit scope (Value.depths ns + 1)) (hns : ∀ n ∈ ns, n.ClosureFree)
    {v : Value} (hv : v.Fits base limit w) :
    Keeps base limit (Value.Fits base limit) w
      (operate registries evals machine ns scope v) := by
  have hitems : w.Room base limit scope (Value.depths ns) := hroom.less (Nat.le_succ _)
  cases v with
  | closure c => exact hev.invoke hv hitems hns
  | symbol name =>
    have hcallee : Keeps base limit
        (fun w found => ∀ c, found = some c → (Value.closure c).Fits base limit w) w
        (callee scope name) := by
      refine keeps_step (fun _ => rfl) fun s hs hw => ?_
      subst hs
      refine ⟨le_rfl, hw, fun c hc => ?_⟩
      exact hw.fits_of_lookup? hroom.base_le (calledBy_eq_some_iff.mp hc)
    rw [operate_symbol]
    refine hcallee.bind fun w1 found h1 hfound => ?_
    cases found with
    | some c => exact hev.invoke (hfound c rfl) (hitems.mono h1) hns
    | none =>
      unfold runNamed
      dsimp only
      cases (registries machine).lookup? name with
      | some operation =>
        exact (hev.items machine (hitems.mono h1) hns).operation (hroom.mono h1) operation
      | none => exact keeps_fail _
  | _ => exact keeps_fail _

/-- One node, after something that leaves the store alone. -/
theorem EvaluatesAll.evaluateAnnounced :
    EvaluatesAll base limit (evaluateAnnounced registries evals) := by
  intro w machine scope n hn hroom
  cases n with
  | nil | null => exact keeps_pure Value.fits_nil
  | bool | number => exact keeps_pure hn.fits
  | closure c => exact absurd .self (hn c)
  | host => exact keeps_fail _
  | symbol name =>
    refine keeps_step (fun _ => rfl) fun s hs hw => ?_
    subst hs
    refine ⟨le_rfl, hw, ?_⟩
    cases hl : s.store.lookup? scope name with
    | none => exact hn.fits
    | some v => exact hw.fits_of_lookup? hroom.base_le hl
  | list b items =>
    cases items with
    | nil => exact keeps_pure Value.fits_nil
    | cons head tail =>
      have hhead := hn.item (List.mem_cons_self ..)
      have htail : ∀ n ∈ tail, n.ClosureFree := fun n hm => hn.item (List.mem_cons_of_mem _ hm)
      have hle : Value.depths tail + 1 ≤ (Value.list b (head :: tail)).depth :=
        Nat.succ_le_succ (Nat.le_max_right ..)
      have hle' : head.depth ≤ (Value.list b (head :: tail)).depth :=
        (Nat.le_max_left ..).trans (Nat.le_succ _)
      show Keeps base limit _ w (applyWith registries evals machine head tail scope)
      rw [applyWith_eq]
      refine Keeps.bind (A := Value.Fits base limit) ?_ fun w1 v h1 hv =>
        hev.operate machine ((hroom.less hle).mono h1) htail hv
      split
      · exact hev w machine scope head hhead (hroom.less hle')
      · exact keeps_pure hhead.fits

omit hev in
/-- Evaluation keeps stores staged however deep evaluations nest, and whatever is done to announce
a node, if that leaves the store alone. -/
theorem evaluatesAll_announcing {announce : Announcement}
    (hquiet : ∀ machine n scope s, (endState (announce machine n scope s)).store = s.store)
    (bound : Nat) : EvaluatesAll base limit (evaluateAnnouncing announce registries bound) := by
  induction bound with
  | zero => exact fun _ _ _ _ _ _ => keeps_throw .exhausted
  | succ bound ih =>
    intro w machine scope n hn hroom
    exact (keeps_quiet (hquiet machine n scope)).bind fun w1 _ h1 _ =>
      ih.evaluateAnnounced w1 machine scope n hn (hroom.mono h1)

end

end Staging

/-! ## Moments of a run -/

/-- Puts the evaluation on the trail, and stops the run there if the state is one to halt at. -/
def announceUntil (halt : State → Bool) : Announcement := fun machine node scope => do
  announceAll machine node scope
  if halt (← get) then exhaust

namespace Session

/-- Evaluates a program in the global frame of a machine, up to the first node at whose start the
state is one to halt at. -/
def runProgramUntil (halt : State → Bool) (s : Session) (bound machine : Nat) (program : Value) :
    Run Value := do
  if s.announces machine then record (.programGiven program)
  evaluateAnnouncing (announceUntil halt) s.registries bound machine program (s.globals machine)

/-- The run of the program comes to the state when it starts to evaluate some node, or at its
end. -/
def Moment (s : Session) (machine : Nat) (program : Value) (t : State) : Prop :=
  ∃ halt bound, t = endState (s.runProgramUntil halt bound machine program s.state)

theorem runProgramUntil_never (s : Session) (bound machine : Nat) (program : Value) :
    s.runProgramUntil (fun _ => false) bound machine program =
      s.runProgram bound machine program := by
  have hnever : announceUntil (fun _ => false) = announceAll := by
    funext machine node scope t
    rfl
  unfold runProgramUntil runProgram
  rw [hnever, evaluate_eq_announcing]

/-- The end of a run is a moment of it. -/
theorem moment_end (s : Session) (bound machine : Nat) (program : Value) :
    s.Moment machine program (endState (s.runProgram bound machine program s.state)) :=
  ⟨fun _ => false, bound, by rw [runProgramUntil_never]⟩

end Session

theorem announceUntil_store (halt : State → Bool) (machine : Nat) (node : Value) (scope : Nat)
    (s : State) : (endState (announceUntil halt machine node scope s)).store = s.store := by
  show (endState ((if halt { s with trail := s.trail.push (.evaluated machine node scope) }
    then exhaust else pure ()) _)).store = s.store
  split <;> rfl

/-! ## Programs given to an interpreter -/

namespace Lexical

/-- How deep lists are nested in the program of the step. -/
def Step.depth : Step → Nat
  | .define .. | .draw _ => 0
  | .program _ node => node.depth

/-- The depth of the deepest program of all. -/
def deepest (steps : List Step) (program : Value) : Nat :=
  (steps.map Step.depth).foldr max program.depth

theorem depth_le_deepest (steps : List Step) (program : Value) :
    (∀ x ∈ steps, x.depth ≤ deepest steps program) ∧ program.depth ≤ deepest steps program := by
  induction steps with
  | nil => exact ⟨nofun, le_rfl⟩
  | cons x steps ih =>
    have hle : deepest steps program ≤ deepest (x :: steps) program := Nat.le_max_right ..
    refine ⟨List.forall_mem_cons.mpr ⟨Nat.le_max_left .., fun y hy => ?_⟩, ih.2.trans hle⟩
    exact (ih.1 y hy).trans hle

/-- The frame is the global one of the machine, and the frames made since then are staged. -/
structure Rooted (machine base limit : Nat) (s : Session) : Prop where
  globals : s.globals machine = base
  lt_size : base < s.store.size
  staged : s.store.Staged base limit

section

variable {machine base depth : Nat} {s : Session}

/-- The global frame has room for all lists of a program. -/
theorem Rooted.room (h : Rooted machine base (depth + 1) s) {p : Value} (hp : p.depth ≤ depth) :
    s.store.Room base (depth + 1) (s.globals machine) p.depth := by
  rw [h.globals]
  refine ⟨le_rfl, h.lt_size, ?_⟩
  rw [h.staged.wellFormed.chain_eq, h.staged.outermost]
  show 1 + p.depth ≤ depth + 1
  omega

theorem Rooted.moment (h : Rooted machine base (depth + 1) s) {p : Value} (hfree : p.ClosureFree)
    (hp : p.depth ≤ depth) {t : SmallLisp.State} (ht : s.Moment machine p t) :
    s.store ≤ t.store ∧ t.store.Staged base (depth + 1) := by
  obtain ⟨halt, bound, rfl⟩ := ht
  have hev : Staging.EvaluatesAll base (depth + 1)
      (evaluateAnnouncing (announceUntil halt) s.registries bound) :=
    Staging.evaluatesAll_announcing (announceUntil_store halt) bound
  have hrun : Staging.Keeps base (depth + 1) (Value.Fits base (depth + 1)) s.store
      (s.runProgramUntil halt bound machine p) := by
    unfold Session.runProgramUntil
    split
    · exact (Staging.keeps_record _).bind fun w _ hw _ =>
        hev w machine _ p hfree ((h.room hp).mono hw)
    · exact hev s.store machine _ p hfree (h.room hp)
  exact hrun.staged rfl h.staged

theorem Rooted.step (h : Rooted machine base (depth + 1) s) {x : Step} (hfree : x.ClosureFree)
    (hx : x.depth ≤ depth) : Rooted machine base (depth + 1) (x.run machine s) := by
  cases x with
  | define name value =>
    refine ⟨h.globals, ?_, h.staged.define _ name hfree.fits⟩
    show base < (s.store.define _ name value).size
    rw [Store.size_define]
    exact h.lt_size
  | draw count => exact ⟨h.globals, h.lt_size, h.staged⟩
  | program bound node =>
    obtain ⟨hle, hstaged⟩ := h.moment hfree hx (s.moment_end bound machine node)
    show Rooted machine base (depth + 1) (s.perform bound (.eval machine node)).2
    rw [Session.perform_eval]
    exact ⟨h.globals, Nat.lt_of_lt_of_le h.lt_size hle.1, hstaged⟩

theorem Rooted.steps (h : Rooted machine base (depth + 1) s) {steps : List Step}
    (hfree : ∀ x ∈ steps, x.ClosureFree) (hsteps : ∀ x ∈ steps, x.depth ≤ depth) :
    Rooted machine base (depth + 1) (steps.foldl (Step.run machine) s) := by
  induction steps generalizing s with
  | nil => exact h
  | cons x steps ih =>
    obtain ⟨hx, hfree⟩ := List.forall_mem_cons.mp hfree
    obtain ⟨hdepth, hsteps⟩ := List.forall_mem_cons.mp hsteps
    exact ih (h.step hx hdepth) hfree hsteps

end

theorem rooted_start {session : Session} (h : session.Sound) (traces : Option Bool)
    (setting : Option String) (depth : Nat) :
    Rooted session.machines.size session.store.size (depth + 1)
      (session.perform 0 (.interpreter traces setting)).2 := by
  have hsound := (h.perform 0 (.interpreter traces setting) trivial).state
  rw [Session.perform_interpreter] at hsound ⊢
  have hwell : (session.store.add ⟨.empty, none⟩).WellFormed := hsound.wellFormed
  have hempty : ∀ f, session.store.size ≤ f →
      (session.store.add ⟨.empty, none⟩).bindings f = .empty := by
    intro f hf
    rw [Store.bindings_add]
    split
    · rfl
    · unfold Store.bindings
      rw [Store.frame_of_size_le hf]
  have houter : (session.store.add ⟨.empty, none⟩).outer session.store.size = none := by
    rw [Store.outer_add, if_pos rfl]
  have hsize := Store.size_add session.store ⟨.empty, none⟩
  have hstaged : (session.store.add ⟨.empty, none⟩).Staged session.store.size (depth + 1) := by
    refine ⟨hwell, houter, fun f hf hlt => ?_, fun f hf hlt => ?_, fun f hf name v hv => ?_⟩
    · omega
    · obtain rfl : f = session.store.size := by omega
      rw [hwell.chain_eq, houter]
      simp
    · rw [hempty f hf] at hv
      cases hv
  exact ⟨by simp [Session.globals], hsize.ge, hstaged⟩

/-- Scope chains follow the text, not the calls. Whatever a host does with a new interpreter, as
long as it brings in no closures, and at every moment of every run, also one that fails or never
ends: the frames outward from any frame that there is since then are no more than one and the depth
of the deepest program, and the last of them is the global frame. -/
theorem chains_are_no_longer_than_programs_are_deep {session : Session} (h : session.Reachable)
    (traces : Option Bool) (setting : Option String) {steps : List Step}
    (hsteps : ∀ x ∈ steps, x.ClosureFree) {p : Value} (hp : p.ClosureFree) :
    let machine := session.machines.size
    let s := steps.foldl (Step.run machine) (session.perform 0 (.interpreter traces setting)).2
    ∀ t, s.Moment machine p t → ∀ f, session.store.size ≤ f → f < t.store.size →
      (t.store.chain f).length ≤ 1 + deepest steps p ∧ t.store.Walk f (t.store.chain f) ∧
        (t.store.chain f).getLast? = some (s.globals machine) := by
  intro machine s t ht f hf hlt
  obtain ⟨hdepths, hdepth⟩ := depth_le_deepest steps p
  have hrooted : Rooted machine session.store.size (deepest steps p + 1) s :=
    (rooted_start h.sound traces setting _).steps hsteps hdepths
  have hstaged := (hrooted.moment hp hdepth ht).2
  refine ⟨?_, hstaged.wellFormed.walk_chain f, ?_⟩
  · rw [Nat.add_comm]
    exact hstaged.length_le f hf hlt
  · rw [hrooted.globals, hstaged.wellFormed.getLast?_chain, hstaged.root_eq hf hlt]

/-- A recursion that never ends, halted on its way: there are more frames than a chain may have. -/
theorem an_endless_recursion_has_short_chains :
    let forever : Value := .ofList [.symbol "lambda", .ofList [], .ofList [.symbol "forever"]]
    let steps : List Step :=
      [.program 9 (.ofList [.symbol "set", .symbol "forever", forever])]
    let p : Value := .ofList [.symbol "forever"]
    let s := steps.foldl (Step.run 0) (Session.empty.perform 0 (.interpreter none none)).2
    let t := endState (s.runProgramUntil (fun t => t.store.size == 6) 9 0 p s.state)
    (∀ x ∈ steps, x.ClosureFree) ∧ p.ClosureFree ∧ s.Moment 0 p t ∧ 1 + deepest steps p = 4 ∧
      t.store.size = 6 ∧ (t.store.chain 5).length ≤ 1 + deepest steps p ∧
      (t.store.chain 5).getLast? = some (s.globals 0) := by
  intro forever steps p s t
  have hsteps : ∀ x ∈ steps, x.ClosureFree := by simp [steps, forever, Step.ClosureFree]
  have hp : p.ClosureFree := by simp [p]
  have ht : s.Moment 0 p t := ⟨_, _, rfl⟩
  have hsize : t.store.size = 6 := by decide +kernel
  have hchain := chains_are_no_longer_than_programs_are_deep .empty none none hsteps hp t ht 5
    (by decide) (by rw [hsize]; decide)
  exact ⟨hsteps, hp, ht, rfl, hsize, hchain.1, hchain.2.2⟩

end Lexical

end SmallLisp
