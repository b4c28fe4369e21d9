-- Frames in a store are lexical scope. The second semantics follows the evaluator step by step: the
-- arguments of a call before its frame, the frame before the body, the innermost frame before
-- the others. So the two agree on every program, on its value, its fault and the globals it leaves.
import SmallLisp.Proofs.LexicalStates

namespace SmallLisp

namespace Lexical

variable {machine globals : Nat} {registries : Nat → Registry} {w : Layout}

/-- The bond of the two semantics. -/
def bond (machine globals : Nat) (registries : Nat → Registry) :
    Bond Layout SmallLisp.State State Stop Stop where
  state := Mirrors machine globals
  stop _ := StopsAlike .numbers registries
  excused _ := False

/-- Two ways to evaluate nodes agree from layout `w` on. -/
def Follows (machine globals : Nat) (registries : Nat → Registry) (w : Layout)
    (eval : Value → SmallLisp.Run Value) (eval' : Value → Run Term) : Prop :=
  ∀ w', w ≤ w' → ∀ n : Value, n.ClosureFree →
    (bond machine globals registries).Coupled (Stands machine) w' (eval n) (eval' n)

theorem Follows.mono {w' : Layout} {eval : Value → SmallLisp.Run Value}
    {eval' : Value → Run Term} (hw : w ≤ w')
    (h : Follows machine globals registries w eval eval') :
    Follows machine globals registries w' eval eval' :=
  fun w'' hw' => h w'' (hw.trans hw')

theorem coupled_fail {α β : Type} {A : Layout → α → β → Prop} {f f' : Fault}
    (h : Raised .numbers registries f f') :
    (bond machine globals registries).Coupled A w (Run.fail f) (fail f') :=
  Bond.coupled_throw (.fault h)

/-! ## Steps that touch a state -/

theorem coupled_record (e : Event) :
    (bond machine globals registries).Coupled (fun _ _ _ => True) w (Run.record e) (pure ()) :=
  fun _ _ h => .ok le_rfl (h.trail _) trivial

theorem coupled_reserve (count : Nat) :
    (bond machine globals registries).Coupled (fun _ l l' => l = l') w (Run.reserve count)
      (reserve count) :=
  fun _ _ h => .ok le_rfl (h.reserve count) h.supply

theorem coupled_lookup {e : Nat} {scope : Scope} (he : w.scope? e = some scope) (name : String) :
    (bond machine globals registries).Coupled
      (fun w store t => Option.Rel (Stands machine w) (store.lookup? e name) t) w Run.store
      (lookup scope name) :=
  fun _ _ h => .ok le_rfl h (h.lookup? he name)

/-- Assignment from any scope is one to the global table. -/
theorem coupled_assign {e : Nat} {scope : Scope} (he : w.scope? e = some scope) (name : String)
    {v : Value} {t : Term} (hv : Stands machine w v t) :
    (bond machine globals registries).Coupled (fun _ _ _ => True) w (Run.assign e name v)
      (assign name t) := by
  intro s r h
  have hroot := h.root_eq he
  subst hroot
  exact .ok le_rfl ((h.define name hv).trail _) trivial

theorem coupled_enter {c : Closure Value} {frames : Scope} (hc : w.scope? c.scope = some frames)
    {vs : List Value} {ts : List Term} (hvs : List.Forall₂ (Stands machine w) vs ts) :
    (bond machine globals registries).Coupled
      (fun w f _ => w.scope? f = some (c.params.zip ts :: frames)) w (Run.enter c vs)
      (pure ()) :=
  fun _ _ h => .ok (h.le_push _) ((h.enter hc hvs).trail _) (if_pos rfl)

theorem coupled_makeClosure {e : Nat} {scope : Scope} (he : w.scope? e = some scope)
    (names : List String) {body : List Value} (hb : ∀ b ∈ body, b.ClosureFree) :
    (bond machine globals registries).Coupled
      (fun w c id => Stands machine w (.closure c) (.closure id names body scope)) w
      (Run.makeClosure names body e machine) (reserve 1) := by
  intro s r h
  refine .ok le_rfl ((h.reserve 1).trail _) ?_
  rw [← h.supply]
  exact .closure (c := ⟨s.supply, names, body, e, machine⟩) rfl he hb

/-! ## Sequences of nodes -/

section

variable {eval : Value → SmallLisp.Run Value} {eval' : Value → Run Term} {e : Nat} {scope : Scope}

theorem Follows.each {ns : List Value} (hn : ∀ n ∈ ns, n.ClosureFree)
    (hev : Follows machine globals registries w eval eval') :
    (bond machine globals registries).Coupled
      (fun w vs ts => List.Forall₂ (Stands machine w) vs ts) w (evaluateEach eval ns)
      (each eval' ns) := by
  induction ns generalizing w with
  | nil => exact Bond.coupled_pure .nil
  | cons n ns ih =>
    refine (hev w le_rfl n (hn n (by simp))).bind fun w1 v t h1 hv => ?_
    refine (ih (fun n hm => hn n (List.mem_cons_of_mem _ hm)) (hev.mono h1)).bind
      fun w2 vs ts h2 hvs => ?_
    exact Bond.coupled_pure (.cons (hv.mono h2) hvs)

theorem Follows.inTurn {ns : List Value} (hn : ∀ n ∈ ns, n.ClosureFree)
    (hev : Follows machine globals registries w eval eval') {last : Value} {last' : Term}
    (hl : Stands machine w last last') :
    (bond machine globals registries).Coupled (Stands machine) w (evaluateInTurn eval last ns)
      (inTurn eval' last' ns) := by
  induction ns generalizing w last last' with
  | nil => exact Bond.coupled_pure hl
  | cons n ns ih =>
    refine (hev w le_rfl n (hn n (by simp))).bind fun w1 v t h1 hv => ?_
    exact ih (fun n hm => hn n (List.mem_cons_of_mem _ hm)) (hev.mono h1) hv

/-! ## The built-in operations -/

theorem coupled_addTo (total n : Number) :
    (bond machine globals registries).Coupled (fun _ a a' => a = a') w (Form.addTo total n)
      (addTo total n) := by
  refine (coupled_reserve 2).bind fun w1 l l' h1 hl => ?_
  subst hl
  cases hsum : total.add l n with
  | ok a => exact Bond.coupled_pure rfl
  | error cause => exact coupled_fail (.sum l n.alike_self total.alike_self hsum)

theorem Follows.sum {ns : List Value} (hn : ∀ n ∈ ns, n.ClosureFree)
    (hev : Follows machine globals registries w eval eval') (total : Number) :
    (bond machine globals registries).Coupled (fun _ a a' => a = a') w (Form.sum eval total ns)
      (sum eval' total ns) := by
  induction ns generalizing w total with
  | nil => exact Bond.coupled_pure rfl
  | cons n ns ih =>
    refine (hev w le_rfl n (hn n (by simp))).bind fun w1 v t h1 hv => ?_
    have halike := hv.alike
    cases hv with
    | number a =>
      refine (coupled_addTo total a).bind fun w2 b b' h2 hb => ?_
      subst hb
      exact ih (fun n hm => hn n (List.mem_cons_of_mem _ hm)) (hev.mono (h1.trans h2)) b
    | _ => exact coupled_fail (.notANumber halike)

theorem coupled_itemsOf (operation : Builtin) {v : Value} {t : Term} (hv : Stands machine w v t) :
    (bond machine globals registries).Coupled
      (fun w vs ts => List.Forall₂ (Stands machine w) vs ts) w (Form.itemsOf operation v)
      (itemsOf operation t) := by
  have halike := hv.alike
  cases hv with
  | nil => exact Bond.coupled_pure .nil
  | list b h => exact Bond.coupled_pure h
  | _ => exact coupled_fail (.notAList operation halike)

theorem stands_head {items : List Value} {terms : List Term}
    (h : List.Forall₂ (Stands machine w) items terms) :
    Stands machine w (items.head?.getD .nil) (terms.head?.getD .nil) := by
  cases h with
  | nil => exact .nil
  | cons h _ => exact h

theorem stands_tail {items : List Value} {terms : List Term}
    (h : List.Forall₂ (Stands machine w) items terms) :
    Stands machine w (Form.listOrNil items.tail) (listOrNil terms.tail) := by
  cases h with
  | nil => exact .nil
  | cons _ h =>
    cases h with
    | nil => exact .nil
    | cons h hs => exact .list .square (.cons h hs)

theorem Follows.choose {condition yes no : Value} (hc : condition.ClosureFree)
    (hy : yes.ClosureFree) (hno : no.ClosureFree)
    (hev : Follows machine globals registries w eval eval') :
    (bond machine globals registries).Coupled (Stands machine) w
      (Form.choose eval [condition, yes, no])
      (operation eval' scope .choose [condition, yes, no]) := by
  refine (hev w le_rfl condition hc).bind fun w1 v t h1 hv => ?_
  rw [hv.alike.isNil_eq]
  split
  · exact hev w1 h1 no hno
  · exact hev w1 h1 yes hy

theorem Follows.assign {name value : Value} (hn : name.ClosureFree) (hv : value.ClosureFree)
    (he : w.scope? e = some scope) (hev : Follows machine globals registries w eval eval') :
    (bond machine globals registries).Coupled (Stands machine) w
      (Form.assign eval e [name, value]) (operation eval' scope .assign [name, value]) := by
  refine (hev w le_rfl name hn).bind fun w1 a t h1 ha => ?_
  refine (hev w1 h1 value hv).bind fun w2 b u h2 hb => ?_
  have halike := ha.alike
  cases ha with
  | symbol name =>
    refine (coupled_assign (h2 _ _ (h1 _ _ he)) name hb).bind fun w3 _ _ h3 _ => ?_
    exact Bond.coupled_pure (hb.mono h3)
  | _ => exact coupled_fail (.unassignable halike)

theorem Follows.equal {left right : Value} (hl : left.ClosureFree) (hr : right.ClosureFree)
    (hev : Follows machine globals registries w eval eval') :
    (bond machine globals registries).Coupled (Stands machine) w (Form.equal eval [left, right])
      (operation eval' scope .equal [left, right]) := by
  refine (hev w le_rfl left hl).bind fun w1 a t h1 ha => ?_
  refine (hev w1 h1 right hr).bind fun w2 b u h2 hb => ?_
  have hone : OneToOne Likeness.numbers.label := by
    rintro l _ m _ rfl rfl
    rfl
  have heq := ha.alike.equal_eq hone hb.alike
  rw [← heq]
  cases hab : a.equal b with
  | some same =>
    cases same
    · exact Bond.coupled_pure .nil
    · exact Bond.coupled_pure (.bool true)
  | none => exact coupled_fail (.undecided ha.alike hb.alike hab)

theorem coupled_parameters (node : Value) :
    (bond machine globals registries).Coupled (fun _ ps ps' => ps = ps') w
      (Run.ofExcept (Form.parameters node)) (ofExcept (Form.parameters node)) := by
  rcases Correspondence.parameters_alike node.alike_self with ⟨ps, h, _⟩ | ⟨f, f', h, h', hf⟩
  · rw [h]
    exact Bond.coupled_pure rfl
  · rw [h] at h' ⊢
    cases h'
    exact coupled_fail hf

theorem coupled_lambda {params : Value} {body : List Value} (hb : ∀ b ∈ body, b.ClosureFree)
    (he : w.scope? e = some scope) :
    (bond machine globals registries).Coupled (Stands machine) w
      (Form.lambda machine e (params :: body))
      (operation eval' scope .lambda (params :: body)) := by
  refine (coupled_parameters params).bind fun w1 ps ps' h1 hps => ?_
  subst hps
  refine (coupled_makeClosure (h1 _ _ he) ps hb).bind fun w2 c id h2 hc => ?_
  exact Bond.coupled_pure hc

/-- Every built-in operation does the same with the same nodes. -/
theorem Follows.operation (b : Builtin) {ns : List Value} (hn : ∀ n ∈ ns, n.ClosureFree)
    (he : w.scope? e = some scope) (hev : Follows machine globals registries w eval eval') :
    (bond machine globals registries).Coupled (Stands machine) w (b.run eval machine e ns)
      (operation eval' scope b ns) := by
  cases b with
  | add =>
    refine (hev.sum hn (.int 0)).bind fun w1 a a' _ ha => ?_
    subst ha
    exact Bond.coupled_pure (.number a)
  | car =>
    match ns with
    | [n] =>
      refine (hev w le_rfl n (hn n (by simp))).bind fun w1 v t _ hv => ?_
      refine (coupled_itemsOf .car hv).bind fun w2 vs ts _ hvs => ?_
      exact Bond.coupled_pure (stands_head hvs)
    | [] | _ :: _ :: _ => exact coupled_fail (.argumentCount _)
  | cdr =>
    match ns with
    | [n] =>
      refine (hev w le_rfl n (hn n (by simp))).bind fun w1 v t _ hv => ?_
      refine (coupled_itemsOf .cdr hv).bind fun w2 vs ts _ hvs => ?_
      exact Bond.coupled_pure (stands_tail hvs)
    | [] | _ :: _ :: _ => exact coupled_fail (.argumentCount _)
  | quote =>
    match ns with
    | [n] => exact Bond.coupled_pure (stands_ofNode (hn n (by simp)))
    | [] | _ :: _ :: _ => exact coupled_fail (.argumentCount _)
  | cons =>
    match ns with
    | [head, rest] =>
      refine (hev w le_rfl rest (hn rest (by simp))).bind fun w1 v t _ hv => ?_
      exact Bond.coupled_pure (.list .square (.cons (stands_ofNode (hn head (by simp)))
        (.cons hv .nil)))
    | [] | [_] | _ :: _ :: _ :: _ => exact coupled_fail (.argumentCount _)
  | choose =>
    match ns with
    | [condition, yes, no] =>
      exact hev.choose (hn condition (by simp)) (hn yes (by simp)) (hn no (by simp))
    | [] | [_] | [_, _] | _ :: _ :: _ :: _ :: _ => exact coupled_fail (.argumentCount _)
  | assign =>
    match ns with
    | [name, value] => exact hev.assign (hn name (by simp)) (hn value (by simp)) he
    | [] | [_] | _ :: _ :: _ :: _ => exact coupled_fail (.argumentCount _)
  | equal =>
    match ns with
    | [left, right] => exact hev.equal (hn left (by simp)) (hn right (by simp))
    | [] | [_] | _ :: _ :: _ :: _ => exact coupled_fail (.argumentCount _)
  | lambda =>
    match ns with
    | [] => exact coupled_fail (.argumentCount _)
    | params :: body =>
      exact coupled_lambda (fun b hb => hn b (List.mem_cons_of_mem _ hb)) he

end

/-! ## Calls, application and evaluation -/

/-- Evaluations that agree in all frames that stand for a scope. -/
def FollowsAll (machine globals : Nat) (registries : Nat → Registry) (evals : Evaluation)
    (evals' : Scope → Value → Run Term) : Prop :=
  ∀ w e scope, w.scope? e = some scope →
    Follows machine globals registries w (evals machine · e) (evals' scope)

variable {evals : Evaluation} {evals' : Scope → Value → Run Term} {e : Nat} {scope : Scope}

/-- A call makes a frame in the closure's scope, whoever calls. -/
theorem FollowsAll.call (hev : FollowsAll machine globals registries evals evals')
    (he : w.scope? e = some scope) {c : Closure Value} {frames : Scope} (hm : c.machine = machine)
    (hc : w.scope? c.scope = some frames) (hb : ∀ b ∈ c.body, b.ClosureFree) {ns : List Value}
    (hn : ∀ n ∈ ns, n.ClosureFree) :
    (bond machine globals registries).Coupled (Stands machine) w (c.invoke evals ns e)
      (call evals' c.params c.body frames ns scope) := by
  unfold Lexical.call
  subst hm
  by_cases hlen : ns.length = c.params.length
  · rw [c.invoke_eq _ _ _ hlen, if_neg (not_not.mpr hlen)]
    refine ((hev w e scope he).each hn).bind fun w1 vs ts h1 hvs => ?_
    refine (coupled_enter (h1 _ _ hc) hvs).bind_left fun w2 f h2 hf => ?_
    exact (hev w2 f _ hf).inTurn hb .nil
  · rw [c.invoke_of_ne _ _ _ hlen, if_pos hlen]
    exact coupled_fail (.callCount _ _)

/-- A symbol in operator position that is bound to no closure. -/
theorem FollowsAll.builtin (hreg : registries machine = .standard)
    (hev : FollowsAll machine globals registries evals evals') (he : w.scope? e = some scope)
    (name : String) {ns : List Value} (hn : ∀ n ∈ ns, n.ClosureFree) :
    (bond machine globals registries).Coupled (Stands machine) w
      (match (registries machine).lookup? name with
        | some operation => operation.run (evals machine · e) machine e ns
        | none => Run.fail (.undefinedOperation (.symbol name)))
      (match Registry.standard.lookup? name with
        | some builtin => operation (evals' scope) scope builtin ns
        | none => fail (.undefinedOperation (.symbol name))) := by
  rw [hreg]
  cases hl : Registry.standard.lookup? name with
  | some builtin => exact (hev w e scope he).operation builtin hn he
  | none =>
    refine coupled_fail (.undefinedOperation (.symbol name) (by simp) ?_)
    intro name' hname
    cases hname
    exact ⟨machine, by rw [hreg, hl]⟩

theorem FollowsAll.apply (hreg : registries machine = .standard)
    (hev : FollowsAll machine globals registries evals evals') (he : w.scope? e = some scope)
    {v : Value} {t : Term} (hv : Stands machine w v t) {ns : List Value}
    (hn : ∀ n ∈ ns, n.ClosureFree) :
    (bond machine globals registries).Coupled (Stands machine) w
      (operate registries evals machine ns e v) (apply evals' ns scope t) := by
  have halike := hv.alike
  cases hv with
  | closure hm hc hb => exact hev.call he hm hc hb hn
  | symbol name =>
    refine (coupled_record _).bind_left fun w1 _ h1 _ => ?_
    refine (coupled_lookup (h1 _ _ he) name).bind fun w2 store o h2 ho => ?_
    have he2 := h2 _ _ (h1 _ _ he)
    have hb := hev.builtin hreg he2 name hn
    generalize store.lookup? e name = l at ho ⊢
    cases ho with
    | none => exact hb
    | some hv =>
      cases hv with
      | closure hm hc hbody => exact hev.call he2 hm hc hbody hn
      | _ => exact hb
  | _ => exact coupled_fail (.undefinedOperation halike (by simp) (by simp))

theorem evaluateWith_list (eval : Scope → Value → Run Term) (scope : Scope) (b : Brackets)
    (head : Value) (tail : List Value) :
    Lexical.evaluateWith eval scope (.list b (head :: tail)) =
      (if head.isList then eval scope head else pure (.ofNode head)) >>=
        Lexical.apply eval tail scope := by
  unfold Lexical.evaluateWith
  dsimp only
  split <;> rfl

theorem FollowsAll.evaluateWith (hreg : registries machine = .standard)
    (hev : FollowsAll machine globals registries evals evals') :
    FollowsAll machine globals registries (SmallLisp.evaluateWith registries evals)
      (Lexical.evaluateWith evals') := by
  intro w e scope he w0 h0 n hn
  unfold SmallLisp.evaluateWith
  refine (coupled_record _).bind_left fun w1 _ h1 _ => ?_
  have he1 := h1 _ _ (h0 _ _ he)
  cases n with
  | nil => exact Bond.coupled_pure .nil
  | null => exact Bond.coupled_pure .nil
  | bool b => exact Bond.coupled_pure (.bool b)
  | number n => exact Bond.coupled_pure (.number n)
  | symbol name =>
    refine (coupled_lookup he1 name).bind fun w2 store o _ ho => ?_
    generalize store.lookup? e name = l at ho ⊢
    cases ho with
    | none => exact Bond.coupled_pure (.symbol name)
    | some hv => exact Bond.coupled_pure hv
  | list b items =>
    cases items with
    | nil => exact Bond.coupled_pure .nil
    | cons head tail =>
      have hhead : head.ClosureFree := hn.item (by simp)
      have htail : ∀ n ∈ tail, n.ClosureFree := fun n hm => hn.item (List.mem_cons_of_mem _ hm)
      have hop : (bond machine globals registries).Coupled (Stands machine) w1
          (if head.isList then evals machine head e else pure head)
          (if head.isList then evals' scope head else pure (.ofNode head)) := by
        split
        · exact hev w1 e scope he1 w1 le_rfl head hhead
        · exact Bond.coupled_pure (stands_ofNode hhead)
      rw [evaluateWith_list]
      dsimp only
      rw [applyWith_eq]
      exact hop.bind fun w2 v t h2 hv => hev.apply hreg (h2 _ _ he1) hv htail
  | closure c => exact absurd .self (hn c)
  | host kind parts => exact coupled_fail (.notANode (.host kind parts))

/-- Evaluation agrees with lexical scope, however deep evaluations nest. -/
theorem followsAll_evaluate (globals : Nat) (hreg : registries machine = .standard)
    (bound : Nat) :
    FollowsAll machine globals registries (SmallLisp.evaluate registries bound)
      (evaluate bound) := by
  induction bound with
  | zero => exact fun _ _ _ _ _ _ _ _ => Bond.coupled_throw .exhausted
  | succ bound ih => exact ih.evaluateWith hreg

/-! ## Programs given to an interpreter -/

/-- What a host does with an interpreter. -/
inductive Step where
  /-- Defines a variable in the global frame. -/
  | define (name : String) (value : Value)
  /-- Draws labels for NaNs of its own. -/
  | draw (count : Nat)
  /-- Has a program evaluated, which may run into any fault. -/
  | program (bound : Nat) (node : Value)

/-- No closure comes in with the step. -/
def Step.ClosureFree : Step → Prop
  | .define _ value => value.ClosureFree
  | .draw _ => True
  | .program _ node => node.ClosureFree

/-- The step with an interpreter of a session. -/
def Step.run (machine : Nat) (s : Session) : Step → Session
  | .define name value => (s.perform 0 (.define (s.globals machine) (.symbol name) value)).2
  | .draw count => s.draw count
  | .program bound node => (s.perform bound (.eval machine node)).2

/-- The step in the second semantics. -/
def Step.follow (r : State) : Step → State
  | .define name value => { r with globals := r.globals.put name (.ofNode value) }
  | .draw count => { r with supply := r.supply + count }
  | .program bound node => Run.endState (evaluate bound [] node r)

/-- A value of a run and one of the second semantics are the same: they differ at most in how they
hold the scopes of their closures. -/
def Same (v : Value) (t : Term) : Prop := v.Alike .numbers t.plain

theorem Mirrors.run {s : SmallLisp.State} {r : State} (h : Mirrors machine globals w s r)
    {m : SmallLisp.Run Value} {k : Run Term}
    (hmk : (bond machine globals registries).Coupled (Stands machine) w m k) :
    ∃ w', Mirrors machine globals w' (Run.endState (m s)) (Run.endState (k r)) ∧
      EndsAlike Same (m s) (k r) := by
  have hend := hmk s r h
  generalize m s = x at hend ⊢
  generalize k r = y at hend ⊢
  cases hend with
  | ok _ states value => exact ⟨_, states, .value value.alike⟩
  | error _ states stops => exact ⟨_, states, stops.ends⟩
  | excused h => exact h.elim

/-- An interpreter of a session has come as far as the second semantics. -/
def InStep (machine : Nat) (s : Session) (r : State) : Prop :=
  s.registries machine = .standard ∧ ∃ w, Mirrors machine (s.globals machine) w s.state r

theorem inStep_start {s : Session} (hs : s.Sound) (traces : Option Bool)
    (setting : Option String) :
    InStep s.machines.size (s.perform 0 (.interpreter traces setting)).2
      ⟨.empty, s.state.supply⟩ := by
  have hsound := hs.perform 0 (.interpreter traces setting) trivial
  rw [Session.perform_interpreter] at hsound ⊢
  have hglobals : Session.globals
      ⟨s.machines.push ⟨.standard, traces.getD (Setting.traceEnabled setting), s.store.size, true⟩,
        s.store.add ⟨.empty, none⟩, s.state.supply,
        s.state.trail.push (.registryBuilt .standard)⟩ s.machines.size = s.store.size := by
    simp [Session.globals]
  refine ⟨by simp [Session.registries], ⟨fun f => if f = s.store.size then some [] else none⟩, ?_⟩
  rw [hglobals]
  have honly : ∀ {f scope}, (if f = s.store.size then some ([] : Scope) else none) = some scope →
      f = s.store.size ∧ scope = [] := by
    intro f scope hf
    split at hf
    · rename_i heq
      cases hf
      exact ⟨heq, rfl⟩
    · cases hf
  refine
    { wellFormed := hsound.state.wellFormed
      supply := rfl
      lt_size := ?_
      outermost := if_pos rfl
      eq_globals := fun hf => (honly hf).1
      root := ?_
      table := ?_
      inner := fun hf => by cases (honly hf).2 }
  · intro f scope hf
    rw [(honly hf).1]
    exact (Store.size_add ..).ge
  · rw [Store.outer_add, if_pos rfl]
  · rw [Store.bindings_add, if_pos rfl]
    exact .nil

theorem InStep.program {s : Session} {r : State} (h : InStep machine s r) (bound : Nat)
    {p : Value} (hp : p.ClosureFree) :
    InStep machine (s.perform bound (.eval machine p)).2 (Run.endState (evaluate bound [] p r)) ∧
      EndsAlike Same (s.runProgram bound machine p s.state) (evaluate bound [] p r) := by
  obtain ⟨hreg, w, hw⟩ := h
  have hev := followsAll_evaluate (s.globals machine) hreg bound
  have hrun : (bond machine (s.globals machine) s.registries).Coupled (Stands machine) w
      (s.runProgram bound machine p) (evaluate bound [] p) := by
    unfold Session.runProgram
    split
    · refine (coupled_record _).bind_left fun w1 _ h1 _ => ?_
      exact hev w1 _ [] (h1 _ _ hw.outermost) w1 le_rfl p hp
    · exact hev w _ [] hw.outermost w le_rfl p hp
  obtain ⟨w', hw', hagree⟩ := hw.run hrun
  rw [Session.perform_eval]
  exact ⟨⟨hreg, w', hw'⟩, hagree⟩

theorem InStep.step {s : Session} {r : State} (h : InStep machine s r) {x : Step}
    (hx : x.ClosureFree) : InStep machine (x.run machine s) (x.follow r) := by
  cases x with
  | define name value =>
    obtain ⟨hreg, w, hw⟩ := h
    exact ⟨hreg, w, hw.define name (stands_ofNode hx)⟩
  | draw count =>
    obtain ⟨hreg, w, hw⟩ := h
    exact ⟨hreg, w, hw.reserve count⟩
  | program bound node => exact (h.program bound hx).1

theorem InStep.steps {s : Session} {r : State} (h : InStep machine s r) {steps : List Step}
    (hsteps : ∀ x ∈ steps, x.ClosureFree) :
    InStep machine (steps.foldl (Step.run machine) s) (steps.foldl Step.follow r) := by
  induction steps generalizing s r with
  | nil => exact h
  | cons x steps ih =>
    exact ih (h.step (hsteps x List.mem_cons_self)) fun y hy =>
      hsteps y (List.mem_cons_of_mem _ hy)

/-- The global bindings: the same names in the same order, with the same values. -/
theorem InStep.globals_alike {s : Session} {r : State} (h : InStep machine s r) :
    (s.store.bindings (s.globals machine)).Alike Same r.globals := by
  obtain ⟨_, w, hw⟩ := h
  exact hw.table.mono fun _ _ => Stands.alike

/-- Frames in a store are lexical scope. Whatever a host does with a new interpreter, as long as
it brings in no closures: the next program ends as in the second semantics, and leaves the same
globals, also if it fails. -/
theorem frames_are_lexical_scope {session : Session} (h : session.Reachable)
    (traces : Option Bool) (setting : Option String) {steps : List Step}
    (hsteps : ∀ x ∈ steps, x.ClosureFree) (bound : Nat) {p : Value} (hp : p.ClosureFree) :
    let machine := session.machines.size
    let s := steps.foldl (Step.run machine) (session.perform 0 (.interpreter traces setting)).2
    let r := steps.foldl Step.follow ⟨.empty, session.state.supply⟩
    let s' := (s.perform bound (.eval machine p)).2
    let r' := Run.endState (evaluate bound [] p r)
    EndsAlike Same (s.runProgram bound machine p s.state) (evaluate bound [] p r) ∧
      (s.store.bindings (s.globals machine)).Alike Same r.globals ∧
      (s'.store.bindings (s'.globals machine)).Alike Same r'.globals := by
  intro machine s r s' r'
  have hstep : InStep machine s r := (inStep_start h.sound traces setting).steps hsteps
  obtain ⟨hnext, hagree⟩ := hstep.program bound hp
  exact ⟨hagree, hstep.globals_alike, hnext.globals_alike⟩

/-- A closure made inside a call, called after the call with a name of its own in scope. -/
theorem a_closure_keeps_the_scope_of_its_call :
    let call : Value → Value → Value := fun f x => .ofList [f, x]
    let steps : List Step := [.define "x" (.number (.int 1)),
      .program 9 (.ofList [.symbol "set", .symbol "f", .ofList [.symbol "lambda",
        .ofList [.symbol "x"], .ofList [.symbol "lambda", .ofList [.symbol "y"],
          .ofList [.symbol "+", .symbol "x", .symbol "y"]]]]),
      .program 9 (.ofList [.symbol "set", .symbol "g", call (.symbol "f") (.number (.int 10))])]
    let p := call (.symbol "g") (.number (.int 100))
    let s := steps.foldl (Step.run 0) (Session.empty.perform 0 (.interpreter none none)).2
    let r := steps.foldl Step.follow ⟨.empty, 0⟩
    (∀ x ∈ steps, x.ClosureFree) ∧ p.ClosureFree ∧
      EndsAlike Same (s.runProgram 9 0 p s.state) (evaluate 9 [] p r) ∧
      Run.endValue? (evaluate 9 [] p r) = some (.number (.int 110)) := by
  intro call steps p s r
  have hsteps : ∀ x ∈ steps, x.ClosureFree := by simp [steps, call, Step.ClosureFree]
  have hp : p.ClosureFree := by simp [p, call]
  exact ⟨hsteps, hp, (frames_are_lexical_scope .empty none none hsteps 9 hp).1, rfl⟩

end Lexical

end SmallLisp
