-- The sessions that a host can reach. A host asks for things with parts that the session holds:
-- scopes and machines that exist, values made of labels that were drawn for it. Every session
-- reached so is sound, and gives answers that it holds.
import SmallLisp.Session
import SmallLisp.Proofs.Growth

namespace SmallLisp

open Run

/-! ## Programs of a machine -/

/-- A machine evaluates programs as the evaluator does nodes; it may announce them first. -/
theorem Correspondence.Lawful.runProgram {W : Type} [Preorder W] {C : Correspondence W}
    {s s' : Session} (hC : C.Lawful s.registries s'.registries)
    {m m' : Nat} (hgiven : ∀ w p p', C.node w p (s.globals m) p' (s'.globals m') →
      (C.bond s.registries).Coupled (fun _ _ _ => True) w (record (.programGiven p))
        (record (.programGiven p')))
    (bound : Nat) (hm : C.machine m m') (ha : s.announces m = s'.announces m') {w : W}
    (he : C.scope w (s.globals m) (s'.globals m')) :
    C.EvaluatesAlike s.registries w (s.globals m) (s'.globals m') (s.runProgram bound m)
      (s'.runProgram bound m') := by
  intro w0 h0 n n' hn
  unfold Session.runProgram
  rw [← ha]
  have hev := hC.evaluate bound w0 m m' _ _ hm (hC.scope_mono h0 _ _ he)
  split
  · refine (hgiven w0 n n' hn).bind fun w1 _ _ h1 _ => ?_
    exact hev w1 h1 n n' (hC.node_mono h1 _ _ _ _ hn)
  · exact hev w0 le_rfl n n' hn

namespace Session

/-! ## Two requests by what they leave -/

theorem perform_interpreter (s : Session) (bound : Nat) (traces : Option Bool)
    (setting : Option String) : (s.perform bound (.interpreter traces setting)).2 =
      ⟨s.machines.push ⟨.standard, traces.getD (Setting.traceEnabled setting), s.store.size, true⟩,
        s.store.add ⟨.empty, none⟩, s.state.supply,
        s.state.trail.push (.registryBuilt .standard)⟩ := rfl

theorem perform_eval (s : Session) (bound machine : Nat) (program : Value) :
    (s.perform bound (.eval machine program)).2 =
      { s with state := endState (s.runProgram bound machine program s.state) } := by
  have hrun : s.run bound (.eval machine program) s.state =
      match s.runProgram bound machine program s.state with
      | .ok v t => .ok (.inl (.value v)) t
      | .error stop t => .error stop t := by
    show EStateM.bind _ _ s.state = _
    unfold EStateM.bind
    cases s.runProgram bound machine program s.state <;> rfl
  unfold perform
  rw [hrun]
  cases s.runProgram bound machine program s.state <;> rfl

/-! ## What a host can reach -/

/-- A sound state, and global frames that exist. -/
structure Sound (s : Session) : Prop where
  state : s.state.Sound
  globals_lt : ∀ m ∈ s.machines, m.globals < s.store.size

/-- The parts of a request exist in the session. -/
def Admits (s : Session) : Request → Prop
  | .interpreter .. => True
  | .evaluator globals _ _ => ∀ f, globals = some f → f < s.store.size
  | .eval machine program => machine < s.machines.size ∧ s.state.Holds program
  | .evalAll machine programs => machine < s.machines.size ∧ ∀ p ∈ programs, s.state.Holds p
  | .evalIn machine node scope =>
    machine < s.machines.size ∧ s.state.Admits (.evaluate machine node scope)
  | .apply machine head tail scope =>
    machine < s.machines.size ∧ s.state.Admits (.apply machine head tail scope)
  | .form machine _ tail scope =>
    machine < s.machines.size ∧ (∀ n ∈ tail, s.state.Holds n) ∧ scope < s.store.size
  | .closure machine _ body scope =>
    machine < s.machines.size ∧ (∀ b ∈ body, s.state.Holds b) ∧ scope < s.store.size
  | .invoke closure arguments caller => s.state.Admits (.invoke closure arguments caller)
  | .extend closure values => s.state.Holds (.closure closure) ∧ ∀ v ∈ values, s.state.Holds v
  | .newFrame outer => ∀ o, outer = some o → o < s.store.size
  | .define scope _ value => scope < s.store.size ∧ s.state.Holds value
  | .assign scope _ value => scope < s.store.size ∧ s.state.Holds value

/-- The session after its host has drawn labels for NaNs of its own. -/
def draw (s : Session) (count : Nat) : Session :=
  { s with state := { s.state with supply := s.state.supply + count } }

/-- The sessions that a host can reach. -/
inductive Reachable : Session → Prop
  | empty : Reachable .empty
  | draw {s : Session} (h : Reachable s) (count : Nat) : Reachable (s.draw count)
  | forgetTrail {s : Session} (h : Reachable s) : Reachable s.forgetTrail
  | perform {s : Session} (h : Reachable s) (bound : Nat) {request : Request}
      (hr : s.Admits request) : Reachable (s.perform bound request).2

/-- What a request gives exists in the state that it leaves. -/
def Given (t : State) : Answer ⊕ Machine → Prop
  | .inl (.value v) => t.Holds v
  | .inl (.frame f) => f < t.store.size
  | .inl _ => True
  | .inr m => m.globals < t.store.size

variable {s : Session}

theorem Sound.globals (hs : s.Sound) {m : Nat} (hm : m < s.machines.size) :
    s.globals m < s.store.size := by
  unfold Session.globals
  rw [Array.getElem?_eq_getElem hm]
  exact hs.globals_lt _ (Array.getElem_mem hm)

/-! ## Requests keep a session sound -/

/-- A sound end of a request that began in state `s`. -/
def SoundEnd (s : State) (r : EStateM.Result Stop State (Answer ⊕ Machine)) : Prop :=
  (endState r).Sound ∧ s.store.size ≤ (endState r).store.size ∧
    ∀ a, endValue? r = some a → Given (endState r) a

/-- A request that gives the value of a run ends as soundly as the run. -/
theorem soundEnd_value {s : State} {m : Run Value} (hgrown : s.Grown (endState (m s)))
    (hsound : (endState (m s)).Sound)
    (hvalue : ∀ v, endValue? (m s) = some v → (endState (m s)).Holds v) :
    SoundEnd s ((do return .inl (.value (← m)) : Run (Answer ⊕ Machine)) s) := by
  show SoundEnd s (EStateM.bind m _ s)
  unfold EStateM.bind
  generalize m s = r at hgrown hsound hvalue
  cases r with
  | ok v t =>
    refine ⟨hsound, hgrown.size_le, fun a ha => ?_⟩
    cases ha
    exact hvalue v rfl
  | error stop t => exact ⟨hsound, hgrown.size_le, fun a ha => by cases ha⟩

theorem soundEnd_entry (hs : s.Sound) (bound : Nat) {x : Entry} (hx : s.state.Admits x) :
    SoundEnd s.state
      ((do return .inl (.value (← x.run s.registries bound)) : Run (Answer ⊕ Machine)) s.state) :=
  have h := hs.state.entry s.registries bound hx
  soundEnd_value h.1 h.2.1 h.2.2

theorem soundEnd_programs (hs : s.Sound) (bound : Nat) {machine : Nat} (programs : List Value)
    (hm : machine < s.machines.size) (hp : ∀ p ∈ programs, s.state.Holds p) :
    SoundEnd s.state
      ((do return .inl (.value (← evaluateInTurn (s.runProgram bound machine) .nil programs)) :
        Run (Answer ⊕ Machine)) s.state) := by
  have hlawful := State.growth_lawful.toCorrespondence s.registries
  have hgiven : ∀ w p p', State.growth.toCorrespondence.node w p (s.globals machine) p'
      (s.globals machine) → (State.growth.toCorrespondence.bond s.registries).Coupled
        (fun _ _ _ => True) w (record (.programGiven p)) (record (.programGiven p')) := by
    rintro w p _ ⟨rfl, _⟩ t _ ⟨rfl, rfl, ht⟩
    exact .ok (State.grown_record t rfl) ⟨rfl, rfl, ht.trail _⟩ trivial
  have heach := hlawful.runProgram hgiven bound (m := machine) (w := s.state) ⟨rfl, trivial⟩ rfl
    ⟨rfl, hs.globals hm⟩
  have hrun := hlawful.evaluateInTurn heach .nil
    ((Invariant.nodes_iff rfl).mpr ⟨rfl, hp⟩)
  obtain ⟨t, grown, ⟨rfl, ht⟩, hv⟩ := (Invariant.end_of_coupled hrun
    (fun _ _ h => (Invariant.value_iff.mp h).2) ⟨rfl, hs.state⟩).state_and_value
  exact soundEnd_value grown ht hv

/-- A request that only fails. -/
theorem soundEnd_fail (hs : s.Sound) (cause : Fault) :
    SoundEnd s.state (fail cause s.state) :=
  ⟨hs.state, le_rfl, fun a ha => by cases ha⟩

theorem soundEnd_newFrame (hs : s.Sound) {f : Frame}
    (ho : ∀ o, f.outer = some o → o < s.store.size) (hd : f.bindings.Distinct)
    (hf : ∀ entry ∈ f.bindings.entries, s.state.Holds entry.2) :
    SoundEnd s.state
      ((do return .inl (.frame (← Run.newFrame f)) : Run (Answer ⊕ Machine)) s.state) := by
  have hsize : s.state.store.size < (s.state.store.add f).size := by simp
  refine ⟨hs.state.add ho hd hf, hsize.le, fun a ha => ?_⟩
  cases ha
  exact hsize

/-- The registry comes first: without it there is no new frame. -/
theorem soundEnd_evaluator (hs : s.Sound) {globals : Option Nat} (traces : Bool)
    (tables : Option (Table Builtin × Table String))
    (hg : ∀ f, globals = some f → f < s.store.size) :
    SoundEnd s.state
      ((do return .inr (← newEvaluator globals traces tables) : Run (Answer ⊕ Machine)) s.state) := by
  have hbuild : (∃ cause, buildRegistry tables = fail cause) ∨
      ∃ registry, buildRegistry tables = (do record (.registryBuilt registry); return registry) := by
    cases tables with
    | none => exact .inr ⟨_, rfl⟩
    | some tables =>
      unfold buildRegistry
      cases hr : Registry.build tables.1 tables.2 with
      | error cause => exact .inl ⟨cause, by simp only [hr]; rfl⟩
      | ok registry => exact .inr ⟨registry, by simp only [hr]; rfl⟩
  unfold newEvaluator
  rcases hbuild with ⟨cause, h⟩ | ⟨registry, h⟩
  · rw [h]
    exact soundEnd_fail hs cause
  · rw [h]
    cases globals with
    | some f =>
      refine ⟨hs.state.trail _, le_rfl, fun a ha => ?_⟩
      cases ha
      exact hg f rfl
    | none =>
      have hsize : s.state.store.size < (s.state.store.add ⟨.empty, none⟩).size := by simp
      refine ⟨(hs.state.add (f := ⟨.empty, none⟩) (fun o ho => by cases ho) List.nodup_nil
        fun _ he => by cases he).trail _, hsize.le, fun a ha => ?_⟩
      cases ha
      exact hsize

theorem soundEnd_closure (hs : s.Sound) {params body : List Value} {scope machine : Nat}
    (hb : ∀ b ∈ body, s.state.Holds b) (he : scope < s.store.size) :
    SoundEnd s.state ((do
      let names ← ofExcept (parameterTexts 0 params)
      return .inl (.value (.closure (← makeClosure names body scope machine))) :
        Run (Answer ⊕ Machine)) s.state) := by
  cases parameterTexts 0 params with
  | error cause => exact soundEnd_fail hs cause
  | ok names =>
    have hbody : ∀ b ∈ body, State.Holds { s.state with supply := s.state.supply + 1 } b :=
      fun b hm => (hb b hm).mono (s := s.state) (Nat.le_succ _) le_rfl
    refine ⟨(hs.state.supply 1).trail _, le_rfl, fun a ha => ?_⟩
    cases ha
    intro x hx
    cases hx with
    | self => exact ⟨Nat.lt_succ_self _, he⟩
    | body hm hx => exact hbody _ hm x hx

theorem soundEnd_run (hs : s.Sound) (bound : Nat) {request : Request} (hr : s.Admits request) :
    SoundEnd s.state (s.run bound request s.state) := by
  have hempty : ∀ entry ∈ (Table.empty : Table Value).entries, s.state.Holds entry.2 := by
    intro entry h
    cases h
  have hdistinct : (Table.empty : Table Value).Distinct := List.nodup_nil
  have hsize : s.state.store.size < (s.state.store.add ⟨.empty, none⟩).size := by simp
  have hadd := hs.state.add (f := ⟨.empty, none⟩) (fun o ho => by cases ho) hdistinct hempty
  cases request with
  | interpreter traces setting =>
    refine ⟨hadd.trail _, hsize.le, fun a ha => ?_⟩
    cases ha
    exact hsize
  | evaluator globals traces tables => exact soundEnd_evaluator hs traces tables hr
  | eval machine program =>
    have hone : evaluateInTurn (s.runProgram bound machine) .nil [program] =
        s.runProgram bound machine program := by simp [evaluateInTurn]
    have h := soundEnd_programs hs bound [program] hr.1 (by simpa using hr.2)
    rwa [hone] at h
  | evalAll machine programs => exact soundEnd_programs hs bound programs hr.1 hr.2
  | evalIn machine node scope => exact soundEnd_entry hs bound hr.2
  | apply machine head tail scope => exact soundEnd_entry hs bound hr.2
  | form machine name tail scope =>
    unfold Session.run
    dsimp only
    cases (s.registries machine).lookup? name with
    | some operation =>
      exact soundEnd_entry hs bound (x := .form operation machine tail scope) hr.2
    | none => exact soundEnd_fail hs _
  | closure machine params body scope => exact soundEnd_closure hs hr.2.1 hr.2.2
  | invoke closure arguments caller => exact soundEnd_entry hs bound (x := .invoke closure arguments caller) hr
  | extend closure values =>
    exact soundEnd_newFrame hs (fun o ho => by cases ho; exact (hr.1 _ .self).2)
      (Table.distinct_ofList _) fun entry he => hr.2 _ (Closure.mem_frame he)
  | newFrame outer => exact soundEnd_newFrame hs hr hdistinct hempty
  | define scope name value =>
    cases name with
    | symbol name =>
      refine ⟨hs.state.define scope name hr.2, (Store.size_define ..).ge, fun a ha => ?_⟩
      cases ha
      trivial
    | _ => exact soundEnd_fail hs _
  | assign scope name value =>
    cases name with
    | symbol name =>
      refine ⟨(hs.state.define _ name hr.2).trail _, (Store.size_define ..).ge, fun a ha => ?_⟩
      cases ha
      trivial
    | _ => exact soundEnd_fail hs _

theorem Sound.perform (hs : s.Sound) (bound : Nat) (request : Request) (hr : s.Admits request) :
    (s.perform bound request).2.Sound := by
  obtain ⟨hstate, hsize, hgiven⟩ := soundEnd_run hs bound hr
  have hglobals : ∀ m ∈ s.machines, m.globals < (endState (s.run bound request s.state)).store.size :=
    fun m hm => Nat.lt_of_lt_of_le (hs.globals_lt m hm) hsize
  unfold Session.perform
  generalize s.run bound request s.state = r at hstate hgiven hglobals
  rcases r with ⟨answer | machine, t⟩ | ⟨stop, t⟩
  · exact ⟨hstate, hglobals⟩
  · refine ⟨hstate, fun m hm => ?_⟩
    rcases Array.mem_push.mp hm with hm | rfl
    · exact hglobals m hm
    · exact hgiven _ rfl
  · exact ⟨hstate, hglobals⟩

theorem Sound.draw (hs : s.Sound) (count : Nat) : (s.draw count).Sound :=
  ⟨hs.state.supply count, hs.globals_lt⟩

theorem sound_empty : empty.Sound := by
  refine ⟨⟨Store.wellFormed_empty, fun f name v hm => ?_⟩, fun m hm => by simp [empty] at hm⟩
  rw [show empty.state.store.bindings f = .empty from Store.bindings_empty f] at hm
  cases hm

/-- Every session that a host can reach is sound. -/
theorem Reachable.sound (h : s.Reachable) : s.Sound := by
  induction h with
  | empty => exact sound_empty
  | draw _ count ih => exact ih.draw count
  | forgetTrail _ ih => exact ⟨ih.state.trail _, ih.globals_lt⟩
  | perform _ bound hr ih => exact ih.perform bound _ hr

end Session

/-! ## What runs leave in place -/

/-- In every session that a host can reach, whatever way the evaluator is entered and however the
run ends: frames stay where they are, frames inside others are never written to, roots only gain
names or overwrite values, and each new frame is that of one call, as it was when the call began. -/
theorem only_roots_change_and_only_by_growth {session : Session} (h : session.Reachable)
    (bound : Nat) {x : Entry} (hx : session.state.Admits x) :
    session.state.Grown (endState (x.run session.registries bound session.state)) :=
  (h.sound.state.entry session.registries bound hx).1

/-- A call of the identity in a new interpreter. -/
theorem growth_by_a_call_of_the_identity :
    let session := (Session.empty.perform 0 (.interpreter none none)).2
    let x := Entry.evaluate 0 (.ofList [.ofList [.symbol "lambda", .ofList [.symbol "x"],
      .symbol "x"], .number (.int 7)]) 0
    session.Reachable ∧ session.state.Admits x ∧
      session.state.Grown (endState (x.run session.registries 3 session.state)) := by
  intro session x
  have hreach : session.Reachable := .perform .empty 0 trivial
  have hadmits : session.state.Admits x := ⟨by simp [Number.labels], by decide⟩
  exact ⟨hreach, hadmits, only_roots_change_and_only_by_growth hreach 3 hadmits⟩

end SmallLisp
