-- Tracing only observes. Whichever machines trace, requests get the same answers and leave the
-- same state, and the log differs in the records of evaluations alone. This also holds of a
-- machine that asks, whenever it comes to a node, whether it traces: its trail is what it keeps
-- of the trail on which everything is put.
import SmallLisp.Session
import SmallLisp.Proofs.Accord

namespace SmallLisp

open Run

/-! ## Machines that put their evaluations on the trail if they trace -/

/-- Puts the evaluation on the trail if the machine traces. -/
def announceTraced (traces : Nat → Bool) : Announcement := fun machine node scope =>
  if traces machine then record (.evaluated machine node scope) else return

/-- The run of an entry by machines that ask at each node whether they trace. -/
def Entry.runTraced (registries : Nat → Registry) (traces : Nat → Bool) (bound : Nat)
    (x : Entry) : Run Value :=
  x.runBy registries (evaluateAnnouncing (announceTraced traces) registries bound)

/-- What such machines keep of a trail: all but the evaluations of machines that do not trace. -/
def Event.isKept (traces : Nat → Bool) : Event → Bool
  | evaluated machine _ _ => traces machine
  | _ => true

/-- The result of a run with another trail. -/
def Run.withTrail {α : Type} (trail : Array Event) :
    EStateM.Result Stop State α → EStateM.Result Stop State α
  | .ok a s => .ok a { s with trail }
  | .error stop s => .error stop { s with trail }

@[simp] theorem Run.withTrail_withTrail {α : Type} (a b : Array Event)
    (r : EStateM.Result Stop State α) : withTrail a (withTrail b r) = withTrail a r := by
  cases r <;> rfl

@[simp] theorem Run.trail_withTrail {α : Type} (a : Array Event)
    (r : EStateM.Result Stop State α) : (endState (withTrail a r)).trail = a := by
  cases r <;> rfl

/-- Two states that differ in their trails only, of which the second has kept part of the first
since these were `a` and `b`. -/
structure Kept (traces : Nat → Bool) (a b : Array Event) (s t : State) : Prop where
  store : t.store = s.store
  supply : t.supply = s.supply
  trail : ∃ events, s.trail = a ++ events ∧ t.trail = b ++ events.filter (Event.isKept traces)

theorem Kept.eq {traces : Nat → Bool} {a b : Array Event} {s t : State}
    (h : Kept traces a b s t) : ∃ events, s.trail = a ++ events ∧
      t = { s with trail := b ++ events.filter (Event.isKept traces) } := by
  obtain ⟨store, supply, trail⟩ := t
  obtain ⟨hstore, hsupply, events, hs, ht⟩ := h
  dsimp only at hstore hsupply ht
  exact ⟨events, hs, by rw [hstore, hsupply, ht]⟩

/-- The accord of a run with the run of machines that ask whether they trace. -/
def keeping (traces : Nat → Bool) (a b : Array Event) : Accord where
  value _ := True
  machine _ := True
  state := Kept traces a b
  fault _ := True

section

variable {traces : Nat → Bool} {a b : Array Event}

/-- A step that neither reads the trail nor writes to it. -/
theorem agree_of_trailless {α : Type} {m : Run α} (f : Store → Nat → α × Store × Nat)
    (hm : ∀ s, m s = .ok (f s.store s.supply).1
      ⟨(f s.store s.supply).2.1, (f s.store s.supply).2.2, s.trail⟩) :
    (keeping traces a b).Agree (fun _ => True) m m := by
  rintro s t ⟨hstore, hsupply, htrail⟩
  rw [hm, hm, hstore, hsupply]
  exact .ok le_rfl ⟨rfl, rfl, htrail⟩ ⟨rfl, trivial⟩

theorem agree_record {e : Event} (he : e.isKept traces = true) :
    (keeping traces a b).Agree (fun _ => True) (record e) (record e) := by
  rintro s t ⟨hstore, hsupply, events, hs, ht⟩
  refine .ok le_rfl ⟨hstore, hsupply, events.push e, ?_, ?_⟩ ⟨rfl, trivial⟩
  · dsimp only
    rw [hs, Array.append_push]
  · dsimp only
    rw [ht, Array.filter_push_of_pos he (Array.size_push _), Array.append_push]

/-- An event that only the first run puts on its trail. -/
theorem agree_record_left {e : Event} (he : e.isKept traces = false) :
    (keeping traces a b).Agree (fun _ => True) (record e) (pure ()) := by
  rintro s t ⟨hstore, hsupply, events, hs, ht⟩
  refine .ok le_rfl ⟨hstore, hsupply, events.push e, ?_, ?_⟩ ⟨rfl, trivial⟩
  · dsimp only
    rw [hs, Array.append_push]
  · rw [ht, Array.filter_push_of_neg (by simp [he]) (Array.size_push _)]

theorem agree_store : (keeping traces a b).Agree (fun _ => True) store store :=
  agree_of_trailless (fun store supply => (store, store, supply)) fun _ => rfl

theorem agree_reserve (count : Nat) :
    (keeping traces a b).Agree (fun _ => True) (reserve count) (reserve count) :=
  agree_of_trailless (fun store supply => (supply, store, supply + count)) fun _ => rfl

theorem agree_newFrame (f : Frame) :
    (keeping traces a b).Agree (fun _ => True) (newFrame f) (newFrame f) :=
  agree_of_trailless (fun store supply => (store.size, store.add f, supply)) fun _ => rfl

theorem keeping_lawful (registries : Nat → Registry) :
    (keeping traces a b).Lawful registries announceAll (announceTraced traces) where
  nil := trivial
  bool _ := trivial
  symbol _ := trivial
  zero := trivial
  list_iff := ⟨fun _ _ _ => trivial, fun _ => trivial⟩
  closure _ := ⟨trivial, fun _ _ => trivial⟩
  lookup hs scope name := ⟨by rw [hs.store], fun _ _ => trivial⟩
  announced := by
    intro machine node _ _ scope
    unfold announceAll announceTraced
    split
    · rename_i htraces
      exact agree_record htraces
    · rename_i htraces
      exact agree_record_left (by simpa [Event.isKept] using htraces)
  dispatched name := agree_record rfl
  assign scope name v _ := agree_store.bind fun _ _ =>
    (agree_of_trailless (fun store supply => ((), store.assign scope name v, supply))
      fun _ => rfl).bind fun _ _ => agree_record rfl
  addTo := by
    intro total n _ _
    refine (agree_reserve 2).bind fun l _ => ?_
    cases total.add l n with
    | ok sum => exact Accord.agree_pure trivial
    | error cause => exact Accord.agree_fail trivial
  makeClosure params body scope _ _ := (agree_reserve 1).bind fun _ _ =>
    (agree_record rfl).bind fun _ _ => Accord.agree_pure trivial
  enter _ _ := (agree_newFrame _).bind fun _ _ =>
    (agree_record rfl).bind fun _ _ => Accord.agree_pure trivial
  reported _ := trivial
  undecided _ _ _ := trivial
  undefinedOperation _ _ _ := trivial

end

/-- Runs that agree end alike but for their trails: of the events that the first run adds to its trail,
the second one adds those that it keeps. -/
theorem withTrail_of_agree {α : Type} {P : α → Prop} {traces : Nat → Bool} {m k : Run α} {s t : State}
    (h : (keeping traces s.trail t.trail).Agree P m k) (hstore : t.store = s.store)
    (hsupply : t.supply = s.supply) :
    ∃ events, (endState (m s)).trail = s.trail ++ events ∧
      k t = withTrail (t.trail ++ events.filter (Event.isKept traces)) (m s) := by
  have hend := h s t ⟨hstore, hsupply, #[], by simp, by simp⟩
  generalize m s = r at hend ⊢
  generalize k t = r' at hend ⊢
  cases hend with
  | ok _ states values =>
    obtain ⟨events, hs, rfl⟩ := Kept.eq states
    obtain ⟨rfl, -⟩ := values
    exact ⟨events, hs, rfl⟩
  | error _ states stops =>
    obtain ⟨events, hs, rfl⟩ := Kept.eq states
    obtain ⟨rfl, -⟩ := stops
    exact ⟨events, hs, rfl⟩
  | excused h => exact h.elim

/-- Machines that ask whether they trace end as they do otherwise, but for the trail: of the
events that a run would put there they keep those that they are to. -/
theorem runTraced_eq (registries : Nat → Registry) (traces : Nat → Bool) (bound : Nat) (x : Entry)
    {s t : State} (hstore : t.store = s.store) (hsupply : t.supply = s.supply) :
    ∃ events, (endState (x.run registries bound s)).trail = s.trail ++ events ∧
      x.runTraced registries traces bound t =
        withTrail (t.trail ++ events.filter (Event.isKept traces)) (x.run registries bound s) := by
  have hx : (keeping traces s.trail t.trail).Admits x :=
    Judgement.admits_of_forall (fun _ => trivial) (fun _ => trivial) x
  rw [Entry.run_eq]
  exact withTrail_of_agree ((keeping_lawful registries).entry bound hx) hstore hsupply

/-- A run does not read its trail. With another one it goes the same way and adds the same events. -/
theorem Entry.run_withTrail (registries : Nat → Registry) (bound : Nat) (x : Entry) (s : State)
    (trail : Array Event) :
    ∃ events, (endState (x.run registries bound s)).trail = s.trail ++ events ∧
      x.run registries bound { s with trail } =
        withTrail (trail ++ events) (x.run registries bound s) := by
  obtain ⟨events, hend, hrun⟩ :=
    runTraced_eq registries (fun _ => true) bound x (s := s) (t := { s with trail }) rfl rfl
  have hall : events.filter (Event.isKept fun _ => true) = events := by
    rw [Array.filter_eq_self]
    intro e _
    cases e <;> rfl
  rw [hall] at hrun
  refine ⟨events, hend, ?_⟩
  rw [← hrun, Entry.run_eq]
  rfl

/-! ## The log without its evaluations -/

/-- The records that come from other parts than the evaluator. -/
def otherRecords (records : List LogRecord) : List LogRecord :=
  records.filter fun r => r.source ≠ .evaluator

/-- An event other than an evaluation shows alike whichever machines trace. -/
theorem filter_record? (traces traces' : Nat → Bool) (e : Event) :
    (e.record? traces).filter (fun r => r.source ≠ .evaluator) =
      (e.record? traces').filter fun r => r.source ≠ .evaluator := by
  cases e with
  | evaluated machine node scope =>
    cases h : traces machine <;> cases h' : traces' machine <;>
      simp [Event.record?, h, h', Option.filter]
  | _ => rfl

theorem otherRecords_logOf (traces traces' : Nat → Bool) (trail : Array Event) :
    otherRecords (logOf traces trail) = otherRecords (logOf traces' trail) := by
  unfold otherRecords logOf
  rw [List.filter_filterMap, List.filter_filterMap]
  exact List.filterMap_congr fun e _ => filter_record? traces traces' e

/-- What machines that ask whether they trace have put on a trail shows in full. -/
theorem logOf_filter_isKept (traces : Nat → Bool) (trail : Array Event) :
    logOf (fun _ => true) (trail.filter (Event.isKept traces)) = logOf traces trail := by
  unfold logOf
  rw [Array.toList_filter, List.filterMap_filter]
  refine List.filterMap_congr fun e _ => ?_
  cases e with
  | evaluated machine node scope =>
    cases h : traces machine <;> simp [Event.isKept, Event.record?, h]
  | _ => rfl

/-- Machines that ask whether they trace end as others do, and their trail is what shows of the
full one. -/
theorem runTraced_unobserved (registries : Nat → Registry) (traces : Nat → Bool) (bound : Nat)
    (x : Entry) {s : State} (hs : s.trail = #[]) :
    withTrail #[] (x.runTraced registries traces bound s) =
        withTrail #[] (x.run registries bound s) ∧
      logOf (fun _ => true) (endState (x.runTraced registries traces bound s)).trail =
        logOf traces (endState (x.run registries bound s)).trail := by
  obtain ⟨events, hfull, hr⟩ := runTraced_eq registries traces bound x (s := s) rfl rfl
  rw [hr, hfull, hs]
  simp [logOf_filter_isKept]

/-! ## Sessions that differ in which machines trace -/

/-- The machine without tracing. -/
def Machine.silent (m : Machine) : Machine := { m with traces := false }

/-- The request for a machine that does not trace; all other requests as they are. -/
def Request.silent : Request → Request
  | interpreter _ _ => interpreter (some false) none
  | evaluator globals _ tables => evaluator globals false tables
  | request => request

theorem map_fail {α β : Type} (f : α → β) (cause : Fault) : f <$> fail cause = fail cause := rfl

namespace Session

/-- The session with machines that do not trace. -/
def silent (s : Session) : Session := { s with machines := s.machines.map Machine.silent }

theorem registries_silent (s : Session) : s.silent.registries = s.registries := by
  funext m
  unfold registries silent
  cases h : s.machines[m]? <;> simp [h, Machine.silent]

theorem globals_silent (s : Session) : s.silent.globals = s.globals := by
  funext m
  unfold globals silent
  cases h : s.machines[m]? <;> simp [h, Machine.silent]

theorem announces_silent (s : Session) : s.silent.announces = s.announces := by
  funext m
  unfold announces silent
  cases h : s.machines[m]? <;> simp [h, Machine.silent]

theorem runProgram_silent (s : Session) : s.silent.runProgram = s.runProgram := by
  unfold runProgram
  rw [registries_silent, globals_silent, announces_silent]

/-- Which machines trace has no part in the run of a request. -/
theorem run_silent (s : Session) (bound : Nat) (request : Request) :
    s.silent.run bound request.silent = Sum.map id Machine.silent <$> s.run bound request := by
  unfold run
  rw [registries_silent, runProgram_silent]
  cases request with
  | interpreter => simp [Request.silent, newInterpreter, Machine.silent]
  | evaluator globals => cases globals <;> simp [Request.silent, newEvaluator, Machine.silent]
  | form machine name tail scope =>
    simp only [Request.silent]
    cases (s.registries machine).lookup? name <;> simp [map_fail]
  | define scope name value | assign scope name value =>
    simp only [Request.silent]
    cases name <;> simp [map_fail]
  | _ => simp [Request.silent]

theorem perform_silent (s : Session) (bound : Nat) (request : Request) :
    s.silent.perform bound request.silent =
      ((s.perform bound request).1, (s.perform bound request).2.silent) := by
  have hrun : s.silent.run bound request.silent s.silent.state =
      EStateM.map (Sum.map id Machine.silent) (s.run bound request) s.state := by
    rw [run_silent]
    rfl
  unfold perform
  rw [hrun]
  unfold EStateM.map
  rcases s.run bound request s.state with ⟨answer | machine, t⟩ | ⟨stop, t⟩
  · rfl
  · simp [silent]
  · rfl

/-- Carries out requests one after the other, each with a bound of its own. -/
def performAll (s : Session) : List (Nat × Request) → List (Except Stop Answer) × Session
  | [] => ([], s)
  | (bound, request) :: rest =>
    let (answer, t) := s.perform bound request
    let (answers, u) := t.performAll rest
    (answer :: answers, u)

theorem performAll_silent (s : Session) (requests : List (Nat × Request)) :
    s.silent.performAll (requests.map fun (bound, request) => (bound, request.silent)) =
      ((s.performAll requests).1, (s.performAll requests).2.silent) := by
  induction requests generalizing s with
  | nil => rfl
  | cons first rest ih =>
    simp only [List.map_cons, performAll]
    rw [perform_silent, ih]

end Session

/-- Two sessions that differ only in which machines trace give the same answers to the same
requests, and differ afterwards only in which machines trace; so the stores, with all frames and
bindings, are the same, and so are the logs but for the records of evaluations. If machines
ask at each node whether they trace, and put the evaluation on the trail only then, the two runs of
an entry end in the same way, with the same records of everything else, and as they do without such
a question, and put on their trails just what shows of the full one. -/
theorem tracing_only_observes {s s' : Session} (h : s.silent = s'.silent) :
    (∀ requests requests' : List (Nat × Request),
      requests.map (fun (bound, request) => (bound, request.silent)) =
        requests'.map (fun (bound, request) => (bound, request.silent)) →
      (s.performAll requests).1 = (s'.performAll requests').1 ∧
      (s.performAll requests).2.silent = (s'.performAll requests').2.silent ∧
      otherRecords (s.performAll requests).2.log = otherRecords (s'.performAll requests').2.log) ∧
    ∀ (bound : Nat) (x : Entry),
      let full := x.run s.registries bound s.forgetTrail.state
      let r := x.runTraced s.registries s.traces bound s.forgetTrail.state
      let r' := x.runTraced s'.registries s'.traces bound s'.forgetTrail.state
      withTrail #[] r = withTrail #[] r' ∧
      otherRecords (logOf (fun _ => true) (endState r).trail) =
        otherRecords (logOf (fun _ => true) (endState r').trail) ∧
      withTrail #[] r = withTrail #[] full ∧
      logOf (fun _ => true) (endState r).trail = logOf s.traces (endState full).trail := by
  have hstate : s.state = s'.state := by
    show s.silent.state = s'.silent.state
    rw [h]
  have hreg : s.registries = s'.registries := by
    rw [← s.registries_silent, h, s'.registries_silent]
  refine ⟨fun requests requests' hr => ?_, fun bound x => ?_⟩
  · have hs := s.performAll_silent requests
    have hs' := s'.performAll_silent requests'
    rw [h, hr, hs'] at hs
    have hsilent := congrArg Prod.snd hs
    have htrail := congrArg (fun t : Session => t.state.trail) hsilent
    refine ⟨(congrArg Prod.fst hs).symm, hsilent.symm, ?_⟩
    unfold Session.log
    rw [otherRecords_logOf _ (s'.performAll requests').2.traces]
    exact congrArg (fun t => otherRecords (logOf _ t)) htrail.symm
  · have hstart : s'.forgetTrail.state = s.forgetTrail.state := by
      unfold Session.forgetTrail
      rw [hstate]
    rw [← hreg, hstart]
    obtain ⟨hr, hlog⟩ := runTraced_unobserved s.registries s.traces bound x
      (s := s.forgetTrail.state) rfl
    obtain ⟨hr', hlog'⟩ := runTraced_unobserved s.registries s'.traces bound x
      (s := s.forgetTrail.state) rfl
    exact ⟨hr.trans hr'.symm, by rw [hlog, hlog', otherRecords_logOf _ s'.traces], hr, hlog⟩

/-- Of two interpreters the one or the other traces. A closure of the first, which the second one
calls, gives more evaluations to see in the one case than in the other, and nothing else. -/
theorem a_closure_between_two_interpreters :
    let two := fun traces : Bool => (Session.empty.performAll
      [(0, .interpreter (some traces) none), (0, .interpreter (some !traces) none)]).2
    let identity : Closure Value := ⟨0, ["x"], [.symbol "x"], 0, 0⟩
    let call : Value := .ofList [.closure identity, .number (.int 7)]
    let requests : List (Nat × Request) :=
      [(2, .eval 0 (.ofList [.symbol "lambda", .ofList [.symbol "x"], .symbol "x"])),
        (2, .eval 1 call)]
    let after := fun traces => ((two traces).performAll requests).2
    (two true).silent = (two false).silent ∧
      (logOf (after true).traces (after true).state.trail).length = 9 ∧
      (logOf (after false).traces (after false).state.trail).length = 7 ∧
      otherRecords (after true).log = otherRecords (after false).log ∧
      withTrail #[] ((Entry.evaluate 1 call 1).runTraced (two true).registries (two true).traces 2
          (two true).forgetTrail.state) =
        withTrail #[] ((Entry.evaluate 1 call 1).runTraced (two false).registries
          (two false).traces 2 (two false).forgetTrail.state) := by
  intro two identity call requests after
  have hsilent : (two true).silent = (two false).silent :=
    (congrArg Prod.snd (Session.empty.performAll_silent
        [(0, .interpreter (some true) none), (0, .interpreter (some false) none)])).symm.trans
      (congrArg Prod.snd (Session.empty.performAll_silent
        [(0, .interpreter (some false) none), (0, .interpreter (some true) none)]))
  have h := tracing_only_observes hsilent
  exact ⟨hsilent, by decide, by decide, (h.1 requests requests rfl).2.2,
    (h.2 2 (.evaluate 1 call 1)).1⟩

end SmallLisp
