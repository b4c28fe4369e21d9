-- Programs that can be run again. A run that assigns nothing leaves every frame that was there as it
-- is. So the next run of the same program finds what the first one found, ends alike and assigns
-- nothing either, and so do all further runs.
import SmallLisp.Proofs.Isolation
import SmallLisp.Proofs.Trails

namespace SmallLisp

open Run

/-- The event is an assignment that has taken effect. -/
def Event.isAssignment : Event → Bool
  | assigned .. => true
  | _ => false

namespace State

/-- How many assignments have taken effect. -/
def assignments (s : State) : Nat := s.trail.countP Event.isAssignment

theorem assignments_push (s : State) (store : Store) (supply : Nat) (e : Event) :
    assignments ⟨store, supply, s.trail.push e⟩ =
      s.assignments + if e.isAssignment then 1 else 0 := Array.countP_push

/-! ## Without an assignment no frame changes -/

/-- As long as nothing has been assigned since the state `s`, its frames are as they were. -/
structure Untouched (s t : State) : Prop where
  size_le : s.store.size ≤ t.store.size
  assignments_le : s.assignments ≤ t.assignments
  frame_eq : t.assignments = s.assignments →
    ∀ f < s.store.size, t.store.frame f = s.store.frame f

namespace Untouched

variable {s t : State}

theorem refl (s : State) : s.Untouched s := ⟨le_rfl, le_rfl, fun _ _ _ => rfl⟩

/-- An event that is no assignment changes nothing. -/
theorem push (h : s.Untouched t) {e : Event} (he : e.isAssignment = false) (supply : Nat) :
    s.Untouched ⟨t.store, supply, t.trail.push e⟩ := by
  have hcount : assignments ⟨t.store, supply, t.trail.push e⟩ = t.assignments := by
    simp [assignments_push, he]
  exact ⟨h.size_le, hcount ▸ h.assignments_le, hcount ▸ h.frame_eq⟩

/-- An assignment is counted, whatever it does to the store. -/
theorem assign (h : s.Untouched t) (scope : Nat) (name : String) (v : Value) (root : Nat) :
    s.Untouched ⟨t.store.assign scope name v, t.supply, t.trail.push (.assigned root name)⟩ := by
  have hcount : assignments ⟨t.store.assign scope name v, t.supply,
      t.trail.push (.assigned root name)⟩ = t.assignments + 1 := assignments_push ..
  have hle := h.assignments_le
  refine ⟨by simpa [Store.assign] using h.size_le, by omega, fun heq => ?_⟩
  omega

/-- A new frame is not one of those that were there. -/
theorem add (h : s.Untouched t) (f : Frame) :
    s.Untouched { t with store := t.store.add f } := by
  have hsize := h.size_le
  refine ⟨by simpa using Nat.le_succ_of_le hsize, h.assignments_le, fun heq g hg => ?_⟩
  dsimp only
  rw [Store.frame_add, if_neg (by omega)]
  exact h.frame_eq heq g hg

end Untouched

/-- Everything may occur; only the frames of `s` are watched. -/
def untouched (s : State) : Invariant Unit where
  label _ _ := True
  closure _ _ := True
  scope _ _ := True
  node _ _ _ := True
  machine _ := True
  state _ t := s.Untouched t

theorem value_untouched {s : State} {w : Unit} {v : Value} : s.untouched.value w v := by
  intro x _
  cases x with
  | number n => exact fun _ _ => trivial
  | closure c => exact ⟨trivial, trivial⟩
  | _ => trivial

theorem untouched_lawful (s : State) : s.untouched.Lawful where
  label_mono _ _ h := h
  closure_mono _ _ h := h
  scope_mono _ _ h := h
  node_mono _ _ _ h := h
  node_value _ := value_untouched
  node_item _ _ _ := trivial
  machine_of_closure _ := trivial
  lookup _ _ _ := value_untouched
  evaluated _ _ _ t ht := ⟨_, _, (), rfl, le_rfl, ht.push rfl t.supply, trivial⟩
  dispatched _ _ t ht := ⟨_, _, (), rfl, le_rfl, ht.push rfl t.supply, trivial⟩
  assign _ _ _ _ _ ht := ⟨_, _, (), rfl, le_rfl, Untouched.assign ht .., trivial⟩
  labels _ _ ht := ⟨_, _, (), rfl, le_rfl, ⟨ht.size_le, ht.assignments_le, ht.frame_eq⟩, trivial,
    trivial⟩
  makeClosure _ _ _ _ _ _ ht := ⟨_, _, (), rfl, le_rfl, Untouched.push ht rfl _, value_untouched⟩
  enter _ _ _ t ht := ⟨_, _, (), rfl, le_rfl, (Untouched.add ht _).push rfl t.supply, trivial,
    fun _ _ => trivial⟩

/-- However the evaluator is entered and however the run ends: if nothing has been assigned, all
frames that were there are as they were. -/
theorem untouched_entry (registries : Nat → Registry) (bound : Nat) (x : Entry) (s : State) :
    s.Untouched (endState (x.run registries bound s)) := by
  have hadmits : s.untouched.Admits () x := by
    cases x with
    | evaluate => exact .evaluate trivial trivial trivial
    | apply => exact .apply trivial trivial trivial fun _ _ => trivial
    | form operation => exact .form operation trivial trivial fun _ _ => trivial
    | invoke => exact .invoke trivial (value_untouched) fun _ _ => trivial
  obtain ⟨_, _, hend, _⟩ :=
    ((untouched_lawful s).entry registries bound hadmits (Untouched.refl s)).state_and_value
  exact hend

end State

/-! ## Corresponding runs assign alike -/

/-- Corresponding events are assignments alike. -/
theorem tracks_assignments {W : Type} [Preorder W] (C : Correspondence W) (j k : Nat) :
    C.Tracks fun _ a b =>
      a.countP Event.isAssignment + j = b.countP Event.isAssignment + k where
  mono _ _ _ h := h
  evaluated _ _ _ h := by simpa [Array.countP_push, Event.isAssignment] using h
  dispatched _ h := by simpa [Array.countP_push, Event.isAssignment] using h
  assigned _ _ _ h := by
    simp only [Array.countP_push, Event.isAssignment, if_true]
    omega
  closureMade _ h := by simpa [Array.countP_push, Event.isAssignment] using h
  closureCalled _ _ h := by simpa [Array.countP_push, Event.isAssignment] using h

/-- Evaluations that reach the same assign equally often. -/
theorem assignments_of_same_reach (registries : Nat → Registry) (bound machine : Nat)
    {s t : State} {node : Value} {scope : Nat} (hs : s.Sound) (ht : t.Sound) (hns : s.Holds node)
    (hnt : t.Holds node) (hes : scope < s.store.size) (het : scope < t.store.size)
    (hst : ∀ f, s.store.Reaches node scope f → t.store.frame f = s.store.frame f) :
    (endState (evaluate registries bound machine node scope s)).assignments + t.assignments =
      (endState (evaluate registries bound machine node scope t)).assignments + s.assignments := by
  have hlinked := linked_of_same_reach hs ht hns hnt hes het hst
  have hlawful := Link.correspondence_lawful hlinked.fits registries registries fun m m' hm =>
    congrArg registries hm
  have htracks := tracks_assignments ((Link.same (s.store.Reaches node scope) s t).correspondence
    s t) t.assignments s.assignments
  have hrun := (hlawful.tracking htracks).evaluate bound (0, 0) machine machine scope scope rfl
    (.inl ⟨rfl, .scope⟩) (0, 0) le_rfl node node (alike_of_same_reach hns hnt) s t
    ⟨.refl hlinked, Nat.add_comm _ _⟩
  beta_reduce at hrun
  generalize evaluate registries bound machine node scope s = r at hrun ⊢
  generalize evaluate registries bound machine node scope t = r' at hrun ⊢
  cases hrun with
  | ok _ states _ => exact states.2
  | error _ states _ => exact states.2
  | excused h => exact h.elim

/-! ## Runs one after the other -/

/-- The state after so many runs, one after the other. -/
def repeated {α : Type} (run : Run α) : Nat → State → State
  | 0, s => s
  | n + 1, s => endState (run (repeated run n s))

/-- A run in the state `t` repeats the run in the state `s`: it ends alike, up to the numbers of what
the two runs make, assigns nothing, and keeps every frame. -/
structure Repeats (node : Value) (scope : Nat) (run : Run Value) (s t : State) : Prop where
  alike : ∃ n, let w := (Link.same (s.store.Reaches node scope) s t).grow s t n
    w.Fits (endState (run s)) (endState (run t)) ∧ EndsAlike (Value.Alike w.like) (run s) (run t)
  assigns_nothing : (endState (run t)).assignments = t.assignments
  frames_kept : ∀ f < t.store.size, (endState (run t)).store.frame f = t.store.frame f

/-- A state that has all frames of `s` as they are there. -/
structure State.Extends (s t : State) : Prop where
  sound : t.Sound
  size_le : s.store.size ≤ t.store.size
  supply_le : s.supply ≤ t.supply
  frame_eq : ∀ f < s.store.size, t.store.frame f = s.store.frame f

section

variable {registries : Nat → Registry} {bound machine scope : Nat} {node : Value} {s t : State}

/-- A program that assigns nothing in a state repeats itself in every state that extends this one. -/
theorem repeats_of_extends (hs : s.Sound) (hn : s.Holds node) (he : scope < s.store.size)
    (hnone : (endState (evaluate registries bound machine node scope s)).assignments =
      s.assignments) (ht : s.Extends t) :
    Repeats node scope (evaluate registries bound machine node scope) s t := by
  have hnt : t.Holds node := hn.mono ht.supply_le ht.size_le
  have het : scope < t.store.size := Nat.lt_of_lt_of_le he ht.size_le
  have hreach : ∀ f, s.store.Reaches node scope f → t.store.frame f = s.store.frame f :=
    fun f hf => ht.frame_eq f (hf.lt hs hs hn hn he he fun _ _ => rfl).1
  obtain ⟨n, honward, hends⟩ :=
    evaluate_of_same_reach registries bound machine hs ht.sound hn hnt he het hreach
  have hcount := assignments_of_same_reach registries bound machine hs ht.sound hn hnt he het hreach
  have hkept : (endState (evaluate registries bound machine node scope t)).assignments =
      t.assignments := by omega
  exact ⟨⟨n, honward.linked.fits, hends⟩, hkept,
    (State.untouched_entry registries bound (.evaluate machine node scope) t).frame_eq hkept⟩

/-- Each repetition leaves a state that extends the one before. -/
theorem Repeats.extends (h : Repeats node scope (evaluate registries bound machine node scope) s t)
    (hn : s.Holds node) (he : scope < s.store.size) (ht : s.Extends t) :
    s.Extends (endState (evaluate registries bound machine node scope t)) := by
  obtain ⟨hgrown, hsound, _⟩ := ht.sound.entry registries bound
    (x := .evaluate machine node scope)
    ⟨hn.mono ht.supply_le ht.size_le, Nat.lt_of_lt_of_le he ht.size_le⟩
  refine ⟨hsound, ht.size_le.trans hgrown.size_le, ht.supply_le.trans hgrown.supply_le,
    fun f hf => ?_⟩
  rw [← ht.frame_eq f hf]
  exact h.frames_kept f (Nat.lt_of_lt_of_le hf ht.size_le)

theorem extends_repeated (hs : s.Sound) (hn : s.Holds node) (he : scope < s.store.size)
    (hnone : (endState (evaluate registries bound machine node scope s)).assignments =
      s.assignments) (count : Nat) :
    s.Extends (repeated (evaluate registries bound machine node scope) count s) := by
  induction count with
  | zero => exact ⟨hs, le_rfl, le_rfl, fun _ _ => rfl⟩
  | succ count ih => exact (repeats_of_extends hs hn he hnone ih).extends hn he ih

end

/-- In every session that a host can reach: if a run ends, in whatever way, and has assigned nothing,
then the same program can be run again and again. Every further run ends like the first one, up to
the numbers of what the two have made, assigns nothing, and leaves all frames there are as they
are. -/
theorem a_program_that_assigns_nothing_can_be_repeated {session : Session} (h : session.Reachable)
    (bound machine : Nat) {node : Value} {scope : Nat} (hn : session.state.Holds node)
    (he : scope < session.store.size) :
    let run := evaluate session.registries bound machine node scope
    (endState (run session.state)).assignments = session.state.assignments →
      ∀ count, Repeats node scope run session.state (repeated run count session.state) :=
  fun hnone count => repeats_of_extends h.sound.state hn he hnone
    (extends_repeated h.sound.state hn he hnone count)

/-- The call of a closure that makes another one: it leaves a frame and two closures behind, and so
does every further call. -/
theorem a_call_that_returns_a_closure_can_be_repeated :
    let program : Value := .ofList [.ofList [.symbol "lambda", .ofList [.symbol "x"],
      .ofList [.symbol "lambda", .nil, .symbol "x"]], .number (.int 7)]
    let session := (Session.empty.perform 0 (.interpreter none none)).2
    let run := evaluate session.registries 4 0 program 0
    session.Reachable ∧ session.state.Holds program ∧ 0 < session.store.size ∧
      (endState (run session.state)).assignments = session.state.assignments ∧
      ∀ count, Repeats program 0 run session.state (repeated run count session.state) := by
  intro program session run
  have hreach : session.Reachable := .perform .empty 0 trivial
  have hprogram : session.state.Holds program := by simp [program, Number.labels]
  have hnone : (endState (run session.state)).assignments = session.state.assignments := by
    decide
  exact ⟨hreach, hprogram, by decide, hnone,
    a_program_that_assigns_nothing_can_be_repeated hreach 4 0 hprogram (by decide) hnone⟩

end SmallLisp
