-- Where the nodes that a run evaluates come from: the program it was given, and the bodies of the
-- closures that were there. A list that a run has put together, read from a variable or got back
-- from a call is data, and stays data for the rest of the run.
import SmallLisp.Proofs.Invariant
import SmallLisp.Proofs.Bindings

namespace SmallLisp

open Run

/-- The code that a program can run in a store: the program, the bodies of the closures bound
anywhere, and all items and closure bodies of these. -/
inductive Code (s : Store) (program : Value) : Value → Prop
  | program : Code s program program
  | bound {frame : Nat} {name : String} {v b : Value} {c : Closure Value}
      (hv : (name, v) ∈ (s.bindings frame).entries) (hc : (Value.closure c).IsPart v)
      (hb : b ∈ c.body) : Code s program b
  | item {b : Brackets} {items : List Value} {v : Value} (h : Code s program (.list b items))
      (hv : v ∈ items) : Code s program v
  | body {v b : Value} {c : Closure Value} (h : Code s program v)
      (hc : (Value.closure c).IsPart v) (hb : b ∈ c.body) : Code s program b

/-- All that the closures in a value can run is code. -/
def Value.RunsOnly (code : Value → Prop) (v : Value) : Prop :=
  ∀ c : Closure Value, (Value.closure c).IsPart v → ∀ b ∈ c.body, code b

/-- Since the given trail, only code has been evaluated. -/
def State.EvaluatedOnly (code : Value → Prop) (trail : Array Event) (s : State) : Prop :=
  ∃ events, s.trail = trail ++ events ∧
    ∀ machine node scope, .evaluated machine node scope ∈ events → code node

namespace State.EvaluatedOnly

variable {code : Value → Prop} {trail : Array Event} {s : State}

theorem refl (s : State) : s.EvaluatedOnly code s.trail :=
  ⟨#[], by simp, by simp⟩

/-- An event keeps the trail clean, if it evaluates code or nothing. -/
theorem push (h : s.EvaluatedOnly code trail) {e : Event} {store : Store} {supply : Nat}
    (he : ∀ machine node scope, e = .evaluated machine node scope → code node) :
    State.EvaluatedOnly code trail ⟨store, supply, s.trail.push e⟩ := by
  obtain ⟨events, ht, hev⟩ := h
  refine ⟨events.push e, by simp [ht], fun m n f hm => ?_⟩
  rcases Array.mem_push.mp hm with hm | hm
  · exact hev m n f hm
  · exact he m n f hm.symm

end State.EvaluatedOnly

namespace Code

variable {s : Store} {p : Value} {trail : Array Event}

theorem runsOnly {n : Value} (h : Code s p n) : n.RunsOnly (Code s p) :=
  fun _ hc _ hb => .body h hc hb

/-- Only code is evaluated and only code can be run by the closures there are. -/
def invariant (s : Store) (p : Value) (trail : Array Event) : Invariant Unit where
  label _ _ := True
  closure _ c := ∀ b ∈ c.body, Code s p b
  scope _ _ := True
  node _ n _ := Code s p n
  machine _ := True
  state _ t := t.EvaluatedOnly (Code s p) trail ∧
    ∀ f name v, (name, v) ∈ (t.store.bindings f).entries → v.RunsOnly (Code s p)

theorem value_iff {w : Unit} {v : Value} :
    (invariant s p trail).value w v ↔ v.RunsOnly (Code s p) := by
  constructor
  · exact fun h c hc => (h _ hc).2
  · intro h x hx
    cases x with
    | number n => exact fun _ _ => trivial
    | closure c => exact ⟨trivial, h c hx⟩
    | _ => trivial

theorem lawful (s : Store) (p : Value) (trail : Array Event) : (invariant s p trail).Lawful where
  label_mono _ _ h := h
  closure_mono _ _ h := h
  scope_mono _ _ h := h
  node_mono _ _ _ h := h
  node_value h := value_iff.mpr (runsOnly h)
  node_item h n hn := .item h hn
  machine_of_closure _ := trivial
  lookup := by
    intro w t e name v ht _ hl
    obtain ⟨f, hf⟩ := Store.mem_of_lookup? hl
    exact value_iff.mpr (ht.2 f name v hf)
  evaluated := by
    intro w m e n _ _ hn t ht
    refine ⟨(), _, w, rfl, le_rfl, ⟨ht.1.push fun m' n' e' h => ?_, ht.2⟩, trivial⟩
    cases h
    exact hn
  dispatched w name t ht :=
    ⟨(), _, w, rfl, le_rfl, ⟨ht.1.push (fun _ _ _ h => by cases h), ht.2⟩, trivial⟩
  assign := by
    intro w e name v _ hv t ht
    refine ⟨(), _, w, rfl, le_rfl, ⟨ht.1.push (fun _ _ _ h => by cases h), ?_⟩, trivial⟩
    intro f name' v' hm
    rcases Store.mem_bindings_define hm with h | h
    · cases h
      exact value_iff.mp hv
    · exact ht.2 f name' v' h
  labels w t ht := ⟨_, _, w, rfl, le_rfl, ht, trivial, trivial⟩
  makeClosure := by
    intro w e m params body _ _ hb t ht
    refine ⟨_, _, w, rfl, le_rfl, ⟨ht.1.push (fun _ _ _ h => by cases h), ht.2⟩, ?_⟩
    refine value_iff.mpr fun c hc b hbc => ?_
    cases hc with
    | self => exact hb b hbc
    | body hv hc => exact .body (hb _ hv) hc hbc
  enter := by
    intro w c vs hc _ hvs t ht
    refine ⟨_, _, w, rfl, le_rfl, ⟨ht.1.push (fun _ _ _ h => by cases h), ?_⟩, trivial, ?_⟩
    · intro f name v hm
      rcases Store.mem_bindings_add hm with h | h
      · exact value_iff.mp (hvs v (Closure.mem_frame h))
      · exact ht.2 f name v h
    · exact value_iff.mp hc c .self

end Code

/-- An operator node that evaluates to a list ends the application right there. -/
theorem apply_of_list {registries : Nat → Registry} {bound machine scope : Nat}
    {head : Value} (tail : List Value) {b : Brackets} {items : List Value} {s t : State}
    (hh : head.isList)
    (hev : evaluate registries bound machine head scope s = .ok (.list b items) t) :
    apply registries bound machine head tail scope s =
      .error (.fault (.undefinedOperation (.list b items))) t := by
  unfold apply
  rw [applyWith_eq, if_pos hh]
  show EStateM.bind _ _ s = _
  unfold EStateM.bind
  rw [hev]
  rfl

/-- Whatever a run evaluates is code that was there when it began, and so is whatever the closures
in its value and in the store can run afterwards. A list that comes out of the operator position
is refused, not run. -/
theorem data_is_never_run_as_code (registries : Nat → Registry) (bound machine scope : Nat)
    (program : Value) (s : State) :
    let r := evaluate registries bound machine program scope s
    let code := Code s.store program
    (endState r).EvaluatedOnly code s.trail ∧
      (∀ frame name v, (name, v) ∈ ((endState r).store.bindings frame).entries →
        v.RunsOnly code) ∧
      (∀ v, endValue? r = some v → v.RunsOnly code) ∧
      (program.isList → ∀ b items t, r = .ok (.list b items) t → ∀ tail,
        apply registries bound machine program tail scope s =
          .error (.fault (.undefinedOperation (.list b items))) t) := by
  intro r code
  have hstart : (Code.invariant s.store program s.trail).state () s :=
    ⟨.refl s, fun f name v hm c hc b hb => .bound hm hc hb⟩
  have hend : (Code.invariant s.store program s.trail).End registries _ () r :=
    (Code.lawful s.store program s.trail).entry registries bound
      (.evaluate (n := program) (e := scope) (m := machine) trivial trivial .program) hstart
  obtain ⟨_, _, hstate, hvalue⟩ := hend.state_and_value
  exact ⟨hstate.1, hstate.2, fun v hv => Code.value_iff.mp (hvalue v hv),
    fun hp b items t hr tail => apply_of_list tail hp hr⟩

end SmallLisp
