-- Interpreters side by side. Beside an interpreter that shares its session with others, another
-- one alone is given the same programs. As long as no closure is passed between the first and
-- the others, its results and its globals are those of the interpreter that is alone.
import SmallLisp.Proofs.Isolation

namespace SmallLisp

open Run

/-- The link of two new interpreters: their machines and their global frames. -/
def Link.start (own alone globals globals' : Nat) : Link where
  scope f f' := f = globals ∧ f' = globals'
  label _ _ := False
  machine m m' := m = own ∧ m' = alone

/-- The link with all that has been made on both sides since the states `s` and `t`. -/
def Link.since (w : Link) (s t s' : State) : Link :=
  w.grow s t (s'.store.size - s.store.size, s'.supply - s.supply)

/-- The frames that have no part in a link. -/
def Link.Apart (w : Link) (f : Nat) : Prop := ∀ f', ¬ w.scope f f'

theorem Link.Fits.apart_of_le {w : Link} {s t : State} (h : w.Fits s t) {f : Nat}
    (hf : s.store.size ≤ f) : w.Apart f := by
  intro f' hff
  have := h.scope_lt hff
  omega

theorem Link.apart_grow_iff {w : Link} {s t : State} {n : Nat × Nat} {f : Nat} :
    (w.grow s t n).Apart f ↔ w.Apart f ∧ (f < s.store.size ∨ s.store.size + n.1 ≤ f) := by
  constructor
  · intro h
    refine ⟨fun f' hf => h f' (.inl hf), ?_⟩
    by_contra hf
    exact h _ (.inr ⟨f - s.store.size, by omega, by omega, rfl⟩)
  · rintro ⟨h, hf⟩ f' (hff | ⟨i, hi, rfl, _⟩)
    · exact h f' hff
    · omega

/-- Histories of two sessions. In the first one the interpreter `own` works beside others, in the
second one `alone` is given what `own` is given, and nothing else happens. The link says what of
the two stands for each other: `own` may be given closures of its own, by whatever name they go,
and others only closures that `own` has no part in. -/
inductive Beside (own alone : Nat) : Link → Session → Session → Prop
  | start {s t : Session} (hs : s.Reachable) (ht : t.Reachable) (hown : own = s.machines.size)
      (halone : alone = t.machines.size) (traces traces' : Option Bool)
      (setting setting' : Option String) :
      Beside own alone (.start own alone s.store.size t.store.size)
        (s.perform 0 (.interpreter traces setting)).2
        (t.perform 0 (.interpreter traces' setting')).2
  /-- One more interpreter comes to the first session. -/
  | another {w : Link} {s t : Session} (h : Beside own alone w s t) (traces : Option Bool)
      (setting : Option String) :
      Beside own alone w (s.perform 0 (.interpreter traces setting)).2 t
  /-- Labels are drawn for the others. -/
  | draw {w : Link} {s t : Session} (h : Beside own alone w s t) (count : Nat) :
      Beside own alone w (s.draw count) t
  /-- Labels are drawn for both. -/
  | drawBoth {w : Link} {s t : Session} (h : Beside own alone w s t) (count : Nat) :
      Beside own alone (w.grow s.state t.state (0, count)) (s.draw count) (t.draw count)
  /-- Both are given a program, which may run into any fault. -/
  | own {w : Link} {s t : Session} (h : Beside own alone w s t) (bound : Nat) {p p' : Value}
      (hp : s.state.Holds p) (hp' : t.state.Holds p') (hpp : p.Alike w.like p') :
      Beside own alone
        (w.since s.state t.state (s.perform bound (.eval own p)).2.state)
        (s.perform bound (.eval own p)).2 (t.perform bound (.eval alone p')).2
  /-- Another one is given a program. -/
  | other {w : Link} {s t : Session} (h : Beside own alone w s t) (bound : Nat) {m : Nat}
      {q : Value} (hm : m < s.machines.size) (hne : m ≠ own) (hq : s.state.Holds q)
      (hfar : ∀ c : Closure Value, (Value.closure c).IsPart q → w.Apart c.scope) :
      Beside own alone w (s.perform bound (.eval m q)).2 t

/-- What a history keeps: linked parts of the two sessions stay alike, and nothing leads from the
rest of the first session into its linked part. -/
structure Bystander (own alone : Nat) (w : Link) (s t : Session) : Prop where
  left : s.Sound
  right : t.Sound
  linked : Linked w s.state t.state
  machine : ∀ {m m'}, w.machine m m' ↔ m = own ∧ m' = alone
  own_lt : own < s.machines.size
  alone_lt : alone < t.machines.size
  registry : s.registries own = t.registries alone
  announces : s.announces own = t.announces alone
  globals : w.scope (s.globals own) (t.globals alone)
  far : s.store.Closed fun f => f < s.store.size ∧ w.Apart f
  others : ∀ m, m < s.machines.size → m ≠ own → w.Apart (s.globals m)

namespace Bystander

variable {own alone : Nat} {w : Link} {s t : Session}

theorem start (hs : s.Sound) (ht : t.Sound) (traces traces' : Option Bool)
    (setting setting' : Option String) :
    Bystander s.machines.size t.machines.size
      (.start s.machines.size t.machines.size s.store.size t.store.size)
      (s.perform 0 (.interpreter traces setting)).2
      (t.perform 0 (.interpreter traces' setting')).2 := by
  have hs' := hs.perform 0 (.interpreter traces setting) trivial
  have ht' := ht.perform 0 (.interpreter traces' setting') trivial
  rw [Session.perform_interpreter] at hs' ht' ⊢
  rw [Session.perform_interpreter]
  refine
    { left := hs'
      right := ht'
      linked :=
        { fits :=
            { scope_lt := ?_
              label_lt := fun h => h.elim
              scope_one := ?_
              label_one := fun _ _ _ _ h => h.elim }
          left := hs'.state.wellFormed
          right := ht'.state.wellFormed
          outer := ?_
          bindings := ?_ }
      machine := Iff.rfl
      own_lt := by simp
      alone_lt := by simp
      registry := by simp [Session.registries]
      announces := by simp [Session.announces]
      globals := by simp [Session.globals, Link.start]
      far := ⟨?_, ?_⟩
      others := ?_ }
  · rintro f f' ⟨rfl, rfl⟩
    exact ⟨(Store.size_add ..).ge, (Store.size_add ..).ge⟩
  · rintro f f' g g' ⟨rfl, rfl⟩ ⟨rfl, rfl⟩
    exact ⟨fun _ => rfl, fun _ => rfl⟩
  · rintro f f' ⟨rfl, rfl⟩
    simp only [Session.store, Store.outer_add, if_true]
    exact .none
  · rintro f f' ⟨rfl, rfl⟩
    simp only [Session.store, Store.bindings_add, if_true]
    exact .nil
  · rintro f o ⟨hf, hapart⟩ ho
    have hne : f ≠ s.state.store.size := fun h => hapart _ ⟨h, rfl⟩
    simp only [Session.store, Store.outer_add, Store.size_add, if_neg hne] at ho hf ⊢
    have hlt := hs.state.wellFormed.outer_lt f o ho
    exact ⟨by omega, fun f' h => absurd h.1 (by omega)⟩
  · rintro f name v c ⟨hf, hapart⟩ hv hc
    have hne : f ≠ s.state.store.size := fun h => hapart _ ⟨h, rfl⟩
    simp only [Session.store, Store.bindings_add, Store.size_add, if_neg hne] at hv hf ⊢
    have hlt := (hs.state.holds f name v hv _ hc).2
    dsimp only at hlt
    exact ⟨by omega, fun f' h => absurd h.1 (by omega)⟩
  · intro m hm hne f' h
    have hlt : m < s.machines.size := by
      rw [Array.size_push] at hm
      omega
    have hglobals := hs.globals hlt
    simp only [Session.globals, Array.getElem?_push, if_neg hne] at h
    unfold Session.globals at hglobals
    exact absurd h.1 (by omega)

/-- The frame of one more interpreter is no one's before. -/
theorem another (h : Bystander own alone w s t) (traces : Option Bool)
    (setting : Option String) :
    Bystander own alone w (s.perform 0 (.interpreter traces setting)).2 t := by
  have hs' := h.left.perform 0 (.interpreter traces setting) trivial
  have hnew : w.Apart s.state.store.size := h.linked.fits.apart_of_le le_rfl
  have hown : ¬ own = s.machines.size := by
    have := h.own_lt
    omega
  rw [Session.perform_interpreter] at hs' ⊢
  refine
    { left := hs'
      right := h.right
      linked := h.linked.of_left hs'.state.wellFormed (by simp [Session.store]) le_rfl ?_
      machine := h.machine
      own_lt := by simpa using Nat.lt_succ_of_lt h.own_lt
      alone_lt := h.alone_lt
      registry := ?_
      announces := ?_
      globals := ?_
      far := ⟨?_, ?_⟩
      others := ?_ }
  · intro f f' hf
    have hlt := (h.linked.fits.scope_lt hf).1
    dsimp only
    rw [Session.store, Store.frame_add, if_neg (by omega)]
  · simpa only [Session.registries, Array.getElem?_push, if_neg hown] using h.registry
  · simpa only [Session.announces, Array.getElem?_push, if_neg hown] using h.announces
  · simpa only [Session.globals, Array.getElem?_push, if_neg hown] using h.globals
  · rintro f o ⟨hf, hapart⟩ ho
    simp only [Session.store, Store.outer_add, Store.size_add] at ho hf ⊢
    split at ho
    · cases ho
    · have hfar := h.far.outer (f := f) ⟨by unfold Session.store; omega, hapart⟩ ho
      exact ⟨Nat.lt_succ_of_lt hfar.1, hfar.2⟩
  · rintro f name v c ⟨hf, hapart⟩ hv hc
    simp only [Session.store, Store.bindings_add, Store.size_add] at hv hf ⊢
    split at hv
    · cases hv
    · have hfar := h.far.binding (f := f) ⟨by unfold Session.store; omega, hapart⟩ hv hc
      exact ⟨Nat.lt_succ_of_lt hfar.1, hfar.2⟩
  · intro m hm hne
    simp only [Session.globals, Array.getElem?_push]
    split
    · exact hnew
    · refine h.others m ?_ hne
      rw [Array.size_push] at hm
      omega

theorem draw (h : Bystander own alone w s t) (count : Nat) :
    Bystander own alone w (s.draw count) t :=
  { h with
    left := h.left.draw count
    linked := h.linked.of_left h.linked.left le_rfl (Nat.le_add_right _ _) fun _ => rfl }

theorem drawBoth (h : Bystander own alone w s t) (count : Nat) :
    Bystander own alone (w.grow s.state t.state (0, count)) (s.draw count) (t.draw count) := by
  have hlinked := ((Onward.refl h.linked).labels h.linked.fits count).linked
  have hapart : ∀ f, (w.grow s.state t.state (0, count)).Apart f ↔ w.Apart f := by
    intro f
    rw [Link.apart_grow_iff]
    exact and_iff_left (by omega)
  rw [Nat.zero_add] at hlinked
  refine
    { h with
      left := h.left.draw count
      right := h.right.draw count
      linked := hlinked
      globals := .inl h.globals
      far := ?_
      others := ?_ }
  · simp only [hapart]
    exact h.far
  · simp only [hapart]
    exact h.others

/-- A program that both are given ends alike for both. -/
theorem own_step (h : Bystander own alone w s t) (bound : Nat) {p p' : Value}
    (hp : s.state.Holds p) (hp' : t.state.Holds p') (hpp : p.Alike w.like p') :
    let w' := w.since s.state t.state (s.perform bound (.eval own p)).2.state
    Bystander own alone w' (s.perform bound (.eval own p)).2 (t.perform bound (.eval alone p')).2 ∧
      EndsAlike (Value.Alike w'.like) (s.runProgram bound own p s.state)
        (t.runProgram bound alone p' t.state) := by
  have hs' := h.left.perform bound (.eval own p) ⟨h.own_lt, hp⟩
  have ht' := h.right.perform bound (.eval alone p') ⟨h.alone_lt, hp'⟩
  rw [Session.perform_eval] at hs' ht'
  have hlawful := Link.correspondence_lawful h.linked.fits s.registries t.registries
    fun m m' hm => by
      obtain ⟨rfl, rfl⟩ := h.machine.mp hm
      exact h.registry
  have hrun := hlawful.runProgram (fun _ _ _ _ _ _ hst => .ok le_rfl (hst.trail _ _) trivial)
    bound (h.machine.mpr ⟨rfl, rfl⟩) h.announces (w := (0, 0)) (.inl h.globals) (0, 0) le_rfl p p'
    (by
      show p.Alike (w.grow s.state t.state (0, 0)).like p'
      rwa [Link.grow_zero])
  obtain ⟨n, honward, hends⟩ := h.linked.run hrun
  have hsince : w.since s.state t.state (endState (s.runProgram bound own p s.state)) =
      w.grow s.state t.state n := by
    unfold Link.since
    rw [honward.size, honward.supply, Nat.add_sub_cancel_left, Nat.add_sub_cancel_left]
  rw [Session.perform_eval, Session.perform_eval]
  dsimp only
  rw [hsince]
  generalize endState (s.runProgram bound own p s.state) = s' at hs' honward
  generalize endState (t.runProgram bound alone p' t.state) = t' at ht' honward
  -- the frames apart are those from before, as they were
  have hapart : ∀ f, f < s'.store.size → (w.grow s.state t.state n).Apart f →
      (f < s.store.size ∧ w.Apart f) ∧ s'.store.frame f = s.store.frame f := by
    intro f hf hfar
    obtain ⟨hw, hlt⟩ := Link.apart_grow_iff.mp hfar
    have hsize := honward.size
    have hold : f < s.state.store.size := by omega
    exact ⟨⟨hold, hw⟩, honward.apart f hold hw⟩
  have hkept : ∀ f, f < s.store.size ∧ w.Apart f →
      f < s'.store.size ∧ (w.grow s.state t.state n).Apart f := by
    rintro f ⟨hf, hw⟩
    have hsize := honward.size
    unfold Session.store at hf
    exact ⟨by omega, Link.apart_grow_iff.mpr ⟨hw, .inl hf⟩⟩
  refine ⟨?_, hends⟩
  refine
    { h with
      left := hs'
      right := ht'
      linked := honward.linked
      globals := .inl h.globals
      far := ⟨?_, ?_⟩
      others := fun m hm hne => (hkept _ ⟨h.left.globals hm, h.others m hm hne⟩).2 }
  · rintro f o ⟨hf, hfar⟩ ho
    obtain ⟨hold, hframe⟩ := hapart f hf hfar
    refine hkept o (h.far.outer hold ?_)
    unfold Store.outer
    rw [← hframe]
    exact ho
  · rintro f name v c ⟨hf, hfar⟩ hv hc
    obtain ⟨hold, hframe⟩ := hapart f hf hfar
    have hold' : (name, v) ∈ (s.store.bindings f).entries := by
      unfold Store.bindings
      rw [← hframe]
      exact hv
    exact hkept c.scope (h.far.binding hold hold' hc)

/-- A program of another one leaves all linked frames as they are. -/
theorem other_step (h : Bystander own alone w s t) (bound : Nat) {m : Nat} {q : Value}
    (hm : m < s.machines.size) (hne : m ≠ own) (hq : s.state.Holds q)
    (hfar : ∀ c : Closure Value, (Value.closure c).IsPart q → w.Apart c.scope) :
    Bystander own alone w (s.perform bound (.eval m q)).2 t := by
  have hs' := h.left.perform bound (.eval m q) ⟨hm, hq⟩
  rw [Session.perform_eval] at hs' ⊢
  -- the part of the session that is apart is linked with itself
  let far := fun f => f < s.state.store.size ∧ w.Apart f
  have hself : Linked (.same far s.state s.state) s.state s.state :=
    linked_same h.left.state h.left.state h.far (fun f hf => ⟨hf.1, hf.1⟩) fun _ _ => rfl
  have hlawful := Link.correspondence_lawful hself.fits s.registries s.registries
    fun m m' hm => congrArg s.registries hm
  have hrun := hlawful.runProgram (fun _ _ _ _ _ _ hst => .ok le_rfl (hst.trail _ _) trivial)
    bound (rfl : m = m) rfl (w := (0, 0))
    (.inl ⟨rfl, h.left.globals hm, h.others m hm hne⟩) (0, 0) le_rfl q q
    (by
      show q.Alike ((Link.same far s.state s.state).grow s.state s.state (0, 0)).like q
      rw [Link.grow_zero]
      exact Value.alike_same hq hq fun c hc => ⟨(hq _ hc).2, hfar c hc⟩)
  obtain ⟨n, honward, _⟩ := hself.run hrun
  generalize endState (s.runProgram bound m q s.state) = s' at hs' honward
  have hsize := honward.size
  have hsupply := honward.supply
  have hlinkedOf : ∀ f, f < s'.store.size → w.Apart f →
      ((Link.same far s.state s.state).grow s.state s.state n).scope f f := by
    intro f hf hw
    by_cases hold : f < s.state.store.size
    · exact .inl ⟨rfl, hold, hw⟩
    · exact .inr ⟨f - s.state.store.size, by omega, by omega, by omega⟩
  have hapartOf : ∀ {f f'}, ((Link.same far s.state s.state).grow s.state s.state n).scope f f' →
      f < s'.store.size ∧ w.Apart f := by
    rintro f f' (⟨_, hold, hw⟩ | ⟨i, hi, rfl, _⟩)
    · exact ⟨by omega, hw⟩
    · exact ⟨by omega, h.linked.fits.apart_of_le (Nat.le_add_right _ _)⟩
  refine
    { h with
      left := hs'
      linked := h.linked.of_left hs'.state.wellFormed (show s.state.store.size ≤ s'.store.size by omega)
        (show s.state.supply ≤ s'.supply by omega) ?_
      far := ⟨?_, ?_⟩ }
  · intro f f' hf
    refine honward.apart f (h.linked.fits.scope_lt hf).1 ?_
    rintro _ ⟨_, _, hw⟩
    exact hw f' hf
  · rintro f o ⟨hf, hw⟩ ho
    have hout := honward.linked.outer (hlinkedOf f hf hw)
    rw [show s'.store.outer f = some o from ho] at hout
    cases hout with
    | some hout => exact hapartOf hout
  · rintro f name v c ⟨hf, hw⟩ hv hc
    have hbind := honward.linked.bindings (hlinkedOf f hf hw)
    obtain ⟨x, _, hx⟩ := (List.forall₂_same.mp hbind _ hv).2.of_part hc
    cases hx with
    | closure _ _ _ tie => exact hapartOf tie.1

end Bystander

theorem Beside.bystander {own alone : Nat} {w : Link} {s t : Session}
    (h : Beside own alone w s t) : Bystander own alone w s t := by
  induction h with
  | start hs ht hown halone traces traces' setting setting' =>
    subst hown halone
    exact .start hs.sound ht.sound traces traces' setting setting'
  | another _ traces setting ih => exact ih.another traces setting
  | draw _ count ih => exact ih.draw count
  | drawBoth _ count ih => exact ih.drawBoth count
  | own _ bound hp hp' hpp ih => exact (ih.own_step bound hp hp' hpp).1
  | other _ bound hm hne hq hfar ih => exact ih.other_step bound hm hne hq hfar

/-- What a run does depends on the frames that it reaches, and on nothing else. In two stores that
agree on these frames it ends alike, with alike bindings in them, up to one renumbering of what it
has made; other frames are as they were. So whatever the order in which interpreters get programs,
if no closure is passed between one of them and the others, its results and its globals are those
that it would have had alone. -/
theorem a_run_sees_only_what_it_reaches :
    (∀ (registries : Nat → Registry) (bound machine scope : Nat) (node : Value) (s t : State),
      s.Sound → t.Sound → s.Holds node → t.Holds node → scope < s.store.size →
      scope < t.store.size →
      (∀ f, s.store.Reaches node scope f → t.store.frame f = s.store.frame f) →
      let r := evaluate registries bound machine node scope s
      let r' := evaluate registries bound machine node scope t
      ∃ n, let w := (Link.same (s.store.Reaches node scope) s t).grow s t n
        w.Fits (endState r) (endState r') ∧ EndsAlike (Value.Alike w.like) r r' ∧
        (∀ f, s.store.Reaches node scope f → ((endState r).store.bindings f).Alike
          (Value.Alike w.like) ((endState r').store.bindings f)) ∧
        (∀ f, f < s.store.size → ¬ s.store.Reaches node scope f →
          (endState r).store.bindings f = s.store.bindings f) ∧
        (∀ f, f < t.store.size → ¬ s.store.Reaches node scope f →
          (endState r').store.bindings f = t.store.bindings f)) ∧
    (∀ (own alone : Nat) (w : Link) (s t : Session), Beside own alone w s t →
      w.Fits s.state t.state ∧
      (s.store.bindings (s.globals own)).Alike (Value.Alike w.like)
        (t.store.bindings (t.globals alone)) ∧
      ∀ bound p p', s.state.Holds p → t.state.Holds p' → p.Alike w.like p' →
        let w' := w.since s.state t.state (s.perform bound (.eval own p)).2.state
        EndsAlike (Value.Alike w'.like) (s.runProgram bound own p s.state)
          (t.runProgram bound alone p' t.state)) := by
  constructor
  · intro registries bound machine scope node s t hs ht hns hnt hes het hst r r'
    obtain ⟨n, honward, hends⟩ :=
      evaluate_of_same_reach registries bound machine hs ht hns hnt hes het hst
    refine ⟨n, honward.linked.fits, hends, fun f hf => ?_, fun f hlt hf => ?_, fun f hlt hf => ?_⟩
    · exact honward.linked.bindings (.inl ⟨rfl, hf⟩)
    · exact congrArg Frame.bindings (honward.apart f hlt fun _ h => hf h.2)
    · exact congrArg Frame.bindings (honward.apart' f hlt fun _ h => hf (h.1 ▸ h.2))
  · intro own alone w s t h
    have hb := h.bystander
    exact ⟨hb.linked.fits, hb.linked.bindings hb.globals, fun bound p p' hp hp' hpp =>
      (hb.own_step bound hp hp' hpp).2⟩

/-- Two interpreters share a session. A name that is defined for the second one is none for the
first one, and the first one assigns to it like one alone. -/
theorem two_interpreters_assign_to_one_name :
    let assignment : Value := .ofList [.symbol "set", .symbol "x", .number (.int 1)]
    let one := (Session.empty.perform 0 (.interpreter none none)).2
    let two := (one.perform 0 (.interpreter none none)).2
    let defined := (two.perform 0 (.define 1 (.symbol "x") (.number (.int 1)))).2
    let used := (two.perform 3 (.eval 1 assignment)).2
    (∀ f, two.store.Reaches (.symbol "x") 0 f → defined.store.frame f = two.store.frame f) ∧
    (∃ n, EndsAlike (Value.Alike ((Link.same (two.store.Reaches (.symbol "x") 0) two.state
        defined.state).grow two.state defined.state n).like)
      (evaluate two.registries 1 0 (.symbol "x") 0 two.state)
      (evaluate two.registries 1 0 (.symbol "x") 0 defined.state)) ∧
    Beside 0 0 (.start 0 0 0 0) used one ∧
    EndsAlike (Value.Alike ((Link.start 0 0 0 0).since used.state one.state
        (used.perform 3 (.eval 0 assignment)).2.state).like)
      (used.runProgram 3 0 assignment used.state) (one.runProgram 3 0 assignment one.state) := by
  intro assignment one two defined used
  have hone : one.Reachable := .perform .empty 0 trivial
  have htwo : two.Reachable := .perform hone 0 trivial
  have hdefined : defined.Reachable := .perform htwo 0 ⟨by decide, by simp [Number.labels]⟩
  have hassignment : ∀ s : State, s.Holds assignment := by
    intro s
    simp [assignment, Number.labels]
  have hreach : ∀ f, two.store.Reaches (.symbol "x") 0 f → f = 0 := by
    intro f hf
    induction hf with
    | scope => rfl
    | node hc => cases hc
    | outer _ ho ih =>
      subst ih
      cases ho
    | binding _ hv _ ih =>
      subst ih
      cases hv
  have hsame : ∀ f, two.store.Reaches (.symbol "x") 0 f →
      defined.store.frame f = two.store.frame f := by
    intro f hf
    rw [hreach f hf]
    rfl
  have hnone : ∀ c : Closure Value, ¬ (Value.closure c).IsPart assignment := by
    intro c hc
    dsimp only [assignment] at hc
    cases hc with
    | item hv hc =>
      simp only [List.mem_cons, List.not_mem_nil, or_false] at hv
      rcases hv with rfl | rfl | rfl <;> cases hc
  have hbeside : Beside 0 0 (.start 0 0 0 0) used one :=
    .other (.another (.start .empty .empty rfl rfl none none none none) none none) 3 (m := 1)
      (by decide) (by decide) (hassignment _) fun c hc => absurd hc (hnone c)
  obtain ⟨n, _, hends, _⟩ := a_run_sees_only_what_it_reaches.1 two.registries 1 0 0 (.symbol "x")
    two.state defined.state htwo.sound.state hdefined.sound.state (by simp) (by simp) (by decide)
    (by decide) hsame
  have hnext := (a_run_sees_only_what_it_reaches.2 0 0 _ used one hbeside).2.2 3 assignment
    assignment (hassignment _) (hassignment _)
    (.list .square (.cons (.symbol "set") (.cons (.symbol "x") (.cons (.number (.int 1)) .nil))))
  exact ⟨hsame, ⟨n, hends⟩, hbeside, hnext⟩

end SmallLisp
