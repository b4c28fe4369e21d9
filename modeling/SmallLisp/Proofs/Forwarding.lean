-- A closure that only hands its arguments on is not noticed. They are evaluated once and bound to
-- its parameters; the closure behind it reads them there, and what is bound to a name is never
-- evaluated again. And the body of the closure behind does not see the frame between.
import SmallLisp.Proofs.Bound
import SmallLisp.Proofs.Isolation
import SmallLisp.Proofs.LexicalStates
import SmallLisp.Proofs.Refusal
import SmallLisp.Proofs.Tracing

namespace SmallLisp

open Run

namespace Closure

/-- The closure hands its arguments on, in their order, to what the name `g` stands for in the frame
`home`. There is one for each parameter of the closure `f`, and `f` has the same machine. -/
structure Forwards (w f : Closure Value) (g : String) (home : Nat) : Prop where
  nodup : w.params.Nodup
  not_mem : g ∉ w.params
  length_eq : w.params.length = f.params.length
  body_eq : ∃ b, w.body = [.list b (.symbol g :: w.params.map .symbol)]
  scope_eq : w.scope = home
  machine_eq : w.machine = f.machine

/-- What a call does when its arguments have been evaluated. -/
def callWith (eval : Evaluation) (c : Closure Value) (values : List Value) : Run Value := do
  let frame ← enter c values
  evaluateInTurn (eval c.machine · frame) .nil c.body

end Closure

namespace Forwarding

/-! ## The arguments of a call -/

section

variable {registries : Nat → Registry} {bound bound' machine scope : Nat} {nodes : List Value}
  {s : State}

theorem finished_of_bind {α β : Type} {m : Run α} {k : α → Run β} (h : Finished ((m >>= k) s)) :
    Finished (m s) := fun u hu => h u (bind_of_error hu)

theorem finished_withTrail {α : Type} (trail : Array Event) {r : EStateM.Result Stop State α} :
    Finished (withTrail trail r) ↔ Finished r := by
  rcases r with ⟨a, t⟩ | ⟨stop, t⟩
  · exact iff_of_true nofun nofun
  · cases stop <;> simp [Finished, withTrail]

theorem evaluateEach_of_le (h : bound ≤ bound')
    (hfin : Finished (evaluateEach (evaluate registries bound machine · scope) nodes s)) :
    evaluateEach (evaluate registries bound' machine · scope) nodes s =
      evaluateEach (evaluate registries bound machine · scope) nodes s := by
  simp only [evaluate_eq_announcing] at hfin ⊢
  exact ((settling_lawful registries).evaluateEach (settling_evaluate registries h) trivial
    (fun _ _ => trivial) scope s).2 hfin

/-- What arguments evaluate to does not depend on the trail. -/
theorem evaluateEach_trail (registries : Nat → Registry) (bound machine scope : Nat)
    (nodes : List Value) (s : State) (trail : Array Event) :
    ∃ trail', evaluateEach (evaluate registries bound machine · scope) nodes { s with trail } =
      withTrail trail' (evaluateEach (evaluate registries bound machine · scope) nodes s) := by
  have hlawful : (keeping (fun _ => true) s.trail trail).judgement.Lawful registries announceAll
      announceAll := (keeping_lawful registries).judgement
  have hmachine : (keeping (fun _ => true) s.trail trail).judgement.machine machine := trivial
  have hnodes : ∀ n ∈ nodes, (keeping (fun _ => true) s.trail trail).judgement.value n :=
    fun _ _ => trivial
  have hagree := hlawful.evaluateEach (hlawful.evaluate Accord.agree_exhaust bound) hmachine hnodes
    scope
  simp only [evaluate_eq_announcing]
  obtain ⟨_, -, heq⟩ := withTrail_of_agree (t := { s with trail }) hagree rfl rfl
  exact ⟨_, heq⟩

/-- Arguments leave a sound state behind, which holds their values. -/
theorem sound_evaluateEach (registries : Nat → Registry) (bound machine : Nat) (hs : s.Sound)
    (hscope : scope < s.store.size) (hnodes : ∀ n ∈ nodes, s.Holds n) :
    let r := evaluateEach (evaluate registries bound machine · scope) nodes s
    s.Grown (endState r) ∧ (endState r).Sound ∧
      ∀ vs, endValue? r = some vs → vs.length = nodes.length ∧ ∀ v ∈ vs, (endState r).Holds v := by
  have hlawful := State.growth_lawful.toCorrespondence registries
  have hrun := hlawful.evaluateEach (w := s)
    (hlawful.evaluate bound s machine machine scope scope ⟨rfl, trivial⟩ ⟨rfl, hscope⟩)
    ((Invariant.nodes_iff rfl).mpr ⟨rfl, hnodes⟩)
  obtain ⟨t, grown, ⟨rfl, ht⟩, hv⟩ := (Invariant.end_of_coupled hrun
    (A := fun t vs => vs.length = nodes.length ∧ ∀ v ∈ vs, State.growth.value t v)
    (fun _ _ h => ⟨h.2, (Invariant.values_iff.mp h.1).2⟩) ⟨rfl, hs⟩).state_and_value
  exact ⟨grown, ht, hv⟩

end

/-! ## The frame between -/

theorem last?_zip_of_not_mem {name : String} {names : List String} {values : List Value}
    (h : name ∉ names) : Lexical.last? name (names.zip values) = none := by
  induction names generalizing values with
  | nil => rfl
  | cons first names ih =>
    obtain ⟨hne, hrest⟩ := not_or.mp (List.mem_cons.not.mp h)
    cases values with
    | nil => rfl
    | cons v values =>
      rw [List.zip_cons_cons, Lexical.last?, ih hrest]
      exact if_neg (Ne.symm hne)

/-- Distinct names have one value each. -/
theorem last?_zip {names : List String} {values : List Value} (hnames : names.Nodup)
    (hlen : names.length = values.length) :
    List.Forall₂ (fun name v => Lexical.last? name (names.zip values) = some v) names values := by
  induction names generalizing values with
  | nil =>
    cases values with
    | nil => exact .nil
    | cons => cases hlen
  | cons name names ih =>
    obtain ⟨hname, hnames⟩ := List.nodup_cons.mp hnames
    cases values with
    | nil => cases hlen
    | cons v values =>
      refine .cons ?_ ((ih hnames (Nat.succ.inj hlen)).imp fun other u hu => ?_)
      · rw [List.zip_cons_cons, Lexical.last?, last?_zip_of_not_mem hname]
        exact if_pos rfl
      · rw [List.zip_cons_cons, Lexical.last?, hu]

section

variable (registries : Nat → Registry) (bound machine : Nat) {scope home : Nat}
  {w f : Closure Value} {g : String} {values : List Value} {s : State}

/-- Symbols that are bound give their values as they are. -/
theorem evaluateEach_symbols {names : List String} {store : Store} (hs : s.store = store)
    (h : List.Forall₂ (fun name v => store.lookup? scope name = some v) names values) :
    ∃ trail, evaluateEach (evaluate registries (bound + 1) machine · scope) (names.map .symbol) s =
      .ok values { s with trail } := by
  induction h generalizing s with
  | nil => exact ⟨s.trail, rfl⟩
  | @cons name v names values hv _ ih =>
    let t : State := { s with trail := s.trail.push (.evaluated machine (.symbol name) scope) }
    have hname : evaluate registries (bound + 1) machine (.symbol name) scope s = .ok v t := by
      show EStateM.Result.ok ((s.store.lookup? scope name).getD (.symbol name)) t = _
      rw [hs, hv, Option.getD_some]
    obtain ⟨trail, hrest⟩ := ih (s := t) hs
    refine ⟨trail, ?_⟩
    show (evaluate registries (bound + 1) machine (.symbol name) scope >>= _) s = _
    rw [bind_of_ok hname]
    exact bind_of_ok hrest

/-- Calls with their arguments evaluated first. -/
theorem invoke_eq_callWith {eval : Evaluation} {c : Closure Value} {arguments : List Value}
    {caller : Nat} (h : arguments.length = c.params.length) :
    c.invoke eval arguments caller =
      evaluateEach (eval c.machine · caller) arguments >>= c.callWith eval :=
  c.invoke_eq eval arguments caller h

theorem wellFormed_add_frame (hw : w.Forwards f g home) (hs : s.store.WellFormed)
    (hhome : home < s.store.size) (values : List Value) :
    (s.store.add (w.frame values)).WellFormed :=
  hs.add (fun o ho => by cases ho; rwa [hw.scope_eq]) (Table.distinct_ofList _)

/-- Between a call of the wrapper and one of the closure behind it there is one frame. -/
theorem callWith_of_forwards (hw : w.Forwards f g home) (hs : s.store.WellFormed)
    (hhome : home < s.store.size) (hg : (s.store.bindings home).get? g = some (.closure f))
    (hlen : values.length = f.params.length) :
    ∃ trail, w.callWith (evaluate registries (bound + 2)) values s =
      f.callWith (evaluate registries (bound + 1)) values
        ⟨s.store.add (w.frame values), s.supply, trail⟩ := by
  have hadd := wellFormed_add_frame hw hs hhome values
  have hbindings : (s.store.add (w.frame values)).bindings s.store.size =
      .ofList (w.params.zip values) := by
    rw [Store.bindings_add, if_pos rfl, Closure.frame]
  have houter : (s.store.add (w.frame values)).outer s.store.size = some home := by
    rw [Store.outer_add, if_pos rfl, Closure.frame, hw.scope_eq]
  have hparams : List.Forall₂ (fun name v =>
      (s.store.add (w.frame values)).lookup? s.store.size name = some v) w.params values := by
    refine (last?_zip hw.nodup (hw.length_eq.trans hlen.symm)).imp fun name v hv => ?_
    rw [hadd.lookup?_eq, hbindings, Lexical.get?_ofList, hv]
  -- `g` is no parameter, so it is looked up in the frame around
  have hcallee : (s.store.add (w.frame values)).lookup? s.store.size g = some (.closure f) := by
    rw [hadd.lookup?_eq, hbindings, Lexical.get?_ofList, last?_zip_of_not_mem hw.not_mem, houter]
    simp only [Option.bind_some]
    rw [hadd.lookup?_eq, Store.bindings_add, if_neg (Nat.ne_of_lt hhome), hg]
  obtain ⟨b, hbody⟩ := hw.body_eq
  let t : State := ⟨s.store.add (w.frame values), s.supply, s.trail.push (.closureCalled w values)⟩
  have henter : enter w values s = .ok s.store.size t := rfl
  have hcall := evaluate_invocation registries (bound + 1) w.machine (b := b)
    (w.params.map .symbol) (.called (s := { t with trail := _ }) hcallee)
  obtain ⟨trail, hvalues⟩ := evaluateEach_symbols registries bound f.machine
    (s := { t with trail := _ }) rfl hparams
  refine ⟨trail, ?_⟩
  unfold Closure.callWith
  rw [bind_of_ok henter, hbody]
  show (evaluate registries (bound + 2) w.machine _ s.store.size >>= fun v => pure v) t = _
  rw [bind_pure, hcall, Operator.run, invoke_eq_callWith (by simpa using hw.length_eq)]
  exact bind_of_ok hvalues

end

/-! ## Runs with the frame and without it -/

/-- What stands for what when the first run has made one frame more than the second, with the number
`own`: later frames come one earlier in the second run, and no closure lies in the frame itself.
Labels are the same. -/
def likeness (own : Nat) : Likeness where
  label l l' := l' = l
  tie c c' := c.scope ≠ own ∧ c'.scope = (if c.scope < own then c.scope else c.scope - 1) ∧
    c'.machine = c.machine

/-- Two runs from the state `s` end alike and leave alike bindings in all frames of `s`. The first one
has made one frame more, or none. -/
structure Agree (s : State) (own : Nat) (r r' : EStateM.Result Stop State Value) : Prop where
  own_ge : s.store.size ≤ own
  ends : EndsAlike (Value.Alike (likeness own)) r r'
  bindings : ∀ f < s.store.size, ((endState r).store.bindings f).Alike
    (Value.Alike (likeness own)) ((endState r').store.bindings f)
  size : (endState r).store.size = (endState r').store.size ∨
    (endState r).store.size = (endState r').store.size + 1

theorem ends_mono {α : Type} {A B : α → α → Prop} {r r' : EStateM.Result Stop State α}
    (h : EndsAlike A r r') (hAB : ∀ a b, A a b → B a b) : EndsAlike B r r' := by
  cases h with
  | value h => exact .value (hAB _ _ h)
  | fault kind message => exact .fault kind message
  | exhausted => exact .exhausted

section

variable {registries : Nat → Registry} {bound : Nat} {f : Closure Value} {values : List Value}
  {s t : State} {between : Frame}

/-- What is linked in a run with the frame and one without it stands for each other. -/
theorem alike_of_grow {trail trail' : Array Event} {n : Nat × Nat} {v v' : Value}
    (h : v.Alike ((Link.same (· < t.store.size) t t).grow
      ⟨t.store.add between, t.supply, trail⟩ { t with trail := trail' } n).like v') :
    v.Alike (likeness t.store.size) v' := by
  refine h.mono ?_ ?_
  · rintro l l' (⟨rfl, -⟩ | ⟨i, -, rfl, rfl⟩) <;> rfl
  · rintro c c' ⟨⟨heq, hlt⟩ | ⟨i, -, hc, hc'⟩, hmachine⟩
    · exact ⟨Nat.ne_of_lt hlt, by rw [if_pos hlt, heq], hmachine.symm⟩
    · dsimp only at hc hc'
      rw [Store.size_add] at hc
      exact ⟨by omega, by rw [if_neg (by omega)]; omega, hmachine.symm⟩

/-- All that a sound state holds stands for itself. -/
theorem alike_of_holds {v : Value} (h : t.Holds v) : v.Alike (likeness t.store.size) v := by
  have hsame : v.Alike (Link.same (· < t.store.size) t t).like v :=
    Value.alike_same h h fun c hc => (h _ hc).2
  refine hsame.mono (fun l l' hl => ?_) ?_
  · exact hl.1.symm
  · rintro c c' ⟨⟨heq, hlt⟩, hmachine⟩
    exact ⟨Nat.ne_of_lt hlt, by rw [if_pos hlt, heq], hmachine.symm⟩

/-- The arguments end with a fault, before there is a frame. -/
theorem agree_of_error (hs : t.Sound) (hle : s.store.size ≤ t.store.size) (stop : Stop)
    (trail trail' : Array Event) :
    Agree s t.store.size (.error stop { t with trail }) (.error stop { t with trail := trail' }) where
  own_ge := hle
  ends := by
    cases stop with
    | fault cause => exact .fault rfl rfl
    | exhausted => exact .exhausted
  bindings f _ := List.forall₂_same.mpr fun entry hm =>
    ⟨rfl, alike_of_holds (hs.holds f entry.1 entry.2 hm)⟩
  size := .inl rfl

/-- A call does the same with one frame more, which it does not reach. -/
theorem agree_of_callWith (hs : t.Sound) (hle : s.store.size ≤ t.store.size)
    (hf : t.Holds (.closure f)) (hvalues : ∀ v ∈ values, t.Holds v)
    (hlen : values.length = f.params.length) (hadd : (t.store.add between).WellFormed)
    (trail trail' : Array Event) :
    Agree s t.store.size
      (f.callWith (evaluate registries bound) values ⟨t.store.add between, t.supply, trail⟩)
      (f.callWith (evaluate registries bound) values { t with trail := trail' }) := by
  unfold Closure.callWith
  have hsame : Linked (.same (· < t.store.size) t t) t t := linked_same hs hs
    ⟨fun hf ho => Nat.lt_trans (hs.wellFormed.outer_lt _ _ ho) hf,
      fun _ hv hc => (hs.holds _ _ _ hv _ hc).2⟩ (fun _ hf => ⟨hf, hf⟩) fun _ _ => rfl
  have hbeside : Linked (.same (· < t.store.size) t t)
      { t with store := t.store.add between } t := by
    refine hsame.of_left hadd (by simp) le_rfl ?_
    rintro g _ ⟨-, hg⟩
    exact (Store.frame_add ..).trans (if_neg (Nat.ne_of_lt hg))
  have hlinked := hbeside.trail trail trail'
  -- all older frames are linked, and the frame between has no part in it
  have hlawful := Link.correspondence_lawful hlinked.fits registries registries fun m m' hm =>
    congrArg registries hm
  have halike : ∀ v, t.Holds v → v.Alike ((Link.same (· < t.store.size) t t).grow
      ⟨t.store.add between, t.supply, trail⟩ { t with trail := trail' } (0, 0)).like v := by
    intro v hv
    rw [Link.grow_zero]
    exact Value.alike_same hv hv fun c hc => (hv _ hc).2
  have hcall := (hlawful.enter (w := (0, 0)) (halike _ hf) hlen
    (List.forall₂_same.mpr fun v hv => halike v (hvalues v hv))).bind fun n g g' _ hframes =>
      hlawful.evaluateInTurn (hlawful.evaluate bound n f.machine f.machine g g' rfl hframes.1) .nil
        hframes.2
  obtain ⟨n, honward, hends⟩ := hlinked.run hcall
  have hsize := honward.size
  have hsize' := honward.size'
  dsimp only at hsize hsize'
  rw [Store.size_add] at hsize
  exact
    { own_ge := hle
      ends := ends_mono hends fun _ _ => alike_of_grow
      bindings := fun g hg =>
        (honward.linked.bindings (.inl ⟨rfl, Nat.lt_of_lt_of_le hg hle⟩)).mono
          fun _ _ => alike_of_grow
      size := .inr (by omega) }

end

/-! ## Calls of the wrapper and of the closure behind it -/

/-- Runs with the wrapper and runs without it, one for each bound: one of them finishes exactly if the
other does, and then they agree. -/
structure Unobservable (s : State) (wrapped direct : Nat → EStateM.Result Stop State Value) :
    Prop where
  finished_iff : (∃ bound, Finished (wrapped bound)) ↔ ∃ bound, Finished (direct bound)
  agree : ∀ bound bound', Finished (wrapped bound) → Finished (direct bound') →
    ∃ own, Agree s own (wrapped bound) (direct bound')

/-- It is enough if they agree where the wrapper has the level more that it takes. -/
theorem unobservable_of_agree {s : State} {wrapped direct : Nat → EStateM.Result Stop State Value}
    (hw : ∀ {b b'}, b ≤ b' → Finished (wrapped b) → wrapped b' = wrapped b)
    (hd : ∀ {b b'}, b ≤ b' → Finished (direct b) → direct b' = direct b)
    (hagree : ∀ bound, Finished (wrapped bound) ∨ Finished (direct bound) →
      ∃ own, Agree s own (wrapped (bound + 3)) (direct (bound + 2))) :
    Unobservable s wrapped direct where
  finished_iff := by
    constructor
    · rintro ⟨bound, h⟩
      obtain ⟨own, hown⟩ := hagree bound (.inl h)
      refine ⟨bound + 2, hown.ends.finished_iff.mp ?_⟩
      rwa [hw (Nat.le_add_right bound 3) h]
    · rintro ⟨bound, h⟩
      obtain ⟨own, hown⟩ := hagree bound (.inr h)
      refine ⟨bound + 3, hown.ends.finished_iff.mpr ?_⟩
      rwa [hd (Nat.le_add_right bound 2) h]
  agree bound bound' h h' := by
    have hle : bound ≤ max bound bound' + 3 := by omega
    have hle' : bound' ≤ max bound bound' + 2 := by omega
    rw [← hw hle h, ← hd hle' h']
    refine hagree _ (.inl ?_)
    rwa [hw (Nat.le_max_left ..) h]

section

variable {registries : Nat → Registry} {bound machine scope home : Nat} {w f : Closure Value}
  {g : String} {args : List Value} {s : State}

theorem evaluate_call (registries : Nat → Registry) (bound machine : Nat) (b : Brackets)
    (c : Closure Value) (args : List Value) (scope : Nat) (s : State) :
    evaluate registries (bound + 1) machine (.list b (.closure c :: args)) scope s =
      c.invoke (evaluate registries bound) args scope
        { s with trail := s.trail.push (.evaluated machine (.list b (.closure c :: args)) scope) } :=
  evaluate_invocation registries bound machine args (.closure c _)

/-- A call that finishes has finished with its arguments. -/
theorem finished_arguments {b : Brackets} {c : Closure Value} (hlen : args.length = c.params.length)
    (h : Finished (evaluate registries bound machine (.list b (.closure c :: args)) scope s)) :
    Finished (evaluateEach (evaluate registries (bound + 1) c.machine · scope) args s) := by
  cases bound with
  | zero => exact absurd rfl (h s)
  | succ bound =>
    rw [evaluate_call, invoke_eq_callWith hlen] at h
    have hargs := finished_of_bind h
    obtain ⟨trail, htrail⟩ := evaluateEach_trail registries bound c.machine scope args s
      (s.trail.push (.evaluated machine (.list b (.closure c :: args)) scope))
    rw [htrail, finished_withTrail] at hargs
    rwa [evaluateEach_of_le (by omega) hargs]

/-- The two calls agree, if the arguments finish within the bound and leave `g` as it is. -/
theorem agree_calls (hs : s.Sound) (hw : w.Forwards f g home) (hscope : scope < s.store.size)
    (hargs : ∀ n ∈ args, s.Holds n) (hlen : args.length = f.params.length) (b b' : Brackets)
    (hfin : Finished (evaluateEach (evaluate registries (bound + 1) f.machine · scope) args s))
    (hg : ∀ values t, evaluateEach (evaluate registries (bound + 1) f.machine · scope) args s =
      .ok values t → (t.store.bindings home).get? g = some (.closure f)) :
    ∃ own, Agree s own
      (evaluate registries (bound + 3) machine (.list b (.closure w :: args)) scope s)
      (evaluate registries (bound + 2) machine (.list b' (.closure f :: args)) scope s) := by
  rw [evaluate_call, evaluate_call, invoke_eq_callWith (hlen.trans hw.length_eq.symm),
    invoke_eq_callWith hlen, hw.machine_eq]
  generalize s.trail.push _ = begun
  generalize s.trail.push _ = begun'
  obtain ⟨trail, hleft⟩ :=
    evaluateEach_trail registries (bound + 2) f.machine scope args s begun
  obtain ⟨trail', hright⟩ :=
    evaluateEach_trail registries (bound + 1) f.machine scope args s begun'
  rw [evaluateEach_of_le (Nat.le_succ (bound + 1)) hfin] at hleft
  obtain ⟨hgrown, hsound, hvalues⟩ :=
    sound_evaluateEach registries (bound + 1) f.machine hs hscope hargs
  cases hr : evaluateEach (evaluate registries (bound + 1) f.machine · scope) args s with
  | error stop t =>
    rw [hr] at hleft hright hgrown hsound
    rw [bind_of_error hleft, bind_of_error hright]
    exact ⟨_, agree_of_error hsound hgrown.size_le stop trail trail'⟩
  | ok values t =>
    have hbound := hg values t hr
    rw [hr] at hleft hright hgrown hsound hvalues
    obtain ⟨hcount, hheld⟩ := hvalues values rfl
    have hmem := Table.mem_of_get? hbound
    have hhome : home < t.store.size := by
      by_contra hlt
      unfold Store.bindings at hmem
      rw [Store.frame_of_size_le (by omega)] at hmem
      cases hmem
    rw [bind_of_ok hleft, bind_of_ok hright]
    obtain ⟨between, hcall⟩ := callWith_of_forwards registries bound (s := { t with trail }) hw
      hsound.wellFormed hhome hbound (hcount.trans hlen)
    rw [hcall]
    exact ⟨_, agree_of_callWith hsound hgrown.size_le (hsound.holds _ _ _ hmem) hheld
      (hcount.trans hlen) (wellFormed_add_frame hw hsound.wellFormed hhome values) between trail'⟩

end

/-! ## How a wrapper is made -/

theorem symbolNames_symbols (names : List String) :
    Form.symbolNames (names.map .symbol) = .ok names := by
  induction names with
  | nil => rfl
  | cons name names ih =>
    rw [List.map_cons, Form.symbolNames, ih]
    rfl

/-- A `lambda` that passes its parameters on to a name makes a wrapper, in the frame that it is
evaluated in and for the machine that evaluates it. -/
theorem forwards_of_lambda {registries : Nat → Registry} {home : Nat} {s : State} {lambda : String}
    (f : Closure Value) (hreg : (registries f.machine).lookup? lambda = some .lambda)
    (hfree : ∀ c, s.store.lookup? home lambda ≠ some (.closure c)) {g : String}
    {names : List String} (hnames : names.Nodup) (hg : g ∉ names)
    (hlen : names.length = f.params.length) (b : Brackets) (bound : Nat) :
    let call : Value := .list b (.symbol g :: names.map .symbol)
    let w : Closure Value := ⟨s.supply, names, [call], home, f.machine⟩
    (∃ t, evaluate registries (bound + 1) f.machine
      (.list b [.symbol lambda, .list b (names.map .symbol), call]) home s = .ok (.closure w) t) ∧
        w.Forwards f g home := by
  intro call w
  have hparams : ∀ t, (ofExcept (Form.parameters (.list b (names.map .symbol))) : Run _) t =
      .ok names t := by
    intro t
    rw [Form.parameters, symbolNames_symbols]
    rfl
  have hrun := evaluate_invocation registries bound f.machine (b := b)
    [.list b (names.map .symbol), call] (.named (s := { s with trail := _ }) hfree hreg)
  exact ⟨⟨_, hrun.trans ((bind_of_ok (hparams _)).trans rfl)⟩, hnames, hg, hlen, ⟨b, rfl⟩, rfl, rfl⟩

end Forwarding

/-- A wrapper that hands its arguments on to what a name stands for is not noticed, in every session
that a host can reach: if the name stands for a closure, and still does when the arguments have been
evaluated, then to call the wrapper is to call this closure. With a wrong number of arguments both
calls are refused alike before any of them is evaluated. Else one call finishes exactly if the other
does, and both end alike and leave the same bindings in all frames that were there, up to one frame
more and the numbers of frames. -/
theorem a_forwarding_wrapper_is_unobservable {session : Session} (h : session.Reachable)
    {w f : Closure Value} {g : String} {home : Nat} (hw : w.Forwards f g home)
    (hg : (session.store.bindings home).get? g = some (.closure f)) {machine scope : Nat}
    {args : List Value} (b : Brackets) (hscope : scope < session.store.size)
    (hargs : ∀ n ∈ args, session.state.Holds n)
    (hkeeps : ∀ bound values t, evaluateEach (evaluate session.registries bound f.machine · scope)
      args session.state = .ok values t →
        (t.store.bindings home).get? g = (session.store.bindings home).get? g) :
    let s := session.state
    let node (c : Closure Value) := Value.list b (.closure c :: args)
    let call (c : Closure Value) (bound : Nat) :=
      evaluate session.registries bound machine (node c) scope s
    (args.length ≠ f.params.length → ∃ fault, fault.kind = .invalidArgument ∧
        ∀ c ∈ [w, f], ∀ bound, call c (bound + 1) = .error (.fault fault)
          { s with trail := s.trail.push (.evaluated machine (node c) scope) }) ∧
      (args.length = f.params.length → Forwarding.Unobservable s (call w) (call f)) := by
  intro s node call
  constructor
  · intro hlen
    refine ⟨.callCount f.params.length args.length, rfl, fun c hc bound => ?_⟩
    have hcount : c.params.length = f.params.length := by
      rcases List.mem_pair.mp hc with rfl | rfl
      · exact hw.length_eq
      · rfl
    show evaluate session.registries (bound + 1) machine (node c) scope s = _
    rw [Forwarding.evaluate_call, c.invoke_of_ne _ _ _ (by rwa [hcount]), hcount]
    rfl
  · intro hlen
    have hle : ∀ c {bound bound'}, bound ≤ bound' → Finished (call c bound) →
        call c bound' = call c bound := fun c _ _ hle hfin =>
      Entry.run_of_le session.registries hle (.evaluate machine (node c) scope) hfin
    refine Forwarding.unobservable_of_agree (hle w) (hle f) fun bound hfin => ?_
    have hargsfin : Finished (evaluateEach
        (evaluate session.registries (bound + 1) f.machine · scope) args s) := by
      rcases hfin with hfin | hfin
      · rw [← hw.machine_eq]
        exact Forwarding.finished_arguments (hlen.trans hw.length_eq.symm) hfin
      · exact Forwarding.finished_arguments hlen hfin
    exact Forwarding.agree_calls h.sound.state hw hscope hargs hlen b b hargsfin
      fun values t hrun => (hkeeps _ values t hrun).trans hg

/-- A wrapper is given a symbol that is the name of its own parameter, for a closure that makes another
one: with the wrapper, that one lies one frame further on. -/
theorem a_wrapper_hands_on_the_name_of_its_parameter :
    let first := (Session.empty.perform 0 (.interpreter none none)).2
    let session := (first.perform 3 (.eval 0 (.ofList [.symbol "set", .symbol "g",
      .ofList [.symbol "lambda", .ofList [.symbol "a"],
        .ofList [.symbol "lambda", .nil, .symbol "a"]]]))).2
    let f : Closure Value := ⟨0, ["a"], [.ofList [.symbol "lambda", .nil, .symbol "a"]], 0, 0⟩
    let body : Value := .ofList [.symbol "g", .symbol "x"]
    let w : Closure Value := ⟨1, ["x"], [body], 0, 0⟩
    let args : List Value := [.symbol "x"]
    let call (c : Closure Value) (bound : Nat) :=
      evaluate session.registries bound 0 (.ofList (.closure c :: args)) 0 session.state
    let scope? : Option Value → Option Nat
      | some (.closure c) => some c.scope
      | _ => none
    session.Reachable ∧ (session.store.bindings 0).get? "g" = some (.closure f) ∧
      (∃ t, evaluate session.registries 1 0
        (.ofList [.symbol "lambda", .ofList [.symbol "x"], body]) 0 session.state =
          .ok (.closure w) t) ∧
      Forwarding.Unobservable session.state (call w) (call f) ∧
      scope? (endValue? (call w 3)) = some 2 ∧ scope? (endValue? (call f 2)) = some 1 := by
  intro first session f body w args call scope?
  have hfirst : first.Reachable := .perform .empty 0 trivial
  have hreach : session.Reachable := .perform hfirst 3 ⟨by decide, by simp⟩
  have hg : (session.store.bindings 0).get? "g" = some (.closure f) := rfl
  have hreg : (session.registries 0).lookup? "lambda" = some .lambda := rfl
  have hnone : session.store.lookup? 0 "lambda" = none :=
    Option.isNone_iff_eq_none.mp (by decide +kernel)
  have hfree : ∀ c, session.store.lookup? 0 "lambda" ≠ some (.closure c) := by simp [hnone]
  obtain ⟨hmade, hw⟩ := Forwarding.forwards_of_lambda f hreg hfree (by decide : ["x"].Nodup)
    (by decide : "g" ∉ ["x"]) rfl .square 0
  have hargs : ∀ n ∈ args, session.state.Holds n := by simp [args]
  have hkeeps : ∀ bound values t, evaluateEach (evaluate session.registries bound f.machine · 0)
      args session.state = .ok values t →
        (t.store.bindings 0).get? "g" = (session.store.bindings 0).get? "g" := by
    intro bound values t hrun
    cases bound <;> cases hrun
    rfl
  obtain ⟨-, hunobservable⟩ :=
    a_forwarding_wrapper_is_unobservable hreach hw hg .square (by decide) hargs hkeeps
  exact ⟨hreach, hg, hmade, hunobservable rfl, by decide +kernel, by decide +kernel⟩

end SmallLisp
