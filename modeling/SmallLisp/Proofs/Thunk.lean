-- A thunk is transparent. To call a `lambda` without parameters on the spot evaluates its body one
-- empty frame further in, and that frame is never seen: look-ups and assignments pass through it,
-- and a closure made in it finds what it would find in the scope around it.
import SmallLisp.Proofs.Evaluation
import SmallLisp.Proofs.Reachable

namespace SmallLisp

open Run

/-- The call of a `lambda` without parameters where it is written. -/
def Value.thunk (outer inner : Brackets) (params : Value) (body : List Value) : Value :=
  .list outer [.list inner (.symbol "lambda" :: params :: body)]

namespace Thunk

/-! ## One frame more -/

/-- Where a frame of the run with the thunk is in the run without it: the thunk's own frame,
which has number `own`, is in the place of its scope, and all later frames come one earlier. -/
def place (own scope f : Nat) : Nat :=
  if f < own then f else if f = own then scope else f - 1

/-- What stands for what after a thunk has been called in a scope of the state `s`. The closure
that was called took a label, so all later labels come one earlier as well. -/
def likeness (s : State) (scope : Nat) : Likeness where
  label l l' := l ≠ s.supply ∧ l' = if l < s.supply then l else l - 1
  tie c c' := c'.scope = place s.store.size scope c.scope ∧ c'.machine = c.machine

variable {own scope f g : Nat}

theorem place_of_lt (h : f < own) : place own scope f = f := if_pos h

@[simp] theorem place_own : place own scope own = scope := by
  simp [place]

theorem place_of_gt (h : own < f) : place own scope f = f - 1 := by
  unfold place
  rw [if_neg (by omega), if_neg (by omega)]

/-- No two frames but the thunk's own are in one place. -/
theorem place_inj (hf : f ≠ own) (hg : g ≠ own) : place own scope f = place own scope g ↔ f = g := by
  unfold place
  grind

variable {s₀ s t : State} {w : Nat}

theorem oneToOne_label (s₀ : State) (scope : Nat) : OneToOne (likeness s₀ scope).label := by
  rintro l l' m m' ⟨hl, rfl⟩ ⟨hm, rfl⟩
  grind

/-- What stands for what while the run with the thunk has `w` frames. -/
def tied (s₀ : State) (scope w : Nat) : Likeness where
  label := (likeness s₀ scope).label
  tie c c' := (likeness s₀ scope).tie c c' ∧ c.scope < w

theorem alike_of_tied {v v' : Value} (h : v.Alike (tied s₀ scope w) v') :
    v.Alike (likeness s₀ scope) v' := by
  refine h.mono (fun _ _ hl => ?_) fun _ _ hc => ?_
  · exact hl
  · exact hc.1

theorem tied_mono {w' : Nat} (hw : w ≤ w') {v v' : Value} (h : v.Alike (tied s₀ scope w) v') :
    v.Alike (tied s₀ scope w') v' := by
  refine h.mono (fun _ _ hl => ?_) fun _ _ hc => ?_
  · exact hl
  · exact ⟨hc.1, Nat.lt_of_lt_of_le hc.2 hw⟩

/-- Two states after a thunk was called in a scope of the state `s₀`: the first one has `w`
frames, of which one is the thunk's, and the others are those of the second one. -/
structure Merged (s₀ : State) (scope w : Nat) (s t : State) : Prop where
  left : s.store.WellFormed
  right : t.store.WellFormed
  size : s.store.size = w
  size' : t.store.size + 1 = w
  supply : s.supply = t.supply + 1
  own_lt : s₀.store.size < w
  label_lt : s₀.supply < s.supply
  scope_lt : scope < s₀.store.size
  /-- The thunk's frame stays empty. -/
  own : s.store.frame s₀.store.size = ⟨.empty, some scope⟩
  outer : ∀ f, f ≠ s₀.store.size →
    t.store.outer (place s₀.store.size scope f) =
      (s.store.outer f).map (place s₀.store.size scope)
  bindings : ∀ f, f ≠ s₀.store.size →
    (s.store.bindings f).Alike (Value.Alike (tied s₀ scope w))
      (t.store.bindings (place s₀.store.size scope f))

namespace Merged

/-- A name is looked up through the thunk's frame. -/
theorem lookup? (h : Merged s₀ scope w s t) (f : Nat) (name : String) :
    Option.Rel (Value.Alike (tied s₀ scope w)) (s.store.lookup? f name)
      (t.store.lookup? (place s₀.store.size scope f) name) := by
  induction f using h.left.chain_induction with
  | step f ih =>
    by_cases hf : f = s₀.store.size
    · subst hf
      have hbindings : s.store.bindings s₀.store.size = .empty := congrArg Frame.bindings h.own
      have houter : s.store.outer s₀.store.size = some scope := congrArg Frame.outer h.own
      have hnext := ih scope houter
      rw [h.left.lookup?_eq, hbindings, houter, place_own]
      rwa [place_of_lt h.scope_lt] at hnext
    · have hget := (h.bindings f hf).get? name
      rw [h.left.lookup?_eq, h.right.lookup?_eq, h.outer f hf]
      generalize (s.store.bindings f).get? name = v at hget ⊢
      generalize (t.store.bindings _).get? name = v' at hget ⊢
      cases hget with
      | some hv => exact .some hv
      | none =>
        cases ho : s.store.outer f with
        | none => exact .none
        | some o => exact ih o ho

/-- The thunk's frame is no root. -/
theorem root_ne (h : Merged s₀ scope w s t) (f : Nat) : s.store.root f ≠ s₀.store.size := by
  intro hf
  have hroot := h.left.outer_root f
  rw [hf, show s.store.outer s₀.store.size = some scope from congrArg Frame.outer h.own] at hroot
  cases hroot

theorem root (h : Merged s₀ scope w s t) (f : Nat) :
    t.store.root (place s₀.store.size scope f) = place s₀.store.size scope (s.store.root f) := by
  induction f using h.left.chain_induction with
  | step f ih =>
    rw [h.left.root_eq f]
    by_cases hf : f = s₀.store.size
    · subst hf
      have houter : s.store.outer s₀.store.size = some scope := congrArg Frame.outer h.own
      rw [houter, place_own, ← ih scope houter, place_of_lt h.scope_lt]
    · rw [h.right.root_eq, h.outer f hf]
      cases ho : s.store.outer f with
      | none => rfl
      | some o => exact ih o ho

theorem trail (h : Merged s₀ scope w s t) (a b : Array Event) :
    Merged s₀ scope w { s with trail := a } { t with trail := b } :=
  ⟨h.left, h.right, h.size, h.size', h.supply, h.own_lt, h.label_lt, h.scope_lt, h.own, h.outer,
    h.bindings⟩

theorem labels (h : Merged s₀ scope w s t) (count : Nat) :
    Merged s₀ scope w { s with supply := s.supply + count }
      { t with supply := t.supply + count } where
  left := h.left
  right := h.right
  size := h.size
  size' := h.size'
  supply := by
    dsimp only
    rw [h.supply]
    omega
  own_lt := h.own_lt
  label_lt := Nat.lt_add_right count h.label_lt
  scope_lt := h.scope_lt
  own := h.own
  outer := h.outer
  bindings := h.bindings

/-- The next labels of the two states stand for each other. -/
theorem next_label (h : Merged s₀ scope w s t) (i : Nat) :
    (likeness s₀ scope).label (s.supply + i) (t.supply + i) := by
  have := h.supply
  have := h.label_lt
  refine ⟨by omega, ?_⟩
  rw [if_neg (by omega)]
  omega

/-- Assignment from any scope reaches the same root. -/
theorem assign (h : Merged s₀ scope w s t) (f : Nat) (name : String) {v v' : Value}
    (hv : v.Alike (tied s₀ scope w) v') :
    Merged s₀ scope w { s with store := s.store.assign f name v }
      { t with store := t.store.assign (place s₀.store.size scope f) name v' } := by
  have hne := h.root_ne f
  unfold Store.assign
  rw [h.root f]
  generalize s.store.root f = r at hne
  have hlt : place s₀.store.size scope r < t.store.size ↔ r < s.store.size := by
    have := h.size
    have := h.size'
    have := h.own_lt
    unfold place
    grind
  exact
    { left := h.left.define r name v
      right := h.right.define _ name v'
      size := by simpa using h.size
      size' := by simpa using h.size'
      supply := h.supply
      own_lt := h.own_lt
      label_lt := h.label_lt
      scope_lt := h.scope_lt
      own := by
        dsimp only
        rw [Store.frame_define, if_neg fun hc => hne hc.1.symm, h.own]
      outer := fun g hg => by simpa using h.outer g hg
      bindings := by
        intro g hg
        dsimp only
        rw [Store.bindings_define, Store.bindings_define]
        simp only [place_inj hg hne, hlt]
        split
        · exact (h.bindings r hne).put name hv
        · exact h.bindings g hg }

/-- A frame for a call on either side. -/
theorem enter (h : Merged s₀ scope w s t) {c c' : Closure Value} {vs vs' : List Value}
    (hlt : c.scope < w) (hparams : c.params = c'.params)
    (hscope : c'.scope = place s₀.store.size scope c.scope)
    (hvs : List.Forall₂ (Value.Alike (tied s₀ scope w)) vs vs') :
    Merged s₀ scope (w + 1) { s with store := s.store.add (c.frame vs) }
      { t with store := t.store.add (c'.frame vs') } := by
  have hsize := h.size
  have hsize' := h.size'
  have hown := h.own_lt
  have hscope_lt := h.scope_lt
  have hlt' : c'.scope < t.store.size := by
    rw [hscope]
    unfold place
    grind
  -- the new frames are in one place, and no other frame is there
  have hnew : ∀ {f}, f ≠ s₀.store.size →
      (place s₀.store.size scope f = t.store.size ↔ f = s.store.size) := by
    intro f hf
    unfold place
    grind
  exact
    { left := h.left.add (fun o ho => by cases ho; omega) (Table.distinct_ofList _)
      right := h.right.add (fun o ho => by cases ho; exact hlt') (Table.distinct_ofList _)
      size := by simpa using hsize
      size' := by simpa using hsize'
      supply := h.supply
      own_lt := Nat.lt_succ_of_lt hown
      label_lt := h.label_lt
      scope_lt := hscope_lt
      own := by
        dsimp only
        rw [Store.frame_add, if_neg (by omega), h.own]
      outer := by
        intro f hf
        dsimp only
        rw [Store.outer_add, Store.outer_add]
        simp only [hnew hf]
        split
        · exact congrArg some hscope
        · exact h.outer f hf
      bindings := by
        intro f hf
        dsimp only
        rw [Store.bindings_add, Store.bindings_add]
        simp only [hnew hf]
        split
        · unfold Closure.frame
          rw [← hparams]
          exact (Table.alike_ofList c.params hvs).mono fun _ _ => tied_mono (Nat.le_succ w)
        · exact (h.bindings f hf).mono fun _ _ => tied_mono (Nat.le_succ w) }

end Merged

/-! ## Runs with and without the frame -/

/-- The correspondence of a run with the thunk's frame and one without it. A world is the number of
frames that the first run has. -/
def correspondence (s₀ : State) (scope : Nat) : Correspondence Nat where
  like := tied s₀ scope
  scope w f f' := f' = place s₀.store.size scope f ∧ f < w
  node w n _ n' _ := n.Alike (tied s₀ scope w) n'
  machine m m' := m' = m
  state := Merged s₀ scope
  excused _ := False

theorem correspondence_lawful (s₀ : State) (scope : Nat) (registries : Nat → Registry) :
    (correspondence s₀ scope).Lawful registries registries where
  label_mono _ _ _ h := h
  tie_mono hw _ _ h := ⟨h.1, Nat.lt_of_lt_of_le h.2 hw⟩
  scope_mono hw _ _ h := ⟨h.1, Nat.lt_of_lt_of_le h.2 hw⟩
  node_mono hw _ _ _ _ h := tied_mono hw h
  oneToOne _ := oneToOne_label s₀ scope
  node_alike h := h
  node_items h := by cases h with | list _ h => exact h
  machine_of_tie h := h.1.2
  registry h name := by
    cases h
    exact .inl rfl
  lookup name hs he := by
    rw [he.1]
    exact hs.lookup? _ name
  evaluated _ _ _ _ _ hs := .ok le_rfl (hs.trail _ _) trivial
  dispatched _ _ _ _ hs := .ok le_rfl (hs.trail _ _) trivial
  assign name _ _ he hv _ _ hs := by
    cases he.1
    exact .ok le_rfl ((hs.assign _ name hv).trail _ _) trivial
  labels _ _ _ hs := .ok le_rfl (Merged.labels hs 2) ⟨Merged.next_label hs 0, Merged.next_label hs 1⟩
  makeClosure := by
    rintro w e e' m _ params body body' he rfl hb s t hs
    refine .ok le_rfl ((Merged.labels hs 1).trail _ _) (.closure ?_ rfl hb ⟨⟨he.1, rfl⟩, he.2⟩)
    exact Merged.next_label hs 0
  enter := by
    intro w c c' vs vs' hc _ hvs s t hs
    cases hc with
    | closure _ params body tie =>
      have hsize := hs.size
      have hsize' := hs.size'
      have hown := hs.own_lt
      refine .ok (Nat.le_succ w) ((hs.enter tie.2 params tie.1.1 hvs).trail _ _) ⟨⟨?_, ?_⟩, ?_⟩
      · rw [place_of_gt (by omega)]
        omega
      · omega
      · exact body.imp fun _ _ => tied_mono (Nat.le_succ w)

/-! ## How a thunk begins -/

theorem parameters_of_isNil {params : Value} (h : params.isNil) :
    Form.parameters params = .ok [] := by
  cases params with
  | nil | null => rfl
  | list b items =>
    cases items with
    | nil => rfl
    | cons _ _ => cases h
  | _ => cases h

variable {registries : Nat → Registry} {machine : Nat} {params : Value}

theorem evaluate_lambda (bound : Nat) (b : Brackets) (body : List Value) (hparams : params.isNil)
    (hreg : (registries machine).lookup? "lambda" = some .lambda)
    (hbound : ∀ c, s.store.lookup? scope "lambda" ≠ some (.closure c)) :
    ∃ trail, evaluate registries (bound + 1) machine
        (.list b (.symbol "lambda" :: params :: body)) scope s =
      .ok (.closure ⟨s.supply, [], body, scope, machine⟩) ⟨s.store, s.supply + 1, trail⟩ := by
  let begun : State := { s with trail := s.trail.push (.evaluated machine
    (.list b (.symbol "lambda" :: params :: body)) scope) }
  have hoperate := operate_of_lookup? (s := begun) (evaluate registries bound) (params :: body)
    hreg hbound
  rw [evaluate_list]
  unfold apply
  rw [applyWith_eq]
  show ∃ _, operate registries _ machine (params :: body) scope (.symbol "lambda") begun = _
  rw [hoperate]
  show ∃ _, (ofExcept (Form.parameters params) >>= _) _ = _
  rw [parameters_of_isNil hparams]
  exact ⟨_, rfl⟩

/-- A thunk evaluates its body in a new frame, and nothing else shows. -/
theorem evaluate_thunk (bound : Nat) (outer inner : Brackets) (body : List Value)
    (hparams : params.isNil) (hreg : (registries machine).lookup? "lambda" = some .lambda)
    (hbound : ∀ c, s.store.lookup? scope "lambda" ≠ some (.closure c)) :
    ∃ trail, evaluate registries (bound + 2) machine (.thunk outer inner params body) scope s =
      evaluateInTurn (evaluate registries (bound + 1) machine · s.store.size) .nil body
        ⟨s.store.add ⟨.empty, some scope⟩, s.supply + 1, trail⟩ := by
  let begun : State := { s with trail := s.trail.push (.evaluated machine
    (.thunk outer inner params body) scope) }
  obtain ⟨trail, hlambda⟩ := evaluate_lambda (s := begun) bound inner body hparams hreg hbound
  unfold Value.thunk
  rw [evaluate_list]
  unfold apply
  rw [applyWith_eq]
  show ∃ _, EStateM.bind (evaluate registries (bound + 1) machine _ scope) _ begun = _
  unfold EStateM.bind
  rw [hlambda]
  exact ⟨_, rfl⟩

/-! ## The body inside and outside of the thunk -/

/-- Two runs from the state `s` end alike, with and without a thunk called in the scope, and leave
alike bindings in all frames of `s`. -/
structure Agree (s : State) (scope : Nat) (r r' : EStateM.Result Stop State Value) : Prop where
  ends : EndsAlike (Value.Alike (likeness s scope)) r r'
  bindings : ∀ f < s.store.size, ((endState r).store.bindings f).Alike
    (Value.Alike (likeness s scope)) ((endState r').store.bindings f)

/-- Frames of the state that the thunk is called in are in their own places. -/
theorem place_of_outer (hs : s.Sound) {o : Nat} (ho : s.store.outer f = some o) :
    place s.store.size scope o = o := by
  have := hs.wellFormed.outer_lt f o ho
  have := Store.lt_size_of_outer ho
  exact place_of_lt (by omega)

theorem alike_of_holds {v : Value} (hv : s.Holds v) :
    v.Alike (tied s scope (s.store.size + 1)) v := by
  have honly : v.Alike (Value.only (· < s.supply) (·.scope < s.store.size)) v :=
    Value.alike_only_self_iff.mpr hv
  refine honly.mono (fun l l' hl => ?_) fun c c' hc => ?_
  · obtain ⟨rfl, hl⟩ := hl
    exact ⟨Nat.ne_of_lt hl, (if_pos hl).symm⟩
  · obtain ⟨rfl, hc⟩ := hc
    exact ⟨⟨(place_of_lt hc).symm, rfl⟩, Nat.lt_succ_of_lt hc⟩

theorem merged_start (hs : s.Sound) (hscope : scope < s.store.size) (trail trail' : Array Event) :
    Merged s scope (s.store.size + 1) ⟨s.store.add ⟨.empty, some scope⟩, s.supply + 1, trail⟩
      { s with trail := trail' } where
  left := hs.wellFormed.add (fun o ho => by cases ho; exact hscope) List.nodup_nil
  right := hs.wellFormed
  size := Store.size_add ..
  size' := rfl
  supply := rfl
  own_lt := Nat.lt_succ_self _
  label_lt := Nat.lt_succ_self _
  scope_lt := hscope
  own := by
    dsimp only
    rw [Store.frame_add, if_pos rfl]
  outer := by
    intro f hf
    dsimp only
    rw [Store.outer_add, if_neg hf]
    rcases Nat.lt_or_gt_of_ne hf with hlt | hgt
    · rw [place_of_lt hlt]
      cases ho : s.store.outer f with
      | none => rfl
      | some o => exact congrArg some (place_of_outer hs ho).symm
    · unfold Store.outer
      rw [place_of_gt hgt, Store.frame_of_size_le (by omega), Store.frame_of_size_le (by omega)]
      rfl
  bindings := by
    intro f hf
    dsimp only
    rw [Store.bindings_add, if_neg hf]
    rcases Nat.lt_or_gt_of_ne hf with hlt | hgt
    · rw [place_of_lt hlt]
      exact List.forall₂_same.mpr fun entry hm =>
        ⟨rfl, alike_of_holds (hs.holds f entry.1 entry.2 hm)⟩
    · unfold Store.bindings
      rw [place_of_gt hgt, Store.frame_of_size_le (by omega), Store.frame_of_size_le (by omega)]
      exact .nil

/-- If the body is evaluated alike inside and outside of the thunk's frame, the runs agree. -/
theorem agree_of_evaluatesAlike (hs : s.Sound) (hscope : scope < s.store.size)
    {inside outside : Value → Run Value}
    (hev : (correspondence s scope).EvaluatesAlike registries (s.store.size + 1) s.store.size
      scope inside outside) {body : List Value} (hbody : ∀ p ∈ body, s.Holds p)
    (trail trail' : Array Event) :
    Agree s scope
      (evaluateInTurn inside .nil body
        ⟨s.store.add ⟨.empty, some scope⟩, s.supply + 1, trail⟩)
      (evaluateInTurn outside .nil body { s with trail := trail' }) := by
  have hrun := (correspondence_lawful s scope registries).evaluateInTurn hev .nil
    (List.forall₂_same.mpr fun p hp => alike_of_holds (hbody p hp))
  have hend := hrun _ _ (merged_start hs hscope trail trail')
  generalize evaluateInTurn inside .nil body _ = r at hend ⊢
  generalize evaluateInTurn outside .nil body _ = r' at hend ⊢
  have hbindings : ∀ {w' : Nat} {t t' : State}, Merged s scope w' t t' → ∀ f < s.store.size,
      (t.store.bindings f).Alike (Value.Alike (likeness s scope)) (t'.store.bindings f) := by
    intro w' t t' h f hf
    have hb := h.bindings f (Nat.ne_of_lt hf)
    rw [place_of_lt hf] at hb
    exact hb.mono fun _ _ => alike_of_tied
  cases hend with
  | ok _ states value => exact ⟨.value (alike_of_tied value), hbindings states⟩
  | error _ states stops => exact ⟨stops.ends, hbindings states⟩
  | excused h => exact h.elim

/-- An interpreter evaluates a program whether it announces it or not. -/
theorem runProgram_eq (session : Session) (bound machine : Nat) (program : Value) (t : State) :
    ∃ trail, session.runProgram bound machine program t =
      evaluate session.registries bound machine program (session.globals machine)
        { t with trail := trail } := by
  unfold Session.runProgram
  split
  · exact ⟨_, rfl⟩
  · exact ⟨t.trail, rfl⟩

theorem evaluatesAlike_runProgram {session : Session} {w own bound : Nat}
    {inside : Value → Run Value}
    (hev : (correspondence s scope).EvaluatesAlike registries w own (session.globals machine) inside
      (evaluate session.registries bound machine · (session.globals machine))) :
    (correspondence s scope).EvaluatesAlike registries w own (session.globals machine) inside
      (session.runProgram bound machine) := by
  intro w' hw n n' hn t t' ht
  obtain ⟨trail, heq⟩ := runProgram_eq session bound machine n' t'
  rw [heq]
  exact hev w' hw n n' hn t _ (Merged.trail ht t.trail trail)

/-! ## Within any bound -/

/-- Runs with a thunk and runs without it, one for each bound: they agree where the thunk has the
two levels more that it takes, and one of them finishes exactly if the other does. -/
structure Transparent (s : State) (scope : Nat)
    (thunk direct : Nat → EStateM.Result Stop State Value) : Prop where
  agree : ∀ bound, Agree s scope (thunk (bound + 2)) (direct (bound + 1))
  finished_iff : (∃ bound, Finished (thunk bound)) ↔ ∃ bound, Finished (direct bound)

/-- Without any bound only an empty body finishes, and so it does within every bound. -/
theorem finished_evaluateInTurn {eval eval' : Value → Run Value} {last : Value} {body : List Value}
    (heval : ∀ p t, ∃ u, eval p t = .error .exhausted u)
    (h : Finished (evaluateInTurn eval last body s)) :
    Finished (evaluateInTurn eval' last body s) := by
  cases body with
  | nil => exact h
  | cons p rest =>
    obtain ⟨u, hu⟩ := heval p s
    have hrun : evaluateInTurn eval last (p :: rest) s = .error .exhausted u := by
      show EStateM.bind (eval p) _ s = _
      unfold EStateM.bind
      rw [hu]
    exact absurd hrun (h u)

theorem transparent_of_agree {thunk direct : Nat → EStateM.Result Stop State Value}
    (hzero : ¬ Finished (thunk 0)) (hone : ¬ Finished (thunk 1))
    (hdirect : Finished (direct 0) → Finished (direct 1))
    (hagree : ∀ bound, Agree s scope (thunk (bound + 2)) (direct (bound + 1))) :
    Transparent s scope thunk direct := by
  refine ⟨hagree, ?_, ?_⟩
  · rintro ⟨bound, h⟩
    match bound with
    | 0 => exact absurd h hzero
    | 1 => exact absurd h hone
    | bound + 2 => exact ⟨bound + 1, (hagree bound).ends.finished_iff.mp h⟩
  · rintro ⟨bound, h⟩
    cases bound with
    | zero => exact ⟨2, (hagree 0).ends.finished_iff.mpr (hdirect h)⟩
    | succ bound => exact ⟨bound + 2, (hagree bound).ends.finished_iff.mpr h⟩

/-- A thunk needs two levels, for itself and for its `lambda`. -/
theorem not_finished_of_lt_two {bound : Nat} (hbound : bound < 2) (outer inner : Brackets)
    (body : List Value) (t : State) :
    ¬ Finished (evaluate registries bound machine (.thunk outer inner params body) scope t) := by
  match bound with
  | 0 => exact fun h => h t rfl
  | 1 => exact fun h => h { t with trail := t.trail.push _ } rfl

end Thunk

/-- A thunk is transparent, in every session that a host can reach. If `lambda` means what it says
in a scope, then to call a `lambda` without parameters there ends like evaluating its body right in
the scope, and leaves the same bindings in all frames that were there, also after a fault. A closure
that has the thunk's frame for its scope stands for one that has the thunk's scope. In the global
frame, an interpreter given the thunk does what it does when given the body, program by program. -/
theorem a_thunk_is_transparent {session : Session} (h : session.Reachable) {machine scope : Nat}
    {params : Value} {body : List Value} (outer inner : Brackets) (hparams : params.isNil)
    (hreg : (session.registries machine).lookup? "lambda" = some .lambda)
    (hbound : ∀ c, session.store.lookup? scope "lambda" ≠ some (.closure c))
    (hscope : scope < session.store.size) (hbody : ∀ p ∈ body, session.state.Holds p) :
    let s := session.state
    let thunk := Value.thunk outer inner params body
    Thunk.Transparent s scope
        (fun bound => evaluate session.registries bound machine thunk scope s)
        (fun bound =>
          evaluateInTurn (evaluate session.registries bound machine · scope) .nil body s) ∧
      (scope = session.globals machine →
        Thunk.Transparent s scope (fun bound => session.runProgram bound machine thunk s)
          (fun bound => evaluateInTurn (session.runProgram bound machine) .nil body s)) := by
  intro s thunk
  have hs : s.Sound := h.sound.state
  -- inside of the thunk the body is evaluated in the thunk's frame, the first new one
  have hev : ∀ bound, (Thunk.correspondence s scope).EvaluatesAlike session.registries
      (s.store.size + 1) s.store.size scope
      (evaluate session.registries (bound + 1) machine · s.store.size)
      (evaluate session.registries (bound + 1) machine · scope) := fun bound =>
    (Thunk.correspondence_lawful s scope session.registries).evaluate (bound + 1) _ machine machine
      _ _ rfl ⟨Thunk.place_own.symm, Nat.lt_succ_self _⟩
  constructor
  · refine Thunk.transparent_of_agree ?_ ?_ ?_ fun bound => ?_
    · exact Thunk.not_finished_of_lt_two (by decide) outer inner body s
    · exact Thunk.not_finished_of_lt_two (by decide) outer inner body s
    · exact Thunk.finished_evaluateInTurn fun p t => ⟨t, rfl⟩
    · obtain ⟨trail, hthunk⟩ :=
        Thunk.evaluate_thunk (s := s) bound outer inner body hparams hreg hbound
      rw [hthunk]
      exact Thunk.agree_of_evaluatesAlike hs hscope (hev bound) hbody trail s.trail
  · rintro rfl
    have hcut : ∀ bound < 2, ¬ Finished (session.runProgram bound machine thunk s) := by
      intro bound hlt
      obtain ⟨trail, heq⟩ := Thunk.runProgram_eq session bound machine thunk s
      rw [heq]
      exact Thunk.not_finished_of_lt_two hlt outer inner body _
    refine Thunk.transparent_of_agree (hcut 0 (by decide)) (hcut 1 (by decide)) ?_ fun bound => ?_
    · refine Thunk.finished_evaluateInTurn fun p t => ?_
      obtain ⟨trail, heq⟩ := Thunk.runProgram_eq session 0 machine p t
      exact ⟨_, heq⟩
    · obtain ⟨trail, heq⟩ := Thunk.runProgram_eq session (bound + 2) machine thunk s
      obtain ⟨trail', hthunk⟩ := Thunk.evaluate_thunk (s := { s with trail := trail }) bound outer
        inner body hparams hreg hbound
      rw [heq, hthunk]
      exact Thunk.agree_of_evaluatesAlike hs hscope (Thunk.evaluatesAlike_runProgram (hev bound))
        hbody trail' s.trail

/-- A thunk in the global frame that assigns and returns a closure: the closure has the thunk's frame
for its scope, and without the thunk the global frame. -/
theorem a_thunk_that_returns_a_closure :
    let session := (Session.empty.perform 0 (.interpreter none none)).2
    let body : List Value := [.ofList [.symbol "set", .symbol "x", .number (.int 1)],
      .ofList [.symbol "lambda", .nil, .symbol "x"]]
    let thunk := Value.thunk .square .round (.list .square []) body
    session.Reachable ∧ (session.registries 0).lookup? "lambda" = some .lambda ∧
      (∀ c, session.store.lookup? 0 "lambda" ≠ some (.closure c)) ∧
      (∀ p ∈ body, session.state.Holds p) ∧
      Thunk.Transparent session.state 0
        (fun bound => evaluate session.registries bound 0 thunk 0 session.state)
        (fun bound => evaluateInTurn (evaluate session.registries bound 0 · 0) .nil body
          session.state) ∧
      Thunk.Transparent session.state 0 (fun bound => session.runProgram bound 0 thunk session.state)
        (fun bound => evaluateInTurn (session.runProgram bound 0) .nil body session.state) ∧
      endValue? (session.runProgram 3 0 thunk session.state) =
        some (.closure ⟨1, [], [.symbol "x"], 1, 0⟩) ∧
      endValue? (evaluateInTurn (session.runProgram 2 0) .nil body session.state) =
        some (.closure ⟨0, [], [.symbol "x"], 0, 0⟩) := by
  intro session body thunk
  have hreach : session.Reachable := .perform .empty 0 trivial
  have hbody : ∀ p ∈ body, session.state.Holds p := by simp [body, Number.labels]
  have hbound : ∀ c, session.store.lookup? 0 "lambda" ≠ some (.closure c) := by
    intro c hc
    cases hc
  have hreg : (session.registries 0).lookup? "lambda" = some .lambda := rfl
  have hparams : (Value.list .square []).isNil := rfl
  obtain ⟨hplain, hprograms⟩ := a_thunk_is_transparent hreach .square .round hparams hreg hbound
    (by decide) hbody
  exact ⟨hreach, hreg, hbound, hbody, hplain, hprograms rfl, rfl, rfl⟩

end SmallLisp
