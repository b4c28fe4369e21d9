-- Invariants of single runs. An invariant is a correspondence of a run with itself: it says which
-- labels, closures, scopes and nodes may occur, in worlds that only grow. If the steps that touch
-- a state keep it, then every call of the evaluator keeps it, however it ends.
import SmallLisp.Proofs.Evaluation
import SmallLisp.Proofs.Parts

namespace SmallLisp

open Run

/-- What may occur in a run, as seen from a world. -/
structure Invariant (W : Type) where
  label : W → Nat → Prop
  closure : W → Closure Value → Prop
  scope : W → Nat → Prop
  /-- Nodes that may be evaluated, each with the scope for it. -/
  node : W → Value → Nat → Prop
  machine : Nat → Prop
  state : W → State → Prop

namespace Invariant

variable {W : Type} {I : Invariant W} {w : W}

/-- A value of which all parts may occur. -/
def value (I : Invariant W) (w : W) (v : Value) : Prop :=
  ∀ x : Value, x.IsPart v → Value.Allowed (I.label w) (I.closure w) x

/-- The correspondence in which everything that may occur stands for itself. -/
def toCorrespondence (I : Invariant W) : Correspondence W where
  like w := Value.only (I.label w) (I.closure w)
  scope w e e' := e = e' ∧ I.scope w e
  node w n e n' e' := n = n' ∧ e = e' ∧ I.node w n e
  machine m m' := m = m' ∧ I.machine m
  state w s s' := s = s' ∧ I.state w s
  excused _ := False

theorem value_iff {v v' : Value} : I.toCorrespondence.value w v v' ↔ v = v' ∧ I.value w v := by
  constructor
  · intro h
    obtain rfl := Value.eq_of_alike_only h
    exact ⟨rfl, Value.alike_only_self_iff.mp h⟩
  · rintro ⟨rfl, h⟩
    exact Value.alike_only_self_iff.mpr h

theorem values_iff {vs vs' : List Value} :
    List.Forall₂ (I.toCorrespondence.value w) vs vs' ↔ vs = vs' ∧ ∀ v ∈ vs, I.value w v := by
  constructor
  · intro h
    obtain rfl := Value.eq_of_forall₂ h fun _ _ _ h => (value_iff.mp h).1
    exact ⟨rfl, fun v hv => (value_iff.mp (List.forall₂_same.mp h v hv)).2⟩
  · rintro ⟨rfl, h⟩
    exact List.forall₂_same.mpr fun v hv => value_iff.mpr ⟨rfl, h v hv⟩

theorem nodes_iff {ns ns' : List Value} {e e' : Nat} (he : e = e') :
    I.toCorrespondence.nodes w e e' ns ns' ↔ ns = ns' ∧ ∀ n ∈ ns, I.node w n e := by
  constructor
  · intro h
    obtain rfl := Value.eq_of_forall₂ h fun _ _ _ h => h.1
    exact ⟨rfl, fun n hn => (List.forall₂_same.mp h n hn).2.2⟩
  · rintro ⟨rfl, h⟩
    exact List.forall₂_same.mpr fun n hn => ⟨rfl, he, h n hn⟩

variable [Preorder W]

/-- A step that never fails, keeps the invariant and gives what `A` says. -/
def Gives {α : Type} (I : Invariant W) (A : W → α → Prop) (w : W) (m : Run α) : Prop :=
  ∀ s, I.state w s → ∃ a s' w', m s = .ok a s' ∧ w ≤ w' ∧ I.state w' s' ∧ A w' a

/-- An end of a run from world `w` that keeps the invariant. -/
inductive End {α : Type} (I : Invariant W) (registries : Nat → Registry) (A : W → α → Prop)
    (w : W) : EStateM.Result Stop State α → Prop
  | ok {w' : W} {a : α} {s : State} (grown : w ≤ w') (state : I.state w' s) (value : A w' a) :
      End I registries A w (.ok a s)
  | error {w' : W} {stop : Stop} {s : State} (grown : w ≤ w') (state : I.state w' s)
      (raised : StopsAlike (Value.only (I.label w') (I.closure w')) registries stop stop) :
      End I registries A w (.error stop s)

/-- The invariant at the end of a run, with the value if there is one. -/
theorem End.state_and_value {α : Type} {A : W → α → Prop} {registries : Nat → Registry}
    {r : EStateM.Result Stop State α} (h : I.End registries A w r) :
    ∃ w', w ≤ w' ∧ I.state w' (endState r) ∧ ∀ a, endValue? r = some a → A w' a := by
  cases h with
  | ok grown state value =>
    refine ⟨_, grown, state, fun a ha => ?_⟩
    cases ha
    exact value
  | error grown state _ => exact ⟨_, grown, state, fun a ha => by cases ha⟩

/-- What the steps that touch a state have to keep. -/
structure Lawful (I : Invariant W) : Prop where
  label_mono {w w' : W} (h : w ≤ w') (l : Nat) : I.label w l → I.label w' l
  closure_mono {w w' : W} (h : w ≤ w') (c : Closure Value) : I.closure w c → I.closure w' c
  scope_mono {w w' : W} (h : w ≤ w') (e : Nat) : I.scope w e → I.scope w' e
  node_mono {w w' : W} (h : w ≤ w') (n : Value) (e : Nat) : I.node w n e → I.node w' n e
  node_value {w : W} {n : Value} {e : Nat} : I.node w n e → I.value w n
  node_item {w : W} {b : Brackets} {items : List Value} {e : Nat} :
    I.node w (.list b items) e → ∀ n ∈ items, I.node w n e
  machine_of_closure {w : W} {c : Closure Value} : I.closure w c → I.machine c.machine
  lookup {w : W} {s : State} {e : Nat} {name : String} {v : Value} (hs : I.state w s)
    (he : I.scope w e) : s.store.lookup? e name = some v → I.value w v
  evaluated {w : W} {m e : Nat} {n : Value} (hm : I.machine m) (he : I.scope w e)
    (hn : I.node w n e) : I.Gives (fun _ _ => True) w (record (.evaluated m n e))
  dispatched (w : W) (name : String) :
    I.Gives (fun _ _ => True) w (record (.dispatched name))
  assign {w : W} {e : Nat} (name : String) {v : Value} (he : I.scope w e) (hv : I.value w v) :
    I.Gives (fun _ _ => True) w (Run.assign e name v)
  labels (w : W) : I.Gives (fun w l => I.label w l ∧ I.label w (l + 1)) w (reserve 2)
  makeClosure {w : W} {e m : Nat} (params : List String) {body : List Value} (he : I.scope w e)
    (hm : I.machine m) (hb : ∀ n ∈ body, I.node w n e) :
    I.Gives (fun w c => I.value w (.closure c)) w (makeClosure params body e m)
  enter {w : W} {c : Closure Value} {vs : List Value} (hc : I.value w (.closure c))
    (hlen : vs.length = c.params.length) (hvs : ∀ v ∈ vs, I.value w v) :
    I.Gives (fun w f => I.scope w f ∧ ∀ n ∈ c.body, I.node w n f) w (enter c vs)

variable {registries : Nat → Registry}

theorem coupled_of_gives {α : Type} {A : W → α → Prop} {A' : W → α → α → Prop} {m : Run α}
    (h : I.Gives A w m) (hA : ∀ w a, A w a → A' w a a) :
    (I.toCorrespondence.bond registries).Coupled A' w m m := by
  rintro s _ ⟨rfl, hs⟩
  obtain ⟨a, s', w', hm, grown, hs', ha⟩ := h s hs
  rw [hm]
  exact .ok grown ⟨rfl, hs'⟩ (hA _ _ ha)

theorem Lawful.toCorrespondence (hI : I.Lawful) (registries : Nat → Registry) :
    I.toCorrespondence.Lawful registries registries where
  label_mono h l l' hl := ⟨hl.1, hI.label_mono h l hl.2⟩
  tie_mono h c c' hc := ⟨hc.1, hI.closure_mono h c hc.2⟩
  scope_mono h e e' he := ⟨he.1, hI.scope_mono h e he.2⟩
  node_mono h n e n' e' hn := ⟨hn.1, hn.2.1, hI.node_mono h n e hn.2.2⟩
  oneToOne w := Value.oneToOne_only
  node_alike hn := value_iff.mpr ⟨hn.1, hI.node_value hn.2.2⟩
  node_items := by
    rintro w b items items' e e' ⟨hl, he, hn⟩
    cases hl
    exact (nodes_iff he).mpr ⟨rfl, hI.node_item hn⟩
  machine_of_tie hc := ⟨by rw [hc.1], hI.machine_of_closure hc.2⟩
  registry h name := by
    rw [h.1]
    exact .inl rfl
  lookup := by
    rintro w s t e e' name ⟨rfl, hs⟩ ⟨rfl, he⟩
    cases hl : s.store.lookup? e name with
    | none => exact .none
    | some v => exact .some (value_iff.mpr ⟨rfl, hI.lookup hs he hl⟩)
  evaluated := by
    rintro w m m' e e' n n' ⟨rfl, hm⟩ ⟨rfl, he⟩ ⟨rfl, _, hn⟩
    exact coupled_of_gives (hI.evaluated hm he hn) fun _ _ h => h
  dispatched w name := coupled_of_gives (hI.dispatched w name) fun _ _ h => h
  assign := by
    rintro w e e' name v v' ⟨rfl, he⟩ hv
    obtain ⟨rfl, hvv⟩ := value_iff.mp hv
    exact coupled_of_gives (hI.assign name he hvv) fun _ _ h => h
  labels w := coupled_of_gives (hI.labels w) fun _ _ h => ⟨⟨rfl, h.1⟩, ⟨rfl, h.2⟩⟩
  makeClosure := by
    rintro w e e' m m' params body body' ⟨rfl, he⟩ ⟨rfl, hm⟩ hb
    obtain ⟨rfl, hbb⟩ := (nodes_iff rfl).mp hb
    exact coupled_of_gives (hI.makeClosure params he hm hbb) fun _ _ h => value_iff.mpr ⟨rfl, h⟩
  enter := by
    intro w c c' vs vs' hc hlen hvs
    obtain ⟨hcc, hcv⟩ := value_iff.mp hc
    cases hcc
    obtain ⟨rfl, hvv⟩ := values_iff.mp hvs
    exact coupled_of_gives (hI.enter hcv hlen hvv) fun _ _ h =>
      ⟨⟨rfl, h.1⟩, (nodes_iff rfl).mpr ⟨rfl, h.2⟩⟩

theorem end_of_coupled {α : Type} {A' : W → α → α → Prop} {A : W → α → Prop} {m : Run α}
    (h : (I.toCorrespondence.bond registries).Coupled A' w m m) (hA : ∀ w a, A' w a a → A w a)
    {s : State} (hs : I.state w s) : I.End registries A w (m s) := by
  have hms := h s s ⟨rfl, hs⟩
  generalize m s = r at hms ⊢
  cases hms with
  | ok grown states values => exact .ok grown states.2 (hA _ _ values)
  | error grown states stops => exact .error grown states.2 stops
  | excused h => exact h.elim

/-- A call of the evaluator whose parts may all occur. -/
inductive Admits (I : Invariant W) (w : W) : Entry → Prop
  | evaluate {m e : Nat} {n : Value} (hm : I.machine m) (he : I.scope w e) (hn : I.node w n e) :
      Admits I w (.evaluate m n e)
  | apply {m e : Nat} {n : Value} {ns : List Value} (hm : I.machine m) (he : I.scope w e)
      (hn : I.node w n e) (hns : ∀ n ∈ ns, I.node w n e) : Admits I w (.apply m n ns e)
  | form {m e : Nat} (operation : Builtin) {ns : List Value} (hm : I.machine m)
      (he : I.scope w e) (hns : ∀ n ∈ ns, I.node w n e) : Admits I w (.form operation m ns e)
  | invoke {e : Nat} {c : Closure Value} {ns : List Value} (he : I.scope w e)
      (hc : I.value w (.closure c)) (hns : ∀ n ∈ ns, I.node w n e) :
      Admits I w (.invoke c ns e)

/-- Whatever way the evaluator is entered and however it ends, the invariant is kept. -/
theorem Lawful.entry (hI : I.Lawful) (registries : Nat → Registry) (bound : Nat) {x : Entry}
    (hx : I.Admits w x) {s : State} (hs : I.state w s) : I.End registries I.value w (x.run registries bound s) := by
  have hxx : I.toCorrespondence.Entries w x x := by
    cases hx with
    | evaluate hm he hn => exact .evaluate ⟨rfl, hm⟩ ⟨rfl, he⟩ ⟨rfl, rfl, hn⟩
    | apply hm he hn hns =>
      exact .apply ⟨rfl, hm⟩ ⟨rfl, he⟩ ⟨rfl, rfl, hn⟩ ((nodes_iff rfl).mpr ⟨rfl, hns⟩)
    | form operation hm he hns =>
      exact .form operation ⟨rfl, hm⟩ ⟨rfl, he⟩ ((nodes_iff rfl).mpr ⟨rfl, hns⟩)
    | invoke he hc hns =>
      exact .invoke ⟨rfl, he⟩ (value_iff.mpr ⟨rfl, hc⟩) ((nodes_iff rfl).mpr ⟨rfl, hns⟩)
  exact end_of_coupled ((hI.toCorrespondence registries).entry bound hxx)
    (fun _ _ h => (value_iff.mp h).2) hs

end Invariant

end SmallLisp
