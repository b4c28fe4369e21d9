-- What the trails of two runs have in common. Corresponding runs put corresponding events on their
-- trails, in the same order; so whatever corresponding events keep of two trails, the runs keep.
import SmallLisp.Proofs.Evaluation

namespace SmallLisp

open Run

namespace Correspondence

variable {W : Type} [Preorder W] {C : Correspondence W} {T : W → Array Event → Array Event → Prop}

/-- Corresponding events, put on two trails, keep what the trails have in common. -/
structure Tracks (C : Correspondence W) (T : W → Array Event → Array Event → Prop) : Prop where
  mono {w w' : W} (h : w ≤ w') {a b : Array Event} : T w a b → T w' a b
  evaluated {w : W} {m m' e e' : Nat} {n n' : Value} {a b : Array Event} (hm : C.machine m m')
    (he : C.scope w e e') (hn : C.node w n e n' e') :
    T w a b → T w (a.push (.evaluated m n e)) (b.push (.evaluated m' n' e'))
  dispatched {w : W} {a b : Array Event} (name : String) :
    T w a b → T w (a.push (.dispatched name)) (b.push (.dispatched name))
  assigned {w : W} {s t : State} {e e' : Nat} (name : String) (hs : C.state w s t)
    (he : C.scope w e e') :
    T w s.trail t.trail → T w (s.trail.push (.assigned (s.store.root e) name))
      (t.trail.push (.assigned (t.store.root e') name))
  closureMade {w : W} {c c' : Closure Value} {a b : Array Event}
    (hc : C.value w (.closure c) (.closure c')) :
    T w a b → T w (a.push (.closureMade c)) (b.push (.closureMade c'))
  closureCalled {w : W} {c c' : Closure Value} {vs vs' : List Value} {a b : Array Event}
    (hc : C.value w (.closure c) (.closure c')) (hvs : List.Forall₂ (C.value w) vs vs') :
    T w a b → T w (a.push (.closureCalled c vs)) (b.push (.closureCalled c' vs'))

/-- The correspondence of states whose trails also have this in common. -/
def tracking (C : Correspondence W) (T : W → Array Event → Array Event → Prop) :
    Correspondence W where
  like := C.like
  scope := C.scope
  node := C.node
  machine := C.machine
  state w s t := C.state w s t ∧ T w s.trail t.trail
  excused := C.excused

variable {registries registries' : Nat → Registry} {w : W}

/-- A step that ends in a value on both sides, and puts on the trails what may be put there. -/
theorem coupled_tracking {α β : Type} {A : W → α → β → Prop} {m : Run α} {k : Run β}
    (hmk : (C.bond registries).Coupled A w m k)
    (hm : ∀ s, ∃ a s', m s = .ok a s') (hk : ∀ t, ∃ b t', k t = .ok b t')
    (htrail : ∀ {w' : W} {s t s' t' : State} {a : α} {b : β}, w ≤ w' → C.state w s t →
      m s = .ok a s' → k t = .ok b t' → A w' a b → T w s.trail t.trail →
      T w' s'.trail t'.trail) :
    ((C.tracking T).bond registries).Coupled A w m k := by
  rintro s t ⟨hs, ht⟩
  obtain ⟨a, s', hms⟩ := hm s
  obtain ⟨b, t', hkt⟩ := hk t
  have hend := hmk s t hs
  rw [hms, hkt] at hend ⊢
  cases hend with
  | ok grown states values => exact .ok grown ⟨states, htrail grown hs hms hkt values ht⟩ values

/-- A lawful correspondence stays lawful with what its trails have in common. -/
theorem Lawful.tracking (hC : C.Lawful registries registries') (hT : C.Tracks T) :
    (C.tracking T).Lawful registries registries' where
  label_mono := hC.label_mono
  tie_mono := hC.tie_mono
  scope_mono := hC.scope_mono
  node_mono := hC.node_mono
  oneToOne := hC.oneToOne
  node_alike := hC.node_alike
  node_items := hC.node_items
  machine_of_tie := hC.machine_of_tie
  registry := hC.registry
  lookup name hs he := hC.lookup name hs.1 he
  evaluated := by
    intro w m m' e e' n n' hm he hn
    refine coupled_tracking (hC.evaluated hm he hn) (fun s => ⟨_, _, rfl⟩) (fun t => ⟨_, _, rfl⟩) ?_
    rintro w' s t _ _ _ _ hw _ ⟨⟩ ⟨⟩ _ ht
    exact hT.mono hw (hT.evaluated hm he hn ht)
  dispatched := by
    intro w name
    refine coupled_tracking (hC.dispatched w name) (fun s => ⟨_, _, rfl⟩) (fun t => ⟨_, _, rfl⟩) ?_
    rintro w' s t _ _ _ _ hw _ ⟨⟩ ⟨⟩ _ ht
    exact hT.mono hw (hT.dispatched name ht)
  assign := by
    intro w e e' name v v' he hv
    refine coupled_tracking (hC.assign name he hv) (fun s => ⟨_, _, rfl⟩) (fun t => ⟨_, _, rfl⟩) ?_
    rintro w' s t _ _ _ _ hw hs ⟨⟩ ⟨⟩ _ ht
    exact hT.mono hw (hT.assigned name hs he ht)
  labels := by
    intro w
    refine coupled_tracking (hC.labels w) (fun s => ⟨_, _, rfl⟩) (fun t => ⟨_, _, rfl⟩) ?_
    rintro w' s t _ _ _ _ hw _ ⟨⟩ ⟨⟩ _ ht
    exact hT.mono hw ht
  makeClosure := by
    intro w e e' m m' params body body' he hm hb
    refine coupled_tracking (hC.makeClosure params he hm hb) (fun s => ⟨_, _, rfl⟩)
      (fun t => ⟨_, _, rfl⟩) ?_
    rintro w' s t _ _ _ _ hw _ ⟨⟩ ⟨⟩ hc ht
    exact hT.closureMade hc (hT.mono hw ht)
  enter := by
    intro w c c' vs vs' hc hlen hvs
    refine coupled_tracking (hC.enter hc hlen hvs) (fun s => ⟨_, _, rfl⟩) (fun t => ⟨_, _, rfl⟩) ?_
    rintro w' s t _ _ _ _ hw _ ⟨⟩ ⟨⟩ _ ht
    exact hT.mono hw (hT.closureCalled hc hvs ht)

end Correspondence

end SmallLisp
