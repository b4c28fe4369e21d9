-- What a run can see. From its node and its scope it reaches frames along the frames around them
-- and the scopes of closures. Two runs that find the same there end alike, wherever else their
-- stores differ, and neither touches a frame that it does not reach. So interpreters between
-- which no closure is passed do not notice one another.
import SmallLisp.Proofs.Link
import SmallLisp.Proofs.Reachable

namespace SmallLisp

open Run

namespace Store

/-- The frames that a node reaches in a scope: the scope, the scopes of closures in the node, the
frames around reached frames, and the scopes of closures bound in reached frames. -/
inductive Reaches (s : Store) (node : Value) (scope : Nat) : Nat → Prop
  | scope : Reaches s node scope scope
  | node {c : Closure Value} (hc : (Value.closure c).IsPart node) : Reaches s node scope c.scope
  | outer {f o : Nat} (h : Reaches s node scope f) (ho : s.outer f = some o) :
      Reaches s node scope o
  | binding {f : Nat} {name : String} {v : Value} {c : Closure Value}
      (h : Reaches s node scope f) (hv : (name, v) ∈ (s.bindings f).entries)
      (hc : (Value.closure c).IsPart v) : Reaches s node scope c.scope

/-- Frames that nothing in them leads out of. -/
structure Closed (s : Store) (R : Nat → Prop) : Prop where
  outer : ∀ {f o}, R f → s.outer f = some o → R o
  binding : ∀ {f name v} {c : Closure Value}, R f → (name, v) ∈ (s.bindings f).entries →
    (Value.closure c).IsPart v → R c.scope

theorem closed_reaches (s : Store) (node : Value) (scope : Nat) :
    s.Closed (s.Reaches node scope) :=
  ⟨.outer, .binding⟩

end Store

/-! ## Two runs that see the same -/

/-- The frames of a set and the labels of both states, each standing for itself. -/
def Link.same (R : Nat → Prop) (s t : State) : Link where
  scope f f' := f = f' ∧ R f
  label l l' := l = l' ∧ l < s.supply ∧ l < t.supply
  machine m m' := m = m'

variable {s t : State} {R : Nat → Prop}

theorem Value.alike_same {v : Value} (hs : s.Holds v) (ht : t.Holds v)
    (hR : ∀ c : Closure Value, (Value.closure c).IsPart v → R c.scope) :
    v.Alike (Link.same R s t).like v := by
  have honly : v.Alike (Value.only (fun l => l < s.supply ∧ l < t.supply) (R ·.scope)) v := by
    refine Value.alike_only_self_iff.mpr fun x hx => ?_
    have hxs := hs x hx
    have hxt := ht x hx
    cases x with
    | number n => exact fun l hl => ⟨hxs l hl, hxt l hl⟩
    | closure c => exact ⟨⟨hxs.1, hxt.1⟩, hR c hx⟩
    | _ => trivial
  refine honly.mono (fun _ _ h => ?_) fun c c' h => ?_
  · exact h
  · obtain ⟨rfl, h⟩ := h
    exact ⟨⟨rfl, h⟩, rfl⟩

/-- States that agree on a closed set of frames are linked there. -/
theorem linked_same (hs : s.Sound) (ht : t.Sound) (hR : s.store.Closed R)
    (hlt : ∀ f, R f → f < s.store.size ∧ f < t.store.size)
    (hst : ∀ f, R f → t.store.frame f = s.store.frame f) : Linked (.same R s t) s t where
  fits :=
    { scope_lt := by
        rintro f _ ⟨rfl, hf⟩
        exact hlt f hf
      label_lt := by
        rintro l _ ⟨rfl, hl⟩
        exact hl
      scope_one := by
        rintro f _ g _ ⟨rfl, _⟩ ⟨rfl, _⟩
        rfl
      label_one := by
        rintro l _ m _ ⟨rfl, _⟩ ⟨rfl, _⟩
        rfl }
  left := hs.wellFormed
  right := ht.wellFormed
  outer := by
    rintro f _ ⟨rfl, hf⟩
    have heq : t.store.outer f = s.store.outer f := congrArg Frame.outer (hst f hf)
    rw [heq]
    cases ho : s.store.outer f with
    | none => exact .none
    | some o => exact .some ⟨rfl, hR.outer hf ho⟩
  bindings := by
    rintro f _ ⟨rfl, hf⟩
    have heq : t.store.bindings f = s.store.bindings f := congrArg Frame.bindings (hst f hf)
    rw [heq]
    refine List.forall₂_same.mpr fun entry hm => ⟨rfl, Value.alike_same ?_ ?_ fun c hc => ?_⟩
    · exact hs.holds f entry.1 entry.2 hm
    · exact ht.holds f entry.1 entry.2 (heq ▸ hm)
    · exact hR.binding hf hm hc

/-- Frames that are reached in one sound state exist in every sound state that agrees on them. -/
theorem Store.Reaches.lt {node : Value} {scope f : Nat} (h : s.store.Reaches node scope f)
    (hs : s.Sound) (ht : t.Sound) (hns : s.Holds node) (hnt : t.Holds node)
    (hes : scope < s.store.size) (het : scope < t.store.size)
    (hst : ∀ f, s.store.Reaches node scope f → t.store.frame f = s.store.frame f) :
    f < s.store.size ∧ f < t.store.size := by
  induction h with
  | scope => exact ⟨hes, het⟩
  | node hc => exact ⟨(hns _ hc).2, (hnt _ hc).2⟩
  | outer _ ho ih =>
    have := hs.wellFormed.outer_lt _ _ ho
    omega
  | @binding f name v c h hv hc _ =>
    have hvt : (name, v) ∈ (t.store.bindings f).entries := by
      unfold Store.bindings
      rw [hst f h]
      exact hv
    exact ⟨(hs.holds f name v hv _ hc).2, (ht.holds f name v hvt _ hc).2⟩

/-- Sound states are linked by what a node reaches, if they have the same there. -/
theorem linked_of_same_reach {node : Value} {scope : Nat} (hs : s.Sound) (ht : t.Sound)
    (hns : s.Holds node) (hnt : t.Holds node) (hes : scope < s.store.size)
    (het : scope < t.store.size)
    (hst : ∀ f, s.store.Reaches node scope f → t.store.frame f = s.store.frame f) :
    Linked (.same (s.store.Reaches node scope) s t) s t :=
  linked_same hs ht (s.store.closed_reaches node scope)
    (fun _ hf => hf.lt hs ht hns hnt hes het hst) hst

/-- By this link the node stands for itself. -/
theorem alike_of_same_reach {node : Value} {scope : Nat} (hns : s.Holds node)
    (hnt : t.Holds node) :
    node.Alike ((Link.same (s.store.Reaches node scope) s t).grow s t (0, 0)).like node := by
  rw [Link.grow_zero]
  exact Value.alike_same hns hnt fun c hc => .node hc

/-- Evaluations that reach the same end alike and touch nothing else; what they make is linked in
the order in which it is made. -/
theorem evaluate_of_same_reach (registries : Nat → Registry) (bound machine : Nat)
    {node : Value} {scope : Nat} (hs : s.Sound) (ht : t.Sound) (hns : s.Holds node)
    (hnt : t.Holds node) (hes : scope < s.store.size) (het : scope < t.store.size)
    (hst : ∀ f, s.store.Reaches node scope f → t.store.frame f = s.store.frame f) :
    ∃ n, Onward (.same (s.store.Reaches node scope) s t) s t n
        (endState (evaluate registries bound machine node scope s))
        (endState (evaluate registries bound machine node scope t)) ∧
      EndsAlike (Value.Alike ((Link.same (s.store.Reaches node scope) s t).grow s t n).like)
        (evaluate registries bound machine node scope s)
        (evaluate registries bound machine node scope t) := by
  have hlinked := linked_of_same_reach hs ht hns hnt hes het hst
  have hlawful := Link.correspondence_lawful hlinked.fits registries registries fun m m' hm =>
    congrArg registries hm
  refine hlinked.run (hlawful.entry bound (.evaluate (rfl : machine = machine) ?_ ?_))
  · exact .inl ⟨rfl, .scope⟩
  · exact alike_of_same_reach hns hnt

end SmallLisp
