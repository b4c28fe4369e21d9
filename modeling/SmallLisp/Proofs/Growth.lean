-- How a run changes the state. A frame inside another one keeps its bindings, a root only gains
-- names or overwrites values, and new frames are made by calls of closures alone, one for each.
-- In a sound state every closure has its scope and every label has been drawn from the supply;
-- runs that begin with parts of a sound state leave a sound state behind.
import SmallLisp.Proofs.Invariant
import SmallLisp.Proofs.Bindings
import Mathlib.Data.Nat.Basic

namespace SmallLisp

open Run

/-- The calls of closures among some events, in order. -/
def callsOf (events : Array Event) : List (Closure Value × List Value) :=
  events.toList.filterMap fun
    | .closureCalled c values => some (c, values)
    | _ => none

theorem callsOf_append (as bs : Array Event) : callsOf (as ++ bs) = callsOf as ++ callsOf bs := by
  unfold callsOf
  rw [Array.toList_append, List.filterMap_append]

/-- The frames of a store from number `first` on are those of the calls, one for each. The frame of
a call lies in the scope that the closure was made in, and binds the parameters to the values that
the closure was called with, as many as there are parameters, and nothing else. -/
structure Store.MadeBy (t : Store) (first : Nat) (calls : List (Closure Value × List Value)) :
    Prop where
  size_eq : t.size = first + calls.length
  call : ∀ (i : Nat) c values, calls[i]? = some (c, values) →
    t.outer (first + i) = some c.scope ∧
      t.bindings (first + i) = .ofList (c.params.zip values) ∧ values.length = c.params.length

namespace State

/-! ## Growth -/

/-- What every run keeps, from the state it begins in to the state it ends in. -/
structure Grown (s t : State) : Prop where
  supply_le : s.supply ≤ t.supply
  /-- No frame moves. -/
  outer_eq : ∀ f, f < s.store.size → t.store.outer f = s.store.outer f
  /-- A frame inside another one is never written to. -/
  inner_eq : ∀ f, s.store.outer f ≠ none → t.store.bindings f = s.store.bindings f
  /-- In a root, names are neither lost nor moved. -/
  root_names : ∀ f, s.store.outer f = none →
    (s.store.bindings f).names <+: (t.store.bindings f).names
  /-- New frames are those of the calls on the trail. -/
  calls : ∃ events, t.trail = s.trail ++ events ∧ t.store.MadeBy s.store.size (callsOf events)

namespace Grown

variable {s t u : State}

theorem size_le (h : s.Grown t) : s.store.size ≤ t.store.size := by
  obtain ⟨events, _, hmade⟩ := h.calls
  have := hmade.size_eq
  omega

/-- Names are kept in every frame. -/
theorem names_prefix (h : s.Grown t) (f : Nat) :
    (s.store.bindings f).names <+: (t.store.bindings f).names := by
  by_cases hf : s.store.outer f = none
  · exact h.root_names f hf
  · exact h.inner_eq f hf ▸ List.prefix_rfl

/-- A state in which the trail has no new calls and the store no new frames. -/
theorem of_size_eq (supply_le : s.supply ≤ t.supply) (size_eq : t.store.size = s.store.size)
    (outer_eq : ∀ f, f < s.store.size → t.store.outer f = s.store.outer f)
    (inner_eq : ∀ f, s.store.outer f ≠ none → t.store.bindings f = s.store.bindings f)
    (root_names : ∀ f, s.store.outer f = none →
      (s.store.bindings f).names <+: (t.store.bindings f).names)
    (trail : ∃ events, t.trail = s.trail ++ events ∧ callsOf events = []) : s.Grown t := by
  obtain ⟨events, ht, hcalls⟩ := trail
  refine ⟨supply_le, outer_eq, inner_eq, root_names, events, ht, ?_, ?_⟩
  · rw [size_eq, hcalls]
    rfl
  · intro i c values h
    rw [hcalls] at h
    cases h

theorem refl (s : State) : s.Grown s :=
  of_size_eq le_rfl rfl (fun _ _ => rfl) (fun _ _ => rfl) (fun _ _ => List.prefix_rfl)
    ⟨#[], by simp, rfl⟩

theorem trans (h : s.Grown t) (h' : t.Grown u) : s.Grown u := by
  obtain ⟨events, ht, hmade⟩ := h.calls
  obtain ⟨events', hu, hmade'⟩ := h'.calls
  have hsize := h.size_le
  have hinner : ∀ f, s.store.outer f ≠ none → t.store.outer f ≠ none := by
    intro f hf
    obtain ⟨o, ho⟩ := Option.ne_none_iff_exists'.mp hf
    rwa [h.outer_eq f (Store.lt_size_of_outer ho)]
  refine ⟨h.supply_le.trans h'.supply_le, fun f hf => ?_, fun f hf => ?_, fun f _ => ?_,
    events ++ events', by rw [hu, ht, Array.append_assoc], ?_, ?_⟩
  · rw [h'.outer_eq f (by omega), h.outer_eq f hf]
  · rw [h'.inner_eq f (hinner f hf), h.inner_eq f hf]
  · exact (h.names_prefix f).trans (h'.names_prefix f)
  · rw [hmade'.size_eq, hmade.size_eq, callsOf_append, List.length_append]
    omega
  · intro i c values hi
    rw [callsOf_append] at hi
    by_cases hlt : i < (callsOf events).length
    · -- a frame of the first part lies inside its closure's scope, so the second part keeps it
      rw [List.getElem?_append_left hlt] at hi
      obtain ⟨houter, hbindings, hlen⟩ := hmade.call i c values hi
      have hinside : t.store.outer (s.store.size + i) ≠ none := by simp [houter]
      refine ⟨?_, ?_, hlen⟩
      · rw [h'.outer_eq _ (Store.lt_size_of_outer houter), houter]
      · rw [h'.inner_eq _ hinside, hbindings]
    · rw [List.getElem?_append_right (by omega)] at hi
      have hcall := hmade'.call _ c values hi
      rwa [hmade.size_eq, show s.store.size + (callsOf events).length +
        (i - (callsOf events).length) = s.store.size + i by omega] at hcall

end Grown

instance : Preorder State where
  le := Grown
  le_refl := .refl
  le_trans _ _ _ := .trans

/-! ## Growth, step by step -/

theorem grown_record (s : State) {e : Event} (he : callsOf #[e] = []) :
    s.Grown { s with trail := s.trail.push e } :=
  .of_size_eq le_rfl rfl (fun _ _ => rfl) (fun _ _ => rfl) (fun _ _ => List.prefix_rfl)
    ⟨#[e], by simp, he⟩

theorem grown_supply (s : State) (count : Nat) :
    s.Grown { s with supply := s.supply + count } :=
  .of_size_eq (Nat.le_add_right _ _) rfl (fun _ _ => rfl) (fun _ _ => rfl)
    (fun _ _ => List.prefix_rfl) ⟨#[], by simp, rfl⟩

/-- Assignment reaches a root: in a well-formed store no other frame is the last of a chain. -/
theorem grown_assign (s : State) (h : s.store.WellFormed) (scope : Nat) (name : String)
    (value : Value) : s.Grown { s with store := s.store.assign scope name value } := by
  have hroot := h.outer_root scope
  refine .of_size_eq le_rfl (by simp [Store.assign]) (fun f _ => by simp [Store.assign])
    (fun f hf => ?_) (fun f _ => ?_) ⟨#[], by simp, rfl⟩
  · unfold Store.assign
    rw [Store.bindings_define, if_neg]
    rintro ⟨rfl, _⟩
    exact hf hroot
  · unfold Store.assign
    rw [Store.bindings_define]
    split
    · rename_i hf
      rw [hf.1]
      exact Table.names_prefix_put _ _ _
    · exact List.prefix_rfl

theorem grown_enter (s : State) (c : Closure Value) (values : List Value)
    (hlen : values.length = c.params.length) :
    s.Grown { s with
      store := s.store.add (c.frame values)
      trail := s.trail.push (.closureCalled c values) } := by
  refine ⟨le_rfl, fun f hf => ?_, fun f hf => ?_, fun f _ => ?_, #[.closureCalled c values],
    by simp, by simp [callsOf], ?_⟩
  · rw [Store.outer_add, if_neg (by omega)]
  · obtain ⟨o, ho⟩ := Option.ne_none_iff_exists'.mp hf
    have := Store.lt_size_of_outer ho
    rw [Store.bindings_add, if_neg (by omega)]
  · rw [Store.bindings_add]
    split
    · rename_i hf
      unfold Store.bindings
      rw [Store.frame_of_size_le hf.ge]
      exact List.nil_prefix
    · exact List.prefix_rfl
  · intro i c' values' hi
    obtain ⟨rfl, hi⟩ : i = 0 ∧ (c, values) = (c', values') := by
      cases i with
      | zero => simpa [callsOf] using hi
      | succ i => simp [callsOf] at hi
    cases hi
    refine ⟨?_, ?_, hlen⟩
    · simp [Store.outer_add, Closure.frame]
    · simp [Store.bindings_add, Closure.frame]

/-! ## Soundness -/

/-- The labels in a value have been drawn, and the scopes of its closures exist. -/
def Holds (s : State) (v : Value) : Prop :=
  ∀ x : Value, x.IsPart v → Value.Allowed (· < s.supply) (·.scope < s.store.size) x

@[simp] theorem holds_nil (s : State) : s.Holds .nil := by
  intro x hx
  cases hx
  trivial

@[simp] theorem holds_symbol (s : State) (name : String) : s.Holds (.symbol name) := by
  intro x hx
  cases hx
  trivial

@[simp] theorem holds_number (s : State) (n : Number) :
    s.Holds (.number n) ↔ ∀ l ∈ n.labels, l < s.supply := by
  constructor
  · exact fun h => h _ .self
  · intro h x hx
    cases hx
    exact h

@[simp] theorem holds_list (s : State) (b : Brackets) (items : List Value) :
    s.Holds (.list b items) ↔ ∀ v ∈ items, s.Holds v := by
  constructor
  · exact fun h v hv x hx => h x (.item hv hx)
  · intro h x hx
    cases hx with
    | self => trivial
    | item hv hx => exact h _ hv x hx

@[simp] theorem holds_closure (s : State) (c : Closure Value) :
    s.Holds (.closure c) ↔
      (c.id < s.supply ∧ c.scope < s.store.size) ∧ ∀ b ∈ c.body, s.Holds b := by
  constructor
  · exact fun h => ⟨h _ .self, fun b hb x hx => h x (.body hb hx)⟩
  · intro h x hx
    cases hx with
    | self => exact h.1
    | body hb hx => exact h.2 _ hb x hx

theorem Holds.mono {s t : State} {v : Value} (hsupply : s.supply ≤ t.supply)
    (hsize : s.store.size ≤ t.store.size) (h : s.Holds v) : t.Holds v := by
  intro x hx
  have hs := h x hx
  cases x with
  | number n => exact fun l hl => Nat.lt_of_lt_of_le (hs l hl) hsupply
  | closure c => exact ⟨Nat.lt_of_lt_of_le hs.1 hsupply, Nat.lt_of_lt_of_le hs.2 hsize⟩
  | _ => trivial

/-- A well-formed store that binds values only that the state holds. -/
structure Sound (s : State) : Prop where
  wellFormed : s.store.WellFormed
  holds : ∀ f name v, (name, v) ∈ (s.store.bindings f).entries → s.Holds v

namespace Sound

variable {s : State}

theorem define (h : s.Sound) (f : Nat) (name : String) {v : Value} (hv : s.Holds v) :
    Sound { s with store := s.store.define f name v } := by
  have hsize : s.store.size ≤ (s.store.define f name v).size := by simp
  refine ⟨h.wellFormed.define f name v, fun g name' v' hm => ?_⟩
  rcases Store.mem_bindings_define hm with hm | hm
  · cases hm
    exact hv.mono (s := s) le_rfl hsize
  · exact (h.holds g name' v' hm).mono (s := s) le_rfl hsize

theorem add (h : s.Sound) {f : Frame} (ho : ∀ o, f.outer = some o → o < s.store.size)
    (hd : f.bindings.Distinct) (hf : ∀ entry ∈ f.bindings.entries, s.Holds entry.2) :
    Sound { s with store := s.store.add f } := by
  have hsize : s.store.size ≤ (s.store.add f).size := by simp
  refine ⟨h.wellFormed.add ho hd, fun g name v hm => ?_⟩
  rcases Store.mem_bindings_add hm with hm | hm
  · exact (hf _ hm).mono (s := s) le_rfl hsize
  · exact (h.holds g name v hm).mono (s := s) le_rfl hsize

theorem supply (h : s.Sound) (count : Nat) : Sound { s with supply := s.supply + count } :=
  ⟨h.wellFormed, fun f name v hm => (h.holds f name v hm).mono (Nat.le_add_right _ _) le_rfl⟩

theorem trail (h : s.Sound) (trail : Array Event) : Sound { s with trail } :=
  ⟨h.wellFormed, h.holds⟩

end Sound

/-- The states of a run that grows: nothing occurs in it that the state does not hold. -/
def growth : Invariant State where
  label s l := l < s.supply
  closure s c := c.scope < s.store.size
  scope s e := e < s.store.size
  node s n _ := s.Holds n
  machine _ := True
  state s t := t = s ∧ s.Sound

theorem growth_lawful : growth.Lawful where
  label_mono h _ hl := Nat.lt_of_lt_of_le hl h.supply_le
  closure_mono h _ hc := Nat.lt_of_lt_of_le hc h.size_le
  scope_mono h _ he := Nat.lt_of_lt_of_le he h.size_le
  node_mono h _ _ hn := hn.mono h.supply_le h.size_le
  node_value hn := hn
  node_item hn n hm x hx := hn x (.item hm hx)
  machine_of_closure _ := trivial
  lookup := by
    rintro s _ e name v ⟨rfl, hs⟩ _ hl
    obtain ⟨f, hf⟩ := Store.mem_of_lookup? hl
    exact hs.holds f name v hf
  evaluated := by
    rintro _ m e n _ _ _ s ⟨rfl, hs⟩
    exact ⟨_, _, _, rfl, grown_record s rfl, ⟨rfl, hs.trail _⟩, trivial⟩
  dispatched := by
    rintro _ name s ⟨rfl, hs⟩
    exact ⟨_, _, _, rfl, grown_record s rfl, ⟨rfl, hs.trail _⟩, trivial⟩
  assign := by
    rintro _ e name v _ hv s ⟨rfl, hs⟩
    refine ⟨_, _, _, rfl, (grown_assign s hs.wellFormed e name v).trans (grown_record _ rfl),
      ⟨rfl, (hs.define _ name hv).trail _⟩, trivial⟩
  labels := by
    rintro _ s ⟨rfl, hs⟩
    refine ⟨_, _, _, rfl, grown_supply s 2, ⟨rfl, hs.supply 2⟩, ?_, ?_⟩
    · show s.supply < s.supply + 2
      omega
    · show s.supply + 1 < s.supply + 2
      omega
  makeClosure := by
    rintro _ e m params body he _ hb s ⟨rfl, hs⟩
    have hbody : ∀ n ∈ body, Holds { s with supply := s.supply + 1 } n := fun n hn =>
      (hb n hn).mono (s := s) (Nat.le_succ _) le_rfl
    refine ⟨_, _, _, rfl, (grown_supply s 1).trans (grown_record _ rfl),
      ⟨rfl, (hs.supply 1).trail _⟩, ?_⟩
    intro x hx
    cases hx with
    | self => exact ⟨Nat.lt_succ_self _, he⟩
    | body hv hx => exact hbody _ hv x hx
  enter := by
    rintro _ c vs hc hlen hvs s ⟨rfl, hs⟩
    have hsize : s.store.size < (s.store.add (c.frame vs)).size := by simp
    refine ⟨_, _, _, rfl, grown_enter s c vs hlen, ⟨rfl, Sound.trail (hs.add ?_ ?_ ?_) _⟩, hsize,
      fun n hn => ?_⟩
    · rintro o ho
      cases ho
      exact (hc _ .self).2
    · exact Table.distinct_ofList _
    · exact fun entry hm => hvs _ (Closure.mem_frame hm)
    · exact Holds.mono (s := s) le_rfl hsize.le fun x hx => hc x (.body hn hx)

/-- The parts of an entry exist in the state. -/
def Admits (s : State) : Entry → Prop
  | .evaluate _ node scope => s.Holds node ∧ scope < s.store.size
  | .apply _ head tail scope => s.Holds head ∧ (∀ n ∈ tail, s.Holds n) ∧ scope < s.store.size
  | .form _ _ tail scope => (∀ n ∈ tail, s.Holds n) ∧ scope < s.store.size
  | .invoke c arguments caller =>
    s.Holds (.closure c) ∧ (∀ n ∈ arguments, s.Holds n) ∧ caller < s.store.size

/-- However the evaluator is entered and however the run ends, the state has grown from one sound
state to another, which holds the value of the run. -/
theorem Sound.entry {s : State} (hs : s.Sound) (registries : Nat → Registry) (bound : Nat)
    {x : Entry} (hx : s.Admits x) :
    s.Grown (endState (x.run registries bound s)) ∧
      (endState (x.run registries bound s)).Sound ∧
      ∀ v, endValue? (x.run registries bound s) = some v →
        (endState (x.run registries bound s)).Holds v := by
  have hadmits : growth.Admits s x := by
    cases x with
    | evaluate m n e => exact .evaluate trivial hx.2 hx.1
    | apply m n ns e => exact .apply trivial hx.2.2 hx.1 hx.2.1
    | form operation m ns e => exact .form operation trivial hx.2 hx.1
    | invoke c ns e => exact .invoke hx.2.2 hx.1 hx.2.1
  obtain ⟨t, grown, ⟨rfl, ht⟩, hv⟩ :=
    (growth_lawful.entry registries bound hadmits ⟨rfl, hs⟩).state_and_value
  exact ⟨grown, ht, hv⟩

end State

end SmallLisp
