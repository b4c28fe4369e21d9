-- Links between two states: frames, labels and machines of one that stand for those of the other.
-- Linked frames bind the same names to alike values and lie in linked frames, so two runs that
-- begin with linked parts see the same and end alike; the frames and labels that they make are
-- linked in the order in which they are made, and frames without a link are never touched.
import SmallLisp.Proofs.Evaluation
import SmallLisp.Proofs.Growth

namespace SmallLisp

open Run

/-- What of one state stands for what of another. -/
structure Link where
  scope : Nat → Nat → Prop
  label : Nat → Nat → Prop
  machine : Nat → Nat → Prop

namespace Link

/-- Closures are tied if their scopes and their machines are linked. -/
def like (w : Link) : Likeness where
  label := w.label
  tie c c' := w.scope c.scope c'.scope ∧ w.machine c.machine c'.machine

/-- The link with so many further frames and labels, numbered from the ends of two states on. -/
def grow (w : Link) (s t : State) (n : Nat × Nat) : Link where
  scope f f' := w.scope f f' ∨ ∃ i < n.1, f = s.store.size + i ∧ f' = t.store.size + i
  label l l' := w.label l l' ∨ ∃ i < n.2, l = s.supply + i ∧ l' = t.supply + i
  machine := w.machine

/-- A link is one to one, between frames and labels that exist. -/
structure Fits (w : Link) (s t : State) : Prop where
  scope_lt : ∀ {f f'}, w.scope f f' → f < s.store.size ∧ f' < t.store.size
  label_lt : ∀ {l l'}, w.label l l' → l < s.supply ∧ l' < t.supply
  scope_one : OneToOne w.scope
  label_one : OneToOne w.label

variable {w : Link} {s t : State}

theorem grow_zero : w.grow s t (0, 0) = w := by
  unfold grow
  simp

/-- Numbers past the end of both sides extend a one-to-one relation. -/
theorem oneToOne_beyond {R : Nat → Nat → Prop} (h : OneToOne R) {a b : Nat}
    (hlt : ∀ {l l'}, R l l' → l < a ∧ l' < b) (n : Nat) :
    OneToOne fun l l' => R l l' ∨ ∃ i < n, l = a + i ∧ l' = b + i := by
  rintro l l' m m' (hl | ⟨i, _, rfl, rfl⟩) (hm | ⟨j, _, rfl, rfl⟩)
  · exact h _ _ _ _ hl hm
  · have := hlt hl
    constructor <;> intro <;> omega
  · have := hlt hm
    constructor <;> intro <;> omega
  · constructor <;> intro <;> omega

theorem Fits.grow (h : w.Fits s t) {n : Nat × Nat} {s' t' : State}
    (hs : s'.store.size = s.store.size + n.1) (ht : t'.store.size = t.store.size + n.1)
    (hs' : s'.supply = s.supply + n.2) (ht' : t'.supply = t.supply + n.2) :
    (w.grow s t n).Fits s' t' where
  scope_lt := by
    rintro f f' (hf | ⟨i, hi, rfl, rfl⟩)
    · have := h.scope_lt hf
      omega
    · omega
  label_lt := by
    rintro l l' (hl | ⟨i, hi, rfl, rfl⟩)
    · have := h.label_lt hl
      omega
    · omega
  scope_one := oneToOne_beyond h.scope_one h.scope_lt n.1
  label_one := oneToOne_beyond h.label_one h.label_lt n.2

theorem grow_scope_mono {n n' : Nat × Nat} (hn : n ≤ n') {f f' : Nat}
    (h : (w.grow s t n).scope f f') : (w.grow s t n').scope f f' :=
  h.imp id fun ⟨i, hi, hf⟩ => ⟨i, Nat.lt_of_lt_of_le hi hn.1, hf⟩

theorem grow_label_mono {n n' : Nat × Nat} (hn : n ≤ n') {l l' : Nat}
    (h : (w.grow s t n).label l l') : (w.grow s t n').label l l' :=
  h.imp id fun ⟨i, hi, hl⟩ => ⟨i, Nat.lt_of_lt_of_le hi hn.2, hl⟩

theorem grow_alike_mono {n n' : Nat × Nat} (hn : n ≤ n') {v v' : Value}
    (h : v.Alike (w.grow s t n).like v') : v.Alike (w.grow s t n').like v' := by
  refine h.mono (fun _ _ => grow_label_mono hn) fun _ _ hc => ?_
  exact ⟨grow_scope_mono hn hc.1, hc.2⟩

end Link

/-! ## Linked states -/

/-- Linked frames lie in linked frames, and bind the same names to alike values. -/
structure Linked (w : Link) (s t : State) : Prop where
  fits : w.Fits s t
  left : s.store.WellFormed
  right : t.store.WellFormed
  outer : ∀ {f f'}, w.scope f f' → Option.Rel w.scope (s.store.outer f) (t.store.outer f')
  bindings : ∀ {f f'}, w.scope f f' →
    (s.store.bindings f).Alike (Value.Alike w.like) (t.store.bindings f')

namespace Linked

variable {w : Link} {s t : State} {e e' : Nat}

/-- Names have alike values in linked scopes. -/
theorem lookup? (h : Linked w s t) (he : w.scope e e') (name : String) :
    Option.Rel (Value.Alike w.like) (s.store.lookup? e name) (t.store.lookup? e' name) := by
  induction e using h.left.chain_induction generalizing e' with
  | step e ih =>
    have hget := (h.bindings he).get? name
    have hout := h.outer he
    rw [h.left.lookup?_eq, h.right.lookup?_eq]
    generalize (s.store.bindings e).get? name = v at hget
    generalize (t.store.bindings e').get? name = v' at hget
    cases hget with
    | some hv => exact .some hv
    | none =>
      cases ho : s.store.outer e <;> cases ho' : t.store.outer e' <;> rw [ho, ho'] at hout <;>
        cases hout
      · exact .none
      · rename_i hout
        exact ih _ ho hout

/-- Linked scopes have linked roots. -/
theorem root (h : Linked w s t) (he : w.scope e e') :
    w.scope (s.store.root e) (t.store.root e') := by
  induction e using h.left.chain_induction generalizing e' with
  | step e ih =>
    have hout := h.outer he
    rw [h.left.root_eq, h.right.root_eq]
    cases ho : s.store.outer e <;> cases ho' : t.store.outer e' <;> rw [ho, ho'] at hout <;>
      cases hout
    · exact he
    · rename_i hout
      exact ih _ ho hout

theorem trail (h : Linked w s t) (a b : Array Event) :
    Linked w { s with trail := a } { t with trail := b } :=
  ⟨⟨h.fits.scope_lt, h.fits.label_lt, h.fits.scope_one, h.fits.label_one⟩, h.left, h.right,
    h.outer, h.bindings⟩

/-- Linked frames stay linked when a name gets alike values in two of them. -/
theorem define (h : Linked w s t) {r r' : Nat} (hr : w.scope r r') (name : String) {v v' : Value}
    (hv : v.Alike w.like v') :
    Linked w { s with store := s.store.define r name v }
      { t with store := t.store.define r' name v' } where
  fits :=
    { scope_lt := fun hf => by simpa using h.fits.scope_lt hf
      label_lt := h.fits.label_lt
      scope_one := h.fits.scope_one
      label_one := h.fits.label_one }
  left := h.left.define r name v
  right := h.right.define r' name v'
  outer hf := by simpa using h.outer hf
  bindings := by
    intro f f' hf
    have hone := h.fits.scope_one _ _ _ _ hf hr
    have hlt := h.fits.scope_lt hr
    dsimp only
    rw [Store.bindings_define, Store.bindings_define]
    by_cases hfr : f = r
    · rw [if_pos ⟨hfr, hlt.1⟩, if_pos ⟨hone.mp hfr, hlt.2⟩]
      exact (h.bindings hr).put name hv
    · rw [if_neg fun hc => hfr hc.1, if_neg fun hc => hfr (hone.mpr hc.1)]
      exact h.bindings hf

/-- A link does not depend on the frames that have no part in it. -/
theorem of_left {s' : State} (h : Linked w s t) (hs' : s'.store.WellFormed)
    (hsize : s.store.size ≤ s'.store.size) (hsupply : s.supply ≤ s'.supply)
    (hframe : ∀ {f f'}, w.scope f f' → s'.store.frame f = s.store.frame f) : Linked w s' t where
  fits :=
    { scope_lt := fun hf => ⟨Nat.lt_of_lt_of_le (h.fits.scope_lt hf).1 hsize,
        (h.fits.scope_lt hf).2⟩
      label_lt := fun hl => ⟨Nat.lt_of_lt_of_le (h.fits.label_lt hl).1 hsupply,
        (h.fits.label_lt hl).2⟩
      scope_one := h.fits.scope_one
      label_one := h.fits.label_one }
  left := hs'
  right := h.right
  outer hf := by
    unfold Store.outer
    rw [hframe hf]
    exact h.outer hf
  bindings hf := by
    unfold Store.bindings
    rw [hframe hf]
    exact h.bindings hf

end Linked

/-- What two runs from linked states `s` and `t` have come to, with `n` frames and labels made by
each: linked states again, in which frames without a link are as they were. -/
structure Onward (w : Link) (s t : State) (n : Nat × Nat) (s' t' : State) : Prop where
  linked : Linked (w.grow s t n) s' t'
  size : s'.store.size = s.store.size + n.1
  size' : t'.store.size = t.store.size + n.1
  supply : s'.supply = s.supply + n.2
  supply' : t'.supply = t.supply + n.2
  apart : ∀ f, f < s.store.size → (∀ f', ¬ w.scope f f') → s'.store.frame f = s.store.frame f
  apart' : ∀ f', f' < t.store.size → (∀ f, ¬ w.scope f f') → t'.store.frame f' = t.store.frame f'

namespace Onward

variable {w : Link} {s t s' t' : State} {n : Nat × Nat}

theorem refl (h : Linked w s t) : Onward w s t (0, 0) s t :=
  ⟨by rwa [Link.grow_zero], rfl, rfl, rfl, rfl, fun _ _ _ => rfl, fun _ _ _ => rfl⟩

theorem trail (h : Onward w s t n s' t') (a b : Array Event) :
    Onward w s t n { s' with trail := a } { t' with trail := b } :=
  ⟨h.linked.trail a b, h.size, h.size', h.supply, h.supply', h.apart, h.apart'⟩

theorem assign (h : Onward w s t n s' t') {e e' : Nat} (he : (w.grow s t n).scope e e')
    (name : String) {v v' : Value} (hv : v.Alike (w.grow s t n).like v') :
    Onward w s t n { s' with store := s'.store.assign e name v }
      { t' with store := t'.store.assign e' name v' } := by
  have hroot := h.linked.root he
  have hne : ∀ f, f < s.store.size → (∀ f', ¬ w.scope f f') → f ≠ s'.store.root e := by
    rintro f hf hno rfl
    rcases hroot with hroot | ⟨i, _, hi, _⟩
    · exact hno _ hroot
    · omega
  have hne' : ∀ f', f' < t.store.size → (∀ f, ¬ w.scope f f') → f' ≠ t'.store.root e' := by
    rintro f hf hno rfl
    rcases hroot with hroot | ⟨i, _, _, hi⟩
    · exact hno _ hroot
    · omega
  refine ⟨h.linked.define hroot name hv, ?_, ?_, h.supply, h.supply', fun f hf hno => ?_,
    fun f hf hno => ?_⟩
  · simpa [Store.assign] using h.size
  · simpa [Store.assign] using h.size'
  · unfold Store.assign
    rw [Store.frame_define, if_neg fun hc => hne f hf hno hc.1, h.apart f hf hno]
  · unfold Store.assign
    rw [Store.frame_define, if_neg fun hc => hne' f hf hno hc.1, h.apart' f hf hno]

/-- The next labels of both sides are linked. -/
theorem labels (h : Onward w s t n s' t') (hw : w.Fits s t) (count : Nat) :
    Onward w s t (n.1, n.2 + count) { s' with supply := s'.supply + count }
      { t' with supply := t'.supply + count } := by
  have hn : n ≤ (n.1, n.2 + count) := ⟨le_rfl, Nat.le_add_right _ _⟩
  have hsupply : s'.supply + count = s.supply + (n.2 + count) := by rw [h.supply]; omega
  have hsupply' : t'.supply + count = t.supply + (n.2 + count) := by rw [h.supply']; omega
  refine ⟨⟨hw.grow h.size h.size' hsupply hsupply', h.linked.left, h.linked.right,
    h.linked.outer, fun hf => ?_⟩, h.size, h.size', hsupply, hsupply', h.apart, h.apart'⟩
  exact (h.linked.bindings hf).mono fun _ _ => Link.grow_alike_mono hn

/-- A new frame on either side, in linked scopes and with alike bindings. -/
theorem frame (h : Onward w s t n s' t') (hw : w.Fits s t) {a b : Frame} {o o' : Nat}
    (ha : a.outer = some o) (hb : b.outer = some o') (ho : (w.grow s t n).scope o o')
    (hda : a.bindings.Distinct) (hdb : b.bindings.Distinct)
    (hab : a.bindings.Alike (Value.Alike (w.grow s t n).like) b.bindings) :
    Onward w s t (n.1 + 1, n.2) { s' with store := s'.store.add a }
      { t' with store := t'.store.add b } := by
  have hn : n ≤ (n.1 + 1, n.2) := ⟨Nat.le_succ _, le_rfl⟩
  have hlt := h.linked.fits.scope_lt ho
  have hsize : (s'.store.add a).size = s.store.size + (n.1 + 1) := by
    rw [Store.size_add, h.size]
    omega
  have hsize' : (t'.store.add b).size = t.store.size + (n.1 + 1) := by
    rw [Store.size_add, h.size']
    omega
  -- a linked frame is linked before, or is the new one on both sides
  have hcases : ∀ {f f'}, (w.grow s t (n.1 + 1, n.2)).scope f f' →
      (f ≠ s'.store.size ∧ f' ≠ t'.store.size ∧ (w.grow s t n).scope f f') ∨
        (f = s'.store.size ∧ f' = t'.store.size) := by
    rintro f f' (hf | ⟨i, hi, rfl, rfl⟩)
    · have hf' : (w.grow s t n).scope f f' := .inl hf
      have := h.linked.fits.scope_lt hf'
      exact .inl ⟨by omega, by omega, hf'⟩
    · by_cases hin : i < n.1
      · have hf' : (w.grow s t n).scope (s.store.size + i) (t.store.size + i) :=
          .inr ⟨i, hin, rfl, rfl⟩
        have := h.linked.fits.scope_lt hf'
        exact .inl ⟨by omega, by omega, hf'⟩
      · rw [h.size, h.size']
        dsimp only at hi
        exact .inr ⟨by omega, by omega⟩
  refine ⟨⟨hw.grow hsize hsize' h.supply h.supply', h.linked.left.add ?_ hda,
    h.linked.right.add ?_ hdb, fun hf => ?_, fun hf => ?_⟩, hsize, hsize', h.supply, h.supply',
    fun f hf hno => ?_, fun f hf hno => ?_⟩
  · intro x hx
    rw [ha] at hx
    cases hx
    exact hlt.1
  · intro x hx
    rw [hb] at hx
    cases hx
    exact hlt.2
  · dsimp only
    rw [Store.outer_add, Store.outer_add]
    rcases hcases hf with ⟨hne, hne', hf⟩ | ⟨rfl, rfl⟩
    · rw [if_neg hne, if_neg hne']
      have hout := h.linked.outer hf
      generalize s'.store.outer _ = x at hout ⊢
      generalize t'.store.outer _ = y at hout ⊢
      cases hout with
      | none => exact .none
      | some hout => exact .some (Link.grow_scope_mono hn hout)
    · rw [if_pos rfl, if_pos rfl, ha, hb]
      exact .some (Link.grow_scope_mono hn ho)
  · dsimp only
    rw [Store.bindings_add, Store.bindings_add]
    rcases hcases hf with ⟨hne, hne', hf⟩ | ⟨rfl, rfl⟩
    · rw [if_neg hne, if_neg hne']
      exact (h.linked.bindings hf).mono fun _ _ => Link.grow_alike_mono hn
    · rw [if_pos rfl, if_pos rfl]
      exact hab.mono fun _ _ => Link.grow_alike_mono hn
  · dsimp only
    rw [Store.frame_add, if_neg (by have := h.size; omega), h.apart f hf hno]
  · dsimp only
    rw [Store.frame_add, if_neg (by have := h.size'; omega), h.apart' f hf hno]

end Onward

/-! ## Linked runs -/

/-- The correspondence of two runs that begin in the states of a link. -/
def Link.correspondence (w : Link) (s t : State) : Correspondence (Nat × Nat) where
  like n := (w.grow s t n).like
  scope n := (w.grow s t n).scope
  node n v _ v' _ := v.Alike (w.grow s t n).like v'
  machine := w.machine
  state := Onward w s t
  excused _ := False

theorem Link.correspondence_lawful {w : Link} {s t : State} (hw : w.Fits s t)
    (registries registries' : Nat → Registry)
    (hreg : ∀ m m', w.machine m m' → registries m = registries' m') :
    (w.correspondence s t).Lawful registries registries' where
  label_mono hn _ _ h := grow_label_mono hn h
  tie_mono hn _ _ h := ⟨grow_scope_mono hn h.1, h.2⟩
  scope_mono hn _ _ h := grow_scope_mono hn h
  node_mono hn _ _ _ _ h := grow_alike_mono hn h
  oneToOne n := oneToOne_beyond hw.label_one hw.label_lt n.2
  node_alike h := h
  node_items h := by cases h with | list _ h => exact h
  machine_of_tie h := h.2
  registry h name := .inl (by rw [hreg _ _ h])
  lookup name hs he := hs.linked.lookup? he name
  evaluated _ _ _ _ _ hs := .ok le_rfl (hs.trail _ _) trivial
  dispatched _ _ _ _ hs := .ok le_rfl (hs.trail _ _) trivial
  assign name _ _ he hv _ _ hs := .ok le_rfl ((hs.assign he name hv).trail _ _) trivial
  labels := by
    intro n s' t' hs
    have hn : n ≤ (n.1, n.2 + 2) := ⟨le_rfl, Nat.le_add_right _ _⟩
    have hsupply := hs.supply
    have hsupply' := hs.supply'
    refine .ok hn (hs.labels hw 2)
      ⟨.inr ⟨n.2, ?_, hsupply, hsupply'⟩, .inr ⟨n.2 + 1, Nat.lt_succ_self _, ?_, ?_⟩⟩
    · show n.2 < n.2 + 2
      omega
    · omega
    · omega
  makeClosure := by
    intro n e e' m m' params body body' he hm hb s' t' hs
    have hn : n ≤ (n.1, n.2 + 1) := ⟨le_rfl, Nat.le_succ _⟩
    refine .ok hn ((hs.labels hw 1).trail _ _) (.closure (.inr ⟨n.2, ?_, hs.supply, hs.supply'⟩)
      rfl ?_ ⟨grow_scope_mono hn he, hm⟩)
    · exact Nat.lt_succ_self _
    · exact hb.imp fun _ _ h => grow_alike_mono hn h
  enter := by
    intro n c c' vs vs' hc hlen hvs s' t' hs
    have hn : n ≤ (n.1 + 1, n.2) := ⟨Nat.le_succ _, le_rfl⟩
    cases hc with
    | closure id params body tie =>
      have hframe := hs.frame hw (a := c.frame vs) (b := c'.frame vs') rfl rfl tie.1
        (Table.distinct_ofList _) (Table.distinct_ofList _) (by
          unfold Closure.frame
          rw [← params]
          exact Table.alike_ofList c.params hvs)
      refine .ok hn (hframe.trail _ _) ⟨.inr ⟨n.1, ?_, hs.size, hs.size'⟩, ?_⟩
      · exact Nat.lt_succ_self _
      · exact body.imp fun _ _ h => grow_alike_mono hn h

/-- Coupled runs from linked states end alike, and further on. -/
theorem Linked.run {w : Link} {s t : State} (h : Linked w s t) {registries : Nat → Registry}
    {m k : Run Value} (hmk : ((w.correspondence s t).bond registries).Coupled
      (w.correspondence s t).value (0, 0) m k) :
    ∃ n, Onward w s t n (endState (m s)) (endState (k t)) ∧
      EndsAlike (Value.Alike (w.grow s t n).like) (m s) (k t) := by
  have hend := hmk s t (.refl h)
  generalize m s = r at hend ⊢
  generalize k t = r' at hend ⊢
  cases hend with
  | ok _ states value => exact ⟨_, states, .value value⟩
  | error _ states stops => exact ⟨_, states, stops.ends⟩
  | excused h => exact h.elim

end SmallLisp
