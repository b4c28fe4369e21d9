-- The room that a place in a program leaves for the lists in it. In a staged store all frames from
-- a base on lie around one another down to the base, no chain is longer than a number that is
-- fixed beforehand, and every closure has room in its scope for the lists of its body and for
-- the frame of its call. Each change that a run makes to a store leaves it staged.
import SmallLisp.Proofs.Coupled
import SmallLisp.Proofs.Judgement
import SmallLisp.Proofs.Bindings
import SmallLisp.Proofs.Parts

namespace SmallLisp

open Run

/-! ## The depth of a node -/

namespace Value

mutual
/-- How deep lists are nested in a node. Closures and host values do not count as lists. -/
def depth : Value → Nat
  | .list _ items => depths items + 1
  | .nil | .null | .bool _ | .number _ | .symbol _ | .closure _ | .host .. => 0
termination_by structural v => v

/-- The depth of the deepest of some nodes. -/
def depths : List Value → Nat
  | [] => 0
  | v :: vs => max (depth v) (depths vs)
termination_by structural vs => vs
end

theorem depths_le_iff {vs : List Value} {k : Nat} : depths vs ≤ k ↔ ∀ v ∈ vs, v.depth ≤ k := by
  induction vs with
  | nil => simp [depths]
  | cons v vs ih => rw [depths, Nat.max_le, ih, List.forall_mem_cons]

theorem depth_le_depths {v : Value} {vs : List Value} (h : v ∈ vs) : v.depth ≤ depths vs :=
  depths_le_iff.mp le_rfl v h

end Value

/-! ## Stores that grow -/

namespace Store

variable {s t : Store}

/-- The chains of all frames of the store are the same in the other one. -/
instance : Preorder Store where
  le s t := s.size ≤ t.size ∧ ∀ f, f < s.size → t.chain f = s.chain f
  le_refl _ := ⟨le_rfl, fun _ _ => rfl⟩
  le_trans _ _ _ h h' :=
    ⟨h.1.trans h'.1, fun f hf => (h'.2 f (Nat.lt_of_lt_of_le hf h.1)).trans (h.2 f hf)⟩

theorem le_define (s : Store) (f : Nat) (name : String) (value : Value) :
    s ≤ s.define f name value :=
  ⟨by simp, fun _ _ => chain_define ..⟩

theorem WellFormed.chain_add (hs : s.WellFormed) {f : Frame} (hadd : (s.add f).WellFormed) {n : Nat}
    (hn : n < s.size) : (s.add f).chain n = s.chain n := by
  induction n using hs.chain_induction with
  | step n ih =>
    rw [hadd.chain_eq, hs.chain_eq, outer_add, if_neg (by omega)]
    cases ho : s.outer n with
    | none => rfl
    | some o => simp only [ih o ho (Nat.lt_trans (hs.outer_lt n o ho) hn)]

theorem WellFormed.le_add (hs : s.WellFormed) {f : Frame} (hadd : (s.add f).WellFormed) :
    s ≤ s.add f :=
  ⟨by simp, fun _ hn => hs.chain_add hadd hn⟩

end Store

/-! ## Room for lists -/

/-- The frame is one from the base on, and with so many more its chain has at most `limit`
frames. -/
structure Store.Room (base limit : Nat) (s : Store) (f k : Nat) : Prop where
  base_le : base ≤ f
  lt_size : f < s.size
  length_le : (s.chain f).length + k ≤ limit

/-- Every closure in the value has room in its scope for the lists of its body and one more frame,
and the body brings in no closures. -/
def Value.Fits (base limit : Nat) (s : Store) (v : Value) : Prop :=
  ∀ c : Closure Value, (closure c).IsPart v →
    s.Room base limit c.scope (depths c.body + 1) ∧ ∀ b ∈ c.body, b.ClosureFree

section

variable {base limit : Nat} {s t : Store}

namespace Store.Room

variable {f k : Nat}

theorem mono (h : s.Room base limit f k) (hst : s ≤ t) : t.Room base limit f k where
  base_le := h.base_le
  lt_size := Nat.lt_of_lt_of_le h.lt_size hst.1
  length_le := by rw [hst.2 f h.lt_size]; exact h.length_le

theorem less {k' : Nat} (h : s.Room base limit f k) (hk : k' ≤ k) : s.Room base limit f k' where
  base_le := h.base_le
  lt_size := h.lt_size
  length_le := by have := h.length_le; omega

end Store.Room

namespace Value

theorem Fits.mono {v : Value} (h : v.Fits base limit s) (hst : s ≤ t) : v.Fits base limit t :=
  fun c hc => ⟨(h c hc).1.mono hst, (h c hc).2⟩

theorem ClosureFree.fits {v : Value} (h : v.ClosureFree) : v.Fits base limit s :=
  fun c hc => absurd hc (h c)

theorem fits_nil : nil.Fits base limit s := fun c hc => by cases hc

theorem fits_list {b : Brackets} {items : List Value} :
    (list b items).Fits base limit s ↔ ∀ v ∈ items, v.Fits base limit s := by
  constructor
  · exact fun h v hv c hc => h c (.item hv hc)
  · intro h c hc
    cases hc with
    | item hv hc => exact h _ hv c hc

/-- What a body brings in no closures for is a matter of the closure itself. -/
theorem fits_closure {c : Closure Value} : (closure c).Fits base limit s ↔
    s.Room base limit c.scope (depths c.body + 1) ∧ ∀ b ∈ c.body, b.ClosureFree := by
  constructor
  · exact fun h => h c .self
  · intro h d hd
    cases hd with
    | self => exact h
    | body hb hd => exact absurd hd (h.2 _ hb d)

end Value

/-! ## Staged stores -/

/-- From the base on, each frame but the base lies inside one from the base on, no chain has more
than `limit` frames, and the closures in all bindings have room. -/
structure Store.Staged (base limit : Nat) (s : Store) : Prop where
  wellFormed : s.WellFormed
  outermost : s.outer base = none
  inner : ∀ f, base < f → f < s.size → ∃ o, s.outer f = some o ∧ base ≤ o
  length_le : ∀ f, base ≤ f → f < s.size → (s.chain f).length ≤ limit
  binds : ∀ f, base ≤ f → ∀ name v, (name, v) ∈ (s.bindings f).entries → v.Fits base limit s

theorem Store.WellFormed.getLast?_chain (hs : s.WellFormed) (n : Nat) :
    (s.chain n).getLast? = some (s.root n) := by
  unfold root
  rw [hs.chain_eq n]
  simp [List.getLast?_cons]

namespace Store.Staged

variable {f : Nat} (h : s.Staged base limit)

include h

theorem base_le_outer (hf : base ≤ f) {o : Nat} (ho : s.outer f = some o) : base ≤ o := by
  rcases Nat.eq_or_lt_of_le hf with rfl | hlt
  · rw [h.outermost] at ho
    cases ho
  · obtain ⟨o', ho', hle⟩ := h.inner f hlt (lt_size_of_outer ho)
    rw [ho] at ho'
    cases ho'
    exact hle

/-- What a name stands for in a frame from the base on has room. -/
theorem fits_of_lookup? (hf : base ≤ f) {name : String} {v : Value}
    (hl : s.lookup? f name = some v) : v.Fits base limit s := by
  induction f using h.wellFormed.chain_induction with
  | step f ih =>
    rw [h.wellFormed.lookup?_eq] at hl
    cases hb : (s.bindings f).get? name with
    | some w =>
      rw [hb] at hl
      cases hl
      exact h.binds f hf name v (Table.mem_of_get? hb)
    | none =>
      rw [hb] at hl
      obtain ⟨o, ho, hl⟩ := Option.bind_eq_some_iff.mp hl
      exact ih o ho (h.base_le_outer hf ho) hl

/-- The base is the root of all frames from it on. -/
theorem root_eq (hf : base ≤ f) (hlt : f < s.size) : s.root f = base := by
  induction f using h.wellFormed.chain_induction with
  | step f ih =>
    rw [h.wellFormed.root_eq]
    cases ho : s.outer f with
    | some o =>
      exact ih o ho (h.base_le_outer hf ho) (Nat.lt_trans (h.wellFormed.outer_lt f o ho) hlt)
    | none =>
      show f = base
      by_contra hne
      obtain ⟨o, ho', -⟩ := h.inner f (by omega) hlt
      rw [ho] at ho'
      cases ho'

theorem define (f : Nat) (name : String) {v : Value} (hv : v.Fits base limit s) :
    (s.define f name v).Staged base limit where
  wellFormed := h.wellFormed.define f name v
  outermost := by rw [outer_define]; exact h.outermost
  inner := by
    intro g hg hlt
    rw [size_define] at hlt
    rw [outer_define]
    exact h.inner g hg hlt
  length_le := by
    intro g hg hlt
    rw [size_define] at hlt
    rw [chain_define]
    exact h.length_le g hg hlt
  binds := by
    intro g hg name' w hw
    have hle := s.le_define f name v
    rcases mem_bindings_define hw with hw | hw
    · cases hw
      exact hv.mono hle
    · exact (h.binds g hg name' w hw).mono hle

/-- The frame of a call has all the room that the closure had, but for itself. -/
theorem enter {c : Closure Value} (hc : (Value.closure c).Fits base limit s) {vs : List Value}
    (hvs : ∀ v ∈ vs, v.Fits base limit s) :
    (s.add (c.frame vs)).Staged base limit ∧ s ≤ s.add (c.frame vs) ∧
      (s.add (c.frame vs)).Room base limit s.size (Value.depths c.body) := by
  have hroom := (Value.fits_closure.mp hc).1
  have hwell : (s.add (c.frame vs)).WellFormed :=
    h.wellFormed.add (fun o ho => by cases ho; exact hroom.lt_size) (Table.distinct_ofList _)
  have hle := h.wellFormed.le_add hwell
  have houter : (s.add (c.frame vs)).outer s.size = some c.scope := by
    rw [outer_add, if_pos rfl]
    rfl
  have hbase : base < s.size := Nat.lt_of_le_of_lt hroom.base_le hroom.lt_size
  have hlength : ((s.add (c.frame vs)).chain s.size).length = (s.chain c.scope).length + 1 := by
    rw [hwell.chain_eq, houter]
    simp only [List.length_cons, hle.2 _ hroom.lt_size]
  have hnew : (s.add (c.frame vs)).Room base limit s.size (Value.depths c.body) := by
    refine ⟨hbase.le, by simp, ?_⟩
    have := hroom.length_le
    omega
  refine ⟨⟨hwell, ?_, fun f hf hlt => ?_, fun f hf hlt => ?_, fun f hf name v hv => ?_⟩, hle, hnew⟩
  · rw [outer_add, if_neg (by omega)]
    exact h.outermost
  · rcases Nat.lt_succ_iff_lt_or_eq.mp (size_add s _ ▸ hlt) with hlt | rfl
    · rw [outer_add, if_neg (by omega)]
      exact h.inner f hf hlt
    · exact ⟨c.scope, houter, hroom.base_le⟩
  · rcases Nat.lt_succ_iff_lt_or_eq.mp (size_add s _ ▸ hlt) with hlt | rfl
    · rw [hle.2 f hlt]
      exact h.length_le f hf hlt
    · have := hnew.length_le
      omega
  · rcases mem_bindings_add hv with hv | hv
    · exact (hvs _ (Closure.mem_frame hv)).mono hle
    · exact (h.binds f hf name v hv).mono hle

end Store.Staged

end

end SmallLisp
