-- The laws of the chain of frames. In a well-formed store every frame lies inside an older one,
-- so a chain ends at a frame that lies in none, and a look-up or an assignment can be read off
-- one frame and the rest of its chain. What is printed of a frame shows this way outward.
import Mathlib.Order.Basic
import SmallLisp.Store.Printer

namespace SmallLisp

namespace Store

variable {s : Store}

/-! ## Single frames -/

theorem frame_of_size_le {n : Nat} (h : s.size ≤ n) : s.frame n = ⟨.empty, none⟩ := by
  unfold size at h
  simp [frame, h]

@[simp] theorem bindings_empty (n : Nat) : empty.bindings n = .empty := by
  unfold bindings
  rw [frame_of_size_le (Nat.zero_le n)]

theorem lt_size_of_outer {n o : Nat} (h : s.outer n = some o) : n < s.size := by
  by_contra hn
  unfold outer at h
  rw [frame_of_size_le (by omega)] at h
  cases h

theorem outer_add (f : Frame) (n : Nat) :
    (s.add f).outer n = if n = s.size then f.outer else s.outer n := by
  unfold outer
  rw [frame_add]
  split <;> rfl

theorem bindings_add (f : Frame) (n : Nat) :
    (s.add f).bindings n = if n = s.size then f.bindings else s.bindings n := by
  unfold bindings
  rw [frame_add]
  split <;> rfl

theorem bindings_define (n m : Nat) (name : String) (value : Value) :
    (s.define n name value).bindings m =
      if m = n ∧ n < s.size then (s.bindings n).put name value else s.bindings m := by
  unfold bindings
  rw [frame_define]
  split <;> rfl

/-- The nearest value on a list of frames is that of the first frame, or else of the rest. -/
theorem bind_find?_cons (s : Store) (name : String) (f : Nat) (rest : List Nat) :
    (((f :: rest).find? fun o => (s.bindings o).contains name).bind fun o =>
        (s.bindings o).get? name) =
      ((s.bindings f).get? name).or ((rest.find? fun o => (s.bindings o).contains name).bind
        fun o => (s.bindings o).get? name) := by
  rw [List.find?_cons]
  unfold Table.contains
  cases hg : (s.bindings f).get? name with
  | some v => simp [hg]
  | none => simp

/-! ## Stores with the same frames around frames -/

theorem chainUpTo_congr {t : Store} (ho : ∀ n, t.outer n = s.outer n) (bound n : Nat) :
    t.chainUpTo bound n = s.chainUpTo bound n := by
  induction bound generalizing n with
  | zero => rfl
  | succ bound ih => simp only [chainUpTo, ho, ih]

theorem chain_congr {t : Store} (ho : ∀ n, t.outer n = s.outer n) (n : Nat) :
    t.chain n = s.chain n := chainUpTo_congr ho (n + 1) n

theorem root_congr {t : Store} (ho : ∀ n, t.outer n = s.outer n) (n : Nat) :
    t.root n = s.root n := by
  unfold root
  rw [chain_congr ho]

/-! ## A well-formed store -/

theorem wellFormed_empty : empty.WellFormed := by
  refine ⟨fun n o h => ?_, fun n => ?_⟩
  · unfold outer at h
    rw [frame_of_size_le (Nat.zero_le n)] at h
    cases h
  · simp [Table.Distinct, Table.names, Table.empty]

theorem WellFormed.define (h : s.WellFormed) (n : Nat) (name : String) (value : Value) :
    (s.define n name value).WellFormed := by
  refine ⟨fun m o ho => h.outer_lt m o (by simpa using ho), fun m => ?_⟩
  rw [bindings_define]
  split
  · exact Table.distinct_put _ _ _ (h.distinct n)
  · exact h.distinct m

theorem WellFormed.add (h : s.WellFormed) {f : Frame} (ho : ∀ o, f.outer = some o → o < s.size)
    (hf : f.bindings.Distinct) : (s.add f).WellFormed := by
  refine ⟨fun n o hn => ?_, fun n => ?_⟩
  · rw [outer_add] at hn
    split at hn
    · rename_i hs
      exact hs ▸ ho o hn
    · exact h.outer_lt n o hn
  · rw [bindings_add]
    split
    · exact hf
    · exact h.distinct n

/-! ## The chain, one frame at a time -/

/-- A bound past the number of the frame cuts nothing off. -/
theorem WellFormed.chainUpTo_of_lt (h : s.WellFormed) {n bound : Nat} (hb : n < bound) :
    s.chainUpTo bound n = s.chain n := by
  induction n using Nat.strongRecOn generalizing bound with
  | ind n ih =>
    obtain ⟨b, rfl⟩ : ∃ b, bound = b + 1 := ⟨bound - 1, by omega⟩
    unfold chain
    simp only [chainUpTo]
    cases ho : s.outer n with
    | none => rfl
    | some o =>
      have hlt := h.outer_lt n o ho
      simp only [ih o hlt (show o < b by omega), ih o hlt hlt]

theorem WellFormed.chain_eq (h : s.WellFormed) (n : Nat) :
    s.chain n = n :: (match s.outer n with
      | none => []
      | some o => s.chain o) := by
  show s.chainUpTo (n + 1) n = _
  simp only [chainUpTo]
  cases ho : s.outer n with
  | none => rfl
  | some o => simp only [h.chainUpTo_of_lt (h.outer_lt n o ho)]

/-- What passes from the frame around a frame to the frame itself holds of all frames. -/
theorem WellFormed.chain_induction (h : s.WellFormed) {P : Nat → Prop}
    (step : ∀ n, (∀ o, s.outer n = some o → P o) → P n) (n : Nat) : P n := by
  induction n using Nat.strongRecOn with
  | ind n ih => exact step n fun o ho => ih o (h.outer_lt n o ho)

theorem WellFormed.root_eq (h : s.WellFormed) (n : Nat) :
    s.root n = match s.outer n with
      | none => n
      | some o => s.root o := by
  unfold root
  rw [h.chain_eq n]
  cases s.outer n with
  | none => rfl
  | some o =>
    simp only
    rw [h.chain_eq o]
    simp [List.getLast?_cons]

theorem WellFormed.outer_root (h : s.WellFormed) (n : Nat) : s.outer (s.root n) = none := by
  induction n using h.chain_induction with
  | step n ih =>
    rw [h.root_eq]
    cases ho : s.outer n with
    | none => exact ho
    | some o => exact ih o ho

theorem WellFormed.root_lt_size (h : s.WellFormed) {n : Nat} (hn : n < s.size) :
    s.root n < s.size := by
  induction n using h.chain_induction with
  | step n ih =>
    rw [h.root_eq]
    cases ho : s.outer n with
    | none => exact hn
    | some o => exact ih o ho (Nat.lt_trans (h.outer_lt n o ho) hn)

/-- A name has its value in the frame itself, or else further out. -/
theorem WellFormed.lookup?_eq (h : s.WellFormed) (n : Nat) (name : String) :
    s.lookup? n name = match (s.bindings n).get? name with
      | some v => some v
      | none => (s.outer n).bind (s.lookup? · name) := by
  unfold lookup? find?
  rw [h.chain_eq n, bind_find?_cons]
  cases (s.bindings n).get? name with
  | some v => rfl
  | none => cases s.outer n <;> rfl

/-! ## The way outward -/

/-- The frames that one comes to from a frame, outward to a frame that lies in none. -/
inductive Walk (s : Store) : Nat → List Nat → Prop
  | root {n : Nat} (h : s.outer n = none) : Walk s n [n]
  | inside {n o : Nat} {rest : List Nat} (h : s.outer n = some o) (hrest : Walk s o rest) :
      Walk s n (n :: rest)

/-- The chain is not cut off: it goes all the way to a root. -/
theorem WellFormed.walk_chain (h : s.WellFormed) (n : Nat) : s.Walk n (s.chain n) := by
  induction n using h.chain_induction with
  | step n ih =>
    rw [h.chain_eq n]
    cases ho : s.outer n with
    | none => exact .root ho
    | some o => exact .inside ho (ih o ho)

/-- Outward the numbers of the frames fall, so none comes twice. -/
theorem Walk.sorted (h : s.WellFormed) {n : Nat} {frames : List Nat} (hw : s.Walk n frames) :
    frames.Pairwise (· > ·) ∧ ∀ f ∈ frames, f ≤ n := by
  induction hw with
  | root _ => simp
  | @inside n o rest ho _ ih =>
    have hlt := h.outer_lt n o ho
    have hrest : ∀ f ∈ rest, f < n := fun f hf => Nat.lt_of_le_of_lt (ih.2 f hf) hlt
    refine ⟨List.pairwise_cons.mpr ⟨hrest, ih.1⟩, fun f hf => ?_⟩
    rcases List.mem_cons.mp hf with rfl | hf
    · exact Nat.le_refl _
    · exact Nat.le_of_lt (hrest f hf)

theorem WellFormed.nodup_chain (h : s.WellFormed) (n : Nat) : (s.chain n).Nodup :=
  ((h.walk_chain n).sorted h).1.imp fun hlt => Nat.ne_of_gt hlt

/-- There is one way outward only. -/
theorem WellFormed.chain_eq_of_walk (h : s.WellFormed) {n : Nat} {frames : List Nat}
    (hw : s.Walk n frames) : s.chain n = frames := by
  induction hw with
  | root ho => rw [h.chain_eq, ho]
  | inside ho _ ih =>
    rw [h.chain_eq, ho]
    exact congrArg _ ih

/-- What is printed of a frame, and of the frames on the way outward from it, which the host writes
if it is ready to write all that they bind. -/
structure PrintsWalk (s : Store) (n : Nat) (rest : List Nat) : Prop where
  frame : s.frameText n = (s.bindings n).text ++ if rest.isEmpty then "" else " -> ..."
  chain : s.chainText n = "<Environment chain: " ++
    " -> ".intercalate ((n :: rest).map fun f => (s.bindings f).text) ++ ">"
  writes : s.writesChain n = (n :: rest).all fun f => (s.bindings f).isWritable

theorem WellFormed.printsWalk (h : s.WellFormed) {n : Nat} {rest : List Nat}
    (hw : s.Walk n (n :: rest)) : s.PrintsWalk n rest := by
  have hchain := h.chain_eq_of_walk hw
  have hinside : (s.outer n).isSome = !rest.isEmpty := by
    cases hw with
    | root ho => simp [ho]
    | inside ho hrest => cases hrest <;> simp [ho]
  refine ⟨?_, ?_, ?_⟩
  · unfold frameText
    rw [hinside]
    cases rest <;> simp
  · unfold chainText
    simp only [hchain]
  · unfold writesChain
    simp only [hchain]

end Store

end SmallLisp
