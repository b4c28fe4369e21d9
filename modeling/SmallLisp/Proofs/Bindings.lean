-- What binding a name does to the entries of a table, and to those of two tables side by side:
-- tables with the same names in the same order stay so, and related values stay related.
import SmallLisp.Proofs.Chain
import SmallLisp.Evaluate
import Mathlib.Data.List.Forall2

namespace SmallLisp

namespace Table

variable {α β : Type}

/-! ## One table -/

theorem mem_put {t : Table α} {name : String} {value : α} {entry : String × α}
    (h : entry ∈ (t.put name value).entries) : entry = (name, value) ∨ entry ∈ t.entries := by
  obtain ⟨entries⟩ := t
  unfold put at h
  induction entries with
  | nil => simpa [bind] using h
  | cons first rest ih =>
    unfold bind at h
    split at h
    · rename_i hn
      rcases List.mem_cons.mp h with h | h
      · exact .inl (by rw [h, hn])
      · exact .inr (List.mem_cons_of_mem _ h)
    · rcases List.mem_cons.mp h with h | h
      · exact .inr (h ▸ List.mem_cons_self)
      · rcases ih h with h | h
        · exact .inl h
        · exact .inr (List.mem_cons_of_mem _ h)

theorem mem_ofList {pairs : List (String × α)} {entry : String × α}
    (h : entry ∈ (ofList pairs).entries) : entry ∈ pairs := by
  have hall : ∀ entry ∈ (ofList pairs).entries, entry ∈ pairs := by
    unfold ofList
    apply List.foldlRecOn (motive := fun t : Table α => ∀ entry ∈ t.entries, entry ∈ pairs)
    · simp [empty]
    · intro t ht p hp entry hentry
      rcases mem_put hentry with rfl | hentry
      · exact hp
      · exact ht entry hentry
  exact hall entry h

theorem mem_of_get? {t : Table α} {name : String} {value : α} (h : t.get? name = some value) :
    (name, value) ∈ t.entries := Registry.mem_of_find? h

/-- Binding a name keeps the names that were there in front. -/
theorem names_prefix_put (t : Table α) (name : String) (value : α) :
    t.names <+: (t.put name value).names := by
  by_cases h : name ∈ t.names
  · exact names_put_of_mem t value h ▸ List.prefix_rfl
  · rw [names_put_of_not_mem t value h]
    exact List.prefix_append _ _

/-! ## Two tables -/

/-- The same names in the same order, with related values. -/
def Alike (R : α → β → Prop) (t : Table α) (t' : Table β) : Prop :=
  List.Forall₂ (fun p q => p.1 = q.1 ∧ R p.2 q.2) t.entries t'.entries

variable {R : α → β → Prop} {t : Table α} {t' : Table β}

theorem Alike.get? (h : t.Alike R t') (name : String) :
    Option.Rel R (t.get? name) (t'.get? name) := by
  obtain ⟨entries⟩ := t
  obtain ⟨entries'⟩ := t'
  unfold Alike at h
  dsimp only at h
  unfold Table.get?
  induction h with
  | nil => exact .none
  | cons hp _ ih =>
    unfold find?
    rw [hp.1]
    split
    · exact .some hp.2
    · exact ih

theorem Alike.put (h : t.Alike R t') (name : String) {a : α} {b : β} (hab : R a b) :
    (t.put name a).Alike R (t'.put name b) := by
  obtain ⟨entries⟩ := t
  obtain ⟨entries'⟩ := t'
  unfold Alike Table.put at *
  dsimp only at *
  induction h with
  | nil => exact .cons ⟨rfl, hab⟩ .nil
  | cons hp hps ih =>
    simp only [bind, hp.1]
    split
    · exact .cons ⟨rfl, hab⟩ hps
    · exact .cons ⟨rfl, hp.2⟩ ih

theorem alike_ofList (names : List String) {as : List α} {bs : List β}
    (h : List.Forall₂ R as bs) : (ofList (names.zip as)).Alike R (ofList (names.zip bs)) := by
  have main : ∀ (t : Table α) (t' : Table β), t.Alike R t' →
      ((names.zip as).foldl (fun t p => t.put p.1 p.2) t).Alike R
        ((names.zip bs).foldl (fun t p => t.put p.1 p.2) t') := by
    induction names generalizing as bs with
    | nil => exact fun _ _ h => h
    | cons name names ih =>
      cases h with
      | nil => exact fun _ _ h => h
      | cons hab hs => exact fun t t' ht => ih hs _ _ (ht.put name hab)
  exact main empty empty .nil

theorem Alike.mono {S : α → β → Prop} (h : t.Alike R t') (hRS : ∀ a b, R a b → S a b) :
    t.Alike S t' :=
  h.imp fun _ _ hp => ⟨hp.1, hRS _ _ hp.2⟩

end Table

namespace Store

theorem mem_of_lookup? {s : Store} {n : Nat} {name : String} {v : Value}
    (h : s.lookup? n name = some v) : ∃ f, (name, v) ∈ (s.bindings f).entries := by
  unfold lookup? at h
  obtain ⟨f, _, hf⟩ := Option.bind_eq_some_iff.mp h
  exact ⟨f, Table.mem_of_get? hf⟩

/-- Where frames lie in the same frames, and bind the same names to related values, names have
related values in every scope. -/
theorem lookup?_alike {R : Value → Value → Prop} {s t : Store} (ho : ∀ n, t.outer n = s.outer n)
    (hb : ∀ n, (s.bindings n).Alike R (t.bindings n)) (n : Nat) (name : String) :
    Option.Rel R (s.lookup? n name) (t.lookup? n name) := by
  unfold lookup? find?
  rw [chain_congr ho]
  induction s.chain n with
  | nil => exact .none
  | cons f rest ih =>
    have hget := (hb f).get? name
    rw [bind_find?_cons, bind_find?_cons]
    generalize (s.bindings f).get? name = v at hget ⊢
    generalize (t.bindings f).get? name = v' at hget ⊢
    cases hget with
    | none => exact ih
    | some h => exact .some h

/-- A binding after a definition is the new one, or was there before. -/
theorem mem_bindings_define {s : Store} {n m : Nat} {name : String} {value : Value}
    {entry : String × Value} (h : entry ∈ ((s.define n name value).bindings m).entries) :
    entry = (name, value) ∨ entry ∈ (s.bindings m).entries := by
  rw [bindings_define] at h
  split at h
  · rename_i hm
    rw [hm.1]
    exact Table.mem_put h
  · exact .inr h

/-- A binding after a frame was made is one of that frame, or was there before. -/
theorem mem_bindings_add {s : Store} {f : Frame} {n : Nat} {entry : String × Value}
    (h : entry ∈ ((s.add f).bindings n).entries) :
    entry ∈ f.bindings.entries ∨ entry ∈ (s.bindings n).entries := by
  rw [bindings_add] at h
  split at h
  · exact .inl h
  · exact .inr h

end Store

/-! ## What all bindings have in common -/

/-- All values that are bound in the store have the property. -/
def Store.Binds (Q : Value → Prop) (s : Store) : Prop :=
  ∀ f name v, (name, v) ∈ (s.bindings f).entries → Q v

namespace Store.Binds

variable {Q : Value → Prop} {s : Store}

theorem empty : Store.empty.Binds Q := by
  intro f name v h
  rw [bindings_empty] at h
  cases h

theorem lookup? (h : s.Binds Q) {scope : Nat} {name : String} {v : Value}
    (hl : s.lookup? scope name = some v) : Q v := by
  obtain ⟨f, hf⟩ := mem_of_lookup? hl
  exact h f name v hf

theorem define (h : s.Binds Q) (f : Nat) (name : String) {v : Value} (hv : Q v) :
    (s.define f name v).Binds Q := by
  intro g name' v' hm
  rcases mem_bindings_define hm with hm | hm
  · cases hm
    exact hv
  · exact h g name' v' hm

theorem add (h : s.Binds Q) {f : Frame} (hf : ∀ entry ∈ f.bindings.entries, Q entry.2) :
    (s.add f).Binds Q := by
  intro g name v hm
  rcases mem_bindings_add hm with hm | hm
  · exact hf _ hm
  · exact h g name v hm

end Store.Binds

/-! ## The frame of a call -/

theorem Store.define_add_self (s : Store) (f : Frame) (name : String) (value : Value) :
    (s.add f).define s.size name value = s.add { f with bindings := f.bindings.put name value } := by
  unfold add define size
  congr 1
  refine Array.ext_getElem? fun n => ?_
  rw [Array.getElem?_modify, Array.getElem?_push, Array.getElem?_push]
  by_cases h : n = s.frames.size
  · simp [h]
  · simp [h, Ne.symm h]

/-- The frame of a call is an empty one in which the parameters are defined one after the other. -/
theorem Store.add_call_frame (s : Store) (c : Closure Value) (values : List Value) :
    s.add (c.frame values) = (c.params.zip values).foldl
      (fun t (name, value) => t.define s.size name value) (s.add ⟨.empty, some c.scope⟩) := by
  have main : ∀ (pairs : List (String × Value)) (t : Table Value),
      s.add ⟨pairs.foldl (fun t (name, value) => t.put name value) t, some c.scope⟩ =
        pairs.foldl (fun t (name, value) => t.define s.size name value)
          (s.add ⟨t, some c.scope⟩) := by
    intro pairs
    induction pairs with
    | nil => exact fun _ => rfl
    | cons p rest ih =>
      intro t
      rw [List.foldl_cons, List.foldl_cons, ih]
      simp only [define_add_self]
  exact main _ _

/-- The frame of a call binds values of the call. -/
theorem Closure.mem_frame {c : Closure Value} {values : List Value} {entry : String × Value}
    (h : entry ∈ (c.frame values).bindings.entries) : entry.2 ∈ values :=
  (List.of_mem_zip (Table.mem_ofList h)).2

end SmallLisp
