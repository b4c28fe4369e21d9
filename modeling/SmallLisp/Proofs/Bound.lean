-- The bound on nested evaluations bounds nothing else. A run that it does not cut off goes the same
-- way, to the same end, under every larger bound.
import SmallLisp.Proofs.Judgement

namespace SmallLisp

open Run

/-- The second run is the first one, unless that is cut off. Everything may occur in them. -/
def settling : Judgement where
  value _ := True
  machine _ := True
  holds _ P m k := ∀ s, (∀ a, endValue? (m s) = some a → P a) ∧ (Finished (m s) → k s = m s)

theorem settling_same {α : Type} {P : α → Prop} {c : Nat} {m : Run α}
    (h : ∀ s a, endValue? (m s) = some a → P a) : settling.holds c P m m :=
  fun s => ⟨h s, fun _ => rfl⟩

theorem settling_true {c : Nat} {α : Type} {P : α → Prop} (hP : ∀ a, P a) (m : Run α) :
    settling.holds c P m m :=
  settling_same fun _ a _ => hP a

theorem settling_fail {α : Type} {P : α → Prop} {c : Nat} (f : Fault) :
    settling.holds (α := α) c P (fail f) (fail f) :=
  settling_same nofun

theorem settling_bind {α β : Type} {P : α → Prop} {Q : β → Prop} {c d b : Nat} {m k : Run α}
    {f g : α → Run β} (hm : settling.holds c P m k)
    (hf : ∀ a, P a → settling.holds d Q (f a) (g a)) :
    settling.holds b Q (m >>= f) (k >>= g) := by
  intro s
  obtain ⟨hP, hk⟩ := hm s
  cases hr : m s with
  | ok a t =>
    rw [hr] at hP hk
    rw [bind_of_ok hr, bind_of_ok (hk nofun)]
    exact hf a (hP a rfl) t
  | error stop t =>
    rw [hr] at hk
    rw [bind_of_error hr]
    refine ⟨nofun, fun hfin => bind_of_error (hk fun u hu => ?_)⟩
    cases hu
    exact hfin t rfl

theorem settling_lawful (registries : Nat → Registry) :
    settling.Lawful registries announceAll announceAll where
  give h := settling_same fun _ _ ha => by cases ha; exact h
  sequence := settling_bind
  loosen h _ := h
  unpaid h := h
  nil := trivial
  bool _ := trivial
  zero := trivial
  symbol _ := trivial
  list_iff := ⟨fun _ _ _ => trivial, fun _ => trivial⟩
  closure _ := ⟨trivial, fun _ _ => trivial⟩
  reported _ := settling_fail _
  undecided _ _ _ := settling_fail _
  assign _ _ _ _ := settling_true (fun _ => trivial) _
  addTo _ _ := settling_true (fun _ => trivial) _
  announced _ _ _ := settling_true (fun _ => trivial) _
  read _ _ _ := settling_true (fun _ => trivial) _
  callee _ _ := settling_true (fun _ _ _ => trivial) _
  makeClosure _ _ _ _ _ := settling_true (fun _ => trivial) _
  enter _ _ := settling_true (fun _ => trivial) _
  undefinedOperation _ _ _ := settling_fail _

/-- Evaluations under a smaller bound and a larger one. -/
theorem settling_evaluate (registries : Nat → Registry) {bound bound' : Nat}
    (h : bound ≤ bound') :
    settling.Evaluations (evaluateAnnouncing announceAll registries bound)
      (evaluateAnnouncing announceAll registries bound') := by
  induction bound generalizing bound' with
  | zero =>
    intro machine _ scope n _ s
    refine ⟨nofun, fun hfin => ?_⟩
    exact absurd rfl (hfin s)
  | succ bound ih =>
    obtain ⟨larger, rfl⟩ : ∃ larger, bound' = larger + 1 := ⟨bound' - 1, by omega⟩
    exact (settling_lawful registries).evaluateOne (ih (by omega))

/-- A run that a bound does not cut off is the same under every larger bound. -/
theorem Entry.run_of_le (registries : Nat → Registry) {bound bound' : Nat} (h : bound ≤ bound')
    (x : Entry) {s : State} (hfin : Finished (x.run registries bound s)) :
    x.run registries bound' s = x.run registries bound s := by
  have hx : settling.Admits x :=
    Judgement.admits_of_forall (fun _ => trivial) (fun _ => trivial) x
  rw [Entry.run_eq] at hfin ⊢
  rw [Entry.run_eq]
  exact ((settling_lawful registries).entry (settling_evaluate registries h) hx s).2 hfin

/-- A node that has a value under some bound has it under every larger bound. -/
theorem evaluate_of_le {registries : Nat → Registry} {bound bound' machine scope : Nat}
    {node v : Value} {s t : State} (h : bound ≤ bound')
    (heval : evaluate registries bound machine node scope s = .ok v t) :
    evaluate registries bound' machine node scope s = .ok v t := by
  rw [← heval]
  apply Entry.run_of_le registries h (.evaluate machine node scope)
  show Finished (evaluate registries bound machine node scope s)
  rw [heval]
  exact fun _ => nofun

end SmallLisp
