-- Bindings that nothing reads. A name in operator position asks only whether a closure is bound to
-- it; so two stores that differ in one binding of a root are the same to a run which never reads
-- that name as a node, if the binding is no closure or the run never calls the name.
import SmallLisp.Proofs.Bindings
import SmallLisp.Proofs.Judgement

namespace SmallLisp

open Run

/-! ## Tables without a name -/

namespace Table

variable {α : Type}

/-- The entries for other names, in order. -/
def without (t : Table α) (name : String) : List (String × α) :=
  t.entries.filter fun entry => entry.1 ≠ name

variable {t t' : Table α} {name other : String}

theorem get?_eq_find?_without (t : Table α) (h : other ≠ name) :
    t.get? other = find? other (t.without name) := by
  obtain ⟨entries⟩ := t
  unfold get? without
  induction entries with
  | nil => rfl
  | cons entry rest ih =>
    by_cases hn : entry.1 = name
    · simpa [find?, hn, Ne.symm h] using ih
    · simp only [find?, List.filter_cons, hn, ne_eq, not_false_eq_true, decide_true, if_true]
      split
      · rfl
      · exact ih

theorem get?_eq_of_without_eq (ht : t.without name = t'.without name) (h : other ≠ name) :
    t.get? other = t'.get? other := by
  rw [t.get?_eq_find?_without h, t'.get?_eq_find?_without h, ht]

theorem without_put_self (t : Table α) (name : String) (value : α) :
    (t.put name value).without name = t.without name := by
  obtain ⟨entries⟩ := t
  unfold put without
  induction entries with
  | nil => simp [bind]
  | cons entry rest ih =>
    by_cases hn : entry.1 = name
    · simp [bind, hn]
    · simpa [bind, hn] using ih

theorem without_put_of_ne (t : Table α) (h : other ≠ name) (value : α) :
    (t.put other value).without name = bind other value (t.without name) := by
  obtain ⟨entries⟩ := t
  unfold put without
  induction entries with
  | nil => simp [bind, h]
  | cons entry rest ih =>
    by_cases ho : entry.1 = other
    · simp [bind, ho, h]
    · by_cases hn : entry.1 = name
      · simpa [bind, hn, Ne.symm h] using ih
      · simpa [bind, ho, hn] using ih

/-- Tables that differ at one name only still do after they have bound a name to one value. -/
theorem without_put_eq (ht : t.without name = t'.without name) (other : String) (value : α) :
    (t.put other value).without name = (t'.put other value).without name := by
  by_cases h : other = name
  · rw [h, without_put_self, without_put_self, ht]
  · rw [without_put_of_ne t h, without_put_of_ne t' h, ht]

end Table

/-! ## Stores that differ in one binding -/

/-- The states differ at most in the binding of the name in the frame `g`, trails aside. What `g`
binds else stands in the same order. -/
structure State.SameBut (g : Nat) (name : String) (s t : State) : Prop where
  supply : s.supply = t.supply
  size : s.store.size = t.store.size
  outer : ∀ f, t.store.outer f = s.store.outer f
  bindings : ∀ f, f ≠ g → s.store.bindings f = t.store.bindings f
  others : (s.store.bindings g).without name = (t.store.bindings g).without name

namespace State.SameBut

variable {g : Nat} {name other : String} {s t : State}

/-- Other names have one value in both. -/
theorem lookup?_of_ne (h : s.SameBut g name t) (hne : other ≠ name) (scope : Nat) :
    s.store.lookup? scope other = t.store.lookup? scope other := by
  have hget : ∀ f, (s.store.bindings f).get? other = (t.store.bindings f).get? other := by
    intro f
    by_cases hf : f = g
    · rw [hf]
      exact Table.get?_eq_of_without_eq h.others hne
    · rw [h.bindings f hf]
  unfold Store.lookup? Store.find? Table.contains
  simp only [Store.chain_congr h.outer, hget]

/-- If the frame is a root that binds the name to the same closure or to none, the name calls the
same in every scope. -/
theorem calledBy_lookup? (h : s.SameBut g name t) (hroot : s.store.outer g = none)
    (hg : calledBy ((s.store.bindings g).get? name) = calledBy ((t.store.bindings g).get? name))
    (scope : Nat) :
    calledBy (s.store.lookup? scope name) = calledBy (t.store.lookup? scope name) := by
  have main : ∀ bound f,
      calledBy (((s.store.chainUpTo bound f).find? fun o => (s.store.bindings o).contains name).bind
        fun o => (s.store.bindings o).get? name) =
      calledBy (((s.store.chainUpTo bound f).find? fun o => (t.store.bindings o).contains name).bind
        fun o => (t.store.bindings o).get? name) := by
    intro bound
    induction bound with
    | zero => exact fun _ => rfl
    | succ bound ih =>
      intro f
      unfold Store.chainUpTo
      rw [Store.bind_find?_cons, Store.bind_find?_cons]
      by_cases hf : f = g
      · rw [hf, hroot]
        simpa using hg
      · rw [← h.bindings f hf]
        cases (s.store.bindings f).get? name with
        | some v => rfl
        | none =>
          cases s.store.outer f with
          | none => rfl
          | some o => exact ih o
  unfold Store.lookup? Store.find?
  rw [Store.chain_congr h.outer]
  exact main _ scope

theorem trail (h : s.SameBut g name t) (a b : Array Event) :
    SameBut g name { s with trail := a } { t with trail := b } :=
  ⟨h.supply, h.size, h.outer, h.bindings, h.others⟩

end State.SameBut

/-! ## What counts as a use of a name -/

/-- The event is the evaluation of the name as a node. -/
def Event.isRead (name : String) : Event → Bool
  | evaluated _ (.symbol other) _ => other == name
  | _ => false

/-- The event is that the name is resolved in operator position. -/
def Event.isDispatch (name : String) : Event → Bool
  | dispatched other => other == name
  | _ => false

namespace State

/-- How often the name has been evaluated as a node. -/
def reads (name : String) (s : State) : Nat := s.trail.countP (Event.isRead name)

/-- How often the name has been resolved in operator position. -/
def dispatches (name : String) (s : State) : Nat := s.trail.countP (Event.isDispatch name)

/-- How often the name has been used; its calls may count or not. -/
def uses (name : String) (calls : Bool) (s : State) : Nat :=
  s.reads name + if calls then s.dispatches name else 0

variable {g : Nat} {name : String} {calls : Bool} {s t : State}

theorem uses_push (store : Store) (supply : Nat) (e : Event) :
    uses name calls ⟨store, supply, s.trail.push e⟩ = s.uses name calls +
      ((if e.isRead name then 1 else 0) + if calls && e.isDispatch name then 1 else 0) := by
  unfold uses reads dispatches
  rw [Array.countP_push, Array.countP_push]
  cases calls
  · simp
  · simp
    omega

theorem uses_le_push (s : State) (store : Store) (supply : Nat) (e : Event) :
    s.uses name calls ≤ uses name calls ⟨store, supply, s.trail.push e⟩ :=
  (uses_push store supply e).ge.trans' (Nat.le_add_right _ _)

/-- The states differ at most in a binding that a root has for the name, or lacks. If calls do not
count as uses, it calls the same closure or none. -/
structure Hidden (g : Nat) (name : String) (calls : Bool) (s t : State) : Prop
    extends s.SameBut g name t where
  lt_size : g < s.store.size
  root : s.store.outer g = none
  called : calls = false →
    calledBy ((s.store.bindings g).get? name) = calledBy ((t.store.bindings g).get? name)

namespace Hidden

theorem trail (h : s.Hidden g name calls t) (a b : Array Event) :
    Hidden g name calls { s with trail := a } { t with trail := b } :=
  ⟨h.toSameBut.trail a b, h.lt_size, h.root, h.called⟩

theorem reserve (h : s.Hidden g name calls t) (count : Nat) :
    Hidden g name calls { s with supply := s.supply + count }
      { t with supply := t.supply + count } :=
  ⟨⟨congrArg (· + count) h.supply, h.size, h.outer, h.bindings, h.others⟩, h.lt_size,
    h.root, h.called⟩

theorem assign (h : s.Hidden g name calls t) (scope : Nat) (other : String) (v : Value) :
    Hidden g name calls { s with store := s.store.assign scope other v }
      { t with store := t.store.assign scope other v } := by
  unfold Store.assign
  rw [Store.root_congr h.outer]
  generalize s.store.root scope = f
  refine ⟨⟨h.supply, by simpa using h.size, fun o => by simpa using h.outer o, fun o ho => ?_, ?_⟩,
    by simpa using h.lt_size, by simpa using h.root, fun hcalls => ?_⟩
  · rw [Store.bindings_define, Store.bindings_define, h.size, h.bindings o ho]
    split
    · rename_i hf
      rw [h.bindings f (hf.1 ▸ ho)]
    · rfl
  · rw [Store.bindings_define, Store.bindings_define, h.size]
    split
    · rename_i hf
      rw [← hf.1]
      exact Table.without_put_eq h.others other v
    · exact h.others
  · rw [Store.bindings_define, Store.bindings_define, h.size]
    split
    · rename_i hf
      rw [← hf.1]
      by_cases hname : other = name
      · rw [hname, Table.get?_put_self, Table.get?_put_self]
      · rw [Table.get?_put_of_ne _ _ (Ne.symm hname), Table.get?_put_of_ne _ _ (Ne.symm hname)]
        exact h.called hcalls
    · exact h.called hcalls

theorem add (h : s.Hidden g name calls t) (f : Frame) :
    Hidden g name calls { s with store := s.store.add f } { t with store := t.store.add f } := by
  have hlt := h.lt_size
  have hs : (s.store.add f).bindings g = s.store.bindings g := by
    rw [Store.bindings_add, if_neg (by omega)]
  have ht : (t.store.add f).bindings g = t.store.bindings g := by
    rw [Store.bindings_add, ← h.size, if_neg (by omega)]
  refine ⟨⟨h.supply, by simpa using h.size, fun o => ?_, fun o ho => ?_, ?_⟩, ?_, ?_,
    fun hcalls => ?_⟩
  · dsimp only
    rw [Store.outer_add, Store.outer_add, h.size, h.outer]
  · dsimp only
    rw [Store.bindings_add, Store.bindings_add, h.size, h.bindings o ho]
  · dsimp only
    rw [hs, ht, h.others]
  · simpa using Nat.lt_succ_of_lt hlt
  · dsimp only
    rw [Store.outer_add, if_neg (by omega), h.root]
  · dsimp only
    rw [hs, ht, h.called hcalls]

end Hidden

end State

/-! ## Runs that do not use a name -/

/-- Two runs that end with one value, or stop for one reason, in related states. -/
inductive EndsSame {α : Type} (R : State → State → Prop) :
    EStateM.Result Stop State α → EStateM.Result Stop State α → Prop
  | value {a : α} {s t : State} (h : R s t) : EndsSame R (.ok a s) (.ok a t)
  | stop {stop : Stop} {s t : State} (h : R s t) : EndsSame R (.error stop s) (.error stop t)

theorem EndsSame.mono {α : Type} {R R' : State → State → Prop}
    {r r' : EStateM.Result Stop State α} (h : EndsSame R r r') (hR : ∀ s t, R s t → R' s t) :
    EndsSame R' r r' := by
  cases h with
  | value h => exact .value (hR _ _ h)
  | stop h => exact .stop (hR _ _ h)

/-- How two runs go together from the state `s` of the first one: as long as that one does not use
the name, the second run ends in the same way. -/
structure Unread {α : Type} (g : Nat) (name : String) (calls : Bool) (P : α → Prop) (s : State)
    (r : EStateM.Result Stop State α) (k : Run α) : Prop where
  value : ∀ a, endValue? r = some a → P a
  uses_le : s.uses name calls ≤ (endState r).uses name calls
  same : (endState r).uses name calls = s.uses name calls → ∀ t, s.Hidden g name calls t →
    EndsSame (State.Hidden g name calls) r (k t)

/-- Runs of which the second does not see one binding. -/
def unread (g : Nat) (name : String) (calls : Bool) : Judgement where
  value _ := True
  machine _ := True
  holds _ P m k := ∀ s, Unread g name calls P s (m s) k

section

variable {α β : Type} {g : Nat} {name : String} {calls : Bool} {P : α → Prop} {Q : β → Prop}
  {m k : Run α} {c d b : Nat}

theorem unread_ret {a : α} (h : P a) : (unread g name calls).holds c P (pure a) (pure a) :=
  fun _ => ⟨fun _ ha => by cases ha; exact h, le_rfl, fun _ _ ht => .value ht⟩

theorem unread_fail {f : Fault} : (unread g name calls).holds (α := α) c P (fail f) (fail f) :=
  fun _ => ⟨nofun, le_rfl, fun _ _ ht => .stop ht⟩

theorem unread_bind {f h : α → Run β} (hm : (unread g name calls).holds c P m k)
    (hf : ∀ a, P a → (unread g name calls).holds d Q (f a) (h a)) :
    (unread g name calls).holds b Q (m >>= f) (k >>= h) := by
  intro s
  have first := hm s
  cases hr : m s with
  | ok a u =>
    rw [hr] at first
    rw [bind_of_ok hr]
    have rest := hf a (first.value a rfl) u
    have hle : s.uses name calls ≤ u.uses name calls := first.uses_le
    have hle' := rest.uses_le
    refine ⟨rest.value, hle.trans hle', fun heq t ht => ?_⟩
    have hsame := first.same (by show u.uses name calls = _; omega) t ht
    cases hk : k t with
    | ok a' u' =>
      rw [hk] at hsame
      cases hsame with
      | value hu =>
        rw [bind_of_ok hk]
        exact rest.same (by omega) u' hu
    | error stop u' =>
      rw [hk] at hsame
      cases hsame
  | error stop u =>
    rw [hr] at first
    rw [bind_of_error hr]
    refine ⟨nofun, first.uses_le, fun heq t ht => ?_⟩
    have hsame := first.same heq t ht
    cases hk : k t with
    | ok a' u' =>
      rw [hk] at hsame
      cases hsame
    | error stop' u' =>
      rw [hk] at hsame
      cases hsame with
      | stop hu =>
        rw [bind_of_error hk]
        exact .stop hu

/-- A step that always ends with a value. -/
theorem unread_step {m : Run α} {a : State → α} {next : State → State}
    (hm : ∀ s, m s = .ok (a s) (next s)) (hP : ∀ s, P (a s))
    (huses : ∀ s, s.uses name calls ≤ (next s).uses name calls)
    (hsame : ∀ s t, (next s).uses name calls = s.uses name calls → s.Hidden g name calls t →
      a s = a t ∧ (next s).Hidden g name calls (next t)) :
    (unread g name calls).holds c P m m := by
  intro s
  rw [hm s]
  refine ⟨fun _ h => by cases h; exact hP s, huses s, fun heq t ht => ?_⟩
  obtain ⟨ha, hnext⟩ := hsame s t heq ht
  rw [hm t, ← ha]
  exact .value hnext

theorem unread_record (e : Event) :
    (unread g name calls).holds c (fun _ => True) (record e) (record e) :=
  unread_step (fun _ => rfl) (fun _ => trivial) (fun s => s.uses_le_push ..)
    fun _ _ _ ht => ⟨rfl, ht.trail _ _⟩

/-- Who resolves the name in operator position finds the same, or has used the name. -/
theorem unread_callee (scope : Nat) (other : String) :
    (unread g name calls).holds c (fun found => ∀ c, found = some c →
      (unread g name calls).value (.closure c)) (callee scope other) (callee scope other) := by
  refine unread_step (fun _ => rfl) (fun _ _ _ => trivial) (fun s => s.uses_le_push ..)
    fun s t heq ht => ⟨?_, ht.trail _ _⟩
  show calledBy (s.store.lookup? scope other) = calledBy (t.store.lookup? scope other)
  by_cases hother : other = name
  · cases calls with
    | false =>
      rw [hother]
      exact ht.calledBy_lookup? ht.root (ht.called rfl) scope
    | true =>
      rw [State.uses_push] at heq
      simp [Event.isDispatch, hother] at heq
  · rw [ht.lookup?_of_ne hother]

/-- Who evaluates a symbol finds the same, or has used the name. -/
theorem unread_read (machine scope : Nat) (other : String) :
    (unread g name calls).holds c (fun _ => True) (readSymbol announceAll machine scope other)
      (readSymbol announceAll machine scope other) := by
  refine unread_step (fun _ => rfl) (fun _ => trivial) (fun s => s.uses_le_push ..)
    fun s t heq ht => ⟨?_, ht.trail _ _⟩
  show (s.store.lookup? scope other).getD _ = (t.store.lookup? scope other).getD _
  have hother : other ≠ name := by
    rintro rfl
    rw [State.uses_push] at heq
    simp [Event.isRead] at heq
  rw [ht.lookup?_of_ne hother]

theorem unread_composes : (unread g name calls).Composes where
  give := unread_ret
  sequence := unread_bind
  loosen h _ := h

theorem unread_lawful (registries : Nat → Registry) :
    (unread g name calls).Lawful registries announceAll announceAll where
  toComposes := unread_composes
  unpaid h := h
  nil := trivial
  bool _ := trivial
  zero := trivial
  symbol _ := trivial
  list_iff := ⟨fun _ _ _ => trivial, fun _ => trivial⟩
  closure _ := ⟨trivial, fun _ _ => trivial⟩
  reported _ := unread_fail
  undecided _ _ _ := unread_fail
  undefinedOperation _ _ _ := unread_fail
  addTo _ _ := unread_composes.addTo (fun _ => trivial)
    (unread_step (fun _ => rfl) (fun _ => trivial) (fun _ => le_rfl)
      fun _ _ _ ht => ⟨ht.supply, ht.reserve 2⟩) (fun _ _ _ => unread_fail) _ _
  announced _ _ _ := unread_record _
  read _ := unread_read _
  callee := unread_callee
  assign scope other v _ :=
    unread_step (fun _ => rfl) (fun _ => trivial) (fun s => s.uses_le_push ..)
      fun _ _ _ ht => ⟨rfl, (ht.assign scope other v).trail _ _⟩
  makeClosure _ _ _ _ _ :=
    unread_step (fun _ => rfl) (fun _ => trivial) (fun s => s.uses_le_push ..)
      fun _ _ _ ht => ⟨by rw [ht.supply], (ht.reserve 1).trail _ _⟩
  enter {c vs} _ _ :=
    unread_step (fun _ => rfl) (fun _ => trivial) (fun s => s.uses_le_push ..)
      fun _ _ _ ht => ⟨ht.size, (ht.add (c.frame vs)).trail _ _⟩

/-- Evaluation does not see the binding either. -/
theorem unread_entry (registries : Nat → Registry) (bound : Nat) (x : Entry) :
    (unread g name calls).holds 0 (fun _ => True) (x.run registries bound)
      (x.run registries bound) := by
  have hexhaust : (unread g name calls).holds (α := Value) 0 (fun _ => True) exhaust exhaust :=
    fun _ => ⟨nofun, le_rfl, fun _ _ ht => .stop ht⟩
  rw [Entry.run_eq]
  exact (unread_lawful registries).entry ((unread_lawful registries).evaluate hexhaust bound)
    (Judgement.admits_of_forall (fun _ => trivial) (fun _ => trivial) x)

end

/-- Bindings that are not read do not matter. Let two states differ only in the binding of a name in
a root, and let a run never evaluate that name as a node. If no closure is bound to the name there, or
if the run never resolves the name in operator position, then the run ends in the same way from
either state, and still all other bindings are the same, in the same order. -/
theorem unread_bindings_do_not_matter (registries : Nat → Registry) {g : Nat} {name : String}
    {s t : State} (hst : s.SameBut g name t) (hg : g < s.store.size)
    (hroot : s.store.outer g = none) (bound : Nat) (x : Entry)
    (hreads : (endState (x.run registries bound s)).reads name = s.reads name)
    (hcalls : ((∀ c, (s.store.bindings g).get? name ≠ some (.closure c)) ∧
        ∀ c, (t.store.bindings g).get? name ≠ some (.closure c)) ∨
      (endState (x.run registries bound s)).dispatches name = s.dispatches name) :
    EndsSame (State.SameBut g name) (x.run registries bound s) (x.run registries bound t) := by
  obtain ⟨calls, hhidden, huses⟩ : ∃ calls, s.Hidden g name calls t ∧
      (endState (x.run registries bound s)).uses name calls = s.uses name calls := by
    rcases hcalls with ⟨hs, ht⟩ | hdispatches
    · have hnone : ∀ {v : Option Value}, (∀ c, v ≠ some (.closure c)) → calledBy v = none :=
        fun hv => Option.eq_none_iff_forall_ne_some.mpr fun c hc =>
          hv c (calledBy_eq_some_iff.mp hc)
      exact ⟨false, ⟨hst, hg, hroot, fun _ => by rw [hnone hs, hnone ht]⟩, hreads⟩
    · refine ⟨true, ⟨hst, hg, hroot, nofun⟩, ?_⟩
      unfold State.uses
      rw [hreads, hdispatches]
  exact ((unread_entry registries bound x s).same huses t hhidden).mono
    fun _ _ h => h.toSameBut

/-- The name of an operation is bound to a number, or to nothing. -/
theorem a_number_does_not_hide_an_operation :
    let car : Value := .ofList [.symbol "car", .ofList [.symbol "quote", .ofList [.symbol "a"]]]
    let node : Value := .ofList [.symbol "set", .ofList [.symbol "quote", .symbol "y"], car]
    let base := Store.empty.add ⟨.empty, none⟩
    let s : State := ⟨(base.define 0 "car" (.number (.int 5))).define 0 "x" .nil, 0, #[]⟩
    let t : State := ⟨base.define 0 "x" .nil, 0, #[]⟩
    let x := Entry.evaluate 0 node 0
    let run := x.run (fun _ => .standard) 4
    s.SameBut 0 "car" t ∧ 0 < s.store.size ∧ s.store.outer 0 = none ∧ (endState (run s)).reads "car" = 0 ∧
      (endState (run s)).dispatches "car" = 1 ∧
      (∀ c, (s.store.bindings 0).get? "car" ≠ some (.closure c)) ∧
      endValue? (run t) = some (.symbol "a") ∧
      EndsSame (State.SameBut 0 "car") (run s) (run t) := by
  intro car node base s t x run
  have hst : s.SameBut 0 "car" t := by
    refine ⟨rfl, rfl, fun f => ?_, fun f hf => ?_, rfl⟩
    · simp [s, t]
    · simp [s, t, Store.bindings_define, hf]
  have hnumber : ∀ c, (s.store.bindings 0).get? "car" ≠ some (.closure c) := by
    intro c
    rw [show (s.store.bindings 0).get? "car" = some (.number (.int 5)) from rfl]
    simp
  have hunbound : ∀ c, (t.store.bindings 0).get? "car" ≠ some (.closure c) := by
    intro c
    rw [show (t.store.bindings 0).get? "car" = none from rfl]
    simp
  have hreads : (endState (run s)).reads "car" = 0 := by decide
  exact ⟨hst, by decide, rfl, hreads, by decide, hnumber, rfl,
    unread_bindings_do_not_matter (fun _ => .standard) hst (by decide) rfl 4 x hreads
      (.inl ⟨hnumber, hunbound⟩)⟩

end SmallLisp
