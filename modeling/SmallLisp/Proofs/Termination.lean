-- Calls are the only source of divergence. A machine that knows no `lambda`, in a store without
-- closures, evaluates each part of a node at most once: every operation evaluates each of its
-- argument nodes at most once, and no closure can come about that would evaluate more. So
-- evaluation ends, makes no frame, and leaves no closure behind.
import SmallLisp.Proofs.Bindings
import SmallLisp.Proofs.Bound
import SmallLisp.Proofs.Parts
import Mathlib.Algebra.Order.BigOperators.Group.List
import Mathlib.Algebra.Order.Group.Nat

namespace SmallLisp

open Run

namespace Value

mutual
/-- How many nodes a node has inside, itself included. -/
def nodeCount : Value → Nat
  | .list _ items => 1 + nodeCounts items
  | .nil | .null | .bool _ | .number _ | .symbol _ | .closure _ | .host .. => 1
termination_by structural v => v

def nodeCounts : List Value → Nat
  | [] => 0
  | v :: vs => nodeCount v + nodeCounts vs
termination_by structural vs => vs
end

theorem nodeCounts_eq_total (vs : List Value) : nodeCounts vs = Judgement.total nodeCount vs := by
  induction vs with
  | nil => rfl
  | cons v vs ih => rw [nodeCounts, ih, Judgement.total_cons]

theorem nodeCount_list (b : Brackets) (vs : List Value) :
    (list b vs).nodeCount = 1 + Judgement.total nodeCount vs := by
  rw [nodeCount, nodeCounts_eq_total]

theorem nodeCount_pos (v : Value) : 0 < v.nodeCount := by
  cases v with
  | list b vs =>
    rw [nodeCount_list]
    omega
  | _ => exact Nat.one_pos

/-- An item of a list has fewer nodes than the list. -/
theorem nodeCount_lt_of_mem {v : Value} {b : Brackets} {vs : List Value} (h : v ∈ vs) :
    v.nodeCount < (list b vs).nodeCount := by
  have hle : v.nodeCount ≤ Judgement.total nodeCount vs :=
    List.le_sum_of_mem (List.mem_map_of_mem h)
  rw [nodeCount_list]
  omega

end Value

/-- The event is the start of an evaluation. -/
def Event.isEvaluation : Event → Bool
  | evaluated .. => true
  | _ => false

namespace State

/-- How many evaluations there have been. -/
def evaluations (s : State) : Nat := s.trail.countP Event.isEvaluation

/-- No binding has a closure in it. -/
def ClosureFree (s : State) : Prop := s.store.Binds Value.ClosureFree

end State

/-- The end of a run that was not cut off. Since state `s` there have been no more than `cost`
evaluations and no new frame, and no closure is in any binding; a value has the property. -/
structure Spent {α : Type} (cost : Nat) (P : α → Prop) (s : State)
    (r : EStateM.Result Stop State α) : Prop where
  finished : Finished r
  evaluations_le : (endState r).evaluations ≤ s.evaluations + cost
  size_eq : (endState r).store.size = s.store.size
  closureFree : (endState r).ClosureFree
  value : ∀ a, endValue? r = some a → P a

namespace Spent

variable {α : Type} {P : α → Prop} {c : Nat} {s : State}

theorem ret (hs : s.ClosureFree) {a : α} (h : P a) : Spent c P s (.ok a s) :=
  ⟨nofun, Nat.le_add_right _ _, rfl, hs, fun _ ha => by cases ha; exact h⟩

theorem fault (hs : s.ClosureFree) (f : Fault) : Spent c P s (.error (.fault f) s) :=
  ⟨nofun, Nat.le_add_right _ _, rfl, hs, nofun⟩

end Spent

/-- Runs by themselves, and what they spend in states without closures. -/
def spending : Judgement where
  value := Value.ClosureFree
  machine _ := True
  holds cost P m _ := ∀ s, s.ClosureFree → Spent cost P s (m s)

section

variable {α β : Type} {P : α → Prop} {Q : β → Prop} {c d : Nat} {m k : Run α}

theorem spending_ret {a : α} (h : P a) : spending.holds c P (pure a) k := fun _ hs => .ret hs h

theorem spending_fail {f : Fault} : spending.holds (α := α) c P (fail f) k :=
  fun _ hs => .fault hs f

theorem spending_bind {k' : Run β} {f : α → Run β} {g : α → Run β} (hm : spending.holds c P m k)
    (hf : ∀ a, P a → spending.holds d Q (f a) (g a)) :
    spending.holds (c + d) Q (m >>= f) k' := by
  intro s hs
  have first := hm s hs
  cases hr : m s with
  | ok a t =>
    rw [hr] at first
    rw [bind_of_ok hr]
    have rest := hf a (first.value a rfl) t first.closureFree
    refine ⟨rest.finished, ?_, rest.size_eq.trans first.size_eq, rest.closureFree, rest.value⟩
    have hfirst : t.evaluations ≤ s.evaluations + c := first.evaluations_le
    have hrest := rest.evaluations_le
    omega
  | error stop t =>
    rw [hr] at first
    rw [bind_of_error hr]
    refine ⟨fun u hu => first.finished u (by cases hu; rfl), ?_, first.size_eq, first.closureFree,
      nofun⟩
    have hfirst : t.evaluations ≤ s.evaluations + c := first.evaluations_le
    show t.evaluations ≤ s.evaluations + (c + d)
    omega

/-- An event costs something only if it is the start of an evaluation. -/
theorem spending_record (e : Event) :
    spending.holds (if e.isEvaluation then 1 else 0) (fun _ => True) (record e) (record e) :=
  fun _ hs => ⟨nofun, Array.countP_push.le, rfl, hs, fun _ _ => trivial⟩

theorem spending_announced (machine : Nat) (node : Value) (scope : Nat) :
    spending.holds 1 (fun _ => True) (announceAll machine node scope)
      (announceAll machine node scope) :=
  spending_record (.evaluated machine node scope)

theorem spending_assign (scope : Nat) (name : String) {v : Value} (hv : v.ClosureFree) :
    spending.holds 0 (fun _ => True) (Run.assign scope name v) (Run.assign scope name v) :=
  fun _ hs => ⟨nofun, Array.countP_push.le, Store.size_define .., hs.define _ name hv,
    fun _ _ => trivial⟩

theorem spending_composes : spending.Composes where
  give := spending_ret
  sequence := spending_bind
  loosen h hcd s hs :=
    have hs := h s hs
    ⟨hs.finished, hs.evaluations_le.trans (by omega), hs.size_eq, hs.closureFree, hs.value⟩

theorem spending_operates : spending.Operates where
  toComposes := spending_composes
  nil := fun c hc => by cases hc
  bool b := fun c hc => by cases hc
  zero := Value.closureFree_number _
  list_iff := Value.closureFree_list _ _
  reported _ := spending_fail
  undecided _ _ _ := spending_fail
  assign scope name _ hv := spending_assign scope name hv
  addTo _ _ := spending_composes.addTo Value.closureFree_number
    (fun _ hs => ⟨nofun, le_rfl, rfl, hs, fun _ _ => trivial⟩) (fun _ _ _ => spending_fail) _ _

end

/-! ## Evaluation without calls -/

variable {registries : Nat → Registry} {machine : Nat}

/-- No symbol calls a closure. -/
theorem spending_callee (scope : Nat) (name : String) :
    spending.holds 0 (fun found => found = none) (callee scope name) (callee scope name) := by
  refine spending_operates.free (spending_record (.dispatched name)) fun _ _ s hs => ?_
  refine .ret hs (Option.eq_none_iff_forall_ne_some.mpr fun c hc => ?_)
  exact hs.lookup? (calledBy_eq_some_iff.mp hc) c .self

theorem spending_operate (hreg : ∀ name, (registries machine).lookup? name ≠ some .lambda)
    {eval : Evaluation} {scope : Nat} {tail : List Value}
    (htail : spending.Evaluates Value.nodeCount (eval machine · scope) (eval machine · scope) tail)
    {v : Value} (hv : v.ClosureFree) :
    spending.holds (Judgement.total Value.nodeCount tail) Value.ClosureFree
      (operate registries eval machine tail scope v)
      (operate registries eval machine tail scope v) := by
  cases v with
  | closure c => exact absurd .self (hv c)
  | symbol name =>
    rw [operate_symbol]
    refine spending_operates.free (spending_callee scope name) ?_
    rintro _ rfl
    unfold runNamed
    dsimp only
    cases hl : (registries machine).lookup? name with
    | some operation =>
      refine spending_operates.operation operation (fun hlambda => ?_) htail
      exact absurd (hlambda ▸ hl) (hreg name)
    | none => exact spending_fail
  | _ => exact spending_fail

/-- A node costs no more than the nodes inside it, itself included, if evaluations may nest that
deep. -/
theorem spending_evaluate (hreg : ∀ name, (registries machine).lookup? name ≠ some .lambda)
    {node : Value} (hnode : node.ClosureFree) {bound : Nat} (hbound : node.nodeCount ≤ bound)
    (scope : Nat) :
    spending.holds node.nodeCount Value.ClosureFree (evaluate registries bound machine node scope)
      (evaluate registries bound machine node scope) := by
  obtain ⟨bound, rfl⟩ : ∃ b, bound = b + 1 := ⟨bound - 1, by have := node.nodeCount_pos; omega⟩
  -- what comes after the start of the evaluation of a node without nodes inside
  have hatom : ∀ {n : Value} {m : Run Value}, n.nodeCount = 1 →
      spending.holds 0 Value.ClosureFree m m → spending.holds n.nodeCount Value.ClosureFree
        (do record (.evaluated machine n scope); m) (do record (.evaluated machine n scope); m) := by
    intro n m hcount hm
    rw [hcount]
    exact spending_operates.sequence (spending_announced machine n scope) fun _ _ => hm
  induction node using Value.induct generalizing bound with
  | list b items ih =>
    cases items with
    | nil => exact hatom rfl (spending_ret spending_operates.nil)
    | cons head tail =>
      have heval : ∀ n ∈ head :: tail, n.ClosureFree ∧ spending.holds n.nodeCount
          Value.ClosureFree (evaluate registries bound machine n scope)
            (evaluate registries bound machine n scope) := by
        intro n hn
        have hlt := Value.nodeCount_lt_of_mem (b := b) hn
        obtain ⟨inner, rfl⟩ : ∃ inner, bound = inner + 1 :=
          ⟨bound - 1, by have := n.nodeCount_pos; omega⟩
        exact ⟨hnode.item hn, ih n hn (hnode.item hn) inner (by omega)⟩
      obtain ⟨⟨hhead, hevalhead⟩, htail⟩ := List.forall_mem_cons.mp heval
      rw [Value.nodeCount_list, Judgement.total_cons]
      refine spending_operates.sequence (spending_announced machine _ scope) fun _ _ => ?_
      show spending.holds _ _ (applyWith registries (evaluate registries bound) machine head tail
        scope) (applyWith registries (evaluate registries bound) machine head tail scope)
      rw [applyWith_eq]
      refine spending_operates.sequence ?_ fun v hv => spending_operate hreg htail hv
      split
      · exact hevalhead
      · exact spending_ret hhead
  | symbol name =>
    refine hatom rfl fun s hs => ?_
    show Spent 0 Value.ClosureFree s
      (.ok ((s.store.lookup? scope name).getD (.symbol name)) s)
    refine .ret hs ?_
    cases hl : s.store.lookup? scope name with
    | none => exact hnode
    | some v => exact hs.lookup? hl
  | nil | null => exact hatom rfl (spending_ret spending_operates.nil)
  | bool | number | closure => exact hatom rfl (spending_ret hnode)
  | host => exact hatom rfl spending_fail

/-- Where neither the node nor any binding has a closure in it, and no name stands for `lambda`,
evaluation ends, in one way however deep evaluations may nest: there are no more evaluations than
nodes, no frame is made, and no closure is in the value or in any binding afterwards. -/
theorem evaluation_without_closures_ends (registries : Nat → Registry) {m : Nat}
    (hreg : ∀ name, (registries m).lookup? name ≠ some .lambda) {s : State} (hs : s.ClosureFree)
    {node : Value} (hnode : node.ClosureFree) (scope : Nat) :
    ∃ r, (∀ bound, node.nodeCount ≤ bound → evaluate registries bound m node scope s = r) ∧
      Spent node.nodeCount Value.ClosureFree s r := by
  have hspent := spending_evaluate hreg hnode le_rfl scope s hs
  refine ⟨_, fun bound hbound => ?_, hspent⟩
  exact (Entry.evaluate m node scope).run_of_le registries hbound hspent.finished

/-- An operator that has to be evaluated, and is then looked up under an alias. -/
theorem evaluation_of_a_computed_operator_ends :
    let registry : Registry :=
      ⟨⟨[("car", .car), ("quote", .quote)]⟩, ⟨[("'", "quote"), ("first", "car")]⟩, by decide⟩
    let s : State := ⟨(Store.empty.add ⟨.empty, none⟩).define 0 "x" (.ofList [.number (.int 7)]),
      0, #[]⟩
    let node : Value := .ofList [.ofList [.symbol "'", .symbol "first"], .symbol "x"]
    (∀ name, registry.lookup? name ≠ some .lambda) ∧ s.ClosureFree ∧ node.ClosureFree ∧
      ∃ r, (∀ bound, 5 ≤ bound → evaluate (fun _ => registry) bound 0 node 0 s = r) ∧
        Spent 5 Value.ClosureFree s r ∧ endValue? r = some (.number (.int 7)) := by
  intro registry s node
  have hreg : ∀ name, registry.lookup? name ≠ some .lambda := by
    intro name h
    obtain ⟨n, hn⟩ := Registry.exists_mem_of_lookup? h
    simp [registry] at hn
  have hs : s.ClosureFree := (Store.Binds.empty.add (by simp [Table.empty])).define 0 "x" (by simp)
  have hnode : node.ClosureFree := by simp [node]
  obtain ⟨r, hr, hspent⟩ := evaluation_without_closures_ends (fun _ => registry) (m := 0) hreg hs
    hnode 0
  exact ⟨hreg, hs, hnode, r, hr, hspent, hr 5 le_rfl ▸ rfl⟩

end SmallLisp
