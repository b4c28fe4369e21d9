-- Items by their places. Calls of `cdr` within one another take items off the front of a list, and
-- `car` gives the first item that is left, as it stands; past the last item both give nil. All the
-- operators are resolved before the list is evaluated, and it is evaluated once: whatever that does to
-- the store, the calls around it add nothing.
import SmallLisp.Proofs.Bound
import SmallLisp.Proofs.Interchange
import SmallLisp.Proofs.Refusal
import SmallLisp.Proofs.Tracing

namespace SmallLisp

open Run

/-- The name stands for the operation in a scope: the machine's registry gives it the operation, and it
is bound to no closure. -/
structure Denotes (registries : Nat → Registry) (machine scope : Nat) (s : State) (name : String)
    (operation : Builtin) : Prop where
  lookup?_eq : (registries machine).lookup? name = some operation
  free : ∀ c, s.store.lookup? scope name ≠ some (.closure c)

/-- Calls of operations within one another, the outermost first, each with its brackets and the name of
its operation. -/
def nest (calls : List (Brackets × String)) (node : Value) : Value :=
  calls.foldr (fun call inner => .list call.1 [.symbol call.2, inner]) node

/-- Whatever is on the trail of the first state, the node has this value there, and leaves the second
state but for its trail. -/
def Yields (registries : Nat → Registry) (bound machine scope : Nat) (node : Value) (s : State)
    (v : Value) (t : State) : Prop :=
  ∀ trail, ∃ trail', evaluate registries bound machine node scope { s with trail } =
    .ok v { t with trail := trail' }

section

variable {registries : Nat → Registry} {bound machine scope : Nat} {s t : State}
  {name : String} {operation : Builtin} {node v : Value} {items : List Value}

theorem yields_of_evaluate (h : evaluate registries bound machine node scope s = .ok v t) :
    Yields registries bound machine scope node s v t := by
  intro trail
  obtain ⟨events, -, hrun⟩ :=
    Entry.run_withTrail registries bound (.evaluate machine node scope) s trail
  refine ⟨trail ++ events, hrun.trans ?_⟩
  show withTrail _ (evaluate registries bound machine node scope s) = _
  rw [h]
  rfl

/-! ## One call -/

/-- A call under such a name runs the operation in the state that it is made in, but for the trail. -/
theorem Denotes.evaluate_eq (h : Denotes registries machine scope s name operation) (bound : Nat)
    (b : Brackets) (tail : List Value) :
    ∃ trail, evaluate registries (bound + 1) machine (.list b (.symbol name :: tail)) scope s =
      operation.run (evaluate registries bound machine · scope) machine scope tail
        { s with trail } :=
  ⟨_, evaluate_invocation registries bound machine tail
    (.named (s := { s with trail := _ }) h.free h.lookup?_eq)⟩

/-- A call of an operation that makes something of the items of its one argument. -/
theorem Denotes.yields_take (h : Denotes registries machine scope s name operation)
    (take : List Value → Value)
    (hrun : ∀ eval n, operation.run eval machine scope [n] =
      (do return take (← Form.itemsOf operation (← eval n))))
    (hnode : Yields registries bound machine scope node s v t) (hv : v.items? = some items)
    (b : Brackets) :
    Yields registries (bound + 1) machine scope (.list b [.symbol name, node]) s (take items) t := by
  intro trail
  have hname : Denotes registries machine scope { s with trail } name operation :=
    ⟨h.lookup?_eq, h.free⟩
  obtain ⟨before, hcall⟩ := hname.evaluate_eq bound b [node]
  obtain ⟨after, hvalue⟩ := hnode before
  have htake := @take_eq (evaluate registries bound machine · scope) _ _ _ _ operation take hvalue
  rw [hv] at htake
  refine ⟨after, hcall.trans ?_⟩
  rw [hrun]
  exact htake

theorem Denotes.yields_car (h : Denotes registries machine scope s name .car)
    (hnode : Yields registries bound machine scope node s v t) (hv : v.items? = some items)
    (b : Brackets) :
    Yields registries (bound + 1) machine scope (.list b [.symbol name, node]) s
      (items.head?.getD .nil) t :=
  h.yields_take (fun items => items.head?.getD .nil) (fun _ _ => rfl) hnode hv b

theorem Denotes.yields_cdr (h : Denotes registries machine scope s name .cdr)
    (hnode : Yields registries bound machine scope node s v t) (hv : v.items? = some items)
    (b : Brackets) :
    Yields registries (bound + 1) machine scope (.list b [.symbol name, node]) s
      (Form.listOrNil items.tail) t :=
  h.yields_take (fun items => Form.listOrNil items.tail) (fun _ _ => rfl) hnode hv b

/-! ## Calls within one another -/

/-- What `cdr` gives is taken for a list again, also when nothing is left. -/
theorem items?_listOrNil (items : List Value) : (Form.listOrNil items).items? = some items := by
  cases items <;> rfl

theorem listOrNil_drop (items : List Value) (k : Nat) :
    Form.listOrNil (items.drop k) = if k < items.length then .ofList (items.drop k) else .nil := by
  split
  · rename_i hk
    rw [List.drop_eq_getElem_cons hk]
    rfl
  · rename_i hk
    rw [List.drop_eq_nil_of_le (by omega)]
    rfl

/-- As many calls of `cdr` leave the items from that place on. The value of the node itself may be in
other brackets; after one call it is a list that `cdr` has made, or nil. -/
theorem yields_nest {calls : List (Brackets × String)}
    (hcalls : ∀ call ∈ calls, Denotes registries machine scope s call.2 .cdr)
    (hnode : Yields registries bound machine scope node s v t) (hv : v.items? = some items) :
    ∃ rest, Yields registries (bound + calls.length) machine scope (nest calls node) s rest t ∧
      rest.items? = some (items.drop calls.length) ∧
      (0 < calls.length → rest = Form.listOrNil (items.drop calls.length)) := by
  -- from the inside out: each call takes one item more than the calls within it
  induction calls with
  | nil => exact ⟨v, hnode, hv, fun h => absurd h (Nat.lt_irrefl 0)⟩
  | cons call calls ih =>
    obtain ⟨hcall, hcalls⟩ := List.forall_mem_cons.mp hcalls
    obtain ⟨rest, hyields, hrest, -⟩ := ih hcalls
    have hnext := hcall.yields_cdr hyields hrest call.1
    rw [List.tail_drop] at hnext
    exact ⟨_, hnext, items?_listOrNil _, fun _ => rfl⟩

/-- Let a node have a list in either brackets for its value, or nil, which has no items. Then a call of
`car` around any number of calls of `cdr` gives the item at this place, as it stands, and nil if there is
none; and the calls of `cdr` alone, if there are any, give the items from this place on as a list in
square brackets, or nil if there are none. So it is under every bound that is large enough, and the state
after it is the one that the node by itself leaves, but for the trail. -/
theorem car_and_cdr_reach_every_item
    (hnode : evaluate registries bound machine node scope s = .ok v t) (hv : v.items? = some items)
    {calls : List (Brackets × String)}
    (hcalls : ∀ call ∈ calls, Denotes registries machine scope s call.2 .cdr) {first : String}
    (hfirst : Denotes registries machine scope s first .car) (b : Brackets) {larger : Nat}
    (hle : bound ≤ larger) :
    (∃ trail, evaluate registries (larger + calls.length + 1) machine
        (.list b [.symbol first, nest calls node]) scope s =
      .ok (items[calls.length]?.getD .nil) { t with trail }) ∧
      (0 < calls.length → ∃ trail, evaluate registries (larger + calls.length) machine
          (nest calls node) scope s =
        .ok (if calls.length < items.length then .ofList (items.drop calls.length) else .nil)
          { t with trail }) := by
  have hlarger := evaluate_of_le hle hnode
  obtain ⟨rest, hyields, hrest, hlist⟩ := yields_nest hcalls (yields_of_evaluate hlarger) hv
  constructor
  · have hitem := hfirst.yields_car hyields hrest b s.trail
    rwa [List.head?_drop] at hitem
  · intro hpos
    rw [← listOrNil_drop, ← hlist hpos]
    exact hyields s.trail

end

/-- The evaluation of this list binds `cdr` to a closure, but by then both calls of `cdr` have their
operator. The last item is an empty list, and it is found as it stands. -/
theorem an_item_of_a_list_that_binds_cdr :
    let s : State := ⟨Store.empty.add ⟨.empty, none⟩, 0, #[]⟩
    let registries : Nat → Registry := fun _ => .standard
    let items : List Value := [.number (.int 1), .null, .list .round []]
    let identity : Value := .ofList [.symbol "lambda", .ofList [.symbol "x"], .symbol "x"]
    let node : Value := .ofList [.ofList [.symbol "lambda", .nil,
      .ofList [.symbol "set", .symbol "cdr", identity],
      .ofList [.symbol "quote", .list .round items]]]
    let calls : List (Brackets × String) := [(.square, "cdr"), (.round, "cdr")]
    ∃ t c, evaluate registries 6 0 node 0 s = .ok (.list .round items) t ∧
      t.store.lookup? 0 "cdr" = some (.closure c) ∧
      (∃ trail, evaluate registries 9 0 (.ofList [.symbol "first", nest calls node]) 0 s =
        .ok (.list .round []) { t with trail }) ∧
      ∃ trail, evaluate registries 8 0 (nest calls node) 0 s =
        .ok (.ofList [.list .round []]) { t with trail } := by
  intro s registries items identity node calls
  have hnode : evaluate registries 6 0 node 0 s = .ok (.list .round items) _ := rfl
  have hfree : ∀ name c, s.store.lookup? 0 name ≠ some (.closure c) := fun _ _ => nofun
  have hcalls : ∀ call ∈ calls, Denotes registries 0 0 s call.2 .cdr := by
    intro call hcall
    simp only [calls, List.mem_cons, List.not_mem_nil, or_false] at hcall
    rcases hcall with rfl | rfl
    · exact ⟨rfl, hfree _⟩
    · exact ⟨rfl, hfree _⟩
  have hfirst : Denotes registries 0 0 s "first" .car := ⟨rfl, hfree _⟩
  obtain ⟨hitem, hrest⟩ :=
    car_and_cdr_reach_every_item hnode rfl hcalls hfirst .square (Nat.le_refl 6)
  exact ⟨_, _, hnode, rfl, hitem, hrest (Nat.zero_lt_succ 1)⟩

end SmallLisp
