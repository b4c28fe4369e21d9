-- More names for a registry. A program never asks whether a name is known, except to run the
-- operation of that name: so a machine whose registry knows more names evaluates a node like the
-- machine whose registry it extends, unless that one comes to a name that it does not know.
import SmallLisp.Log
import SmallLisp.Proofs.Bindings
import SmallLisp.Proofs.Parts
import SmallLisp.Proofs.Trails

namespace SmallLisp

open Run

/-! ## Registries -/

namespace Registry

/-- Every name of the first registry stands for the same operation in the second, whether as an
operation or as an alias. -/
def ExtendedBy (r r' : Registry) : Prop :=
  ∀ name operation, r.lookup? name = some operation → r'.lookup? name = some operation

variable {r r' : Registry}

/-- Either both registries find the same under a name, or the first one does not know it. -/
theorem ExtendedBy.lookup?_eq_or (h : r.ExtendedBy r') (name : String) :
    r.lookup? name = r'.lookup? name ∨ r.lookup? name = none := by
  cases hl : r.lookup? name with
  | some operation => exact .inl (h name operation hl).symm
  | none => exact .inr rfl

theorem ExtendedBy.lookup?_eq (h : r.ExtendedBy r') {name : String}
    (hknows : r'.knows name = r.knows name) : r.lookup? name = r'.lookup? name := by
  rcases h.lookup?_eq_or name with hl | hl
  · exact hl
  · rw [r'.knows_eq_isSome_lookup?, r.knows_eq_isSome_lookup?, hl] at hknows
    rw [hl]
    exact (Option.not_isSome_iff_eq_none.mp (by simp [hknows])).symm

end Registry

/-! ## Closures in other hands -/

/-- Values that differ at most in the machines of their closures. -/
def Likeness.handing (M : Nat → Nat → Prop) : Likeness where
  label l l' := l = l'
  tie c c' := c.scope = c'.scope ∧ M c.machine c'.machine

variable {M : Nat → Nat → Prop}

/-- A value stands for itself if its closures may stay where they are. -/
theorem Value.alike_handing_self {v : Value}
    (hv : ∀ c : Closure Value, (Value.closure c).IsPart v → M c.machine c.machine) :
    v.Alike (.handing M) v := by
  have honly : v.Alike (only (fun _ => True) fun c => M c.machine c.machine) v := by
    refine alike_only_self_iff.mpr fun x hx => ?_
    cases x with
    | number n => exact fun _ _ => trivial
    | closure c => exact ⟨trivial, hv c hx⟩
    | _ => trivial
  refine honly.mono ?_ ?_
  · rintro l _ ⟨rfl, -⟩
    rfl
  · rintro c _ ⟨rfl, hc⟩
    exact ⟨rfl, hc⟩

theorem Value.ClosureFree.alike_handing {v : Value} (hv : v.ClosureFree) :
    v.Alike (.handing M) v :=
  Value.alike_handing_self fun c hc => absurd hc (hv c)

/-- Two states with the same frames, in which closures belong to other machines; trails aside. -/
structure State.Handed (M : Nat → Nat → Prop) (s t : State) : Prop where
  supply : s.supply = t.supply
  size : s.store.size = t.store.size
  outer : ∀ n, t.store.outer n = s.store.outer n
  bindings : ∀ n, (s.store.bindings n).Alike (Value.Alike (.handing M)) (t.store.bindings n)

namespace State.Handed

variable {s t : State}

theorem lookup? (h : s.Handed M t) (scope : Nat) (name : String) :
    Option.Rel (Value.Alike (.handing M)) (s.store.lookup? scope name)
      (t.store.lookup? scope name) :=
  Store.lookup?_alike h.outer h.bindings scope name

theorem trail (h : s.Handed M t) (a b : Array Event) :
    Handed M { s with trail := a } { t with trail := b } :=
  ⟨h.supply, h.size, h.outer, h.bindings⟩

theorem reserve (h : s.Handed M t) (count : Nat) :
    Handed M { s with supply := s.supply + count } { t with supply := t.supply + count } :=
  ⟨congrArg (· + count) h.supply, h.size, h.outer, h.bindings⟩

theorem assign (h : s.Handed M t) (scope : Nat) (name : String) {v v' : Value}
    (hv : v.Alike (.handing M) v') :
    Handed M { s with store := s.store.assign scope name v }
      { t with store := t.store.assign scope name v' } where
  supply := h.supply
  size := by simpa [Store.assign] using h.size
  outer m := by simpa [Store.assign] using h.outer m
  bindings m := by
    unfold Store.assign
    rw [Store.root_congr h.outer, Store.bindings_define, Store.bindings_define, ← h.size]
    split
    · exact (h.bindings _).put name hv
    · exact h.bindings m

theorem add (h : s.Handed M t) {f f' : Frame} (ho : f.outer = f'.outer)
    (hf : f.bindings.Alike (Value.Alike (.handing M)) f'.bindings) :
    Handed M { s with store := s.store.add f } { t with store := t.store.add f' } where
  supply := h.supply
  size := by simpa using h.size
  outer m := by
    dsimp only
    rw [Store.outer_add, Store.outer_add, h.size, h.outer, ho]
  bindings m := by
    dsimp only
    rw [Store.bindings_add, Store.bindings_add, ← h.size]
    split
    · exact hf
    · exact h.bindings m

end State.Handed

/-! ## Two runs -/

/-- Two runs in the same scopes, by different machines. -/
def handing (M : Nat → Nat → Prop) (excused : Stop → Prop) : Correspondence Unit where
  like _ := .handing M
  scope _ e e' := e = e'
  node _ n e n' e' := n.Alike (.handing M) n' ∧ e = e'
  machine := M
  state _ := State.Handed M
  excused := excused

variable {excused : Stop → Prop} {registries registries' : Nat → Registry}

theorem nodes_handing_iff {e e' : Nat} {ns ns' : List Value} (he : e = e') :
    (handing M excused).nodes () e e' ns ns' ↔
      List.Forall₂ (Value.Alike (.handing M)) ns ns' :=
  ⟨fun h => h.imp fun _ _ hn => hn.1, fun h => h.imp fun _ _ hn => ⟨hn, he⟩⟩

/-- A name that only the second machine knows has to be excused. -/
theorem handing_lawful
    (hreg : ∀ m m', M m m' → ∀ name,
      (registries m).lookup? name = (registries' m').lookup? name ∨
        (registries m).lookup? name = none ∧
          excused (.fault (.undefinedOperation (.symbol name)))) :
    (handing M excused).Lawful registries registries' where
  label_mono _ _ _ h := h
  tie_mono _ _ _ h := h
  scope_mono _ _ _ h := h
  node_mono _ _ _ _ _ h := h
  oneToOne _ := by
    rintro l l' m m' rfl rfl
    rfl
  node_alike hn := hn.1
  node_items := by
    rintro _ b items items' e e' ⟨hn, he⟩
    cases hn with
    | list _ h => exact (nodes_handing_iff he).mpr h
  machine_of_tie h := h.2
  registry h name := hreg _ _ h name
  lookup := by
    rintro _ s t _ e name hs rfl
    exact hs.lookup? _ name
  evaluated _ _ _ s t hs := .ok le_rfl (hs.trail _ _) trivial
  dispatched _ name s t hs := .ok le_rfl (hs.trail _ _) trivial
  assign := by
    rintro _ e _ name v v' rfl hv s t hs
    exact .ok le_rfl ((hs.assign e name hv).trail _ _) trivial
  labels _ s t hs := .ok le_rfl (hs.reserve 2) ⟨hs.supply, congrArg (· + 1) hs.supply⟩
  makeClosure := by
    rintro _ e _ m m' params body body' rfl hm hb s t hs
    refine .ok le_rfl ((hs.reserve 1).trail _ _) ?_
    exact .closure hs.supply rfl ((nodes_handing_iff rfl).mp hb) ⟨rfl, hm⟩
  enter := by
    rintro _ c c' vs vs' hc _ hvs s t hs
    cases hc with
    | closure _ params body tie =>
      have hframe : (c.frame vs).bindings.Alike (Value.Alike (.handing M))
          (c'.frame vs').bindings := by
        unfold Closure.frame
        rw [params]
        exact Table.alike_ofList _ hvs
      have hadd := hs.add (congrArg some tie.1) hframe
      exact .ok le_rfl (hadd.trail _ _) ⟨hs.size, (nodes_handing_iff hs.size).mpr body⟩

/-- Events that show alike keep two logs alike. -/
theorem logOf_push {traces traces' : Nat → Bool} {a b : Array Event} {e e' : Event}
    (h : logOf traces a = logOf traces' b) (he : e.record? traces = e'.record? traces') :
    logOf traces (a.push e) = logOf traces' (b.push e') := by
  unfold logOf at h ⊢
  rw [Array.toList_push, Array.toList_push, List.filterMap_append, List.filterMap_append, h,
    List.filterMap_cons, List.filterMap_cons, he]
  rfl

/-- Machines that trace alike put alike records on the log. -/
theorem tracks_log {traces traces' : Nat → Bool} (htraces : ∀ m m', M m m' → traces m = traces' m') :
    (handing M excused).Tracks fun _ a b => logOf traces a = logOf traces' b where
  mono _ _ _ h := h
  evaluated := by
    rintro _ m m' e _ n n' a b hm rfl hn h
    refine logOf_push h ?_
    simp only [Event.record?]
    rw [htraces m m' hm, hn.1.text_eq]
  dispatched _ h := logOf_push h rfl
  assigned _ _ _ h := logOf_push h rfl
  closureMade hc h := by
    refine logOf_push h ?_
    cases hc with
    | closure _ params body tie =>
      simp only [Event.record?, Closure.shapeText]
      rw [params, body.length_eq, tie.1]
  closureCalled hc hvs h := by
    refine logOf_push h ?_
    have htexts := map_eq_of_forall₂ hvs fun v _ _ hvv => Value.Alike.text_eq hvv
    cases hc with
    | closure _ params body _ =>
      simp only [Event.record?, Closure.text, listText]
      rw [params, htexts, map_eq_of_forall₂ body fun v _ _ hvv => Value.Alike.text_eq hvv]

/-! ## Extended registries -/

/-- Two ends that differ at most in the machines of closures. -/
structure HandedEnds (M : Nat → Nat → Prop) (traces traces' : Nat → Bool)
    (r r' : EStateM.Result Stop State Value) : Prop where
  /-- Values that stand for each other, or faults of one kind with one message. -/
  ends : EndsAlike (Value.Alike (.handing M)) r r'
  /-- An operator that names no operation is carried by both faults. -/
  carried : ∀ v u, r = .error (.fault (.undefinedOperation v)) u →
    ∃ v' u', r' = .error (.fault (.undefinedOperation v')) u' ∧ v.Alike (.handing M) v'
  state : (endState r).Handed M (endState r')
  log : logOf traces (endState r).trail = logOf traces' (endState r').trail

theorem handedEnds_of_ends {traces traces' : Nat → Bool}
    {r r' : EStateM.Result Stop State Value}
    (hexcused : ∀ stop u, r = .error stop u → ¬ excused stop)
    (hend : (((handing M excused).tracking fun _ a b => logOf traces a = logOf traces' b).bond
      registries).Ends (handing M excused).value () r r') : HandedEnds M traces traces' r r' := by
  cases hend with
  | ok _ states values =>
    refine ⟨.value values, fun v u hu => ?_, states.1, states.2⟩
    cases hu
  | error _ states stops =>
    refine ⟨stops.ends, fun v u hu => ?_, states.1, states.2⟩
    cases hu
    cases stops with
    | fault h => cases h with | undefinedOperation hv => exact ⟨_, _, rfl, hv⟩
  | excused h => exact absurd h (hexcused _ _ rfl)

/-- To extend registries is conservative. Let closures pass into the hands of machines that trace
alike, and whose registries know the same names for the same operations, and maybe more. A node is
then evaluated to the same value, or to a fault of the same kind with the same message, with the
same bindings and the same log, unless the evaluation came to a name that its machine does not know;
and then as well, with the same name to show, if no registry knows more names. -/
theorem extended_registries_evaluate_alike
    (hreg : ∀ m m', M m m' → (registries m).ExtendedBy (registries' m'))
    {traces traces' : Nat → Bool} (htraces : ∀ m m', M m m' → traces m = traces' m')
    {s t : State} (hst : s.Handed M t) (hlog : logOf traces s.trail = logOf traces' t.trail)
    {m m' : Nat} (hm : M m m') {n n' : Value} (hn : n.Alike (.handing M) n') (scope bound : Nat) :
    let r := evaluate registries bound m n scope s
    let r' := evaluate registries' bound m' n' scope t
    (∀ m m', M m m' → ∀ name, (registries' m').knows name = (registries m).knows name) ∨
        (∀ name u, r ≠ .error (.fault (.undefinedOperation (.symbol name))) u) →
      HandedEnds M traces traces' r r' := by
  intro r r' hfree
  -- a stop is excused only where the second registry may know more names than the first
  obtain ⟨excused, hlookup, hexcused⟩ : ∃ excused : Stop → Prop,
      (∀ m m', M m m' → ∀ name, (registries m).lookup? name = (registries' m').lookup? name ∨
        (registries m).lookup? name = none ∧
          excused (.fault (.undefinedOperation (.symbol name)))) ∧
        ∀ stop u, r = .error stop u → ¬ excused stop := by
    rcases hfree with hknows | hfree
    · exact ⟨fun _ => False,
        fun m m' hm name => .inl ((hreg m m' hm).lookup?_eq (hknows m m' hm name)),
        fun _ _ _ => id⟩
    · refine ⟨fun stop => ∃ name, stop = .fault (.undefinedOperation (.symbol name)),
        fun m m' hm name => ((hreg m m' hm).lookup?_eq_or name).imp id fun hl => ⟨hl, name, rfl⟩,
        ?_⟩
      rintro _ u hu ⟨name, rfl⟩
      exact hfree name u hu
  have hlawful := (handing_lawful hlookup).tracking (tracks_log htraces)
  exact handedEnds_of_ends hexcused
    (hlawful.evaluate bound () m m' scope scope hm rfl () le_rfl n n' ⟨hn, rfl⟩ s t ⟨hst, hlog⟩)

/-- A closure that is handed to a machine with more names, one of them an operation there and an
alias before. -/
theorem a_closure_handed_to_a_machine_with_more_names :
    let registry : Registry :=
      ⟨⟨[("car", .car), ("quote", .quote)]⟩, ⟨[("first", "car")]⟩, by decide⟩
    let larger : Registry :=
      ⟨⟨[("first", .car), ("car", .car), ("quote", .quote), ("+", .add)]⟩, ⟨[("'", "quote")]⟩,
        by decide⟩
    let registries : Nat → Registry := fun m => if m = 0 then registry else larger
    let M : Nat → Nat → Prop := fun m m' => m = 0 ∧ m' = 1
    let traces : Nat → Bool := fun _ => true
    let head : Nat → Value := fun machine =>
      .closure ⟨0, ["x"], [.ofList [.symbol "first", .symbol "x"]], 0, machine⟩
    let start : Nat → State := fun machine =>
      ⟨(Store.empty.add ⟨.empty, none⟩).assign 0 "head" (head machine), 1, #[]⟩
    let node : Value := .ofList [.symbol "head", .ofList [.symbol "quote", .ofList [.symbol "a"]]]
    let r := evaluate registries 3 0 node 0 (start 0)
    let r' := evaluate registries 3 1 node 0 (start 1)
    (∀ m m', M m m' → (registries m).ExtendedBy (registries m')) ∧ (start 0).Handed M (start 1) ∧
      node.Alike (.handing M) node ∧ endValue? r = some (.symbol "a") ∧
      HandedEnds M traces traces r r' := by
  intro registry larger registries M traces head start node r r'
  have hlarger : registry.ExtendedBy larger := by
    intro name operation h
    by_cases hfirst : name = "first"
    · subst hfirst
      exact h
    by_cases hcar : name = "car"
    · subst hcar
      exact h
    by_cases hquote : name = "quote"
    · subst hquote
      exact h
    · simp [registry, Registry.lookup?, Table.get?, Table.find?, Ne.symm hfirst, Ne.symm hcar,
        Ne.symm hquote] at h
  have hreg : ∀ m m', M m m' → (registries m).ExtendedBy (registries m') := by
    rintro _ _ ⟨rfl, rfl⟩
    exact hlarger
  have hempty : State.Handed M ⟨.empty, 1, #[]⟩ ⟨.empty, 1, #[]⟩ := by
    refine ⟨rfl, rfl, fun _ => rfl, fun n => ?_⟩
    rw [Store.bindings_empty]
    exact .nil
  have hst : (start 0).Handed M (start 1) :=
    (hempty.add (f := ⟨.empty, none⟩) rfl .nil).assign 0 "head"
      (.closure rfl rfl (.cons (Value.ClosureFree.alike_handing (by simp)) .nil) ⟨rfl, rfl, rfl⟩)
  have hnode : node.Alike (.handing M) node := Value.ClosureFree.alike_handing (by simp [node])
  have htraces : ∀ m m', M m m' → traces m = traces m' := fun _ _ _ => rfl
  have hvalue : endValue? r = some (.symbol "a") := rfl
  have hends := extended_registries_evaluate_alike hreg htraces hst rfl ⟨rfl, rfl⟩ hnode 0 3
    (.inr fun name u hu => by
      rw [show r = _ from hu] at hvalue
      cases hvalue)
  exact ⟨hreg, hst, hnode, hvalue, hends⟩

end SmallLisp
