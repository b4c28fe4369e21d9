-- What holds of every session that a host can attain, whatever its requests were and however they
-- ended. Frames lie in older ones, each name stands once in a frame, closures have a scope and a
-- machine that exist, and only symbols become names.
import SmallLisp.Proofs.Judgement
import SmallLisp.Proofs.Reachable

namespace SmallLisp

open Run

/-! ## The machines of closures -/

namespace Value

/-- All closures in the value belong to machines with a number below `k`. -/
def OwnedBelow (k : Nat) (v : Value) : Prop :=
  ∀ c : Closure Value, (closure c).IsPart v → c.machine < k

variable {k : Nat}

theorem OwnedBelow.mono {k' : Nat} {v : Value} (h : v.OwnedBelow k) (hk : k ≤ k') :
    v.OwnedBelow k' :=
  fun c hc => Nat.lt_of_lt_of_le (h c hc) hk

theorem ClosureFree.ownedBelow {v : Value} (h : v.ClosureFree) : v.OwnedBelow k :=
  fun c hc => absurd hc (h c)

theorem ownedBelow_list {b : Brackets} {items : List Value} :
    (list b items).OwnedBelow k ↔ ∀ v ∈ items, v.OwnedBelow k := by
  constructor
  · exact fun h v hv c hc => h c (.item hv hc)
  · intro h c hc
    cases hc with
    | item hv hc => exact h _ hv c hc

theorem ownedBelow_closure {c : Closure Value} :
    (closure c).OwnedBelow k ↔ c.machine < k ∧ ∀ b ∈ c.body, b.OwnedBelow k := by
  constructor
  · exact fun h => ⟨h c .self, fun b hb d hd => h d (.body hb hd)⟩
  · rintro ⟨hm, hb⟩ d hd
    cases hd with
    | self => exact hm
    | body hv hd => exact hb _ hv d hd

end Value

/-- The end of a run after which all closures that are bound belong to machines below `k`. A value
has the property, a fault is one of those in `F`. -/
structure Owning {α : Type} (k : Nat) (F : Fault → Prop) (P : α → Prop)
    (r : EStateM.Result Stop State α) : Prop where
  binds : (endState r).store.Binds (Value.OwnedBelow k)
  value : ∀ a, endValue? r = some a → P a
  fault : ∀ cause t, r = .error (.fault cause) t → F cause

/-- Runs by themselves, of machines below `k`. -/
def owning (k : Nat) (F : Fault → Prop) : Judgement where
  value := Value.OwnedBelow k
  machine := (· < k)
  holds _ P m _ := ∀ s, s.store.Binds (Value.OwnedBelow k) → Owning k F P (m s)

section

variable {α β : Type} {k : Nat} {F : Fault → Prop} {P : α → Prop} {Q : β → Prop} {b c d : Nat}
  {m m' : Run α}

theorem owning_ret {a : α} (h : P a) : (owning k F).holds 0 P (pure a) m' := by
  refine fun s hs => ⟨hs, fun _ ha => ?_, fun _ _ he => ?_⟩
  · cases ha
    exact h
  · cases he

theorem owning_fail {cause : Fault} (h : F cause) : (owning k F).holds 0 P (fail cause) m' := by
  refine fun s hs => ⟨hs, fun _ ha => ?_, fun _ _ he => ?_⟩
  · cases ha
  · cases he
    exact h

theorem owning_bind {f g : α → Run β} (hm : (owning k F).holds c P m m')
    (hf : ∀ a, P a → (owning k F).holds d Q (f a) (g a)) :
    (owning k F).holds b Q (m >>= f) (m' >>= g) := by
  intro s hs
  have first := hm s hs
  cases hr : m s with
  | ok a t =>
    rw [hr] at first
    rw [bind_of_ok hr]
    exact hf a (first.value a rfl) t first.binds
  | error stop t =>
    rw [hr] at first
    rw [bind_of_error hr]
    refine ⟨first.binds, nofun, fun cause u hu => first.fault cause u ?_⟩
    cases hu
    rfl

/-- A step that always ends with a value. -/
theorem owning_step {a : State → α} {next : State → State} (hm : ∀ s, m s = .ok (a s) (next s))
    (hP : ∀ s, s.store.Binds (Value.OwnedBelow k) → P (a s))
    (hnext : ∀ s, s.store.Binds (Value.OwnedBelow k) → (next s).store.Binds (Value.OwnedBelow k)) :
    (owning k F).holds 0 P m m' := by
  intro s hs
  rw [hm s]
  refine ⟨hnext s hs, fun _ ha => ?_, fun _ _ he => ?_⟩
  · cases ha
    exact hP s hs
  · cases he

theorem owning_record (e : Event) :
    (owning k F).holds 0 (fun _ => True) (record e) (record e) :=
  owning_step (fun _ => rfl) (fun _ _ => trivial) fun _ hs => hs

theorem owning_composes : (owning k F).Composes where
  give := owning_ret
  sequence := owning_bind
  loosen h _ := h

/-- Whatever a run does by itself, closures keep to machines that exist; and only a request of the
host can fail to define a name. -/
theorem owning_lawful (hF : ∀ cause : Fault, (∀ name, cause ≠ .undefinable name) → F cause)
    (registries : Nat → Registry) :
    (owning k F).Lawful registries announceAll announceAll where
  toComposes := owning_composes
  unpaid h := h
  nil c hc := by cases hc
  bool _ c hc := by cases hc
  zero c hc := by cases hc
  symbol _ c hc := by cases hc
  list_iff := Value.ownedBelow_list
  closure hc := Value.ownedBelow_closure.mp hc
  reported hf := owning_fail (hF _ (by rintro name rfl; cases hf))
  undecided _ _ _ := owning_fail (hF _ nofun)
  undefinedOperation _ _ _ := owning_fail (hF _ nofun)
  addTo _ _ := owning_composes.addTo (fun sum c hc => by cases hc)
    (owning_step (fun _ => rfl) (fun _ _ => trivial) fun _ hs => hs)
    (fun _ _ _ => owning_fail (hF _ nofun)) _ _
  announced _ _ _ := owning_record _
  read _ scope name := by
    refine owning_step (fun _ => rfl) (fun s hs => ?_) fun _ hs => hs
    cases hl : s.store.lookup? scope name with
    | none => exact fun c hc => by cases hc
    | some v => exact hs.lookup? hl
  callee scope name :=
    owning_step (fun _ => rfl) (fun _ hs _ hc => hs.lookup? (calledBy_eq_some_iff.mp hc))
      fun _ hs => hs
  assign scope name _ hv :=
    owning_step (fun _ => rfl) (fun _ _ => trivial) fun _ hs => hs.define _ name hv
  makeClosure _ _ _ hm hb :=
    owning_step (fun _ => rfl) (fun _ _ => Value.ownedBelow_closure.mpr ⟨hm, hb⟩) fun _ hs => hs
  enter _ hvs :=
    owning_step (fun _ => rfl) (fun _ _ => trivial)
      fun _ hs => hs.add fun _ he => hvs _ (Closure.mem_frame he)

end

/-! ## Names are symbols -/

/-- The items of a list; anything else has none. -/
def Value.items : Value → List Value
  | list _ items => items
  | _ => []

namespace Form

theorem symbolNames_eq {ns : List Value} {names : List String} (h : symbolNames ns = .ok names) :
    ns = names.map .symbol := by
  induction ns generalizing names with
  | nil =>
    cases h
    rfl
  | cons n ns ih =>
    cases n with
    | symbol name =>
      unfold symbolNames at h
      cases hns : symbolNames ns with
      | ok rest =>
        rw [hns] at h
        cases h
        rw [ih hns, List.map_cons]
      | error cause =>
        rw [hns] at h
        cases h
    | _ => cases h

theorem parameters_eq {n : Value} {names : List String} (h : parameters n = .ok names) :
    n.items = names.map .symbol := by
  cases n with
  | list b items => exact symbolNames_eq h
  | nil | null =>
    cases h
    rfl
  | _ => cases h

/-- The parameters of a closure that `lambda` makes are the symbols that its first node lists. -/
theorem lambda_params {machine scope : Nat} {params : Value} {body : List Value} {s t : State}
    {c : Closure Value} (h : lambda machine scope (params :: body) s = .ok (.closure c) t) :
    params.items = c.params.map .symbol := by
  have hlambda : lambda machine scope (params :: body) = (do
    return .closure (← makeClosure (← ofExcept (parameters params)) body scope machine)) := rfl
  rw [hlambda] at h
  cases hp : parameters params with
  | ok names =>
    rw [hp] at h
    cases h
    exact parameters_eq hp
  | error cause =>
    rw [hp] at h
    cases h

end Form

/-! ## Requests with parts that exist -/

namespace Request

/-- The values that a request brings into a session. -/
def values : Request → List Value
  | eval _ program => [program]
  | evalAll _ programs => programs
  | evalIn _ node _ => [node]
  | apply _ head tail _ => head :: tail
  | form _ _ tail _ => tail
  | closure _ _ body _ => body
  | invoke c arguments _ => .closure c :: arguments
  | extend c values => .closure c :: values
  | define _ _ value | assign _ _ value => [value]
  | interpreter .. | evaluator .. | newFrame _ => []

/-- The values of a request that are to become names. -/
def names : Request → List Value
  | closure _ params _ _ => params
  | define _ name _ | assign _ name _ => [name]
  | _ => []

end Request

namespace Session

/-- The parts of a request exist in the session, and so do the machines of closures in it. -/
def Allows (s : Session) (request : Request) : Prop :=
  s.Admits request ∧ ∀ v ∈ request.values, v.OwnedBelow s.machines.size

/-- The sessions that a host can attain by requests with parts that exist. -/
inductive Attainable : Session → Prop
  | empty : Attainable .empty
  | draw {s : Session} (h : Attainable s) (count : Nat) : Attainable (s.draw count)
  | forgetTrail {s : Session} (h : Attainable s) : Attainable s.forgetTrail
  | perform {s : Session} (h : Attainable s) (bound : Nat) {request : Request}
      (hr : s.Allows request) : Attainable (s.perform bound request).2

theorem Attainable.reachable {s : Session} (h : s.Attainable) : s.Reachable := by
  induction h with
  | empty => exact .empty
  | draw _ count ih => exact .draw ih count
  | forgetTrail _ ih => exact .forgetTrail ih
  | perform _ bound hr ih => exact .perform ih bound hr.1

/-- The parameters of a closure that a host builds are symbols, or one of them is to blame. -/
theorem parameterTexts_cases (index : Nat) (params : List Value) :
    (∃ names, parameterTexts index params = .ok names ∧ params = names.map .symbol) ∨
      ∃ i v, parameterTexts index params = .error (.parameterNotText i v) := by
  induction params generalizing index with
  | nil => exact .inl ⟨[], rfl, rfl⟩
  | cons param params ih =>
    cases param with
    | symbol name =>
      unfold parameterTexts
      rcases ih (index + 1) with ⟨names, hnames, rfl⟩ | ⟨i, v, hfault⟩
      · rw [hnames]
        exact .inl ⟨name :: names, rfl, rfl⟩
      · rw [hfault]
        exact .inr ⟨i, v, rfl⟩
    | _ => exact .inr ⟨index, _, rfl⟩

section

variable {s : Session} {F : Fault → Prop}

/-- An answer whose closures belong to machines of the session. -/
def Owned (s : Session) (answer : Answer ⊕ Machine) : Prop :=
  ∀ v, answer = .inl (.value v) → v.OwnedBelow s.machines.size

theorem owned_value {v : Value} (h : v.OwnedBelow s.machines.size) :
    s.Owned (.inl (.value v)) := by
  intro w hw
  cases hw
  exact h

theorem owning_value {m : Run Value}
    (hm : (owning s.machines.size F).holds 0 (Value.OwnedBelow s.machines.size) m m) :
    (owning s.machines.size F).holds 0 s.Owned (do return .inl (.value (← m)))
      (do return .inl (.value (← m))) :=
  owning_bind hm fun _ hv => owning_ret (owned_value hv)

variable (hF : ∀ cause : Fault, (∀ name, cause ≠ .undefinable name) → F cause)

include hF

theorem owning_evaluate (bound : Nat) :
    (owning s.machines.size F).Evaluations (evaluate s.registries bound)
      (evaluate s.registries bound) := by
  have hlawful := owning_lawful (k := s.machines.size) hF s.registries
  have hexhaust : (owning s.machines.size F).holds (α := Value) 0
      (Value.OwnedBelow s.machines.size) exhaust exhaust :=
    fun t ht => ⟨ht, nofun, fun _ _ he => by cases he⟩
  rw [evaluate_eq_announcing]
  exact hlawful.evaluate hexhaust bound

theorem owning_runProgram (bound : Nat) :
    (owning s.machines.size F).Evaluations (fun machine n _ => s.runProgram bound machine n)
      (fun machine n _ => s.runProgram bound machine n) := by
  intro machine hm scope n hn
  have hev := owning_evaluate hF bound machine hm (s.globals machine) n hn
  show (owning s.machines.size F).holds 0 _ (s.runProgram bound machine n)
    (s.runProgram bound machine n)
  unfold runProgram
  split
  · exact owning_bind (owning_record _) fun _ _ => hev
  · exact hev

theorem owning_buildRegistry (tables : Option (Table Builtin × Table String)) :
    (owning s.machines.size F).holds 0 (fun _ => True) (buildRegistry tables)
      (buildRegistry tables) := by
  have hrecord : ∀ registry : Registry, (owning s.machines.size F).holds 0 (fun _ => True)
      (do record (.registryBuilt registry); return registry)
      (do record (.registryBuilt registry); return registry) := fun registry =>
    owning_bind (owning_record _) fun _ _ => owning_ret trivial
  unfold buildRegistry
  cases tables with
  | none => exact hrecord _
  | some tables =>
    dsimp only
    cases hb : Registry.build tables.1 tables.2 with
    | ok registry => exact hrecord registry
    | error cause =>
      have hcause : ∀ name, cause ≠ .undefinable name := by
        unfold Registry.build at hb
        split at hb <;> cases hb
        nofun
      exact owning_bind (P := fun _ => True) (owning_fail (hF cause hcause)) fun _ _ => hrecord _

/-- A request with parts that exist leaves closures to machines that exist, and gives such ones. It
fails to define a name only if it is itself the definition of something else. -/
theorem owning_run (bound : Nat) {request : Request} (hr : s.Allows request)
    (hdefine : ∀ scope name value, request = .define scope name value → name.isSymbol = false →
      F (.undefinable name)) :
    (owning s.machines.size F).holds 0 s.Owned (s.run bound request) (s.run bound request) := by
  have hlawful := owning_lawful (k := s.machines.size) hF s.registries
  have hev := owning_evaluate (s := s) hF bound
  have hprogram := owning_runProgram (s := s) hF bound
  obtain ⟨hadmits, hvalues⟩ := hr
  cases request with
  | interpreter traces setting =>
    exact owning_step (fun _ => rfl) (fun _ _ => nofun) fun _ ht =>
      ht.add fun _ he => by cases he
  | evaluator globals traces tables =>
    refine hlawful.free (P := fun _ => True) ?_ fun _ _ => owning_ret nofun
    refine hlawful.free (owning_buildRegistry hF tables) fun registry _ => ?_
    cases globals with
    | some frame => exact owning_ret trivial
    | none =>
      exact owning_step (fun _ => rfl) (fun _ _ => trivial) fun _ ht =>
        ht.add fun _ he => by cases he
  | eval machine program =>
    exact owning_value (hprogram machine hadmits.1 0 program (hvalues _ (by simp [Request.values])))
  | evalAll machine programs =>
    refine owning_value (hlawful.evaluateInTurn hprogram hadmits.1 hlawful.nil hvalues 0)
  | evalIn machine node scope =>
    exact owning_value (hev machine hadmits.1 scope node (hvalues _ (by simp [Request.values])))
  | apply machine head tail scope =>
    obtain ⟨hhead, htail⟩ := List.forall_mem_cons.mp hvalues
    exact owning_value (hlawful.applyWith hev hadmits.1 hhead htail scope)
  | form machine name tail scope =>
    unfold run
    dsimp only
    cases (s.registries machine).lookup? name with
    | some operation =>
      exact owning_value (hlawful.runOperation hev hadmits.1 hvalues scope operation)
    | none => exact owning_fail (hF _ nofun)
  | closure machine params body scope =>
    refine hlawful.free (P := fun _ => True) ?_ fun names _ =>
      hlawful.free (hlawful.makeClosure names scope hadmits.1 hvalues) fun c hc =>
        owning_ret (owned_value hc)
    rcases parameterTexts_cases 0 params with ⟨names, hnames, -⟩ | ⟨index, v, hfault⟩
    · rw [hnames]
      exact owning_ret trivial
    · rw [hfault]
      exact owning_fail (hF _ nofun)
  | invoke c arguments caller =>
    obtain ⟨hc, harguments⟩ := List.forall_mem_cons.mp hvalues
    exact owning_value (hlawful.invoke hev hc harguments caller)
  | extend c values =>
    obtain ⟨-, hv⟩ := List.forall_mem_cons.mp hvalues
    exact owning_step (fun _ => rfl) (fun _ _ => nofun) fun _ ht =>
      ht.add fun _ he => hv _ (Closure.mem_frame he)
  | newFrame outer =>
    exact owning_step (fun _ => rfl) (fun _ _ => nofun) fun _ ht =>
      ht.add fun _ he => by cases he
  | define scope name value =>
    cases name with
    | symbol name =>
      exact owning_step (fun _ => rfl) (fun _ _ => nofun) fun _ ht =>
        ht.define scope name (hvalues _ (by simp [Request.values]))
    | _ => exact owning_fail (hdefine scope _ value rfl rfl)
  | assign scope name value =>
    cases name with
    | symbol name =>
      exact owning_step (fun _ => rfl) (fun _ _ => nofun) fun _ ht =>
        ht.define _ name (hvalues _ (by simp [Request.values]))
    | _ => exact owning_fail (hF _ nofun)

end

/-! ## What a request leaves and gives -/

section

variable {s : Session} {bound : Nat} {request : Request}

theorem perform_state : (s.perform bound request).2.state = endState (s.run bound request s.state) := by
  unfold perform
  rcases s.run bound request s.state with ⟨_ | _, _⟩ | ⟨_, _⟩ <;> rfl

theorem size_le_perform : s.machines.size ≤ (s.perform bound request).2.machines.size := by
  unfold perform
  rcases s.run bound request s.state with ⟨_ | machine, _⟩ | ⟨_, _⟩
  · exact Nat.le_refl _
  · simp
  · exact Nat.le_refl _

theorem ok_of_perform {answer : Answer} (h : (s.perform bound request).1 = .ok answer) :
    ∃ a t, s.run bound request s.state = .ok a t ∧
      ∀ v, answer = .value v → a = .inl (.value v) := by
  unfold perform at h
  generalize s.run bound request s.state = r at h
  rcases r with ⟨given | machine, t⟩ | ⟨_, _⟩
  · cases h
    exact ⟨_, t, rfl, fun v hv => by rw [hv]⟩
  · cases h
    exact ⟨_, t, rfl, nofun⟩
  · cases h

theorem error_of_perform {stop : Stop} (h : (s.perform bound request).1 = .error stop) :
    ∃ t, s.run bound request s.state = .error stop t := by
  unfold perform at h
  generalize s.run bound request s.state = r at h
  rcases r with ⟨_ | _, _⟩ | ⟨_, t⟩
  · cases h
  · cases h
  · cases h
    exact ⟨t, rfl⟩

/-- Closures in bindings belong to machines that exist. -/
theorem Attainable.binds (h : s.Attainable) :
    s.store.Binds (Value.OwnedBelow s.machines.size) := by
  induction h with
  | empty => exact .empty
  | draw _ _ ih | forgetTrail _ ih => exact ih
  | perform _ bound hr ih =>
    have hend := owning_run (F := fun _ => True) (fun _ _ => trivial) bound hr
      (fun _ _ _ _ _ => trivial) _ ih
    unfold Session.store
    rw [perform_state]
    exact fun f name v hv => (hend.binds f name v hv).mono size_le_perform

end

/-! ## Well-made sessions -/

/-- The scopes and the machines of all closures in the value exist. -/
def Owns (s : Session) (v : Value) : Prop :=
  ∀ c : Closure Value, (Value.closure c).IsPart v →
    c.scope < s.store.size ∧ c.machine < s.machines.size

/-- The store of a session is well made. -/
structure WellMade (s : Session) : Prop where
  /-- The chain of a frame goes all the way to a frame that lies in none. -/
  walk : ∀ f, s.store.Walk f (s.store.chain f)
  /-- On the way no frame comes twice. -/
  nodup : ∀ f, (s.store.chain f).Nodup
  root : ∀ f, s.store.outer (s.store.root f) = none
  /-- What is printed shows the frames on the way. -/
  prints : ∀ f rest, s.store.Walk f (f :: rest) → s.store.PrintsWalk f rest
  /-- No frame binds a name twice. -/
  distinct : ∀ f, (s.store.bindings f).Distinct
  /-- The scopes and the machines of closures in bindings exist. -/
  closures : s.store.Binds s.Owns

theorem Attainable.wellMade {s : Session} (h : s.Attainable) : s.WellMade := by
  have hsound := h.reachable.sound.state
  exact
    { walk := hsound.wellFormed.walk_chain
      nodup := hsound.wellFormed.nodup_chain
      root := hsound.wellFormed.outer_root
      prints := fun _ _ => hsound.wellFormed.printsWalk
      distinct := hsound.wellFormed.distinct
      closures := fun f name v hv c hc =>
        ⟨(hsound.holds f name v hv _ hc).2, h.binds f name v hv c hc⟩ }

/-- How a request ends in a well-made session. -/
structure EndsWellMade (s : Session) (bound : Nat) (request : Request) : Prop where
  wellMade : (s.perform bound request).2.WellMade
  /-- The scopes and the machines of closures in the answer exist. -/
  answer : ∀ v, (s.perform bound request).1 = .ok (.value v) → (s.perform bound request).2.Owns v
  /-- Only symbols become names. -/
  names : ∀ a, (s.perform bound request).1 = .ok a → ∃ names : List String,
    request.names = names.map .symbol
  /-- The parameters of a closure that is built are the symbols that were given for them. -/
  params : ∀ machine params body scope c, request = .closure machine params body scope →
    (s.perform bound request).1 = .ok (.value (.closure c)) → params = c.params.map .symbol
  /-- No other request fails to define a name but a definition of something that is no symbol. -/
  undefinable : ∀ v, (s.perform bound request).1 = .error (.fault (.undefinable v)) →
    v.isSymbol = false ∧ ∃ scope value, request = .define scope v value

/-- A request that ends with an answer was given symbols for names. -/
theorem names_of_run {s : Session} {bound : Nat} {request : Request} {t u : State}
    {a : Answer ⊕ Machine} (h : s.run bound request t = .ok a u) :
    ∃ names : List String, request.names = names.map .symbol := by
  cases request with
  | closure machine params body scope =>
    rcases parameterTexts_cases 0 params with ⟨names, -, hnames⟩ | ⟨index, v, hfault⟩
    · exact ⟨names, hnames⟩
    · unfold run at h
      dsimp only at h
      rw [hfault] at h
      cases h
  | define scope name value | assign scope name value =>
    cases name with
    | symbol name => exact ⟨[name], rfl⟩
    | _ => cases h
  | _ => exact ⟨[], rfl⟩

theorem params_of_run {s : Session} {bound machine scope : Nat} {params body : List Value}
    {c : Closure Value} {t u : State}
    (h : s.run bound (.closure machine params body scope) t = .ok (.inl (.value (.closure c))) u) :
    params = c.params.map .symbol := by
  unfold run at h
  dsimp only at h
  rcases parameterTexts_cases 0 params with ⟨names, htexts, hnames⟩ | ⟨index, v, hfault⟩
  · rw [htexts] at h
    cases h
    exact hnames
  · rw [hfault] at h
    cases h

theorem Attainable.endsWellMade {s : Session} (h : s.Attainable) (bound : Nat) {request : Request}
    (hr : s.Allows request) : s.EndsWellMade bound request := by
  -- the faults that the request may end with
  let F : Fault → Prop := fun cause => ∀ v, cause = .undefinable v →
    v.isSymbol = false ∧ ∃ scope value, request = .define scope v value
  have hend : Owning s.machines.size F s.Owned (s.run bound request s.state) :=
    owning_run (F := F) (fun cause hcause v hv => absurd hv (hcause v)) bound hr
      (fun scope name value hrequest hname v hv => by
        cases hv
        exact ⟨hname, scope, value, hrequest⟩) _ h.binds
  have hsound := soundEnd_run h.reachable.sound bound hr.1
  refine
    { wellMade := (h.perform bound hr).wellMade
      answer := fun v hv c hc => ?_
      names := fun a ha => ?_
      params := fun machine params body scope c hrequest hc => ?_
      undefinable := fun v hv => ?_ }
  · obtain ⟨a, t, hrun, ha⟩ := ok_of_perform hv
    obtain rfl := ha v rfl
    have hvalue : endValue? (s.run bound request s.state) = some (.inl (.value v)) := by
      rw [hrun]
      rfl
    unfold Session.store
    rw [perform_state]
    exact ⟨(hsound.2.2 _ hvalue _ hc).2,
      Nat.lt_of_lt_of_le (hend.value _ hvalue v rfl c hc) size_le_perform⟩
  · obtain ⟨_, _, hrun, -⟩ := ok_of_perform ha
    exact names_of_run hrun
  · subst hrequest
    obtain ⟨a, t, hrun, ha⟩ := ok_of_perform hc
    obtain rfl := ha _ rfl
    exact params_of_run hrun
  · obtain ⟨t, ht⟩ := error_of_perform hv
    exact hend.fault _ t ht v rfl

/-- Sessions stay well made. In every session that a host can attain, by whatever requests and however
these ended, the frames around a frame lead to a root without a repetition, no frame binds a name
twice, and the closures in bindings have a scope and a machine that exist; each further request
leaves it so, gives closures that have them too, and takes only symbols for names, as `lambda` does.
The frame of a call is made by definitions of such names, and no request fails to define a name but
a definition of something that is none. -/
theorem attainable_sessions_are_well_made {s : Session} (h : s.Attainable) :
    s.WellMade ∧ (∀ bound request, s.Allows request → s.EndsWellMade bound request) ∧
      (∀ machine scope params body t u c,
        Form.lambda machine scope (params :: body) t = .ok (.closure c) u →
          params.items = c.params.map .symbol) ∧
      ∀ (c : Closure Value) (values : List Value),
        s.store.add (c.frame values) = (c.params.zip values).foldl
          (fun t (name, value) => t.define s.store.size name value)
          (s.store.add ⟨.empty, some c.scope⟩) :=
  ⟨h.wellMade, fun bound _ hr => h.endsWellMade bound hr,
    fun _ _ _ _ _ _ _ hlambda => Form.lambda_params hlambda,
    fun c values => s.store.add_call_frame c values⟩

/-- A closure that its host builds, puts into a list, binds and calls. -/
theorem a_built_closure_in_a_list :
    let identity : Closure Value := ⟨0, ["x"], [.symbol "x"], 0, 0⟩
    let build : Request := .closure 0 [.symbol "x"] [.symbol "x"] 0
    let bind : Request := .define 0 (.symbol "all") (.ofList [.closure identity])
    let call : Request := .invoke identity [.ofList [.symbol "car", .symbol "all"]] 0
    let started := (Session.empty.perform 0 (.interpreter none none)).2
    let built := (started.perform 0 build).2
    let session := (built.perform 0 bind).2
    session.Attainable ∧ session.Allows call ∧ session.WellMade ∧ session.EndsWellMade 3 call ∧
      (session.perform 3 call).1.toOption.isSome := by
  intro identity build bind call started built session
  have hidentity : (Value.closure identity).OwnedBelow 1 :=
    Value.ownedBelow_closure.mpr ⟨by decide, fun b hb =>
      List.mem_singleton.mp hb ▸ Value.ClosureFree.ownedBelow (by simp)⟩
  have hstarted : started.Attainable := .perform .empty 0 ⟨trivial, nofun⟩
  have hbuilt : built.Attainable := by
    refine .perform hstarted 0 ⟨⟨by decide, by simp, by decide⟩, fun v hv => ?_⟩
    obtain rfl := List.mem_singleton.mp hv
    exact Value.ClosureFree.ownedBelow (by simp)
  have hsession : session.Attainable := by
    refine .perform hbuilt 0 ⟨⟨by decide, ?_⟩, fun v hv => ?_⟩
    · simp only [State.holds_list, List.mem_singleton, forall_eq, State.holds_closure]
      exact ⟨⟨by decide, by decide⟩, by simp [identity]⟩
    · obtain rfl := List.mem_singleton.mp hv
      exact Value.ownedBelow_list.mpr fun v hv => List.mem_singleton.mp hv ▸ hidentity
  have hcall : session.Allows call := by
    refine ⟨⟨?_, by simp, by decide⟩, fun v hv => ?_⟩
    · rw [State.holds_closure]
      exact ⟨⟨by decide, by decide⟩, by simp [identity]⟩
    · rcases List.mem_cons.mp hv with rfl | hv
      · exact hidentity
      · obtain rfl := List.mem_singleton.mp hv
        exact Value.ClosureFree.ownedBelow (by simp)
  obtain ⟨hwell, hends, -⟩ := attainable_sessions_are_well_made hsession
  exact ⟨hsession, hcall, hwell, hends 3 call hcall, rfl⟩

end Session

end SmallLisp
