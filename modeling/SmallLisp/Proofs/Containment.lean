-- Programs on exact numbers. If all numbers are whole ones or fractions, sums never fail and
-- comparisons are always decided. So such a program fails only for reasons that the language
-- itself reports, and every number that it leaves behind is exact again.
import SmallLisp.Proofs.Accord
import SmallLisp.Proofs.Bindings
import SmallLisp.Session

namespace SmallLisp

open Run

/-! ## Exact numbers -/

namespace Number

theorem IsExact.int_or_fraction {n : Number} (h : n.IsExact) :
    (∃ a, n = int a) ∨ ∃ r, n = fraction r := by
  cases n with
  | int a => exact .inl ⟨a, rfl⟩
  | fraction r => exact .inr ⟨r, rfl⟩
  | _ => exact h.elim

/-- Exact numbers have an exact sum. -/
theorem add_of_exact {m n : Number} (hm : m.IsExact) (hn : n.IsExact) (label : Nat) :
    ∃ sum : Number, m.add label n = .ok sum ∧ sum.IsExact := by
  obtain ⟨a, rfl⟩ | ⟨r, rfl⟩ := hm.int_or_fraction <;>
    obtain ⟨b, rfl⟩ | ⟨q, rfl⟩ := hn.int_or_fraction <;> exact ⟨_, rfl, trivial⟩

/-- Whether exact numbers are equal is always decided. -/
theorem isSome_equal_of_exact {m n : Number} (hm : m.IsExact) (hn : n.IsExact) :
    (m.equal n).isSome := by
  obtain ⟨a, rfl⟩ | ⟨r, rfl⟩ := hm.int_or_fraction <;>
    obtain ⟨b, rfl⟩ | ⟨q, rfl⟩ := hn.int_or_fraction <;>
    (unfold equal; split <;> simp [isSignalling, exactValue?])

end Number

namespace Value

/-- All numbers in the value are exact, and all closures in it belong to the machine. -/
inductive Exact (machine : Nat) : Value → Prop
  | nil : Exact machine nil
  | null : Exact machine null
  | bool (b : Bool) : Exact machine (bool b)
  | number {n : Number} (h : n.IsExact) : Exact machine (number n)
  | symbol (name : String) : Exact machine (symbol name)
  | list {b : Brackets} {items : List Value} (h : ∀ v ∈ items, Exact machine v) :
      Exact machine (list b items)
  | closure {c : Closure Value} (hm : c.machine = machine) (h : ∀ n ∈ c.body, Exact machine n) :
      Exact machine (closure c)
  | host {kind : HostKind} {parts : List Value} (h : ∀ v ∈ parts, Exact machine v) :
      Exact machine (host kind parts)

variable {machine : Nat}

@[simp] theorem exact_symbol (name : String) : (symbol name).Exact machine := .symbol name

@[simp] theorem exact_number {n : Number} : (number n).Exact machine ↔ n.IsExact :=
  ⟨fun h => by cases h with | number h => exact h, .number⟩

@[simp] theorem exact_list {b : Brackets} {items : List Value} :
    (list b items).Exact machine ↔ ∀ v ∈ items, v.Exact machine :=
  ⟨fun h => by cases h with | list h => exact h, .list⟩

@[simp] theorem exact_host {kind : HostKind} {parts : List Value} :
    (host kind parts).Exact machine ↔ ∀ v ∈ parts, v.Exact machine :=
  ⟨fun h => by cases h with | host h => exact h, .host⟩

/-! ## Comparisons of exact values -/

theorem isSome_sameNumber {m : Number} {b : Value} (hm : m.IsExact) (hb : b.Exact machine) :
    (sameNumber m b).isSome := by
  cases hb with
  | bool => exact Number.isSome_equal_of_exact hm trivial
  | number h => exact Number.isSome_equal_of_exact hm h
  | _ => rfl

/-- A choice is decided if its condition and both its sides are. -/
theorem isSome_choice {x yes no : Option Bool} (hx : x.isSome) (hyes : yes.isSome)
    (hno : no.isSome) : (do if ← x then yes else no).isSome := by
  cases x with
  | none => cases hx
  | some b =>
    cases b with
    | true => exact hyes
    | false => exact hno

theorem isSome_afterKey? (isMatch : Value → Option Bool) (parts : List Value)
    (h : ∀ v ∈ parts, (isMatch v).isSome) :
    ∃ found, afterKey? isMatch parts = some found ∧ ∀ v, found = some v → v ∈ parts := by
  match parts with
  | [] | [_] => exact ⟨none, rfl, by simp⟩
  | key :: value :: rest =>
    obtain ⟨found, hfound, hmem⟩ := isSome_afterKey? isMatch rest fun v hv => h v (by simp [hv])
    obtain ⟨b, hb⟩ := Option.isSome_iff_exists.mp (h key (by simp))
    unfold afterKey?
    rw [hb]
    cases b with
    | true => exact ⟨some value, rfl, by simp⟩
    | false => exact ⟨found, hfound, fun v hv => by simp [hmem v hv]⟩

theorem isSome_anyMatch {isMatch : Value → Option Bool} {members : List Value}
    (h : ∀ v ∈ members, (isMatch v).isSome) : (anyMatch isMatch members).isSome := by
  induction members with
  | nil => rfl
  | cons v vs ih =>
    unfold anyMatch
    exact isSome_choice (h v (by simp)) rfl (ih fun v hv => h v (List.mem_cons_of_mem _ hv))

/-- The value can be compared with every exact value, by the host's rule. -/
def Comparable (machine : Nat) (v : Value) : Prop := ∀ w : Value, w.Exact machine → (v.same w).isSome

theorem isSome_sameItems {items others : List Value} (h : ∀ v ∈ items, Comparable machine v)
    (ho : ∀ w ∈ others, w.Exact machine) : (sameItems items others).isSome := by
  induction items generalizing others with
  | nil => simp [sameItems]
  | cons v vs ih =>
    cases others with
    | nil => rfl
    | cons w ws =>
      have hrest := ih (fun v hv => h v (List.mem_cons_of_mem _ hv))
        fun w hw => ho w (List.mem_cons_of_mem _ hw)
      unfold sameItems
      exact isSome_choice (h v (by simp) w (ho w (by simp))) hrest rfl

theorem isSome_sameEntries (parts : List Value) {others : List Value}
    (h : ∀ v ∈ parts, Comparable machine v) (ho : ∀ w ∈ others, w.Exact machine) :
    (sameEntries parts others).isSome := by
  match parts with
  | [] | [_] => rfl
  | key :: value :: rest =>
    obtain ⟨found, hfound, hmem⟩ := isSome_afterKey? (same key) others
      fun w hw => h key (by simp) w (ho w hw)
    unfold sameEntries
    simp only [hfound]
    cases found with
    | none => rfl
    | some other =>
      exact isSome_choice (h value (by simp) other (ho other (hmem other rfl)))
        (isSome_sameEntries rest (fun v hv => h v (by simp [hv])) ho) rfl

theorem isSome_sameMembers {members others : List Value}
    (h : ∀ v ∈ members, Comparable machine v) (ho : ∀ w ∈ others, w.Exact machine) :
    (sameMembers members others).isSome := by
  induction members with
  | nil => rfl
  | cons v vs ih =>
    unfold sameMembers
    exact isSome_choice (isSome_anyMatch fun w hw => h v (by simp) w (ho w hw))
      (ih fun v hv => h v (List.mem_cons_of_mem _ hv)) rfl

theorem Exact.comparable {v : Value} (hv : v.Exact machine) : Comparable machine v := by
  induction hv with
  | bool => exact fun w hw => isSome_sameNumber trivial hw
  | number h => exact fun w hw => isSome_sameNumber h hw
  | nil | null | symbol | closure => exact fun w hw => rfl
  | list _ ih =>
    intro w hw
    unfold same
    cases hw with
    | list hw =>
      dsimp only
      split
      · rfl
      · split
        · rfl
        · exact isSome_sameItems ih hw
    | _ => rfl
  | @host kind parts _ ih =>
    intro w hw
    unfold same
    cases hw with
    | host hw =>
      dsimp only
      split
      · rfl
      · cases kind with
        | mapping => exact isSome_sameEntries parts ih hw
        | set => exact isSome_sameMembers ih hw
        | _ => rfl
    | _ => rfl

theorem isSome_equalItems {items others : List Value}
    (h : ∀ v ∈ items, ∀ w : Value, w.Exact machine → (v.equal w).isSome)
    (ho : ∀ w ∈ others, w.Exact machine) : (equalItems items others).isSome := by
  induction items generalizing others with
  | nil => simp [equalItems]
  | cons v vs ih =>
    cases others with
    | nil => rfl
    | cons w ws =>
      have hrest := ih (fun v hv => h v (List.mem_cons_of_mem _ hv))
        fun w hw => ho w (List.mem_cons_of_mem _ hw)
      unfold equalItems
      exact isSome_choice (h v (by simp) w (ho w (by simp))) hrest rfl

/-- Whether exact values are equal is always decided. -/
theorem Exact.isSome_equal {v w : Value} (hv : v.Exact machine) (hw : w.Exact machine) :
    (v.equal w).isSome := by
  induction hv generalizing w with
  | nil | null | bool | symbol | closure => rfl
  | number h =>
    cases hw with
    | number h' => exact Number.isSome_equal_of_exact h h'
    | _ => rfl
  | list _ ih =>
    unfold equal
    split
    · rfl
    · cases hw with
      | list hw =>
        dsimp only
        split
        · rfl
        · exact isSome_equalItems (fun v hv w hw => ih v hv hw) hw
      | _ => rfl
  | host h => exact (Exact.host h).comparable w hw

end Value

/-! ## Runs on exact numbers -/

/-- A frame that is found for a name binds it, so what is found has a value. -/
theorem Store.isSome_lookup? (s : Store) (scope : Nat) (name : String) :
    (s.lookup? scope name).isSome = s.has scope name := by
  unfold lookup? has
  cases h : s.find? scope name with
  | none => rfl
  | some f =>
    have hf := List.find?_some h
    simpa [Table.contains] using hf

/-- All bound values are exact. -/
def State.Exact (machine : Nat) (s : State) : Prop :=
  ∀ f name v, (name, v) ∈ (s.store.bindings f).entries → v.Exact machine

/-- A reason to fail that the language reports, if the host writes the values that the report shows;
an operator for which there is no operation is no closure, and no name that the registry knows. -/
structure Fault.Contained (registry : Registry) (f : Fault) : Prop where
  reported : f.kind.isReported = true ∨
    f.kind = .badValue ∧ ∃ v ∈ f.shown, v.isWritable = false
  no_closure : ∀ c, f ≠ .undefinedOperation (.closure c)
  unknown : ∀ name, f = .undefinedOperation (.symbol name) → registry.knows name = false

theorem Fault.reported_or_refused {f : Fault} (h : f.intended.isReported = true) :
    f.kind.isReported = true ∨ f.kind = .badValue ∧ ∃ v ∈ f.shown, v.isWritable = false := by
  rcases f.kind_eq_or with hkind | ⟨hwritable, hkind⟩
  · exact .inl (hkind ▸ h)
  · exact .inr ⟨hkind, by simpa [isWritable] using hwritable⟩

/-- The accord of a run on exact numbers with itself. -/
def exactly (registry : Registry) (machine : Nat) : Accord where
  value := Value.Exact machine
  machine m := m = machine
  state s t := s = t ∧ s.Exact machine
  fault := Fault.Contained registry

theorem exactly_lawful (registries : Nat → Registry) (machine : Nat) :
    (exactly (registries machine) machine).Lawful registries announceAll announceAll where
  nil := .nil
  bool := .bool
  symbol := .symbol
  zero := .number trivial
  list_iff := Value.exact_list
  closure hc := by cases hc with | closure hm h => exact ⟨hm, h⟩
  lookup := by
    rintro s _ ⟨rfl, hs⟩ scope name
    refine ⟨rfl, fun v hl => ?_⟩
    obtain ⟨f, hf⟩ := Store.mem_of_lookup? hl
    exact hs f name v hf
  announced := by
    rintro m node _ _ scope s _ ⟨rfl, hs⟩
    exact .ok le_rfl ⟨rfl, hs⟩ ⟨rfl, trivial⟩
  dispatched := by
    rintro name s _ ⟨rfl, hs⟩
    exact .ok le_rfl ⟨rfl, hs⟩ ⟨rfl, trivial⟩
  assign := by
    rintro scope name v hv s _ ⟨rfl, hs⟩
    refine .ok le_rfl ⟨rfl, fun f name' v' hm => ?_⟩ ⟨rfl, trivial⟩
    rcases Store.mem_bindings_define hm with hm | hm
    · cases hm
      exact hv
    · exact hs f name' v' hm
  addTo := by
    intro total n ht hn
    have hlabel : (exactly (registries machine) machine).Agree (fun _ => True) (reserve 2)
        (reserve 2) := by
      rintro s _ ⟨rfl, hs⟩
      exact .ok le_rfl ⟨rfl, hs⟩ ⟨rfl, trivial⟩
    refine hlabel.bind fun l _ => ?_
    obtain ⟨sum, hsum, hexact⟩ := Number.add_of_exact (Value.exact_number.mp ht)
      (Value.exact_number.mp hn) l
    rw [hsum]
    exact Accord.agree_pure (.number hexact)
  makeClosure := by
    rintro m params body scope hm hb s _ ⟨rfl, hs⟩
    exact .ok le_rfl ⟨rfl, hs⟩ ⟨rfl, .closure hm hb⟩
  enter := by
    rintro c vs _ hvs s _ ⟨rfl, hs⟩
    refine .ok le_rfl ⟨rfl, fun f name v hm => ?_⟩ ⟨rfl, trivial⟩
    rcases Store.mem_bindings_add hm with hm | hm
    · exact hvs _ (Closure.mem_frame hm)
    · exact hs f name v hm
  reported := by
    intro f hf
    refine ⟨Fault.reported_or_refused ?_, fun c h => ?_, fun name h => ?_⟩
    · rcases hf with hf | hf <;> rw [hf] <;> rfl
    · simp [h, Fault.intended] at hf
    · simp [h, Fault.intended] at hf
  undecided ha hb h := by
    have hsome := ha.isSome_equal hb
    rw [h] at hsome
    cases hsome
  undefinedOperation := by
    intro v _ hopen hname
    refine ⟨Fault.reported_or_refused rfl, fun c h => ?_, fun name h => ?_⟩
    · cases h
      exact hopen c rfl
    · cases h
      obtain ⟨_, rfl, hl⟩ := hname name rfl
      rw [Registry.knows_eq_isSome_lookup?, hl]
      rfl

/-- A call of the evaluator with exact values, by one machine. -/
def Entry.Exact (machine : Nat) : Entry → Prop
  | evaluate m node _ => m = machine ∧ node.Exact machine
  | apply m head tail _ => m = machine ∧ head.Exact machine ∧ ∀ n ∈ tail, n.Exact machine
  | form _ m tail _ => m = machine ∧ ∀ n ∈ tail, n.Exact machine
  | invoke c arguments _ => (Value.closure c).Exact machine ∧ ∀ n ∈ arguments, n.Exact machine

/-- A run that begins with exact values only, whatever way the evaluator is entered, fails only for
reasons that the language reports, unless the report would show a value that the host does not write:
then the host's refusal is what shows. The operator that an undefined operation carries is no closure
and no name that the registry knows. However the run ends, all values that it leaves behind are exact.
No look-up on the way can fail: a name that is found has a value. -/
theorem failures_on_exact_numbers_are_reported_if_written (registries : Nat → Registry)
    (bound : Nat) {machine : Nat} {x : Entry} (hx : x.Exact machine) {s : State}
    (hs : s.Exact machine) :
    let r := x.run registries bound s
    (∀ f t, r = .error (.fault f) t → f.Contained (registries machine)) ∧
      (endState r).Exact machine ∧ (∀ v, endValue? r = some v → v.Exact machine) ∧
      ∀ (t : Store) scope name, (t.lookup? scope name).isSome = t.has scope name := by
  have hadmits : (exactly (registries machine) machine).Admits x := by
    cases x with
    | evaluate _ _ scope => exact .evaluate hx.1 hx.2 scope
    | apply _ _ _ scope => exact .apply hx.1 hx.2.1 hx.2.2 scope
    | form operation _ _ scope => exact .form operation hx.1 hx.2 scope
    | invoke _ _ caller => exact .invoke hx.1 hx.2 caller
  have hend := (exactly_lawful registries machine).entry bound hadmits s s ⟨rfl, hs⟩
  rw [← Entry.run_eq] at hend
  intro r
  dsimp only [r]
  generalize x.run registries bound s = r at hend
  cases hend with
  | ok _ states values =>
    refine ⟨fun f t h => (nomatch h), states.2, fun v hv => ?_, Store.isSome_lookup?⟩
    cases hv
    exact values.2
  | error _ states stops =>
    refine ⟨fun f t h => ?_, states.2, fun v hv => (nomatch hv), Store.isSome_lookup?⟩
    cases h
    exact stops.2 f rfl
  | excused h => exact h.elim

/-- An interpreter starts without any binding. -/
theorem exact_started (machine : Nat) :
    (Session.empty.perform 0 (.interpreter none none)).2.state.Exact machine := by
  intro f name v hm
  rcases Store.mem_bindings_add (s := .empty) (f := ⟨.empty, none⟩) hm with hm | hm
  · cases hm
  · unfold Store.bindings at hm
    rw [Store.frame_of_size_le (Nat.zero_le f)] at hm
    cases hm

/-- A whole number and a fraction are compared inside a closure, beside some bytes, and then an
operation is called for that does not exist. -/
theorem an_undefined_operation_after_exact_sums :
    let session := (Session.empty.perform 0 (.interpreter none none)).2
    let sum : Value := .ofList [.symbol "+", .symbol "x", .number (.fraction (1 / 2))]
    let program : Value := .ofList [.ofList [.symbol "lambda", .ofList [.symbol "x"], sum,
      .ofList [.symbol "missing", sum, .host (.bytes [0]) []]], .number (.int 7)]
    let x := Entry.evaluate 0 program 0
    let r := x.run session.registries 4 session.state
    x.Exact 0 ∧ session.state.Exact 0 ∧
      (∃ t, r = .error (.fault (.undefinedOperation (.symbol "missing"))) t) ∧
      (∀ f t, r = .error (.fault f) t → f.Contained (session.registries 0)) ∧
      (endState r).Exact 0 := by
  intro session sum program x r
  have hx : x.Exact 0 := ⟨rfl, by simp [program, sum, Number.IsExact]⟩
  have hs : session.state.Exact 0 := exact_started 0
  have h := failures_on_exact_numbers_are_reported_if_written session.registries 4 hx hs
  exact ⟨hx, hs, ⟨_, rfl⟩, h.1, h.2.1⟩

/-- Twice the greatest whole number that the host writes is no list, and the host does not write it
into the report. -/
theorem a_number_that_is_not_written_is_not_reported :
    let session := (Session.empty.perform 0 (.interpreter none none)).2
    let greatest : Value := .number (.int greatestWritten)
    let program : Value := .ofList [.symbol "car", .ofList [.symbol "+", greatest, greatest]]
    let x := Entry.evaluate 0 program 0
    x.Exact 0 ∧ session.state.Exact 0 ∧ ∃ f t,
      x.run session.registries 3 session.state = .error (.fault f) t ∧ f.kind.isReported = false := by
  intro session greatest program x
  let doubled (n : Int) : Value :=
    .ofList [.symbol "car", .ofList [.symbol "+", .number (.int n), .number (.int n)]]
  have hx : ∀ n, (Entry.evaluate 0 (doubled n) 0).Exact 0 := fun n =>
    ⟨rfl, by simp [doubled, Number.IsExact]⟩
  have hfails : ∀ n : Int, (Number.int (n + n)).isWritable = false → ∃ f t,
      evaluate session.registries 3 0 (doubled n) 0 session.state = .error (.fault f) t ∧
        f.kind.isReported = false := by
    intro n hn
    refine ⟨.notAList .car (.number (.int (0 + n + n))), _, rfl, ?_⟩
    rw [Fault.kind_of_not_isWritable]
    · rfl
    · simpa [Fault.isWritable, Fault.shown, Value.isWritable] using hn
  exact ⟨hx _, exact_started 0, hfails _ Number.isWritable_greatest.2⟩

end SmallLisp
