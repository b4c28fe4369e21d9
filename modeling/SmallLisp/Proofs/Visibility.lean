-- Reading after writing. A value bound in a frame is read in every scope from which one comes to this
-- frame before any binding of the name; everything else reads as before. An assignment binds in a
-- root, so it shows in all scopes of that root that lie in no inner binding of the name.
import SmallLisp.Proofs.Reachable

namespace SmallLisp

namespace Store

variable {s : Store} {n m r : Nat} {name other : String}

/-! ## The nearest binding -/

/-- On the way through the frames one comes to frame `n` before any binding of the name. -/
def FirstAmong (s : Store) (frames : List Nat) (n : Nat) (name : String) : Prop :=
  ∃ before after, frames = before ++ n :: after ∧
    ∀ f ∈ before, (s.bindings f).contains name = false

/-- A binding of the name in frame `n` is, or would be, the nearest one for scope `m`. -/
def Exposes (s : Store) (m n : Nat) (name : String) : Prop := s.FirstAmong (s.chain m) n name

theorem not_firstAmong_nil : ¬ s.FirstAmong [] n name := by
  rintro ⟨before, after, h, -⟩
  simp at h

theorem firstAmong_cons {f : Nat} {rest : List Nat} :
    s.FirstAmong (f :: rest) n name ↔
      f = n ∨ (s.bindings f).contains name = false ∧ s.FirstAmong rest n name := by
  constructor
  · rintro ⟨before, after, h, hbefore⟩
    cases before with
    | nil => exact .inl (List.cons.inj h).1
    | cons g before =>
      obtain ⟨rfl, rfl⟩ := List.cons.inj h
      obtain ⟨hf, hbefore⟩ := List.forall_mem_cons.mp hbefore
      exact .inr ⟨hf, before, after, rfl, hbefore⟩
  · rintro (rfl | ⟨hf, before, after, rfl, hbefore⟩)
    · exact ⟨[], rest, rfl, by simp⟩
    · exact ⟨f :: before, after, rfl, List.forall_mem_cons.mpr ⟨hf, hbefore⟩⟩

/-- A search ends at the nearest frame that binds the name. -/
theorem find?_eq_some_iff :
    s.find? m name = some n ↔ (s.bindings n).contains name = true ∧ s.Exposes m n name := by
  unfold find? Exposes FirstAmong
  simp only [List.find?_eq_some_iff_append, Bool.not_eq_eq_eq_not, Bool.not_true]

/-! ## A definition -/

theorem get?_bindings_define (hn : n < s.size) (f : Nat) (v : Value) :
    ((s.define n name v).bindings f).get? other =
      if f = n ∧ other = name then some v else (s.bindings f).get? other := by
  rw [bindings_define]
  by_cases hf : f = n
  · rw [if_pos ⟨hf, hn⟩, hf]
    by_cases ho : other = name
    · rw [if_pos ⟨rfl, ho⟩, ho, Table.get?_put_self]
    · rw [if_neg fun h => ho h.2, Table.get?_put_of_ne _ _ ho]
  · rw [if_neg fun h => hf h.1, if_neg fun h => hf h.1]

theorem contains_bindings_define (hn : n < s.size) (f : Nat) (v : Value) :
    ((s.define n name v).bindings f).contains other =
      (decide (f = n ∧ other = name) || (s.bindings f).contains other) := by
  unfold Table.contains
  rw [get?_bindings_define hn]
  by_cases h : f = n ∧ other = name
  · simp [h]
  · simp [h]

/-- A search for the name ends at the frame of its definition if one comes there before any other
binding. -/
theorem find?_frames_of_firstAmong (hn : n < s.size) (v : Value) {frames : List Nat}
    (h : s.FirstAmong frames n name) :
    frames.find? (fun f => ((s.define n name v).bindings f).contains name) = some n := by
  induction frames with
  | nil => exact absurd h not_firstAmong_nil
  | cons f rest ih =>
    rw [List.find?_cons, contains_bindings_define hn]
    rcases firstAmong_cons.mp h with rfl | ⟨hf, hrest⟩
    · simp
    · by_cases hfn : f = n
      · simp [hfn]
      · simp [hfn, hf, ih hrest]

/-- Any other search ends where it did before. -/
theorem find?_frames_of_not_firstAmong (hn : n < s.size) (v : Value) {frames : List Nat}
    (h : ¬ (other = name ∧ s.FirstAmong frames n name)) :
    frames.find? (fun f => ((s.define n name v).bindings f).contains other) =
      frames.find? fun f => (s.bindings f).contains other := by
  induction frames with
  | nil => rfl
  | cons f rest ih =>
    rw [List.find?_cons, List.find?_cons, contains_bindings_define hn]
    have hfn : ¬ (f = n ∧ other = name) := fun hc => h ⟨hc.2, firstAmong_cons.mpr (.inl hc.1)⟩
    cases hf : (s.bindings f).contains other with
    | true => simp
    | false =>
      have hrest : ¬ (other = name ∧ s.FirstAmong rest n name) := by
        rintro ⟨rfl, hfirst⟩
        exact h ⟨rfl, firstAmong_cons.mpr (.inr ⟨hf, hfirst⟩)⟩
      simpa [hfn] using ih hrest

/-! ## What a scope reads -/

/-- The frame that a name is found in from a scope, if any, and the value that it has there. -/
structure ReadsAs (s : Store) (scope : Nat) (name : String) (found : Option Nat) (value : Value) :
    Prop where
  find : s.find? scope name = found
  has : s.has scope name = found.isSome
  get : s.get scope name = value

/-- A definition is read in every scope that exposes its frame. -/
theorem readsAs_define_of_exposes (hn : n < s.size) (h : s.Exposes m n name) (v : Value) :
    (s.define n name v).ReadsAs m name (some n) v := by
  have hfind : (s.define n name v).find? m name = some n := by
    unfold find?
    rw [chain_define]
    exact find?_frames_of_firstAmong hn v h
  refine ⟨hfind, by rw [has, hfind], ?_⟩
  rw [get, lookup?, hfind, Option.bind_some, get?_bindings_define hn, if_pos ⟨rfl, rfl⟩]
  rfl

/-- Everything else is read as before. -/
theorem readsAs_define_of_not_exposes (hn : n < s.size)
    (h : ¬ (other = name ∧ s.Exposes m n name)) (v : Value) :
    (s.define n name v).ReadsAs m other (s.find? m other) (s.get m other) := by
  have hfind : (s.define n name v).find? m other = s.find? m other := by
    unfold find?
    rw [chain_define]
    exact find?_frames_of_not_firstAmong hn v h
  refine ⟨hfind, by rw [has, hfind], ?_⟩
  rw [get, get, lookup?, lookup?, hfind]
  cases hf : s.find? m other with
  | none => rfl
  | some f =>
    have hfn : ¬ (f = n ∧ other = name) := by
      rintro ⟨rfl, rfl⟩
      exact h ⟨rfl, (find?_eq_some_iff.mp hf).2⟩
    rw [Option.bind_some, Option.bind_some, get?_bindings_define hn, if_neg hfn]

/-! ## An assignment -/

/-- A root is exposed to the scopes in it, unless a frame further in binds the name. -/
theorem WellFormed.exposes_root_iff (h : s.WellFormed) (hr : s.outer r = none) (m : Nat) :
    s.Exposes m r name ↔ s.root m = r ∧
      ∀ f ∈ s.chain m, s.outer f ≠ none → (s.bindings f).contains name = false := by
  unfold Exposes
  induction m using h.chain_induction with
  | step m ih =>
    rw [h.chain_eq, h.root_eq, firstAmong_cons]
    cases ho : s.outer m with
    | none => simp [not_firstAmong_nil, ho]
    | some o =>
      have hmr : m ≠ r := by
        rintro rfl
        rw [hr] at ho
        cases ho
      simp only [hmr, false_or, ih o ho, List.forall_mem_cons, ho, ne_eq, reduceCtorEq,
        not_false_eq_true, forall_const]
      exact ⟨fun ⟨hm, hroot, hrest⟩ => ⟨hroot, hm, hrest⟩,
        fun ⟨hroot, hm, hrest⟩ => ⟨hm, hroot, hrest⟩⟩

/-- A binding that an assignment in scope `e` makes shows in scope `f`: the scopes have one root, and
on the way there from `f` no frame inside another one binds the name. -/
def AssignmentShows (s : Store) (f e : Nat) (name : String) : Prop :=
  s.root f = s.root e ∧ ∀ g ∈ s.chain f, s.outer g ≠ none → (s.bindings g).contains name = false

end Store

namespace Session

/-- What a host is told about a name in a scope: the frame that it is found in, if any, that it is
bound if there is one, and its value. -/
structure ReadsAs (s : Session) (scope : Nat) (name : String) (found : Option Nat)
    (value : Value) : Prop where
  find : s.find scope (.symbol name) = .ok found
  has : s.has scope (.symbol name) = .ok found.isSome
  get : s.get scope (.symbol name) = .ok value

theorem readsAs_of_store {s : Session} {scope : Nat} {name : String} {found : Option Nat}
    {value : Value} (h : s.store.ReadsAs scope name found value) :
    s.ReadsAs scope name found value :=
  ⟨congrArg Except.ok h.find, congrArg Except.ok h.has, congrArg Except.ok h.get⟩

/-- What is read after a name is bound, in a well-formed store of any shape. A binding made by an
assignment is read in the scopes of the same root in which no inner frame binds the name; one made
by a definition is read in the scopes that come to its frame before any other binding of the name.
Whatever its value, the name then counts as bound there. In every other scope and under every other
name nothing changes; the frame that is found is always the nearest that binds the name. What is no
symbol can be neither assigned to nor defined, and the attempt leaves the session as it is, whether
it is reported or the host does not write the name into the report. -/
theorem bindings_are_read_where_they_show {s : Session} (h : s.store.WellFormed) (bound : Nat)
    {e : Nat} (he : e < s.store.size) (v : Value) :
    (∀ n, let done := s.perform bound (.assign e (.symbol n) v)
      done.1 = .ok .done ∧ ∀ f m,
        (m = n ∧ s.store.AssignmentShows f e n → done.2.ReadsAs f m (some (s.store.root e)) v) ∧
        (¬ (m = n ∧ s.store.AssignmentShows f e n) →
          done.2.ReadsAs f m (s.store.find? f m) (s.store.get f m))) ∧
      (∀ n, let done := s.perform bound (.define e (.symbol n) v)
        done.1 = .ok .done ∧ ∀ f m,
          (m = n ∧ s.store.Exposes f e n → done.2.ReadsAs f m (some e) v) ∧
          (¬ (m = n ∧ s.store.Exposes f e n) →
            done.2.ReadsAs f m (s.store.find? f m) (s.store.get f m))) ∧
      (∀ f m g, s.find f (.symbol m) = .ok (some g) ↔
        (s.store.bindings g).contains m = true ∧ s.store.Exposes f g m) ∧
      ∀ name : Value, name.isSymbol = false →
        (s.perform bound (.assign e name v) = (.error (.fault (.unassignable name)), s) ∧
          (Fault.unassignable name).kind =
            if name.isWritable then .invalidResult else .badValue) ∧
        s.perform bound (.define e name v) = (.error (.fault (.undefinable name)), s) ∧
          (Fault.undefinable name).kind =
            if name.isWritable then .invalidArgument else .badValue := by
  have hroot : ∀ f n, s.store.Exposes f (s.store.root e) n ↔ s.store.AssignmentShows f e n :=
    fun f _ => h.exposes_root_iff (h.outer_root e) f
  refine ⟨fun n => ⟨rfl, fun f m => ⟨?_, fun hno => ?_⟩⟩,
    fun n => ⟨rfl, fun f m => ⟨?_, fun hno => ?_⟩⟩, fun f m g => ?_, fun name hname => ?_⟩
  · rintro ⟨rfl, hshows⟩
    exact readsAs_of_store (Store.readsAs_define_of_exposes (h.root_lt_size he)
      ((hroot f m).mpr hshows) v)
  · have hexposes : ¬ (m = n ∧ s.store.Exposes f (s.store.root e) n) :=
      fun hc => hno ⟨hc.1, (hroot f n).mp hc.2⟩
    exact readsAs_of_store (Store.readsAs_define_of_not_exposes (h.root_lt_size he) hexposes v)
  · rintro ⟨rfl, hexposes⟩
    exact readsAs_of_store (Store.readsAs_define_of_exposes he hexposes v)
  · exact readsAs_of_store (Store.readsAs_define_of_not_exposes he hno v)
  · rw [← Store.find?_eq_some_iff]
    exact ⟨Except.ok.inj, congrArg Except.ok⟩
  · have hassign : (Fault.unassignable name).kind =
        if name.isWritable then .invalidResult else .badValue := Fault.kind_of_shown rfl
    have hdefine : (Fault.undefinable name).kind =
        if name.isWritable then .invalidArgument else .badValue := Fault.kind_of_shown rfl
    cases name with
    | symbol name => cases hname
    | _ => exact ⟨⟨rfl, hassign⟩, rfl, hdefine⟩

/-- Frames 1 and 2 lie in root 0, and frame 2 binds `x` itself. An assignment to `x` in frame 2 shows
in frame 1 only; a definition of `x` in frame 1 to nil makes it bound there, and shows nowhere else. -/
theorem an_inner_binding_hides_an_assignment :
    let base : Store := ((Store.empty.add ⟨.empty, none⟩).add ⟨.empty, some 0⟩).add ⟨.empty, some 0⟩
    let s : Session := ⟨#[], ⟨base.define 2 "x" (.number (.int 5)), 0, #[]⟩⟩
    let assigned := (s.perform 0 (.assign 2 (.symbol "x") (.number (.int 7)))).2
    let defined := (s.perform 0 (.define 1 (.symbol "x") .nil)).2
    s.store.WellFormed ∧ 2 < s.store.size ∧
      assigned.ReadsAs 1 "x" (some 0) (.number (.int 7)) ∧
      assigned.ReadsAs 2 "x" (some 2) (.number (.int 5)) ∧
      defined.ReadsAs 1 "x" (some 1) .nil ∧ defined.ReadsAs 0 "x" none .nil := by
  intro base s assigned defined
  have hadd : ∀ {t : Store} (o : Option Nat), t.WellFormed → (∀ i, o = some i → i < t.size) →
      (t.add ⟨.empty, o⟩).WellFormed := fun o ht ho => ht.add ho List.nodup_nil
  have hbase : base.WellFormed :=
    hadd _ (hadd _ (hadd none Store.wellFormed_empty nofun) (by decide)) (by decide)
  have h : s.store.WellFormed := hbase.define 2 "x" _
  obtain ⟨hassign, -⟩ := bindings_are_read_where_they_show h 0 (e := 2) (by decide)
    (.number (.int 7))
  obtain ⟨-, hdefine, -⟩ := bindings_are_read_where_they_show h 0 (e := 1) (by decide) .nil
  have hshows : s.store.AssignmentShows 1 2 "x" := by
    unfold Store.AssignmentShows
    decide
  have hhidden : ¬ ("x" = "x" ∧ s.store.AssignmentShows 2 2 "x") := by
    unfold Store.AssignmentShows
    decide
  have hexposes : s.store.Exposes 1 1 "x" := ⟨[], [0], rfl, by simp⟩
  have hnot : ¬ ("x" = "x" ∧ s.store.Exposes 0 1 "x") := by
    rintro ⟨-, before, after, hchain, -⟩
    have hmem : 1 ∈ s.store.chain 0 := by simp [hchain]
    exact absurd hmem (by decide)
  exact ⟨h, by decide, ((hassign "x").2 1 "x").1 ⟨rfl, hshows⟩, ((hassign "x").2 2 "x").2 hhidden,
    ((hdefine "x").2 1 "x").1 ⟨rfl, hexposes⟩, ((hdefine "x").2 0 "x").2 hnot⟩

/-- Twice the greatest whole number that the host writes is no symbol, but neither an assignment to it
nor a definition of it is reported; and a program may come to such a name by a sum. -/
theorem a_name_that_is_not_written_is_not_reported :
    let s := (Session.empty.perform 0 (.interpreter none none)).2
    let greatest : Value := .number (.int greatestWritten)
    let name : Value := .number (.int (greatestWritten + greatestWritten))
    let program : Value :=
      .ofList [.symbol "set", .ofList [.symbol "+", greatest, greatest], .number (.int 1)]
    name.isSymbol = false ∧
      ((s.perform 0 (.assign 0 name .nil)).1 = .error (.fault (.unassignable name)) ∧
        (Fault.unassignable name).kind ≠ .invalidResult) ∧
      ((s.perform 0 (.define 0 name .nil)).1 = .error (.fault (.undefinable name)) ∧
        (Fault.undefinable name).kind ≠ .invalidArgument) ∧
      ∃ t, evaluate s.registries 3 0 program 0 s.state = .error (.fault (.unassignable name)) t := by
  intro s greatest name program
  have hname : name.isWritable = false := Number.isWritable_greatest.2
  have hassign : (Fault.unassignable name).kind = .badValue :=
    Fault.kind_of_not_isWritable (by simp [Fault.isWritable, Fault.shown, hname])
  have hdefine : (Fault.undefinable name).kind = .badValue :=
    Fault.kind_of_not_isWritable (by simp [Fault.isWritable, Fault.shown, hname])
  have hprogram : ∀ n : Int, ∃ t, evaluate s.registries 3 0 (.ofList [.symbol "set",
      .ofList [.symbol "+", .number (.int n), .number (.int n)], .number (.int 1)]) 0 s.state =
        .error (.fault (.unassignable (.number (.int (n + n))))) t := by
    intro n
    have hsum : n + n = 0 + n + n := by rw [Int.zero_add]
    rw [hsum]
    exact ⟨_, rfl⟩
  refine ⟨rfl, ⟨rfl, ?_⟩, ⟨rfl, ?_⟩, hprogram _⟩
  · rw [hassign]
    decide
  · rw [hdefine]
    decide

end Session

end SmallLisp
