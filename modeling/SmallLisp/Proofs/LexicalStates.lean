-- Frames in a store stand for scopes of the second semantics. The frame of a call never changes and
-- stands for the scope in which the body is evaluated; the global frame stands for the global
-- table. Closures stand for closures with the scope that their frame stands for.
import SmallLisp.Proofs.Evaluation
import SmallLisp.Proofs.Lexical
import SmallLisp.Proofs.Reachable

namespace SmallLisp

/-- Values with the same numbers in them: they differ at most in the scopes and the machines of
their closures. -/
def Likeness.numbers : Likeness where
  label l l' := l = l'
  tie _ _ := True

theorem Number.alike_self (n : Number) : n.Alike Likeness.numbers.label n :=
  Value.number_alike_eq.mpr rfl

theorem Value.alike_self (v : Value) : v.Alike .numbers v := by
  have h : v.Alike (Value.only (fun _ => True) fun _ => True) v := by
    refine Value.alike_only_self_iff.mpr fun x _ => ?_
    cases x with
    | number n => exact fun _ _ => trivial
    | closure c => exact ⟨trivial, trivial⟩
    | _ => trivial
  refine h.mono (fun l l' hl => ?_) fun _ _ _ => trivial
  exact hl.1

namespace Lexical

/-! ## Values that stand for each other -/

/-- Which scope each frame stands for. -/
structure Layout where
  scope? : Nat → Option Scope

/-- Frames keep the scopes that they stand for. -/
instance : Preorder Layout where
  le w w' := ∀ f scope, w.scope? f = some scope → w'.scope? f = some scope
  le_refl _ _ _ h := h
  le_trans _ _ _ h h' f scope hf := h' f scope (h f scope hf)

/-- A value of a run and one of the second semantics: closures have the same number, parameters
and body, and the scope that their frame stands for. -/
inductive Stands (machine : Nat) (w : Layout) : Value → Term → Prop
  | nil : Stands machine w .nil .nil
  | null : Stands machine w .null .null
  | bool (b : Bool) : Stands machine w (.bool b) (.bool b)
  | number (n : Number) : Stands machine w (.number n) (.number n)
  | symbol (name : String) : Stands machine w (.symbol name) (.symbol name)
  | list (b : Brackets) {items : List Value} {terms : List Term}
      (h : List.Forall₂ (Stands machine w) items terms) :
      Stands machine w (.list b items) (.list b terms)
  | closure {c : Closure Value} {frames : Scope} (hm : c.machine = machine)
      (hs : w.scope? c.scope = some frames) (hb : ∀ b ∈ c.body, b.ClosureFree) :
      Stands machine w (.closure c) (.closure c.id c.params c.body frames)
  | host (kind : HostKind) (parts : List Value) :
      Stands machine w (.host kind parts) (.host kind parts)

variable {machine : Nat} {w : Layout}

theorem Stands.mono {w' : Layout} (hw : w ≤ w') {v : Value} {t : Term}
    (h : Stands machine w v t) : Stands machine w' v t := by
  induction v using Value.induct generalizing t with
  | list b items ih =>
    cases h with
    | list _ h => exact .list b (forall₂_imp_of_mem h fun v hv _ hvt => ih v hv hvt)
  | closure c _ => cases h with | closure hm hs hb => exact .closure hm (hw _ _ hs) hb
  | nil => cases h; exact .nil
  | null => cases h; exact .null
  | bool b => cases h; exact .bool b
  | number n => cases h; exact .number n
  | symbol name => cases h; exact .symbol name
  | host kind parts => cases h; exact .host kind parts

theorem Term.ofNodes_eq_map (vs : List Value) : Term.ofNodes vs = vs.map Term.ofNode := by
  induction vs with
  | nil => rfl
  | cons v vs ih => rw [Term.ofNodes, ih, List.map_cons]

theorem Term.plains_eq_map (ts : List Term) : Term.plains ts = ts.map Term.plain := by
  induction ts with
  | nil => rfl
  | cons t ts ih => rw [Term.plains, ih, List.map_cons]

/-- A node without closures stands for itself. -/
theorem stands_ofNode {n : Value} (hn : n.ClosureFree) : Stands machine w n (.ofNode n) := by
  induction n using Value.induct with
  | list b items ih =>
    rw [Term.ofNode, Term.ofNodes_eq_map]
    refine .list b (List.forall₂_map_right_iff.mpr (List.forall₂_same.mpr fun v hv => ?_))
    exact ih v hv (hn.item hv)
  | closure c => exact absurd .self (hn c)
  | nil => exact .nil
  | null => exact .null
  | bool b => exact .bool b
  | number n => exact .number n
  | symbol name => exact .symbol name
  | host kind parts => exact .host kind parts

/-- Values that stand for each other print alike, and compare alike. -/
theorem Stands.alike {v : Value} {t : Term} (h : Stands machine w v t) :
    v.Alike .numbers t.plain := by
  induction v using Value.induct generalizing t with
  | list b items ih =>
    cases h with
    | list _ h =>
      rw [Term.plain, Term.plains_eq_map]
      exact .list b (List.forall₂_map_right_iff.mpr
        (forall₂_imp_of_mem h fun v hv _ hvt => ih v hv hvt))
  | closure c _ =>
    cases h with
    | closure _ _ _ =>
      exact .closure rfl rfl (List.forall₂_same.mpr fun v _ => v.alike_self) trivial
  | nil => cases h; exact .nil
  | null => cases h; exact .null
  | bool b => cases h; exact .bool b
  | number n => cases h; exact .number n.alike_self
  | symbol name => cases h; exact .symbol name
  | host kind parts => cases h; exact .host kind parts

/-! ## States that stand for each other -/

/-- The frame `globals` holds the global table, and each other frame that stands for a scope holds
the innermost part of it, inside a frame that stands for the rest. -/
structure Mirrors (machine globals : Nat) (w : Layout) (s : SmallLisp.State) (r : State) :
    Prop where
  wellFormed : s.store.WellFormed
  supply : s.supply = r.supply
  lt_size : ∀ {f scope}, w.scope? f = some scope → f < s.store.size
  outermost : w.scope? globals = some []
  eq_globals : ∀ {f}, w.scope? f = some [] → f = globals
  root : s.store.outer globals = none
  table : (s.store.bindings globals).Alike (Stands machine w) r.globals
  inner : ∀ {f frame rest}, w.scope? f = some (frame :: rest) →
    ∃ o, s.store.outer f = some o ∧ w.scope? o = some rest ∧
      (s.store.bindings f).Alike (Stands machine w) (Table.ofList frame)

variable {globals : Nat} {s : SmallLisp.State} {r : State} {e : Nat} {scope : Scope}

/-- A name has the same value along the frames as in the scope. -/
theorem Mirrors.lookup? (h : Mirrors machine globals w s r) (he : w.scope? e = some scope)
    (name : String) :
    Option.Rel (Stands machine w) (s.store.lookup? e name) (r.lookup? scope name) := by
  induction scope generalizing e with
  | nil =>
    rw [h.eq_globals he, h.wellFormed.lookup?_eq, h.root]
    have hget := h.table.get? name
    unfold State.lookup? nearest?
    generalize (s.store.bindings globals).get? name = v at hget ⊢
    generalize r.globals.get? name = t at hget ⊢
    cases hget with
    | some hv => exact .some hv
    | none => exact .none
  | cons frame rest ih =>
    obtain ⟨o, ho, hw, hframe⟩ := h.inner he
    have hget := hframe.get? name
    have hrest := ih hw
    rw [h.wellFormed.lookup?_eq, ho]
    rw [get?_ofList] at hget
    unfold State.lookup? at hrest ⊢
    unfold nearest?
    generalize (s.store.bindings e).get? name = v at hget ⊢
    generalize last? name frame = t at hget ⊢
    cases hget with
    | some hv => exact .some hv
    | none => exact hrest

/-- Every scope has the global frame as its root. -/
theorem Mirrors.root_eq (h : Mirrors machine globals w s r) (he : w.scope? e = some scope) :
    s.store.root e = globals := by
  induction scope generalizing e with
  | nil =>
    rw [h.eq_globals he, h.wellFormed.root_eq, h.root]
  | cons frame rest ih =>
    obtain ⟨o, ho, hw, _⟩ := h.inner he
    rw [h.wellFormed.root_eq, ho]
    exact ih hw

/-! ## What each step does -/

theorem Mirrors.trail (h : Mirrors machine globals w s r) (trail : Array Event) :
    Mirrors machine globals w { s with trail } r :=
  ⟨h.wellFormed, h.supply, h.lt_size, h.outermost, h.eq_globals, h.root, h.table, h.inner⟩

theorem Mirrors.reserve (h : Mirrors machine globals w s r) (count : Nat) :
    Mirrors machine globals w { s with supply := s.supply + count }
      { r with supply := r.supply + count } :=
  ⟨h.wellFormed, congrArg (· + count) h.supply, h.lt_size, h.outermost, h.eq_globals, h.root,
    h.table, h.inner⟩

/-- The global frame is written to like the global table, and no other frame stands for a part of
that table. -/
theorem Mirrors.define (h : Mirrors machine globals w s r) (name : String) {v : Value} {t : Term}
    (hv : Stands machine w v t) :
    Mirrors machine globals w { s with store := s.store.define globals name v }
      { r with globals := r.globals.put name t } where
  wellFormed := h.wellFormed.define globals name v
  supply := h.supply
  lt_size hf := by simpa using h.lt_size hf
  outermost := h.outermost
  eq_globals := h.eq_globals
  root := by simpa using h.root
  table := by
    rw [Store.bindings_define, if_pos ⟨rfl, h.lt_size h.outermost⟩]
    exact h.table.put name hv
  inner := by
    intro f frame rest hf
    obtain ⟨o, ho, hw, hframe⟩ := h.inner hf
    have hne : f ≠ globals := by
      rintro rfl
      rw [h.outermost] at hf
      cases hf
    refine ⟨o, by simpa using ho, hw, ?_⟩
    rw [Store.bindings_define, if_neg fun hc => hne hc.1]
    exact hframe

/-- The layout with one more frame. -/
def Layout.push (w : Layout) (f : Nat) (scope : Scope) : Layout where
  scope? f' := if f' = f then some scope else w.scope? f'

theorem Layout.scope?_push (w : Layout) (f f' : Nat) (scope : Scope) :
    (w.push f scope).scope? f' = if f' = f then some scope else w.scope? f' := rfl

/-- The next frame stands for nothing yet. -/
theorem Mirrors.le_push (h : Mirrors machine globals w s r) (scope : Scope) :
    w ≤ w.push s.store.size scope := by
  intro f scope' hf
  have := h.lt_size hf
  rw [Layout.scope?_push, if_neg (by omega), hf]

/-- A frame in the scope of a closure, for parameters with arguments that stand for each other. -/
theorem Mirrors.enter (h : Mirrors machine globals w s r) {c : Closure Value} {frames : Scope}
    (hc : w.scope? c.scope = some frames) {vs : List Value} {ts : List Term}
    (hvs : List.Forall₂ (Stands machine w) vs ts) :
    Mirrors machine globals (w.push s.store.size (c.params.zip ts :: frames))
      { s with store := s.store.add (c.frame vs) } r := by
  have hw := h.le_push (c.params.zip ts :: frames)
  have hcases : ∀ {f scope}, (w.push s.store.size (c.params.zip ts :: frames)).scope? f =
      some scope → (f = s.store.size ∧ scope = c.params.zip ts :: frames) ∨
        (f ≠ s.store.size ∧ w.scope? f = some scope) := by
    intro f scope hf
    rw [Layout.scope?_push] at hf
    split at hf
    · rename_i hne
      cases hf
      exact .inl ⟨hne, rfl⟩
    · rename_i hne
      exact .inr ⟨hne, hf⟩
  have hglobals : globals ≠ s.store.size := Nat.ne_of_lt (h.lt_size h.outermost)
  refine
    { wellFormed := h.wellFormed.add (fun o ho => by cases ho; exact h.lt_size hc)
        (Table.distinct_ofList _)
      supply := h.supply
      lt_size := ?_
      outermost := hw _ _ h.outermost
      eq_globals := ?_
      root := ?_
      table := ?_
      inner := ?_ }
  · intro f scope hf
    rw [Store.size_add]
    rcases hcases hf with ⟨rfl, _⟩ | ⟨_, hf⟩
    · exact Nat.lt_succ_self _
    · exact Nat.lt_succ_of_lt (h.lt_size hf)
  · intro f hf
    rcases hcases hf with ⟨_, hf⟩ | ⟨_, hf⟩
    · cases hf
    · exact h.eq_globals hf
  · rw [Store.outer_add, if_neg hglobals]
    exact h.root
  · rw [Store.bindings_add, if_neg hglobals]
    exact h.table.mono fun _ _ => Stands.mono hw
  · intro f frame rest hf
    dsimp only
    rw [Store.outer_add, Store.bindings_add]
    rcases hcases hf with ⟨heq, hscope⟩ | ⟨hne, hf⟩
    · cases hscope
      rw [if_pos heq, if_pos heq]
      refine ⟨c.scope, rfl, hw _ _ hc, ?_⟩
      exact (Table.alike_ofList c.params hvs).mono fun _ _ => Stands.mono hw
    · obtain ⟨o, ho, hwo, hframe⟩ := h.inner hf
      rw [if_neg hne, if_neg hne]
      exact ⟨o, ho, hw _ _ hwo, hframe.mono fun _ _ => Stands.mono hw⟩

end Lexical

end SmallLisp
