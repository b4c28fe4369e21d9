-- Equality is equality of canonical forms. The form of a value leaves out all that equality does
-- not look at: which empty value it is, the brackets of a list, the kind of a number and the sign
-- of a zero. What is left of a NaN and of a closure is which one it is.
import SmallLisp.Proofs.ExactValue
import SmallLisp.Value.Equality

namespace SmallLisp

/-! ## Canonical forms -/

/-- What equality sees of a value. -/
inductive Canon where
  | nil
  | bool (b : Bool)
  /-- A number by its exact value; its imaginary part is zero if the number is not complex. -/
  | point (re im : Extended)
  /-- A number with a NaN in it, which is the same as itself only. -/
  | nan (n : Number)
  | symbol (name : String)
  | closure (id : Nat)
  /-- A list that is not empty. -/
  | sequence (items : List Canon)
  /-- A value of the host, which the language leaves to the host to compare. -/
  | host (kind : HostKind) (parts : List Value)

namespace Canon

/-- The form of a list; all empty lists count as nil. -/
def ofItems : List Canon → Canon
  | [] => nil
  | c :: cs => sequence (c :: cs)

theorem ofItems_eq (cs : List Canon) : ofItems cs = if cs.isEmpty then nil else sequence cs := by
  cases cs <;> rfl

theorem ofItems_eq_nil_iff {cs : List Canon} : ofItems cs = nil ↔ cs = [] := by
  cases cs <;> simp [ofItems]

theorem ofItems_inj {cs ds : List Canon} : ofItems cs = ofItems ds ↔ cs = ds := by
  cases cs <;> cases ds <;> simp [ofItems]

end Canon

/-- The form of a number. -/
def Number.canon (n : Number) : Canon :=
  match n.value? with
  | some (re, im) => .point re im
  | none => .nan n

namespace Value

mutual
/-- The form of a value. -/
def canon : Value → Canon
  | .nil | .null => .nil
  | .bool b => .bool b
  | .number n => n.canon
  | .symbol name => .symbol name
  | .list _ items => .ofItems (canons items)
  | .closure c => .closure c.id
  | .host kind parts => .host kind parts
termination_by structural v => v

/-- The forms of values. -/
def canons : List Value → List Canon
  | [] => []
  | v :: vs => canon v :: canons vs
termination_by structural vs => vs
end

mutual
/-- Neither a value of the host nor a signalling NaN is in the value, outside of closures. -/
def isPlain : Value → Bool
  | .nil | .null | .bool _ | .symbol _ | .closure _ => true
  | .number n => !n.isSignalling
  | .list _ items => arePlain items
  | .host .. => false
termination_by structural v => v

/-- All values are plain. -/
def arePlain : List Value → Bool
  | [] => true
  | v :: vs => isPlain v && arePlain vs
termination_by structural vs => vs
end

theorem canons_eq_map (vs : List Value) : canons vs = vs.map canon := by
  induction vs with
  | nil => rfl
  | cons v vs ih => rw [canons, ih, List.map_cons]

theorem length_eq_of_canons_eq {vs ws : List Value} (h : canons vs = canons ws) :
    vs.length = ws.length := by
  rw [canons_eq_map, canons_eq_map] at h
  simpa using congrArg List.length h

theorem arePlain_iff {vs : List Value} : arePlain vs ↔ ∀ v ∈ vs, v.isPlain := by
  induction vs with
  | nil => simp [arePlain]
  | cons v vs ih => rw [arePlain, Bool.and_eq_true, ih, List.forall_mem_cons]

end Value

theorem Number.canon_ne_nil (n : Number) : n.canon ≠ .nil := by
  unfold canon
  cases n.value? <;> exact Canon.noConfusion

/-- The empty values are those that have the form of nil. -/
theorem Value.canon_eq_nil_iff (v : Value) : v.canon = .nil ↔ v.isNil = true := by
  cases v with
  | nil | null => simp [canon, isNil]
  | list b items => rw [canon, Canon.ofItems_eq_nil_iff, canons_eq_map]; simp
  | number n => simpa [canon, isNil] using n.canon_ne_nil
  | bool | symbol | closure | host => simp [canon, isNil]

/-! ## Answers that are decided -/

/-- The question has an answer, and the answer is whether the proposition holds. -/
def Decides (answer : Option Bool) (p : Prop) : Prop :=
  ∃ b, answer = some b ∧ (b = true ↔ p)

namespace Decides

variable {p q : Prop}

theorem of_iff {b : Bool} (h : b = true ↔ p) : Decides (some b) p := ⟨b, rfl, h⟩

theorem congr {answer : Option Bool} (h : Decides answer p) (hpq : p ↔ q) : Decides answer q := by
  obtain ⟨b, hb, hp⟩ := h
  exact ⟨b, hb, hp.trans hpq⟩

theorem eq_some_true_iff {answer : Option Bool} (h : Decides answer p) :
    answer = some true ↔ p := by
  obtain ⟨b, rfl, hp⟩ := h
  rw [Option.some.injEq, hp]

/-- Two questions in turn, the second only after a yes. -/
theorem and_then {first second : Option Bool} (h : Decides first p) (h' : p → Decides second q) :
    Decides (do if ← first then second else some false) (p ∧ q) := by
  obtain ⟨b, rfl, hp⟩ := h
  cases b with
  | false => exact of_iff (by simpa using fun hpp => absurd (hp.mpr hpp) Bool.false_ne_true)
  | true =>
    have hpp := hp.mp rfl
    exact (h' hpp).congr (by simp [hpp])

theorem isSome {answer : Option Bool} (h : Decides answer p) : answer.isSome := by
  obtain ⟨b, rfl, -⟩ := h
  rfl

/-- Questions with the same answer. -/
theorem unique {first second : Option Bool} (h : Decides first p) (h' : Decides second p) :
    first = second := by
  obtain ⟨b, rfl, hp⟩ := h
  obtain ⟨c, rfl, hq⟩ := h'
  rw [Bool.eq_iff_iff.mpr (hp.trans hq.symm)]

end Decides

/-! ## Equality decides whether forms are equal -/

theorem Number.decides_equal {m n : Number} (hm : m.isSignalling = false)
    (hn : n.isSignalling = false) : Decides (m.equal n) (m.canon = n.canon) := by
  unfold equal
  split
  · rename_i h
    exact .of_iff (by simp [h])
  rename_i hne
  rw [hm, hn]
  have hxm := m.rel_exactValue?
  have hxn := n.rel_exactValue?
  unfold canon
  generalize m.exactValue? = x, m.value? = v at hxm ⊢
  generalize n.exactValue? = y, n.value? = w at hxn ⊢
  cases hxm with
  | none =>
    cases hxn with
    | none => exact .of_iff (by simpa using hne)
    | some => exact .of_iff (by simp)
  | some hxm =>
    cases hxn with
    | none => exact .of_iff (by simp)
    | some hxn => exact .of_iff (by simp [hxm.eq_iff hxn, Prod.ext_iff])

namespace Value

theorem decides_equalItems {vs ws : List Value}
    (h : ∀ v ∈ vs, ∀ w ∈ ws, Decides (v.equal w) (v.canon = w.canon)) :
    Decides (equalItems vs ws) (canons vs = canons ws) := by
  induction vs generalizing ws with
  | nil => cases ws <;> exact .of_iff (by simp [canons])
  | cons v vs ih =>
    cases ws with
    | nil => exact .of_iff (by simp [canons])
    | cons w ws =>
      have hhead := h v List.mem_cons_self w List.mem_cons_self
      have htail := ih fun v' hv w' hw =>
        h v' (List.mem_cons_of_mem _ hv) w' (List.mem_cons_of_mem _ hw)
      exact (hhead.and_then fun _ => htail).congr (by simp [canons])

/-- A list is compared by its items, but an empty one equals each empty value. -/
theorem decides_equal_list {b : Brackets} {items : List Value} {w : Value}
    (h : ∀ c others, w = list c others →
      Decides (equalItems items others) (canons items = canons others)) :
    Decides ((list b items).equal w) ((list b items).canon = w.canon) := by
  unfold equal
  split
  · rename_i hnil
    refine .of_iff ?_
    simp only [← isNil_list b, Bool.or_eq_true, Bool.and_eq_true, ← canon_eq_nil_iff] at hnil ⊢
    refine ⟨fun hboth => hboth.1.trans hboth.2.symm, fun heq => ?_⟩
    rw [heq] at hnil ⊢
    exact hnil.elim (fun hw => ⟨hw, hw⟩) (fun hw => ⟨hw, hw⟩)
  · rename_i hnil
    cases w with
    | list c others =>
      show Decides (if items.length ≠ others.length then some false else equalItems items others) _
      rw [canon, canon, Canon.ofItems_inj]
      split
      · rename_i hlen
        exact .of_iff (by simpa using fun he => hlen (length_eq_of_canons_eq he))
      · exact h c others rfl
    | _ => exact .of_iff (by grind [canon, Canon.ofItems_eq, Number.canon, isNil])

/-- Whether two plain values are equal is decided, and they are if they have the same form. -/
theorem decides_equal {v w : Value} (hv : v.isPlain) (hw : w.isPlain) :
    Decides (v.equal w) (v.canon = w.canon) := by
  induction v using Value.induct generalizing w with
  | nil | null => exact .of_iff (by rw [← canon_eq_nil_iff, eq_comm]; rfl)
  | number m =>
    cases w with
    | number n =>
      simp only [isPlain, Bool.not_eq_true'] at hv hw
      exact Number.decides_equal hv hw
    | _ => exact .of_iff (by grind [canon, Canon.ofItems_eq, Number.canon])
  | list b items ih =>
    refine decides_equal_list fun c others hw' => decides_equalItems fun v hv' w hw'' => ?_
    subst hw'
    exact ih v hv' (arePlain_iff.mp hv v hv') (arePlain_iff.mp hw w hw'')
  | bool | symbol | closure =>
    cases w <;> exact .of_iff (by grind [canon, Canon.ofItems_eq, Number.canon])
  | host => cases hv

theorem equal_eq_some_true_iff {v w : Value} (hv : v.isPlain) (hw : w.isPlain) :
    v.equal w = some true ↔ v.canon = w.canon := (decides_equal hv hw).eq_some_true_iff

/-- The values that the language compares by itself: all but those of the host, and without a
signalling NaN. -/
abbrev Plain := { v : Value // v.isPlain }

/-- Equality of the language is equality of canonical forms, so it is an equivalence: of two values
that the language compares by itself it always gives an answer. -/
theorem equal_is_equality_of_canonical_forms :
    (∀ v w : Plain, Decides (v.1.equal w.1) (v.1.canon = w.1.canon)) ∧
      Equivalence fun v w : Plain => v.1.equal w.1 = some true := by
  have h : ∀ v w : Plain, v.1.equal w.1 = some true ↔ v.1.canon = w.1.canon :=
    fun v w => equal_eq_some_true_iff v.2 w.2
  refine ⟨fun v w => decides_equal v.2 w.2, fun v => (h v v).mpr rfl, fun hvw => ?_,
    fun huv hvw => ?_⟩
  · exact (h _ _).mpr ((h _ _).mp hvw).symm
  · exact (h _ _).mpr (((h _ _).mp huv).trans ((h _ _).mp hvw))

/-- Numbers of three kinds and all empty values, in lists with both brackets. -/
theorem half_is_half_in_every_kind :
    let v : Value := .list .square [.number (.decimal (.finite false 50 (-2))), .nil,
      .list .round []]
    let w : Value := .list .round [.number (.complex (.finite (1 / 2)) .negativeZero),
      .list .square [], .null]
    v.isPlain ∧ w.isPlain ∧ v.canon = w.canon ∧ v.equal w = some true := by
  intro v w
  have hcanon : v.canon = w.canon := by
    norm_num [v, w, canon, canons, Canon.ofItems, Number.canon, Number.value?, Decimal.value?,
      Double.value?, Decimal.signed]
  have hdecides := equal_is_equality_of_canonical_forms.1 ⟨v, rfl⟩ ⟨w, rfl⟩
  exact ⟨rfl, rfl, hcanon, hdecides.eq_some_true_iff.mpr hcanon⟩

end Value

end SmallLisp
