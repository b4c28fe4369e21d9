-- Equal values in place of one another. The choice between two nodes, `car`, `cdr` and further
-- comparisons do alike with two equal values: all that they look at is in the canonical form,
-- except that `car` and `cdr` take `null` for no list while each value equal to it is an empty one.
import SmallLisp.Proofs.Canonical
import SmallLisp.Proofs.Judgement

namespace SmallLisp

open Run

/-! ## Items -/

namespace Value

/-- The items that `car` and `cdr` find in a value, if they take it for a list. -/
def items? : Value → Option (List Value)
  | nil => some []
  | list _ items => some items
  | _ => none

theorem itemsOf_eq (operation : Builtin) (v : Value) :
    Form.itemsOf operation v = match v.items? with
      | some items => pure items
      | none => fail (.notAList operation v) := by
  cases v <;> rfl

theorem arePlain_of_items? {v : Value} {items : List Value} (hv : v.isPlain)
    (h : v.items? = some items) : arePlain items := by
  cases v with
  | nil => cases h; rfl
  | list b others => cases h; exact hv
  | _ => cases h

theorem canon_head (items : List Value) :
    (items.head?.getD .nil).canon = (canons items).head?.getD .nil := by
  cases items <;> rfl

theorem canon_listOrNil (items : List Value) :
    (Form.listOrNil items).canon = .ofItems (canons items) := by
  cases items <;> rfl

theorem canons_tail (items : List Value) : canons items.tail = (canons items).tail := by
  cases items <;> rfl

theorem isPlain_head {items : List Value} (h : arePlain items) :
    (items.head?.getD .nil).isPlain := by
  cases items with
  | nil => rfl
  | cons v vs => exact arePlain_iff.mp h v List.mem_cons_self

theorem isPlain_tail {items : List Value} (h : arePlain items) :
    (Form.listOrNil items.tail).isPlain := by
  match items with
  | [] | [_] => rfl
  | _ :: v :: vs => exact arePlain_iff.mpr fun w hw => arePlain_iff.mp h w (.tail _ hw)

end Value

/-- The items in a form. -/
def Canon.items? : Canon → Option (List Canon)
  | nil => some []
  | sequence items => some items
  | _ => none

/-- Whether a value is taken for a list, and what its items are, can be seen in its form, but for
`null`. -/
theorem Value.map_items? {v : Value} (h : v ≠ .null) : v.items?.map canons = v.canon.items? := by
  cases v with
  | null => exact absurd rfl h
  | list b items =>
    rw [canon, Canon.ofItems_eq]
    cases items <;> rfl
  | number n =>
    unfold canon Number.canon
    cases n.value? <;> rfl
  | nil | bool | symbol | closure | host => rfl

theorem Value.exists_items? {v : Value} (h : v ≠ .null) (hv : Canon.nil = v.canon) :
    ∃ items, v.items? = some items := by
  have hitems := map_items? h
  rw [← hv] at hitems
  obtain ⟨items, hi, -⟩ := Option.map_eq_some_iff.mp hitems
  exact ⟨items, hi⟩

/-! ## What the host writes -/

/-- If neither value is a list, the host writes both or neither. -/
def Value.WrittenAlike (a b : Value) : Prop :=
  a.isList = false → b.isList = false → a.isWritable = b.isWritable

theorem Value.isList_of_items?_eq_none {v : Value} (h : v.items? = none) : v.isList = false := by
  cases v with
  | list b items => cases h
  | _ => rfl

/-- Nil is the only value that has items and is no list. -/
theorem Value.isWritable_of_items? {v : Value} {items : List Value} (h : v.items? = some items)
    (hv : v.isList = false) : v.isWritable = true := by
  cases v with
  | nil => rfl
  | list b items => cases hv
  | _ => cases h

/-- Exact numbers of one value are one number, or a whole number and a fraction over one. -/
theorem Number.isWritable_eq_of_canon_eq {m n : Number} (hm : m.IsExact) (hn : n.IsExact)
    (h : m.canon = n.canon) : m.isWritable = n.isWritable := by
  have hwhole : ∀ a : Int, (int a).isWritable = (fraction a).isWritable := by
    intro a
    have hone : digitCount 1 ≤ digitLimit := by decide
    simp [isWritable, hone]
  cases m with
  | int a =>
    cases n with
    | int b =>
      simp only [canon, value?, Canon.point.injEq, Extended.finite.injEq] at h
      rw [Int.cast_inj.mp h.1]
    | fraction q =>
      simp only [canon, value?, Canon.point.injEq, Extended.finite.injEq] at h
      rw [← h.1]
      exact hwhole a
    | _ => exact hn.elim
  | fraction r =>
    cases n with
    | int b =>
      simp only [canon, value?, Canon.point.injEq, Extended.finite.injEq] at h
      rw [h.1]
      exact (hwhole b).symm
    | fraction q =>
      simp only [canon, value?, Canon.point.injEq, Extended.finite.injEq] at h
      rw [h.1]
    | _ => exact hn.elim
  | _ => exact hm.elim

/-! ## Ends that are equal -/

/-- Both runs end with values that are equal, or both with the fault of an invalid result, or both
with the host's refusal to write what the fault shows. -/
inductive EndsEqual : EStateM.Result Stop State Value → EStateM.Result Stop State Value → Prop
  | values {u v : Value} {s t : State} (h : u.equal v = some true) : EndsEqual (.ok u s) (.ok v t)
  | faults {f g : Fault} {s t : State} (hf : f.kind = .invalidResult)
      (hg : g.kind = .invalidResult) : EndsEqual (.error (.fault f) s) (.error (.fault g) t)
  | refusals {f g : Fault} {s t : State} (hf : f.kind = .badValue) (hg : g.kind = .badValue) :
      EndsEqual (.error (.fault f) s) (.error (.fault g) t)

/-- The faults of two values that are no lists are alike if the host writes both values or neither. -/
theorem endsEqual_notAList_iff (operation : Builtin) (a b : Value) (s t : State) :
    EndsEqual (.error (.fault (.notAList operation a)) s)
      (.error (.fault (.notAList operation b)) t) ↔ a.isWritable = b.isWritable := by
  have hkind : ∀ v, (Fault.notAList operation v).kind =
      if v.isWritable then .invalidResult else .badValue := fun _ => Fault.kind_of_shown rfl
  have ha := hkind a
  have hb := hkind b
  constructor
  · intro h
    cases h with
    | faults hf hg | refusals hf hg =>
      rw [ha] at hf
      rw [hb] at hg
      cases hwa : a.isWritable <;> cases hwb : b.isWritable <;> simp_all
  · intro h
    rw [h] at ha
    cases hwb : b.isWritable with
    | true => exact .faults (by simp [ha, hwb]) (by simp [hb, hwb])
    | false => exact .refusals (by simp [ha, hwb]) (by simp [hb, hwb])

section

variable {eval : Value → Run Value} {x y : Value} {s s' t t' : State} {a b : Value}

/-- The choice reads nothing off the value of its condition but whether it is an empty one. -/
theorem choose_eq (yes no : Value) (hx : eval x s = .ok a t) :
    Form.choose eval [x, yes, no] s = eval (if a.isNil then no else yes) t := by
  show (eval x >>= fun v => if v.isNil then eval no else eval yes) s = _
  rw [bind_of_ok hx]
  split <;> rfl

/-- What `car` and `cdr` have in common: they take some value from the items of a list. -/
theorem take_eq (operation : Builtin) (take : List Value → Value) (hx : eval x s = .ok a t) :
    (do return take (← Form.itemsOf operation (← eval x)) : Run Value) s = match a.items? with
      | some items => .ok (take items) t
      | none => .error (.fault (.notAList operation a)) t := by
  rw [bind_of_ok hx, Value.itemsOf_eq]
  cases a.items? <;> rfl

theorem endsEqual_take_iff (operation : Builtin) (take : List Value → Value)
    (htake : ∀ is js, Value.arePlain is → Value.arePlain js → Value.canons is = Value.canons js →
      (take is).equal (take js) = some true)
    (ha : a.isPlain) (hb : b.isPlain) (hab : a.canon = b.canon) (hx : eval x s = .ok a t)
    (hy : eval y s' = .ok b t') :
    EndsEqual ((do return take (← Form.itemsOf operation (← eval x)) : Run Value) s)
      ((do return take (← Form.itemsOf operation (← eval y)) : Run Value) s') ↔
      (a = .null ↔ b = .null) ∧ a.WrittenAlike b := by
  rw [take_eq operation take hx, take_eq operation take hy]
  by_cases hanull : a = .null
  · subst hanull
    by_cases hbnull : b = .null
    · subst hbnull
      exact iff_of_true (.faults rfl rfl) ⟨Iff.rfl, fun _ _ => rfl⟩
    · obtain ⟨js, hjs⟩ := Value.exists_items? hbnull hab
      rw [hjs]
      refine iff_of_false nofun ?_
      rintro ⟨hnull, -⟩
      exact hbnull (hnull.mp rfl)
  · by_cases hbnull : b = .null
    · subst hbnull
      obtain ⟨is, his⟩ := Value.exists_items? hanull hab.symm
      rw [his]
      refine iff_of_false nofun ?_
      rintro ⟨hnull, -⟩
      exact hanull (hnull.mpr rfl)
    · have hnull : a = .null ↔ b = .null := iff_of_false hanull hbnull
      have hitems := Value.map_items? hanull
      rw [hab, ← Value.map_items? hbnull] at hitems
      cases his : a.items? with
      | none =>
        rw [his] at hitems
        have hjs := Option.map_eq_none_iff.mp hitems.symm
        rw [hjs]
        refine (endsEqual_notAList_iff operation a b t t').trans ⟨fun h => ⟨hnull, fun _ _ => h⟩, ?_⟩
        rintro ⟨-, h⟩
        exact h (Value.isList_of_items?_eq_none his) (Value.isList_of_items?_eq_none hjs)
      | some is =>
        rw [his] at hitems
        obtain ⟨js, hjs, hcanons⟩ := Option.map_eq_some_iff.mp hitems.symm
        rw [hjs]
        refine iff_of_true (.values ?_) ⟨hnull, fun hla hlb => ?_⟩
        · exact htake is js (Value.arePlain_of_items? ha his) (Value.arePlain_of_items? hb hjs)
            hcanons.symm
        · rw [Value.isWritable_of_items? his hla, Value.isWritable_of_items? hjs hlb]

theorem endsEqual_car_iff (ha : a.isPlain) (hb : b.isPlain) (hab : a.canon = b.canon)
    (hx : eval x s = .ok a t) (hy : eval y s' = .ok b t') :
    EndsEqual (Form.car eval [x] s) (Form.car eval [y] s') ↔
      (a = .null ↔ b = .null) ∧ a.WrittenAlike b := by
  refine endsEqual_take_iff .car (fun items => items.head?.getD .nil)
    (fun is js his hjs hc => ?_) ha hb hab hx hy
  rw [Value.equal_eq_some_true_iff (Value.isPlain_head his) (Value.isPlain_head hjs),
    Value.canon_head, Value.canon_head, hc]

theorem endsEqual_cdr_iff (ha : a.isPlain) (hb : b.isPlain) (hab : a.canon = b.canon)
    (hx : eval x s = .ok a t) (hy : eval y s' = .ok b t') :
    EndsEqual (Form.cdr eval [x] s) (Form.cdr eval [y] s') ↔
      (a = .null ↔ b = .null) ∧ a.WrittenAlike b := by
  refine endsEqual_take_iff .cdr (fun items => Form.listOrNil items.tail)
    (fun is js his hjs hc => ?_) ha hb hab hx hy
  rw [Value.equal_eq_some_true_iff (Value.isPlain_tail his) (Value.isPlain_tail hjs),
    Value.canon_listOrNil, Value.canon_listOrNil, Value.canons_tail, Value.canons_tail, hc]

/-- Equal values are interchangeable as conditions and for comparisons, and as arguments of `car`
and `cdr` if and only if both are `null` or neither is. Two that are no lists fail alike, since the
host writes both into its message or neither; equal numbers of different kinds need not be alike in
this, but whole numbers and fractions are. -/
theorem equal_values_are_interchangeable_but_for_null (ha : a.isPlain) (hb : b.isPlain)
    (hab : a.equal b = some true) (hx : eval x s = .ok a t) (hy : eval y s' = .ok b t') :
    ((∀ yes no, Form.choose eval [x, yes, no] s = eval yes t ∧
        Form.choose eval [y, yes, no] s' = eval yes t') ∨
      (∀ yes no, Form.choose eval [x, yes, no] s = eval no t ∧
        Form.choose eval [y, yes, no] s' = eval no t')) ∧
    (EndsEqual (Form.car eval [x] s) (Form.car eval [y] s') ↔
      (a = .null ↔ b = .null) ∧ a.WrittenAlike b) ∧
    (EndsEqual (Form.cdr eval [x] s) (Form.cdr eval [y] s') ↔
      (a = .null ↔ b = .null) ∧ a.WrittenAlike b) ∧
    (∀ m n : Number, a = .number m → b = .number n → m.IsExact → n.IsExact → a.WrittenAlike b) ∧
    ∀ c : Value, c.isPlain → a.equal c = b.equal c ∧ (a.equal c).isSome := by
  have hcanon := (Value.equal_eq_some_true_iff ha hb).mp hab
  refine ⟨?_, endsEqual_car_iff ha hb hcanon hx hy, endsEqual_cdr_iff ha hb hcanon hx hy,
    ?_, fun c hc => ?_⟩
  · have hnil : a.isNil = b.isNil := by
      rw [Bool.eq_iff_iff, ← Value.canon_eq_nil_iff, ← Value.canon_eq_nil_iff, hcanon]
    simp only [choose_eq _ _ hx, choose_eq _ _ hy, hnil]
    cases b.isNil
    · exact .inl fun yes no => ⟨rfl, rfl⟩
    · exact .inr fun yes no => ⟨rfl, rfl⟩
  · rintro m n rfl rfl hm hn - -
    exact Number.isWritable_eq_of_canon_eq hm hn hcanon
  · have h := Value.decides_equal ha hc
    rw [hcanon] at h
    have h' := Value.decides_equal hb hc
    exact ⟨h.unique h', h.isSome⟩

/-- Two lists in different brackets, with other empty values and other kinds of numbers in them. -/
theorem lists_of_equal_items_are_interchangeable :
    let start : State := ⟨.empty, 0, #[]⟩
    let eval := fun n => evaluate (fun _ => .standard) 2 0 n 0
    let a : Value := .list .square [.number (.int 1), .list .square [], .bool true]
    let b : Value := .list .round [.number (.fraction 1), .null, .bool true]
    let x : Value := .ofList [.symbol "quote", a]
    let y : Value := .ofList [.symbol "quote", b]
    a.isPlain ∧ b.isPlain ∧ a.equal b = some true ∧
      (∃ t, eval x start = .ok a t) ∧ (∃ t, eval y start = .ok b t) ∧
      EndsEqual (Form.car eval [x] start) (Form.car eval [y] start) ∧
      EndsEqual (Form.cdr eval [x] start) (Form.cdr eval [y] start) := by
  intro start eval a b x y
  have hab : a.equal b = some true := by decide
  have heval : ∀ v, ∃ t, eval (.ofList [.symbol "quote", v]) start = .ok v t := fun v => ⟨_, rfl⟩
  obtain ⟨t, hx⟩ := heval a
  obtain ⟨t', hy⟩ := heval b
  have h := equal_values_are_interchangeable_but_for_null rfl rfl hab hx hy
  have hnull : (a = .null ↔ b = .null) ∧ a.WrittenAlike b := ⟨by simp [a, b], nofun⟩
  exact ⟨rfl, rfl, hab, ⟨t, hx⟩, ⟨t', hy⟩, h.2.1.mpr hnull, h.2.2.1.mpr hnull⟩

/-- The language takes `null` for equal to nil, and for false like nil, but `car` of nil is nil and
`car` of `null` fails. -/
theorem null_is_equal_to_nil_but_has_no_car :
    let start : State := ⟨.empty, 0, #[]⟩
    let eval := fun n => evaluate (fun _ => .standard) 2 0 n 0
    let quoted : Value → Value := fun v => .ofList [.symbol "quote", v]
    Value.nil.equal .null = some true ∧
      endValue? (Form.car eval [quoted .nil] start) = some .nil ∧
      (∃ t, Form.car eval [quoted .null] start = .error (.fault (.notAList .car .null)) t) ∧
      ¬ EndsEqual (Form.car eval [quoted .nil] start) (Form.car eval [quoted .null] start) := by
  intro start eval quoted
  refine ⟨rfl, rfl, ⟨_, rfl⟩, fun h => ?_⟩
  cases h

end

end SmallLisp
