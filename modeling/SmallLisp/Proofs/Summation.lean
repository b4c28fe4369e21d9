-- Sums of whatever values the arguments have. A sum is taken from left to right and ends at the
-- first value that cannot be added. That is reported as an invalid result if the value is no
-- number, or if it and the total are of kinds that do not mix; but if one of them lies past a limit
-- of the other's kind, the fault of that kind of number shows instead.
import Mathlib.Algebra.Group.Int.Defs
import SmallLisp.Proofs.DecimalSum
import SmallLisp.Proofs.Judgement

namespace SmallLisp

open Run

/-! ## Why two numbers have no sum -/

namespace Number

def isDecimal : Number → Bool
  | decimal _ => true
  | _ => false

/-- Decimals are added to decimals and to whole numbers only. -/
def takesDecimals : Number → Bool
  | decimal _ | int _ => true
  | _ => false

/-- Sums with such a number are taken in doubles. -/
def isFloating : Number → Bool
  | double _ | complex .. => true
  | _ => false

/-- One of the numbers is a decimal, and the other is one that decimals are not added to. -/
def unmixable (a b : Number) : Bool :=
  (a.isDecimal && !b.takesDecimals) || (b.isDecimal && !a.takesDecimals)

/-- The number is an exact one with no double near to it, which is the cause. -/
def IsBeyondDoubles : Number → SumFault → Prop
  | int n, .integerTooLarge => Double.nearest? (Rat.ofInt n) = none
  | fraction r, .fractionTooLarge => Double.nearest? r = none
  | _, _ => False

/-- The number as a decimal, if decimals are added to it. -/
def toDecimal? : Number → Option Decimal
  | decimal d => some d
  | int n => some (.ofInt n)
  | _ => none

/-- One of the numbers is a decimal and both are taken as decimals, of which the relation holds. -/
def AsDecimals (a b : Number) (relation : Decimal → Decimal → Prop) : Prop :=
  (a.isDecimal || b.isDecimal) ∧
    ∃ x y, a.toDecimal? = some x ∧ b.toDecimal? = some y ∧ relation x y

/-- The cause keeps the numbers from having a sum: their kinds do not mix, or one of them is beyond
the doubles that the other one needs, or their sum as decimals is not defined or too large. -/
def Obstacle (a b : Number) : SumFault → Prop
  | .unaddable => a.unmixable b
  | .integerTooLarge =>
    (a.IsBeyondDoubles .integerTooLarge ∧ b.isFloating) ∨
      (a.isFloating ∧ b.IsBeyondDoubles .integerTooLarge)
  | .fractionTooLarge =>
    (a.IsBeyondDoubles .fractionTooLarge ∧ b.isFloating) ∨
      (a.isFloating ∧ b.IsBeyondDoubles .fractionTooLarge)
  | .decimalInvalid => a.AsDecimals b Decimal.Undefined
  | .decimalOverflow => a.AsDecimals b Decimal.TooLarge

end Number

section

variable {label : Nat} {cause : SumFault}

namespace Number

/-! ### Numbers that are added as doubles -/

theorem toDouble_eq_error_iff {n : Number} (hn : n.isDecimal = false)
    (hc : ∀ re im, n ≠ complex re im) : n.toDouble = .error cause ↔ n.IsBeyondDoubles cause := by
  cases n with
  | int n =>
    cases hd : Double.nearest? (Rat.ofInt n) <;> cases cause <;>
      simp [toDouble, IsBeyondDoubles, hd, -Rat.ofInt_eq_cast]
  | fraction r =>
    cases hd : Double.nearest? r <;> cases cause <;> simp [toDouble, IsBeyondDoubles, hd]
  | double => exact iff_of_false nofun id
  | complex re im => exact absurd rfl (hc re im)
  | decimal => cases hn

theorem toComplex_eq_error_iff {n : Number} (hn : n.isDecimal = false) :
    n.toComplex = .error cause ↔ n.IsBeyondDoubles cause := by
  have hreal : ∀ m : Number, m.isDecimal = false → (∀ re im, m ≠ complex re im) →
      ((do .ok (← m.toDouble, Double.finite 0)) = Except.error cause ↔
        m.IsBeyondDoubles cause) := by
    intro m hm hc
    rw [← toDouble_eq_error_iff hm hc]
    cases m.toDouble <;> simp [bind, Except.bind]
  cases n with
  | complex => exact iff_of_false nofun id
  | _ => exact hreal _ hn nofun

theorem IsBeyondDoubles.not_floating {n : Number} (h : n.IsBeyondDoubles cause) :
    n.isFloating = false := by
  cases n with
  | int | fraction => rfl
  | _ => exact h.elim

theorem IsBeyondDoubles.tooLarge {n : Number} (h : n.IsBeyondDoubles cause) :
    cause = .integerTooLarge ∨ cause = .fractionTooLarge := by
  cases cause with
  | integerTooLarge | fractionTooLarge => simp
  | _ => cases n <;> exact h.elim

/-- Where a sum is taken in doubles, either number may be the one that has none. -/
theorem obstacle_iff_of_floating {a b : Number} (ha : a.isDecimal = false)
    (hb : b.isDecimal = false) (hab : a.isFloating || b.isFloating) :
    a.Obstacle b cause ↔ a.IsBeyondDoubles cause ∨ b.IsBeyondDoubles cause := by
  constructor
  · intro h
    cases cause with
    | integerTooLarge | fractionTooLarge => exact h.imp And.left And.right
    | unaddable => simp [Obstacle, unmixable, ha, hb] at h
    | decimalInvalid | decimalOverflow => simp [Obstacle, AsDecimals, ha, hb] at h
  · rintro (h | h)
    · have hfloating : b.isFloating := by simpa [h.not_floating] using hab
      rcases h.tooLarge with rfl | rfl <;> exact .inl ⟨h, hfloating⟩
    · have hfloating : a.isFloating := by simpa [h.not_floating] using hab
      rcases h.tooLarge with rfl | rfl <;> exact .inr ⟨hfloating, h⟩

/-- A sum that is taken after a conversion of both numbers fails only with a conversion, and one of
them does not fail. -/
theorem conversions_eq_error_iff {α : Type} {a b : Number} {x y : Except SumFault α}
    {f : α → α → Number} (ha : a.isDecimal = false) (hb : b.isDecimal = false)
    (hab : a.isFloating || b.isFloating) (hx : ∀ {c}, x = .error c ↔ a.IsBeyondDoubles c)
    (hy : ∀ {c}, y = .error c ↔ b.IsBeyondDoubles c) :
    (do .ok (f (← x) (← y))) = Except.error cause ↔ a.Obstacle b cause := by
  rw [obstacle_iff_of_floating ha hb hab, ← hx, ← hy]
  cases x with
  | ok u => cases y <;> simp [bind, Except.bind]
  | error c =>
    cases y with
    | ok v => simp [bind, Except.bind]
    | error d =>
      rw [(hx.mp rfl).not_floating, (hy.mp rfl).not_floating] at hab
      cases hab

theorem addComplex_eq_error_iff {a b : Number} (ha : a.isDecimal = false)
    (hb : b.isDecimal = false) (hab : a.isFloating || b.isFloating) :
    addComplex label a b = .error cause ↔ a.Obstacle b cause :=
  conversions_eq_error_iff ha hb hab (toComplex_eq_error_iff ha) (toComplex_eq_error_iff hb)

/-! ### Numbers that are added as decimals -/

theorem add_eq_of_toDecimal? {a b : Number} {x y : Decimal} (hab : a.isDecimal || b.isDecimal)
    (hx : a.toDecimal? = some x) (hy : b.toDecimal? = some y) (label : Nat) :
    a.add label b = (x.add label y).map decimal := by
  cases a with
  | decimal | int =>
    cases hx
    cases b with
    | decimal | int =>
      cases hy
      first
        | rfl
        | cases hab
    | _ => cases hy
  | _ => cases hx

theorem map_eq_error_iff {x : Except SumFault Decimal} :
    x.map decimal = .error cause ↔ x = .error cause := by
  cases x <;> simp [Except.map]

theorem takes_of_toDecimal? {n : Number} {x : Decimal} (hx : n.toDecimal? = some x) :
    n.takesDecimals = true ∧ n.isFloating = false := by
  cases n with
  | decimal | int => exact ⟨rfl, rfl⟩
  | _ => cases hx

theorem decimals_eq_error_iff {a b : Number} {x y : Decimal} (hab : a.isDecimal || b.isDecimal)
    (hx : a.toDecimal? = some x) (hy : b.toDecimal? = some y) :
    a.add label b = .error cause ↔ a.Obstacle b cause := by
  rw [add_eq_of_toDecimal? hab hx hy, map_eq_error_iff, Decimal.add_eq_error_iff]
  obtain ⟨ha, ha'⟩ := takes_of_toDecimal? hx
  obtain ⟨hb, hb'⟩ := takes_of_toDecimal? hy
  cases cause with
  | unaddable => simp [Obstacle, unmixable, ha, hb]
  | integerTooLarge | fractionTooLarge => simp [Obstacle, ha', hb']
  | decimalInvalid | decimalOverflow => simp [Obstacle, AsDecimals, hab, hx, hy]

/-! ### All kinds -/

/-- Kinds that do not mix have no sum, whatever the numbers are. -/
theorem add_of_unmixable {a b : Number} (h : a.unmixable b) (label : Nat) :
    a.add label b = .error .unaddable := by
  cases a <;> cases b <;> first | rfl | cases h

theorem obstacle_iff_of_unmixable {a b : Number} (h : a.unmixable b) :
    a.Obstacle b cause ↔ cause = .unaddable := by
  cases cause with
  | unaddable => exact iff_of_true h rfl
  | _ =>
    refine iff_of_false (fun hobstacle => ?_) nofun
    cases a <;> cases b <;>
      first
        | exact absurd h Bool.false_ne_true
        | simp [Obstacle, AsDecimals, toDecimal?, isFloating, IsBeyondDoubles] at hobstacle

/-- Exact numbers have a sum. -/
theorem not_obstacle_of_exact {a b : Number} (ha : a.IsExact) (hb : b.IsExact) :
    ¬ a.Obstacle b cause := by
  intro h
  cases a <;> cases b <;>
    first
      | exact ha.elim
      | exact hb.elim
      | cases cause <;> simp [Obstacle, AsDecimals, unmixable, isDecimal, isFloating] at h

/-- Two numbers have no sum for a cause if and only if it keeps them from having one. -/
theorem add_eq_error_iff (label : Nat) (a b : Number) (cause : SumFault) :
    a.add label b = .error cause ↔ a.Obstacle b cause := by
  cases hmix : a.unmixable b with
  | true =>
    rw [add_of_unmixable hmix, obstacle_iff_of_unmixable hmix, Except.error.injEq, eq_comm]
  | false =>
    cases a with
    | decimal x =>
      cases b with
      | decimal | int => exact decimals_eq_error_iff rfl rfl rfl
      | _ => cases hmix
    | complex re im =>
      cases b with
      | decimal => cases hmix
      | _ => exact addComplex_eq_error_iff rfl rfl rfl
    | int | fraction | double =>
      cases b with
      | decimal =>
        first
          | exact decimals_eq_error_iff rfl rfl rfl
          | cases hmix
      | complex => exact addComplex_eq_error_iff rfl rfl rfl
      | int | fraction | double =>
        first
          | exact iff_of_false nofun (not_obstacle_of_exact trivial trivial)
          | exact conversions_eq_error_iff rfl rfl rfl (toDouble_eq_error_iff rfl nofun)
              (toDouble_eq_error_iff rfl nofun)

end Number

end

/-! ## Values in turn -/

namespace Form

/-- From one state to another, nodes evaluate to these values in turn. With each value comes the
first of two labels, which are set aside for a sum with it. -/
inductive Gathers (eval : Value → Run Value) :
    State → List Value → List (Value × Nat) → State → Prop
  | nil {s : State} : Gathers eval s [] [] s
  | cons {s t u : State} {node v : Value} {rest : List Value} {vs : List (Value × Nat)}
      (heval : eval node s = .ok v t)
      (hrest : Gathers eval { t with supply := t.supply + 2 } rest vs u) :
      Gathers eval s (node :: rest) ((v, t.supply) :: vs) u

/-- The total with one more value added to it. -/
def plus (total : Number) : Value × Nat → Except Fault Number
  | (.number n, label) =>
    match total.add label n with
    | .ok sum => .ok sum
    | .error cause => .error (.sum cause n total)
  | (v, _) => .error (.notANumber v)

variable {eval : Value → Run Value} {s t : State} {nodes : List Value} {vs : List (Value × Nat)}

theorem addTo_eq (total n : Number) : addTo total n s =
    match plus total (.number n, s.supply) with
    | .ok sum => .ok sum { s with supply := s.supply + 2 }
    | .error f => .error (.fault f) { s with supply := s.supply + 2 } := by
  show (match total.add s.supply n with
    | .ok sum => (pure sum : Run Number)
    | .error cause => fail (.sum cause n total)) { s with supply := s.supply + 2 } = _
  unfold plus
  dsimp only
  cases total.add s.supply n <;> rfl

/-- What a sum does with the value of a node. -/
def addNext (eval : Value → Run Value) (total : Number) (nodes : List Value) : Value → Run Number
  | .number n => do sum eval (← addTo total n) nodes
  | v => fail (.notANumber v)

theorem sum_cons (node : Value) (total : Number) :
    sum eval total (node :: nodes) = eval node >>= addNext eval total nodes := rfl

theorem addNext_of_ok {v : Value} {total total' : Number}
    (h : plus total (v, s.supply) = .ok total') :
    addNext eval total nodes v s = sum eval total' nodes { s with supply := s.supply + 2 } := by
  cases v with
  | number n =>
    have hadd := addTo_eq (s := s) total n
    rw [h] at hadd
    exact bind_of_ok hadd
  | _ => cases h

theorem addNext_of_error (eval : Value → Run Value) (nodes : List Value) {v : Value}
    {total : Number} {f : Fault} (h : plus total (v, s.supply) = .error f) :
    ∃ u, addNext eval total nodes v s = .error (.fault f) u := by
  cases v with
  | number n =>
    have hadd := addTo_eq (s := s) total n
    rw [h] at hadd
    exact ⟨_, bind_of_error hadd⟩
  | _ => cases h; exact ⟨s, rfl⟩

/-- A sum is that of the values, or ends with the fault of the first value that cannot be added. -/
theorem Gathers.sum_eq (h : Gathers eval s nodes vs t) (total : Number) :
    (∃ total', vs.foldlM plus total = .ok total' ∧ sum eval total nodes s = .ok total' t) ∨
      ∃ before v after total' f u, vs = before ++ v :: after ∧
        before.foldlM plus total = .ok total' ∧ plus total' v = .error f ∧
        sum eval total nodes s = .error (.fault f) u := by
  induction h generalizing total with
  | nil => exact .inl ⟨total, rfl, rfl⟩
  | @cons s t u node v rest vs heval hrest ih =>
    rw [sum_cons, bind_of_ok heval]
    cases hplus : plus total (v, t.supply) with
    | error f =>
      obtain ⟨u, hsum⟩ := addNext_of_error eval rest hplus
      exact .inr ⟨[], (v, t.supply), vs, total, f, u, rfl, rfl, hplus, hsum⟩
    | ok next =>
      rw [addNext_of_ok hplus, List.foldlM_cons, hplus]
      rcases ih next with ⟨total', hfold, hsum⟩ |
        ⟨before, w, after, total', f, u, rfl, hfold, hw, hsum⟩
      · exact .inl ⟨total', hfold, hsum⟩
      · refine .inr ⟨(v, t.supply) :: before, w, after, total', f, u, rfl, ?_, hw, hsum⟩
        rw [List.foldlM_cons, hplus]
        exact hfold

/-- The fault of a number shows why there is no sum with it. -/
theorem add_eq_error_of_plus {total n : Number} {label : Nat} {f : Fault}
    (h : plus total (.number n, label) = .error f) :
    ∃ cause, total.add label n = .error cause ∧ f = .sum cause n total := by
  unfold plus at h
  dsimp only at h
  cases hadd : total.add label n with
  | ok sum => rw [hadd] at h; cases h
  | error cause => rw [hadd] at h; cases h; exact ⟨cause, rfl, rfl⟩

/-- The value is none to add to the total: it is no number, or of a kind that does not mix with the
total's. -/
def Unaddable (total : Number) (v : Value) : Prop :=
  v.isNumber = false ∨ ∃ n, v = .number n ∧ total.unmixable n

/-- The host writes what the message about such a value shows: the value, and the total as well if
the value is a number. -/
def IsWritten (total : Number) (v : Value) : Prop :=
  v.isWritable = true ∧ (v.isNumber = true → total.isWritable = true)

/-- The fault of a value that is none to add is an invalid result, if it can be put in words. -/
structure IsInvalid (total : Number) (v : Value) (f : Fault) : Prop where
  unaddable : Unaddable total v
  intended : f.intended = .invalidResult
  isWritable_iff : f.isWritable = true ↔ IsWritten total v

/-- The fault of a number that is past a limit of the total's kind, or it is past one of its own. -/
def IsAtLimit (total : Number) (v : Value) (f : Fault) : Prop :=
  ∃ n cause, v = .number n ∧ f = .sum cause n total ∧ cause ≠ .unaddable ∧ total.Obstacle n cause

theorem isInvalid_or_isAtLimit {total : Number} {v : Value} {label : Nat} {f : Fault}
    (h : plus total (v, label) = .error f) : IsInvalid total v f ∨ IsAtLimit total v f := by
  cases v with
  | number n =>
    obtain ⟨cause, hadd, rfl⟩ := add_eq_error_of_plus h
    have hobstacle := (Number.add_eq_error_iff label total n cause).mp hadd
    by_cases hcause : cause = .unaddable
    · subst hcause
      refine .inl ⟨.inr ⟨n, rfl, hobstacle⟩, rfl, ?_⟩
      simp [Fault.isWritable, Fault.shown, IsWritten, Value.isWritable, Value.isNumber]
    · exact .inr ⟨n, cause, rfl, rfl, hcause, hobstacle⟩
  | _ =>
    cases h
    refine .inl ⟨.inl rfl, rfl, ?_⟩
    simp [Fault.isWritable, Fault.shown, IsWritten, Value.isNumber]

theorem IsAtLimit.kind_ne {total : Number} {v : Value} {f : Fault} (h : IsAtLimit total v f) :
    f.kind ≠ .invalidResult ∧ f.kind ≠ .badValue := by
  obtain ⟨n, cause, -, rfl, hcause, -⟩ := h
  cases cause with
  | unaddable => exact absurd rfl hcause
  | _ => exact ⟨nofun, nofun⟩

/-- What is at a limit could be added to by its kind. -/
theorem IsAtLimit.not_unaddable {total : Number} {v : Value} {f : Fault}
    (h : IsAtLimit total v f) : ¬ Unaddable total v := by
  obtain ⟨n, cause, rfl, -, hcause, hobstacle⟩ := h
  rintro (hnumber | ⟨m, hm, hmix⟩)
  · cases hnumber
  · cases hm
    have hadd := (Number.add_eq_error_iff 0 total n cause).mpr hobstacle
    rw [Number.add_of_unmixable hmix] at hadd
    exact hcause (Except.error.inj hadd).symm

/-- Invalid results are values that are none to add, where the host writes them. -/
theorem kind_eq_invalidResult_iff {total : Number} {v : Value} {label : Nat} {f : Fault}
    (h : plus total (v, label) = .error f) :
    f.kind = .invalidResult ↔ Unaddable total v ∧ IsWritten total v := by
  rcases isInvalid_or_isAtLimit h with hf | hf
  · have hkind := Fault.kind_iff_isWritable (hf.intended.trans_ne (by decide))
    rw [hf.intended] at hkind
    rw [hkind.1, hf.isWritable_iff]
    simp [hf.unaddable]
  · exact iff_of_false hf.kind_ne.1 fun h => hf.not_unaddable h.1

/-- The host refuses where it does not write a value that is none to add, or the total. -/
theorem kind_eq_badValue_iff {total : Number} {v : Value} {label : Nat} {f : Fault}
    (h : plus total (v, label) = .error f) :
    f.kind = .badValue ↔ Unaddable total v ∧ ¬ IsWritten total v := by
  rcases isInvalid_or_isAtLimit h with hf | hf
  · have hkind := Fault.kind_iff_isWritable (hf.intended.trans_ne (by decide))
    rw [hkind.2, ← hf.isWritable_iff]
    simp [hf.unaddable]
  · exact iff_of_false hf.kind_ne.2 fun h => hf.not_unaddable h.1

/-- The sum of arguments that all have values is the sum of these from left to right. If there is
none, the first value that cannot be added is to blame. It is reported as an invalid result if and
only if it is no number or does not mix with the sum so far, and the host writes it and, if it is a
number, this sum; where it writes one of them not, its own refusal shows. Otherwise the value or the
sum so far is beyond the doubles that the other one needs, or their sum as decimals is not defined,
since one signals or they are opposite infinities, or is past the greatest exponent. -/
theorem a_sum_that_fails_is_reported_unless_at_a_limit (h : Gathers eval s nodes vs t) :
    (∃ total, vs.foldlM plus (.int 0) = .ok total ∧ add eval nodes s = .ok (.number total) t) ∨
      ∃ before v label after total f u, vs = before ++ (v, label) :: after ∧
        before.foldlM plus (.int 0) = .ok total ∧ plus total (v, label) = .error f ∧
        add eval nodes s = .error (.fault f) u ∧
        (f.kind = .invalidResult ↔ Unaddable total v ∧ IsWritten total v) ∧
        (f.kind = .badValue ↔ Unaddable total v ∧ ¬ IsWritten total v) ∧
        (¬ Unaddable total v → ∃ n cause, v = .number n ∧ f = .sum cause n total ∧
          cause ≠ .unaddable ∧ total.Obstacle n cause) := by
  rcases h.sum_eq (.int 0) with ⟨total, hfold, hsum⟩ |
    ⟨before, ⟨v, label⟩, after, total, f, u, hvs, hfold, hplus, hsum⟩
  · exact .inl ⟨total, hfold, bind_of_ok hsum⟩
  · refine .inr ⟨before, v, label, after, total, f, u, hvs, hfold, hplus, bind_of_error hsum,
      kind_eq_invalidResult_iff hplus, kind_eq_badValue_iff hplus, fun hv => ?_⟩
    exact (isInvalid_or_isAtLimit hplus).resolve_left fun hf => hv hf.unaddable

/-- Decimals and doubles do not mix, and that is reported. -/
theorem a_decimal_and_a_double_have_no_sum :
    let start : State := ⟨.empty, 0, #[]⟩
    let eval := fun n => evaluate (fun _ => .standard) 1 0 n 0
    let one : Number := .decimal (.finite false 1 0)
    let half : Number := .double (.finite (1 / 2))
    ∃ vs t f u, Gathers eval start [.number one, .number half] vs t ∧
      add eval [.number one, .number half] start = .error (.fault f) u ∧
      f.kind = .invalidResult ∧ one.unmixable half := by
  intro start eval one half
  have h : Gathers eval start [.number one, .number half] _ _ := .cons rfl (.cons rfl .nil)
  rcases a_sum_that_fails_is_reported_unless_at_a_limit h with ⟨total, -, hadd⟩ |
    ⟨before, v, label, after, total, f, u, -, -, -, hadd, -, -, -⟩
  · cases hadd
  · cases hadd
    exact ⟨_, _, _, _, h, rfl, rfl, rfl⟩

/-- A whole number beyond the doubles and a double. -/
theorem plus_of_beyond_doubles {n : Int} (h : Double.nearest? (Rat.ofInt n) = none) (d : Double)
    (label : Nat) :
    plus (.int n) (.number (.double d), label) =
      .error (.sum .integerTooLarge (.double d) (.int n)) := by
  unfold plus Number.add Number.toDouble
  simp only [h]
  rfl

/-- Sums that fail and are not reported: a whole number is beyond the doubles, infinities have no
sum, the sum of two decimals is too large, and a list is no number, but the host does not write the
one in it, which is twice the greatest that it writes. -/
theorem sums_at_a_limit_are_not_reported :
    let start : State := ⟨.empty, 0, #[]⟩
    let eval := fun n => evaluate (fun _ => .standard) 3 0 n 0
    let fails : List Value → Fault.Kind → Prop := fun nodes kind =>
      (∃ vs t, Gathers eval start nodes vs t) ∧
        ∃ f u, add eval nodes start = .error (.fault f) u ∧ f.kind = kind
    let greatest : Value := .number (.int greatestWritten)
    fails [.number (.int (10 ^ 200 * 10 ^ 200)), .number (.double (.finite (3 / 2)))] .tooLarge ∧
      fails [.number (.decimal (.infinite false)), .number (.decimal (.infinite true))]
        .decimalInvalid ∧
      fails [.number (.decimal (.finite false 9 999999)),
        .number (.decimal (.finite false 9 999999))] .decimalOverflow ∧
      fails [.ofList [.symbol "cons", .symbol "a", .ofList [.symbol "+", greatest, greatest]]]
        .badValue := by
  intro start eval fails greatest
  have heval : ∀ (m : Number) (s : State), eval (.number m) s =
      .ok (.number m) { s with trail := s.trail.push (.evaluated 0 (.number m) 0) } :=
    fun _ _ => rfl
  have hgathers : ∀ a b : Number, ∃ vs t, Gathers eval start [.number a, .number b] vs t :=
    fun a b => ⟨_, _, .cons (heval a _) (.cons (heval b _) .nil)⟩
  have hbeyond : ∀ n : Int, Double.nearest? (Rat.ofInt n) = none →
      fails [.number (.int n), .number (.double (.finite (3 / 2)))] .tooLarge := by
    intro n hn
    rw [← Int.zero_add n] at hn
    have hfirst : ∀ label, plus (.int 0) (.number (.int n), label) = .ok (.int (0 + n)) :=
      fun _ => rfl
    have hsum : ∃ u,
        sum eval (.int 0) [.number (.int n), .number (.double (.finite (3 / 2)))] start =
          .error (.fault (.sum .integerTooLarge (.double (.finite (3 / 2))) (.int (0 + n)))) u := by
      rw [sum_cons, bind_of_ok (heval _ _), addNext_of_ok (hfirst _), sum_cons,
        bind_of_ok (heval _ _)]
      exact addNext_of_error _ _ (plus_of_beyond_doubles hn _ _)
    obtain ⟨u, hsum⟩ := hsum
    exact ⟨hgathers _ _, _, u, bind_of_error hsum, rfl⟩
  have hunwritten : ∀ n : Int, (Number.int (n + n)).isWritable = false →
      fails [.ofList [.symbol "cons", .symbol "a",
        .ofList [.symbol "+", .number (.int n), .number (.int n)]]] .badValue := by
    intro n hn
    refine ⟨⟨_, _, .cons rfl .nil⟩,
      .notANumber (.ofList [.symbol "a", .number (.int (0 + n + n))]), _, rfl, ?_⟩
    refine Fault.kind_of_not_isWritable ?_
    simpa [Fault.isWritable, Fault.shown, Value.isWritable] using hn
  exact ⟨hbeyond _ (by decide +kernel), ⟨hgathers _ _, _, _, rfl, rfl⟩,
    ⟨hgathers _ _, _, _, rfl, rfl⟩, hunwritten _ Number.isWritable_greatest.2⟩

end Form

end SmallLisp
