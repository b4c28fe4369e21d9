-- Numbers that differ in the labels of their NaNs only. Such numbers print alike, and if the
-- labels match one to one they are equal to one another alike; their sums are alike again.
import Mathlib.Order.Basic
import SmallLisp.Number.Equality
import SmallLisp.Number.Text

namespace SmallLisp

/-- Labels match one to one. -/
def OneToOne (label : Nat → Nat → Prop) : Prop :=
  ∀ l l' m m', label l l' → label m m' → (l = m ↔ l' = m')

variable {label : Nat → Nat → Prop}

/-- Two results that are both there and related, or missing for the same cause. -/
inductive ExceptAlike {ε α β : Type} (A : α → β → Prop) : Except ε α → Except ε β → Prop
  | ok {a : α} {b : β} (h : A a b) : ExceptAlike A (.ok a) (.ok b)
  | error (e : ε) : ExceptAlike A (.error e) (.error e)

theorem ExceptAlike.bind {ε α β γ δ : Type} {A : α → β → Prop} {C : γ → δ → Prop}
    {x : Except ε α} {y : Except ε β} {f : α → Except ε γ} {g : β → Except ε δ}
    (h : ExceptAlike A x y) (hf : ∀ a b, A a b → ExceptAlike C (f a) (g b)) :
    ExceptAlike C (x >>= f) (y >>= g) := by
  cases h with
  | ok h => exact hf _ _ h
  | error e => exact .error e

theorem ExceptAlike.map {ε α β γ δ : Type} {A : α → β → Prop} {C : γ → δ → Prop}
    {x : Except ε α} {y : Except ε β} {f : α → γ} {g : β → δ} (h : ExceptAlike A x y)
    (hf : ∀ a b, A a b → C (f a) (g b)) : ExceptAlike C (x.map f) (y.map g) := by
  cases h with
  | ok h => exact .ok (hf _ _ h)
  | error e => exact .error e

/-! ## Doubles -/

namespace Double

inductive Alike (label : Nat → Nat → Prop) : Double → Double → Prop
  | same {x : Double} (h : x.isNaN = false) : Alike label x x
  | nan {l l' : Nat} (h : label l l') : Alike label (nan l) (nan l')

theorem isNaN_of_nearest? {r : Rat} {x : Double} (h : nearest? r = some x) : x.isNaN = false := by
  unfold nearest? at h
  simp only at h
  split at h
  · cases h; rfl
  · split at h
    · split at h <;> cases h <;> rfl
    · split at h <;> cases h
      rfl

theorem isNaN_nearest (r : Rat) : (nearest r).isNaN = false := by
  unfold nearest
  cases h : nearest? r with
  | none => rfl
  | some x => exact isNaN_of_nearest? h

/-- The sum of doubles that are no NaN shows the label only if it is a NaN itself. -/
theorem add_of_not_nan (l l' : Nat) {x y : Double} (hx : x.isNaN = false) (hy : y.isNaN = false) :
    (add l x y = nan l ∧ add l' x y = nan l') ∨
      (add l x y = add l' x y ∧ (add l x y).isNaN = false) := by
  cases x with
  | nan => cases hx
  | infinite s =>
    cases y with
    | nan => cases hy
    | infinite t =>
      by_cases h : s = t
      · exact .inr ⟨by simp [add, h], by simp [add, h, isNaN]⟩
      · exact .inl ⟨by simp [add, h], by simp [add, h]⟩
    | finite | negativeZero => exact .inr ⟨rfl, rfl⟩
  | finite r =>
    cases y with
    | nan => cases hy
    | infinite => exact .inr ⟨rfl, rfl⟩
    | finite | negativeZero => exact .inr ⟨rfl, isNaN_nearest _⟩
  | negativeZero =>
    cases y with
    | nan => cases hy
    | infinite | negativeZero => exact .inr ⟨rfl, rfl⟩
    | finite => exact .inr ⟨rfl, isNaN_nearest _⟩

theorem Alike.add {l l' : Nat} {x x' y y' : Double} (hl : label l l') (hx : Alike label x x')
    (hy : Alike label y y') : Alike label (add l x y) (add l' x' y') := by
  cases hx with
  | nan h => rw [add_nan_left, add_nan_left]; exact .nan hl
  | same h =>
    cases hy with
    | nan h => rw [add_nan_right, add_nan_right]; exact .nan hl
    | same h' =>
      rcases add_of_not_nan l l' h h' with ⟨h1, h2⟩ | ⟨h1, h2⟩
      · rw [h1, h2]; exact .nan hl
      · rw [← h1]; exact .same h2

theorem Alike.eq_iff (hlab : OneToOne label) {x x' y y' : Double} (hx : Alike label x x')
    (hy : Alike label y y') : x = y ↔ x' = y' := by
  cases hx with
  | same h => cases hy <;> grind [isNaN]
  | nan h => cases hy with
    | same h => grind [isNaN]
    | nan h' => simpa using hlab _ _ _ _ h h'

theorem Alike.textWith_eq {x x' : Double} (h : Alike label x x') (fill : String) :
    x.textWith fill = x'.textWith fill := by
  cases h <;> rfl

theorem Alike.isNegative_eq {x x' : Double} (h : Alike label x x') :
    x.isNegative = x'.isNegative := by
  cases h <;> rfl

theorem Alike.isZero_eq {x x' : Double} (h : Alike label x x') : x.isZero = x'.isZero := by
  cases h <;> rfl

theorem Alike.ofDouble?_eq {x x' : Double} (h : Alike label x x') :
    Amount.ofDouble? x = Amount.ofDouble? x' := by
  cases h <;> rfl

/-- A test that no NaN passes. -/
theorem Alike.eq_finite_iff {x x' : Double} (h : Alike label x x') (r : Rat) :
    x = finite r ↔ x' = finite r := by
  cases h <;> simp

end Double

/-! ## Decimals -/

namespace Decimal

inductive Alike (label : Nat → Nat → Prop) : Decimal → Decimal → Prop
  | same {x : Decimal} (h : x.isNaN = false) : Alike label x x
  | nan (negative signalling : Bool) (payload : Nat) {l l' : Nat} (h : label l l') :
      Alike label (nan negative signalling payload l) (nan negative signalling payload l')

theorem isNaN_fit {s : Bool} {c : Nat} {e : Int} {d : Decimal} (h : fit s c e = .ok d) :
    d.isNaN = false := by
  unfold fit at h
  grind [isNaN]

theorem isNaN_addFinite {s t : Bool} {c d : Nat} {e f : Int} {x : Decimal}
    (h : addFinite s c e t d f = .ok x) : x.isNaN = false := by
  unfold addFinite addOrdered addZero at h
  grind [isNaN_fit]

theorem Alike.isSignalling_eq {x x' : Decimal} (h : Alike label x x') :
    x.isSignalling = x'.isSignalling := by
  cases h <;> rfl

theorem Alike.ofDecimal?_eq {x x' : Decimal} (h : Alike label x x') :
    Amount.ofDecimal? x = Amount.ofDecimal? x' := by
  cases h <;> rfl

theorem Alike.text_eq {x x' : Decimal} (h : Alike label x x') : x.text = x'.text := by
  cases h <;> rfl

theorem Alike.eq_iff (hlab : OneToOne label) {x x' y y' : Decimal} (hx : Alike label x x')
    (hy : Alike label y y') : x = y ↔ x' = y' := by
  cases hx with
  | same h => cases hy <;> grind [isNaN]
  | nan _ _ _ h => cases hy with
    | same h => grind [isNaN]
    | nan _ _ _ h' =>
      have := hlab _ _ _ _ h h'
      grind

/-- The sum of decimals that are no NaN does not hang on the label, and is no NaN. -/
theorem add_of_not_nan (l l' : Nat) {x y : Decimal} (hx : x.isNaN = false) (hy : y.isNaN = false) :
    add l x y = add l' x y ∧ ∀ d, add l x y = .ok d → d.isNaN = false := by
  cases x with
  | nan => cases hx
  | infinite s =>
    cases y with
    | nan => cases hy
    | infinite t =>
      refine ⟨rfl, fun d hd => ?_⟩
      simp only [add] at hd
      split at hd <;> cases hd
      rfl
    | finite => exact ⟨rfl, fun d hd => by cases hd; rfl⟩
  | finite =>
    cases y with
    | nan => cases hy
    | infinite => exact ⟨rfl, fun d hd => by cases hd; rfl⟩
    | finite => exact ⟨rfl, fun d hd => isNaN_addFinite hd⟩

theorem Alike.add {l l' : Nat} {x x' y y' : Decimal} (hl : label l l') (hx : Alike label x x')
    (hy : Alike label y y') : ExceptAlike (Alike label) (add l x y) (add l' x' y') := by
  cases hx with
  | nan s signalling p h =>
    have hs := hy.isSignalling_eq
    simp only [Decimal.add, ← hs]
    split
    · exact .error _
    · exact .ok (.nan _ _ _ hl)
  | same h =>
    cases hy with
    | same h' =>
      obtain ⟨he, hn⟩ := add_of_not_nan l l' h h'
      rw [← he]
      cases hr : Decimal.add l x y with
      | error c => exact .error c
      | ok d => exact .ok (.same (hn d hr))
    | nan t signalling p h' =>
      cases x with
      | nan => cases h
      | infinite | finite =>
        simp only [Decimal.add]
        split
        · exact .error _
        · exact .ok (.nan _ _ _ hl)

end Decimal

/-! ## All numbers -/

namespace Number

inductive Alike (label : Nat → Nat → Prop) : Number → Number → Prop
  | int (n : Int) : Alike label (int n) (int n)
  | fraction (r : Rat) : Alike label (fraction r) (fraction r)
  | double {x x' : Double} (h : x.Alike label x') : Alike label (double x) (double x')
  | decimal {x x' : Decimal} (h : x.Alike label x') : Alike label (decimal x) (decimal x')
  | complex {x x' y y' : Double} (hx : x.Alike label x') (hy : y.Alike label y') :
      Alike label (complex x y) (complex x' y')

theorem Alike.mono {label' : Nat → Nat → Prop} (hl : ∀ l l', label l l' → label' l l')
    {n n' : Number} (h : Alike label n n') : Alike label' n n' := by
  have hd : ∀ {x x' : Double}, x.Alike label x' → x.Alike label' x' := fun h => by
    cases h with
    | same h => exact .same h
    | nan h => exact .nan (hl _ _ h)
  cases h with
  | int n => exact .int n
  | fraction r => exact .fraction r
  | double h => exact .double (hd h)
  | decimal h =>
    cases h with
    | same h => exact .decimal (.same h)
    | nan s t p h => exact .decimal (.nan s t p (hl _ _ h))
  | complex hx hy => exact .complex (hd hx) (hd hy)

theorem Alike.text_eq {n n' : Number} (h : Alike label n n') : n.text = n'.text := by
  cases h with
  | int | fraction => rfl
  | double h => exact h.textWith_eq _
  | decimal h => simp only [text, h.text_eq]
  | complex hx hy =>
    simp only [text, complexText, hx.textWith_eq, hy.textWith_eq, hy.isNegative_eq,
      hx.eq_finite_iff]

theorem Alike.isWritable_eq {n n' : Number} (h : Alike label n n') :
    n.isWritable = n'.isWritable := by
  cases h <;> rfl

theorem Alike.isSignalling_eq {n n' : Number} (h : Alike label n n') :
    n.isSignalling = n'.isSignalling := by
  cases h with
  | decimal h => exact h.isSignalling_eq
  | _ => rfl

theorem Alike.offAxis_eq {n n' : Number} (h : Alike label n n') : n.offAxis = n'.offAxis := by
  cases h with
  | complex hx hy => simp only [offAxis, hy.isZero_eq]
  | _ => rfl

theorem Alike.exactValue?_eq {n n' : Number} (h : Alike label n n') :
    n.exactValue? = n'.exactValue? := by
  cases h with
  | int | fraction => rfl
  | double h => simp only [exactValue?, h.ofDouble?_eq]
  | decimal h => simp only [exactValue?, h.ofDecimal?_eq]
  | complex hx hy => simp only [exactValue?, hx.ofDouble?_eq, hy.ofDouble?_eq]

theorem Alike.eq_iff (hlab : OneToOne label) {m m' n n' : Number} (hm : Alike label m m')
    (hn : Alike label n n') : m = n ↔ m' = n' := by
  cases hm with
  | int | fraction => cases hn <;> simp
  | double h =>
    cases hn with
    | double h' => simpa using h.eq_iff hlab h'
    | _ => simp
  | decimal h =>
    cases hn with
    | decimal h' => simpa using h.eq_iff hlab h'
    | _ => simp
  | complex hx hy =>
    cases hn with
    | complex hx' hy' => simp [hx.eq_iff hlab hx', hy.eq_iff hlab hy']
    | _ => simp

theorem Alike.equal_eq (hlab : OneToOne label) {m m' n n' : Number} (hm : Alike label m m')
    (hn : Alike label n n') : m.equal n = m'.equal n' := by
  simp only [equal, hm.eq_iff hlab hn, hm.isSignalling_eq, hn.isSignalling_eq, hm.offAxis_eq,
    hn.offAxis_eq, hm.exactValue?_eq, hn.exactValue?_eq]

/-! ## Sums -/

theorem Alike.toDouble {n n' : Number} (h : Alike label n n') :
    ExceptAlike (Double.Alike label) n.toDouble n'.toDouble := by
  have real : ∀ {x : Except SumFault Double}, (∀ d, x = .ok d → d.isNaN = false) →
      ExceptAlike (Double.Alike label) x x := by
    intro x hx
    cases x with
    | error c => exact .error c
    | ok d => exact .ok (.same (hx d rfl))
  cases h with
  | int n | fraction r =>
    refine real fun d hd => ?_
    unfold Number.toDouble at hd
    dsimp only at hd
    split at hd
    · rename_i hr
      cases hd
      exact Double.isNaN_of_nearest? hr
    · cases hd
  | double h => exact .ok h
  | decimal h => exact .error _
  | complex hx hy => exact .error _

/-- Both parts of a complex number are alike. -/
def PartsAlike (label : Nat → Nat → Prop) (p p' : Double × Double) : Prop :=
  p.1.Alike label p'.1 ∧ p.2.Alike label p'.2

theorem Alike.toComplex {n n' : Number} (h : Alike label n n') :
    ExceptAlike (PartsAlike label) n.toComplex n'.toComplex := by
  have real : ∀ {n n' : Number}, Alike label n n' → ExceptAlike (PartsAlike label)
      (do .ok (← n.toDouble, Double.finite 0)) (do .ok (← n'.toDouble, Double.finite 0)) :=
    fun h => h.toDouble.bind fun _ _ hd => .ok ⟨hd, .same rfl⟩
  cases h with
  | complex hx hy => exact .ok ⟨hx, hy⟩
  | int n => exact real (.int n)
  | fraction r => exact real (.fraction r)
  | double h => exact real (.double h)
  | decimal h => exact real (.decimal h)

theorem Alike.addComplex {l l' : Nat} {m m' n n' : Number} (hl : label l l')
    (hl1 : label (l + 1) (l' + 1)) (hm : Alike label m m') (hn : Alike label n n') :
    ExceptAlike (Alike label) (addComplex l m n) (addComplex l' m' n') :=
  hm.toComplex.bind fun _ _ hp => hn.toComplex.bind fun _ _ hq =>
    .ok (.complex (hp.1.add hl hq.1) (hp.2.add hl1 hq.2))

/-- Alike numbers have alike sums, or fail to add alike. -/
theorem Alike.add {l l' : Nat} {m m' n n' : Number} (hl : label l l')
    (hl1 : label (l + 1) (l' + 1)) (hm : Alike label m m') (hn : Alike label n n') :
    ExceptAlike (Alike label) (add l m n) (add l' m' n') := by
  have decimals : ∀ {x x' y y' : Decimal}, x.Alike label x' → y.Alike label y' →
      ExceptAlike (Alike label) ((x.add l y).map Number.decimal)
        ((x'.add l' y').map Number.decimal) :=
    fun hx hy => (hx.add hl hy).map fun _ _ h => .decimal h
  have doubles : ∀ {a a' b b' : Number}, Alike label a a' → Alike label b b' →
      ExceptAlike (Alike label) (do .ok (Number.double ((← a.toDouble).add l (← b.toDouble))))
        (do .ok (Number.double ((← a'.toDouble).add l' (← b'.toDouble)))) :=
    fun ha hb => ha.toDouble.bind fun _ _ hx => hb.toDouble.bind fun _ _ hy =>
      .ok (.double (hx.add hl hy))
  cases hm with
  | int a =>
    cases hn with
    | int b => exact .ok (.int _)
    | fraction b => exact .ok (.fraction _)
    | decimal h => exact decimals (.same rfl) h
    | double h => exact doubles (.int a) (.double h)
    | complex hx hy => exact addComplex hl hl1 (.int a) (.complex hx hy)
  | fraction a =>
    cases hn with
    | int b | fraction b => exact .ok (.fraction _)
    | decimal h => exact .error _
    | double h => exact doubles (.fraction a) (.double h)
    | complex hx hy => exact addComplex hl hl1 (.fraction a) (.complex hx hy)
  | double h =>
    cases hn with
    | int b => exact doubles (.double h) (.int b)
    | fraction b => exact doubles (.double h) (.fraction b)
    | decimal h => exact .error _
    | double h' => exact doubles (.double h) (.double h')
    | complex hx hy => exact addComplex hl hl1 (.double h) (.complex hx hy)
  | decimal h =>
    cases hn with
    | int b => exact decimals h (.same rfl)
    | decimal h' => exact decimals h h'
    | _ => exact .error _
  | complex hx hy =>
    cases hn with
    | decimal h => exact .error _
    | int b => exact addComplex hl hl1 (.complex hx hy) (.int b)
    | fraction b => exact addComplex hl hl1 (.complex hx hy) (.fraction b)
    | double h => exact addComplex hl hl1 (.complex hx hy) (.double h)
    | complex hx' hy' => exact addComplex hl hl1 (.complex hx hy) (.complex hx' hy')

end Number

end SmallLisp
