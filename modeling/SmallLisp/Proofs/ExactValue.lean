-- Amounts are a faithful form of exact values. Each value on the extended line of rationals has
-- one normal amount: a decimal without a trailing zero, if it is a decimal at all. Doubles,
-- decimals and all other numbers are sent to the normal amounts of their values, so numbers
-- have equal amounts if and only if they have equal values.
import Mathlib.Algebra.Order.Field.Rat
import Mathlib.Data.Nat.Prime.Basic
import Mathlib.Data.Rat.Lemmas
import Mathlib.Tactic.Positivity
import Mathlib.Tactic.Ring
import SmallLisp.Number.Equality

namespace SmallLisp

/-! ## Exact values -/

/-- A value on the line of rationals with an infinity at either end. -/
inductive Extended where
  | finite (value : Rat)
  | infinite (negative : Bool)
  deriving DecidableEq, Repr

/-- The exact value of a double, unless it is a NaN. The sign of a zero is no part of it. -/
def Double.value? : Double → Option Extended
  | finite value => some (.finite value)
  | negativeZero => some (.finite 0)
  | infinite negative => some (.infinite negative)
  | nan _ => none

/-- The exact value of a decimal, unless it is a NaN. -/
def Decimal.value? : Decimal → Option Extended
  | finite negative coefficient exponent =>
    some (.finite (signed negative coefficient * 10 ^ exponent))
  | infinite negative => some (.infinite negative)
  | nan .. => none

/-- The exact value of a number as a point of the extended plane, unless there is a NaN in it.
Numbers of all kinds but one lie on the real axis. -/
def Number.value? : Number → Option (Extended × Extended)
  | int n => some (.finite n, .finite 0)
  | fraction r => some (.finite r, .finite 0)
  | double d => d.value?.map (·, .finite 0)
  | decimal d => d.value?.map (·, .finite 0)
  | complex re im => do some (← re.value?, ← im.value?)

/-! ## Decimals -/

theorem lt_ten_pow_digitCount (n : Nat) : n < 10 ^ digitCount n :=
  (digitCount_le_iff Nat.length_toDigits_pos).mp le_rfl

/-- Enough steps leave no zero at the end. -/
theorem not_ten_dvd_stripZeros {bound c : Nat} (e : Int) (hc : c ≠ 0) (hb : c < 10 ^ bound) :
    ¬ 10 ∣ (stripZeros bound c e).1 := by
  induction bound generalizing c e with
  | zero => omega
  | succ bound ih =>
    unfold stripZeros
    split
    · rw [Nat.pow_succ] at hb
      exact ih (e + 1) (by omega) (by omega)
    · rename_i h
      exact fun hdvd => h (Nat.mod_eq_zero_of_dvd hdvd)

/-- A decimal can be written with any smaller exponent. -/
theorem mul_ten_zpow (c e : Int) (k : Nat) :
    (c : Rat) * 10 ^ (e + k) = (c * 10 ^ k : Int) * 10 ^ e := by
  rw [zpow_add₀ (by norm_num), zpow_natCast]
  push_cast
  ring

/-- A decimal of two forms without trailing zeros has the same exponent in both. -/
theorem decimal_form_unique {c d e f : Int} (hc : ¬ 10 ∣ c) (hd : ¬ 10 ∣ d)
    (h : (c : Rat) * 10 ^ e = d * 10 ^ f) : c = d ∧ e = f := by
  wlog hle : e ≤ f generalizing c d e f
  · obtain ⟨hcd, hef⟩ := this hd hc h.symm (by omega)
    exact ⟨hcd.symm, hef.symm⟩
  obtain ⟨k, rfl⟩ : ∃ k : Nat, f = e + k := ⟨(f - e).toNat, by omega⟩
  have hcd : c = d * 10 ^ k := by
    rw [mul_ten_zpow] at h
    exact_mod_cast mul_right_cancel₀ (zpow_ne_zero e (by norm_num)) h
  cases k with
  | zero => exact ⟨by simpa using hcd, by simp⟩
  | succ k => exact absurd ⟨d * 10 ^ k, by rw [hcd, pow_succ]; ring⟩ hc

/-- A decimal can be written over a power of ten. -/
theorem den_dvd_of_eq_decimal {r : Rat} {c e : Int} (h : r = c * 10 ^ e) :
    ∃ k : Nat, r.den ∣ 10 ^ k := by
  have hr : r = (c * 10 ^ e.toNat : Int) / (10 ^ (-e).toNat : Int) := by
    push_cast
    rw [h, eq_div_iff (by positivity), mul_assoc, ← zpow_natCast, ← zpow_natCast,
      ← zpow_add₀ (by norm_num)]
    congr 2
    omega
  have hdvd := Rat.den_dvd (c * 10 ^ e.toNat) (10 ^ (-e).toNat)
  rw [Rat.divInt_eq_div, ← hr] at hdvd
  exact ⟨(-e).toNat, by exact_mod_cast hdvd⟩

/-- A divisor of any power of ten divides the one that its bit length gives: it has no more factors
of two or five than that. -/
theorem dvd_ten_pow_log2 {d k : Nat} (h : d ∣ 10 ^ k) : d ∣ 10 ^ d.log2 := by
  have hd : d ≠ 0 := by
    rintro rfl
    exact absurd (Nat.eq_zero_of_zero_dvd h) (by positivity)
  rw [show 10 = 2 * 5 by rfl, Nat.mul_pow] at h ⊢
  obtain ⟨x, y, hx, hy, rfl⟩ := Nat.dvd_mul.mp h
  obtain ⟨a, -, rfl⟩ := (Nat.dvd_prime_pow Nat.prime_two).mp hx
  obtain ⟨b, -, rfl⟩ := (Nat.dvd_prime_pow Nat.prime_five).mp hy
  have ha : a ≤ (2 ^ a * 5 ^ b).log2 :=
    (Nat.le_log2 hd).mpr (Nat.le_mul_of_pos_right _ (by positivity))
  have hb : b ≤ (2 ^ a * 5 ^ b).log2 := by
    refine (Nat.le_log2 hd).mpr ((Nat.pow_le_pow_left (show 2 ≤ 5 by decide) b).trans ?_)
    exact Nat.le_mul_of_pos_left _ (by positivity)
  exact Nat.mul_dvd_mul (pow_dvd_pow 2 ha) (pow_dvd_pow 5 hb)

/-! ## Normal amounts -/

namespace Amount

/-- The value that an amount stands for. -/
def value : Amount → Extended
  | decimal c e => .finite (c * 10 ^ e)
  | rational r => .finite r
  | infinite negative => .infinite negative

/-- The one amount of its value. -/
inductive Normal : Amount → Prop
  | zero : Normal zero
  | decimal {c e : Int} (h : ¬ 10 ∣ c) : Normal (decimal c e)
  | rational {r : Rat} (h : ∀ c e : Int, r ≠ c * 10 ^ e) : Normal (rational r)
  | infinite (negative : Bool) : Normal (infinite negative)

/-- The amount is the normal one of the value. -/
def Represents (x : Amount) (v : Extended) : Prop := x.Normal ∧ x.value = v

theorem value_zero : zero.value = .finite 0 := by simp [zero, value]

theorem represents_zero : zero.Represents (.finite 0) := ⟨.zero, value_zero⟩

theorem decimal_value_ne_zero {c e : Int} (h : ¬ 10 ∣ c) : (decimal c e).value ≠ .finite 0 := by
  intro hz
  have hc : c ≠ 0 := by
    rintro rfl
    exact h (dvd_zero _)
  simp [value, hc, zpow_ne_zero] at hz

theorem Normal.value_inj {x y : Amount} (hx : x.Normal) (hy : y.Normal) (h : x.value = y.value) :
    x = y := by
  cases hx with
  | zero =>
    rw [value_zero] at h
    cases hy with
    | zero => rfl
    | decimal hd => exact absurd h.symm (decimal_value_ne_zero hd)
    | rational hr => exact absurd (Extended.finite.inj h).symm (by simpa using hr 0 0)
    | infinite => cases h
  | @decimal c e hc =>
    cases hy with
    | zero => exact absurd (h.trans value_zero) (decimal_value_ne_zero hc)
    | decimal hd =>
      obtain ⟨rfl, rfl⟩ := decimal_form_unique hc hd (Extended.finite.inj h)
      rfl
    | rational hr => exact absurd (Extended.finite.inj h).symm (hr c e)
    | infinite => cases h
  | rational hr =>
    cases hy with
    | zero => exact absurd (Extended.finite.inj (h.trans value_zero)) (by simpa using hr 0 0)
    | decimal hd => exact absurd (Extended.finite.inj h) (hr _ _)
    | rational => rw [Extended.finite.inj h]
    | infinite => cases h
  | infinite s =>
    cases hy with
    | infinite t => rw [Extended.infinite.inj h]
    | zero | decimal | rational => cases h

theorem Represents.eq_iff {x y : Amount} {v w : Extended} (hx : x.Represents v)
    (hy : y.Represents w) : x = y ↔ v = w := by
  obtain ⟨hx, rfl⟩ := hx
  obtain ⟨hy, rfl⟩ := hy
  exact ⟨congrArg value, hx.value_inj hy⟩

/-! ## The amounts of numbers -/

theorem represents_ofDecimal (negative : Bool) (c : Nat) (e : Int) :
    (ofDecimal negative c e).Represents (.finite (Decimal.signed negative c * 10 ^ e)) := by
  unfold ofDecimal
  split
  · rename_i hc
    subst hc
    cases negative <;> simpa [Decimal.signed] using represents_zero
  · rename_i hc
    obtain ⟨k, hk, he⟩ := stripZeros_value (digitCount c) c e
    have hdvd := not_ten_dvd_stripZeros e hc (lt_ten_pow_digitCount c)
    generalize stripZeros (digitCount c) c e = p at hk he hdvd
    obtain ⟨d, f⟩ := p
    dsimp only at hk he hdvd ⊢
    subst hk he
    refine ⟨.decimal ?_, ?_⟩
    · cases negative <;> simpa using mod_cast hdvd
    · have hsigned : Decimal.signed negative (d * Nat.pow 10 k) =
          (if negative then -(d : Int) else d) * 10 ^ k := by
        cases negative <;> simp [Decimal.signed]
      rw [value, mul_ten_zpow, hsigned]

/-- The numerator with its sign apart. -/
theorem signed_natAbs_num (r : Rat) (q : Nat) :
    Decimal.signed (decide (r < 0)) (r.num.natAbs * q) = r.num * q := by
  unfold Decimal.signed
  by_cases h : r < 0
  · have hnum := Rat.num_neg.mpr h
    simp [h, abs_of_neg hnum]
  · have hnum := Rat.num_nonneg.mpr (not_lt.mp h)
    simp [h, abs_of_nonneg hnum]

theorem represents_ofRat (r : Rat) : (ofRat r).Represents (.finite r) := by
  unfold ofRat
  dsimp only
  rw [Nat.pow_eq]
  split
  · rename_i hmod
    obtain ⟨q, hq⟩ := Nat.dvd_of_mod_eq_zero hmod
    have hvalue : ((r.num * q : Int) : Rat) * 10 ^ (-(r.den.log2 : Int)) = r := by
      have hpow : (10 : Rat) ^ r.den.log2 = r.den * q := by exact_mod_cast hq
      have hden : (r.den : Rat) * q ≠ 0 := by
        rw [← hpow]
        positivity
      have hq0 : (q : Rat) ≠ 0 := right_ne_zero_of_mul hden
      rw [zpow_neg, zpow_natCast, hpow, ← div_eq_mul_inv]
      push_cast
      rw [mul_div_mul_right _ _ hq0, Rat.num_div_den]
    have hrep := represents_ofDecimal (decide (r < 0)) (r.num.natAbs * q) (-(r.den.log2 : Int))
    rw [signed_natAbs_num, hvalue] at hrep
    rw [hq, Nat.mul_div_cancel_left q r.den_pos]
    exact hrep
  · rename_i hmod
    refine ⟨.rational fun c e hr => hmod ?_, rfl⟩
    obtain ⟨k, hk⟩ := den_dvd_of_eq_decimal hr
    exact Nat.mod_eq_zero_of_dvd (dvd_ten_pow_log2 hk)

theorem rel_ofDouble? (d : Double) : Option.Rel Represents (ofDouble? d) d.value? := by
  cases d with
  | finite r => exact .some (represents_ofRat r)
  | negativeZero => exact .some represents_zero
  | infinite negative => exact .some ⟨.infinite negative, rfl⟩
  | nan => exact .none

theorem rel_ofDecimal? (d : Decimal) : Option.Rel Represents (ofDecimal? d) d.value? := by
  cases d with
  | finite negative c e => exact .some (represents_ofDecimal negative c e)
  | infinite negative => exact .some ⟨.infinite negative, rfl⟩
  | nan => exact .none

end Amount

namespace Number

/-- Two amounts are the normal ones of the two coordinates of a point. -/
def RepresentsPoint (x : Amount × Amount) (p : Extended × Extended) : Prop :=
  x.1.Represents p.1 ∧ x.2.Represents p.2

theorem RepresentsPoint.eq_iff {x y : Amount × Amount} {p q : Extended × Extended}
    (hx : RepresentsPoint x p) (hy : RepresentsPoint y q) : x = y ↔ p = q := by
  rw [Prod.ext_iff, Prod.ext_iff, hx.1.eq_iff hy.1, hx.2.eq_iff hy.2]

/-- A number on the real axis. -/
theorem rel_map_real {x : Option Amount} {v : Option Extended}
    (h : Option.Rel Amount.Represents x v) :
    Option.Rel RepresentsPoint (x.map (·, .zero)) (v.map (·, .finite 0)) := by
  cases h with
  | some h => exact .some ⟨h, Amount.represents_zero⟩
  | none => exact .none

/-- The amounts of a number are those of its exact value. -/
theorem rel_exactValue? (n : Number) : Option.Rel RepresentsPoint n.exactValue? n.value? := by
  cases n with
  | int n => exact .some ⟨Amount.represents_ofRat n, Amount.represents_zero⟩
  | fraction r => exact .some ⟨Amount.represents_ofRat r, Amount.represents_zero⟩
  | double d => exact rel_map_real (Amount.rel_ofDouble? d)
  | decimal d => exact rel_map_real (Amount.rel_ofDecimal? d)
  | complex re im =>
    have hre := Amount.rel_ofDouble? re
    have him := Amount.rel_ofDouble? im
    rw [exactValue?, value?]
    generalize Amount.ofDouble? re = x, re.value? = v at hre ⊢
    generalize Amount.ofDouble? im = y, im.value? = w at him ⊢
    cases hre with
    | none => exact .none
    | some hre =>
      cases him with
      | none => exact .none
      | some him => exact .some ⟨hre, him⟩

end Number

end SmallLisp
