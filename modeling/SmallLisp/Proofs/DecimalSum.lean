-- Decimals that have no sum. A sum is not defined if a NaN in it signals or if it is one of
-- opposite infinities; and it is too large if its exact value, rounded, would need an exponent past
-- the greatest. The short cut that addition takes with a far smaller addend never changes that.
import Mathlib.Algebra.Order.Ring.Rat
import Mathlib.Tactic.Linarith
import Mathlib.Tactic.NormNum
import SmallLisp.Proofs.ExactValue

namespace SmallLisp

/-! ## Rounding up to an even number -/

/-- A quotient is rounded to at least an even number if it is at most half a unit below. -/
theorem le_roundHalfEven_iff {m n d : Nat} (hd : 0 < d) (hm : m % 2 = 0) :
    m ≤ roundHalfEven n d ↔ 2 * (m * d) ≤ 2 * n + d := by
  obtain ⟨hhigh, hlow⟩ := roundHalfEven_near n d hd
  constructor
  · intro h
    have := Nat.mul_le_mul_right d h
    omega
  · intro h
    by_contra hlt
    -- else the quotient lies half a unit above an odd number, and that tie is rounded up
    have hnext : (roundHalfEven n d + 1) * d ≤ m * d := Nat.mul_le_mul_right d (by omega)
    rw [Nat.add_mul, Nat.one_mul] at hnext
    have hquotient : n / d = roundHalfEven n d :=
      Nat.div_eq_of_lt_le (by omega) (by rw [Nat.add_mul]; omega)
    have htie : 2 * (n % d) = d := by
      have hsplit := Nat.div_add_mod n d
      rw [hquotient, Nat.mul_comm] at hsplit
      omega
    have heven := roundHalfEven_even_of_tie n d htie
    have hfar : (roundHalfEven n d + 2) * d ≤ m * d := Nat.mul_le_mul_right d (by omega)
    rw [Nat.add_mul] at hfar
    omega

/-! ## The size of a decimal -/

namespace Decimal

variable {c : Nat} {e : Int}

theorem ten_zpow_pos (e : Int) : (0 : Rat) < 10 ^ e := zpow_pos (by norm_num) e

theorem ten_zpow_le {e f : Int} (h : e ≤ f) : (10 : Rat) ^ e ≤ 10 ^ f :=
  zpow_le_zpow_right₀ (by norm_num) h

/-- The place of the first digit. -/
def lead (c : Nat) (e : Int) : Int := e + digitCount c - 1

theorem zpow_lead_le (hc : c ≠ 0) (e : Int) : (10 : Rat) ^ lead c e ≤ c * 10 ^ e := by
  have hpos : 0 < digitCount c := Nat.length_toDigits_pos
  obtain ⟨k, hk⟩ : ∃ k, digitCount c = k + 1 := ⟨digitCount c - 1, by omega⟩
  have hle : 10 ^ k ≤ c := by
    rcases Nat.eq_zero_or_pos k with rfl | hk0
    · simpa using Nat.one_le_iff_ne_zero.mpr hc
    · by_contra hlt
      have := (digitCount_le_iff hk0).mpr (Nat.lt_of_not_le hlt)
      omega
  have hlead : lead c e = k + e := by
    rw [lead, hk]
    push_cast
    ring
  rw [hlead, zpow_add₀ (by norm_num), zpow_natCast]
  exact mul_le_mul_of_nonneg_right (by exact_mod_cast hle) (ten_zpow_pos e).le

theorem lt_zpow_lead (c : Nat) (e : Int) : (c : Rat) * 10 ^ e < 10 ^ (lead c e + 1) := by
  have hlead : lead c e + 1 = digitCount c + e := by
    rw [lead]
    ring
  rw [hlead, zpow_add₀ (by norm_num), zpow_natCast]
  exact mul_lt_mul_of_pos_right (by exact_mod_cast lt_ten_pow_digitCount c) (ten_zpow_pos e)

/-! ## The least sum that is too large -/

/-- The place of the last digit of a number whose first one has the greatest exponent. -/
def lastPlace : Int := greatestExponent + 1 - precision

/-- Half a unit of the last place below the next power of ten: the least magnitude that is rounded
to an exponent past the greatest. -/
def overflowBound : Rat := (10 ^ precision - 1 / 2) * 10 ^ lastPlace

theorem zpow_greatest : (10 : Rat) ^ (greatestExponent + 1) = 10 ^ precision * 10 ^ lastPlace := by
  have hsplit : greatestExponent + 1 = precision + lastPlace := by
    unfold lastPlace
    omega
  rw [← zpow_natCast, ← zpow_add₀ (by norm_num), hsplit]

theorem overflowBound_lt : overflowBound < 10 ^ (greatestExponent + 1) := by
  rw [zpow_greatest, overflowBound]
  have := ten_zpow_pos lastPlace
  nlinarith

/-- What is smaller than the next power of ten by a unit of the last place is not too large. -/
theorem lt_overflowBound {r : Rat} (h : r + 10 ^ lastPlace ≤ 10 ^ (greatestExponent + 1)) :
    r < overflowBound := by
  rw [zpow_greatest] at h
  rw [overflowBound]
  have := ten_zpow_pos lastPlace
  nlinarith

/-! ## Fitting -/

theorem roundHalfEven_le {m n d : Nat} (hd : 0 < d) (h : n < m * d) : roundHalfEven n d ≤ m := by
  obtain ⟨hhigh, -⟩ := roundHalfEven_near n d hd
  by_contra hlt
  have hnext : (m + 1) * d ≤ roundHalfEven n d * d := Nat.mul_le_mul_right d (by omega)
  rw [Nat.add_mul] at hnext
  omega

/-- The last place that fitting leaves digits in. -/
def fitPlace (c : Nat) (e : Int) : Int :=
  if lead c e + 1 - precision < leastPlace then leastPlace else lead c e + 1 - precision

/-- What fitting makes of rounded digits: one too many of them moves the place. -/
def settle (negative : Bool) (c : Nat) (place : Int) : Except SumFault Decimal :=
  let (c, place) := if digitCount c = precision + 1 then (c / 10, place + 1) else (c, place)
  if greatestExponent < place + precision - 1 then .error .decimalOverflow
  else .ok (finite negative c place)

theorem fit_eq (s : Bool) (hc : c ≠ 0) :
    fit s c e = if greatestExponent < lead c e then .error .decimalOverflow
      else if fitPlace c e ≤ e then .ok (finite s c e)
      else settle s (dropDigits c (fitPlace c e - e).toNat) (fitPlace c e) := by
  unfold fit
  rw [if_neg hc]
  rfl

theorem settle_eq_error_iff {s : Bool} {d : Nat} {place : Int} {cause : SumFault}
    (hplace : place ≤ lastPlace) : settle s d place = .error cause ↔
      cause = .decimalOverflow ∧ place = lastPlace ∧ digitCount d = precision + 1 := by
  unfold lastPlace at *
  unfold settle
  by_cases hd : digitCount d = precision + 1
  · rw [if_pos hd]
    dsimp only
    split
    · rename_i h
      constructor
      · intro he
        cases he
        exact ⟨rfl, by omega, hd⟩
      · rintro ⟨rfl, -, -⟩
        rfl
    · rename_i h
      refine iff_of_false nofun ?_
      rintro ⟨-, rfl, -⟩
      omega
  · rw [if_neg hd]
    dsimp only
    rw [if_neg (by omega)]
    exact iff_of_false nofun fun h => hd h.2.2

/-- The place is the last one exactly for numbers that reach up to the greatest exponent. -/
theorem fitPlace_eq_lastPlace_iff (h : lead c e ≤ greatestExponent) :
    fitPlace c e ≤ lastPlace ∧ (fitPlace c e = lastPlace ↔ lead c e = greatestExponent) := by
  have hleast : leastPlace < lastPlace := by decide
  unfold fitPlace
  unfold lastPlace at *
  split <;> omega

/-- Rounding to the last place may carry into a digit more. -/
theorem digitCount_dropDigits_iff (h : lead c e = greatestExponent) (he : e < lastPlace) :
    digitCount (dropDigits c (lastPlace - e).toNat) = precision + 1 ↔
      2 * (10 ^ precision * 10 ^ (lastPlace - e).toNat) ≤ 2 * c + 10 ^ (lastPlace - e).toNat := by
  have hdigits : digitCount c = precision + (lastPlace - e).toNat := by
    unfold lead at h
    unfold lastPlace at *
    omega
  have hpos : 0 < 10 ^ (lastPlace - e).toNat := Nat.pow_pos (by decide)
  have hdrop : dropDigits c (lastPlace - e).toNat =
      roundHalfEven c (10 ^ (lastPlace - e).toNat) := by
    unfold dropDigits
    rw [if_neg (by omega), Nat.pow_eq]
  have hbound : roundHalfEven c (10 ^ (lastPlace - e).toNat) ≤ 10 ^ precision := by
    refine roundHalfEven_le hpos ?_
    rw [← Nat.pow_add, ← hdigits]
    exact lt_ten_pow_digitCount c
  rw [hdrop, ← le_roundHalfEven_iff hpos (by decide)]
  generalize roundHalfEven c (10 ^ (lastPlace - e).toNat) = d at hbound
  have hsmall : digitCount d ≤ precision ↔ d < 10 ^ precision := digitCount_le_iff (by decide)
  have hlarge : digitCount d ≤ precision + 1 ↔ d < 10 ^ (precision + 1) :=
    digitCount_le_iff (by decide)
  have hnext : 10 ^ precision < 10 ^ (precision + 1) := by decide
  omega

theorem overflowBound_pos : 0 < overflowBound := by
  refine lt_overflowBound ?_
  rw [zero_add]
  exact ten_zpow_le (by decide)

theorem lt_overflowBound_of_lead_lt (h : lead c e < greatestExponent) :
    (c : Rat) * 10 ^ e < overflowBound := by
  have hvalue := (lt_zpow_lead c e).trans_le
    (ten_zpow_le (show lead c e + 1 ≤ greatestExponent by omega))
  refine hvalue.trans (lt_overflowBound ?_)
  have hlast := ten_zpow_le (show lastPlace ≤ greatestExponent by decide)
  have hpos := ten_zpow_pos greatestExponent
  rw [zpow_add₀ (by norm_num), zpow_one]
  linarith

theorem overflowBound_le_of_lead_gt (hc : c ≠ 0) (h : greatestExponent < lead c e) :
    overflowBound ≤ (c : Rat) * 10 ^ e := by
  have hpow := ten_zpow_le (show greatestExponent + 1 ≤ lead c e by omega)
  exact overflowBound_lt.le.trans (hpow.trans (zpow_lead_le hc e))

/-- A number with no digit past the last place is short of the next power of ten by a unit there. -/
theorem lt_overflowBound_of_lastPlace_le (h : lead c e = greatestExponent) (he : lastPlace ≤ e) :
    (c : Rat) * 10 ^ e < overflowBound := by
  have hc : (c : Rat) + 1 ≤ 10 ^ digitCount c := by exact_mod_cast lt_ten_pow_digitCount c
  have hexp : greatestExponent + 1 = digitCount c + e := by
    unfold lead at h
    omega
  have hlast := ten_zpow_le he
  have hmul := mul_le_mul_of_nonneg_right hc (ten_zpow_pos e).le
  refine lt_overflowBound ?_
  rw [hexp, zpow_add₀ (by norm_num), zpow_natCast]
  linarith

/-- With digits past the last place, half a unit there decides. -/
theorem overflowBound_le_iff (he : e < lastPlace) : overflowBound ≤ (c : Rat) * 10 ^ e ↔
    2 * (10 ^ precision * 10 ^ (lastPlace - e).toNat) ≤ 2 * c + 10 ^ (lastPlace - e).toNat := by
  have hlast : (10 : Rat) ^ lastPlace = 10 ^ (lastPlace - e).toNat * 10 ^ e := by
    rw [← zpow_natCast, ← zpow_add₀ (by norm_num)]
    congr 1
    omega
  unfold overflowBound
  rw [hlast, ← mul_assoc, mul_le_mul_iff_left₀ (ten_zpow_pos e)]
  generalize (lastPlace - e).toNat = k
  rw [← Nat.cast_le (α := Rat)]
  push_cast
  constructor <;> intro h <;> linarith

/-- A decimal does not fit if it would be rounded to an exponent past the greatest. -/
theorem fit_eq_error_iff (s : Bool) (c : Nat) (e : Int) {cause : SumFault} :
    fit s c e = .error cause ↔ cause = .decimalOverflow ∧ overflowBound ≤ (c : Rat) * 10 ^ e := by
  by_cases hc : c = 0
  · subst hc
    have hpos := overflowBound_pos
    refine iff_of_false nofun fun h => ?_
    rw [Nat.cast_zero, zero_mul] at h
    exact absurd h.2 (not_le.mpr hpos)
  rw [fit_eq s hc]
  rcases lt_trichotomy (lead c e) greatestExponent with low | here | high
  · have hplace := fitPlace_eq_lastPlace_iff low.le
    rw [if_neg (by omega)]
    have hbound := lt_overflowBound_of_lead_lt low
    refine iff_of_false (fun h => ?_) fun h => absurd h.2 (not_le.mpr hbound)
    split at h
    · cases h
    · exact low.ne (hplace.2.mp ((settle_eq_error_iff hplace.1).mp h).2.1)
  · have hplace := (fitPlace_eq_lastPlace_iff here.le).2.mpr here
    rw [if_neg (by omega), hplace]
    split
    · rename_i he
      exact iff_of_false nofun
        fun h => absurd h.2 (not_le.mpr (lt_overflowBound_of_lastPlace_le here he))
    · rename_i he
      rw [settle_eq_error_iff le_rfl, digitCount_dropDigits_iff here (by omega),
        overflowBound_le_iff (by omega)]
      simp
  · rw [if_pos high]
    have hbound := overflowBound_le_of_lead_gt hc high
    constructor
    · intro h
      cases h
      exact ⟨rfl, hbound⟩
    · rintro ⟨rfl, -⟩
      rfl

/-! ## Sums of finite decimals -/

theorem signed_cast (s : Bool) (c : Nat) :
    ((signed s c : Int) : Rat) = if s then -(c : Rat) else c := by
  cases s <;> simp [signed]

theorem abs_signed (s : Bool) (c : Nat) (e : Int) :
    |((signed s c : Int) : Rat) * 10 ^ e| = c * 10 ^ e := by
  rw [abs_mul, abs_of_pos (ten_zpow_pos e), signed_cast]
  cases s <;> simp

theorem fit_int_eq_error_iff (n : Int) (e : Int) {cause : SumFault} :
    fit (decide (n < 0)) n.natAbs e = .error cause ↔
      cause = .decimalOverflow ∧ overflowBound ≤ |(n : Rat) * 10 ^ e| := by
  rw [fit_eq_error_iff, abs_mul, abs_of_pos (ten_zpow_pos e), Nat.cast_natAbs, Int.cast_abs]

/-- Next to a number of just the bound's size, an addend decides by its sign. -/
theorem overflowBound_le_add_iff {x y : Rat} (hx : |x| = overflowBound) (hy : |y| < overflowBound)
    (hy0 : y ≠ 0) : overflowBound ≤ |x + y| ↔ (0 < x ↔ 0 < y) := by
  have hpos := overflowBound_pos
  obtain ⟨hlow, hhigh⟩ := abs_lt.mp hy
  rcases lt_or_gt_of_ne hy0 with hneg | hypos
  · rcases abs_eq hpos.le |>.mp hx with rfl | rfl
    · rw [abs_of_pos (by linarith)]
      exact iff_of_false (by linarith) (by simp [hpos, hneg.not_gt])
    · rw [abs_of_neg (by linarith)]
      exact iff_of_true (by linarith) (by simp [hpos.not_gt, hneg.not_gt])
  · rcases abs_eq hpos.le |>.mp hx with rfl | rfl
    · rw [abs_of_pos (by linarith)]
      exact iff_of_true (by linarith) (by simp [hpos, hypos])
    · rw [abs_of_neg (by linarith)]
      exact iff_of_false (by linarith) (by simp [hpos.le, hypos])

/-- A small addend tells a sum from the bound only by its sign, if the other addend and the bound
are both whole numbers of units that it does not reach. -/
theorem overflowBound_le_add_congr {x y z unit : Rat} {a b : Int} (hunit : 0 < unit)
    (hx : |x| = a * unit) (hb : overflowBound = b * unit) (hy : |y| < unit) (hz : |z| < unit)
    (hy0 : y ≠ 0) (hz0 : z ≠ 0) (hsign : 0 < y ↔ 0 < z) :
    overflowBound ≤ |x + y| ↔ overflowBound ≤ |x + z| := by
  have hpos := overflowBound_pos
  rcases lt_trichotomy a b with hab | rfl | hab
  · -- a unit short of the bound at least, which no such addend makes up for
    have hshort : ((a + 1 : Int) : Rat) * unit ≤ b * unit :=
      mul_le_mul_of_nonneg_right (by exact_mod_cast hab) hunit.le
    rw [Int.cast_add, Int.cast_one, add_mul, one_mul, ← hx, ← hb] at hshort
    have hsum : ∀ w, |w| < unit → ¬ overflowBound ≤ |x + w| := by
      intro w hw
      have := abs_add_le x w
      linarith
    exact iff_of_false (hsum y hy) (hsum z hz)
  · have hsize : |x| = overflowBound := hx.trans hb.symm
    have hle : unit ≤ overflowBound := by
      have ha : 0 < (a : Rat) := pos_of_mul_pos_left (hb ▸ hpos) hunit.le
      have ha1 : (1 : Rat) ≤ a := by exact_mod_cast ha
      rw [hb]
      exact le_mul_of_one_le_left hunit.le ha1
    rw [overflowBound_le_add_iff hsize (hy.trans_le hle) hy0,
      overflowBound_le_add_iff hsize (hz.trans_le hle) hz0, hsign]
  · -- a unit past the bound at least, which no such addend takes away
    have hover : ((b + 1 : Int) : Rat) * unit ≤ a * unit :=
      mul_le_mul_of_nonneg_right (by exact_mod_cast hab) hunit.le
    rw [Int.cast_add, Int.cast_one, add_mul, one_mul, ← hx, ← hb] at hover
    have hsum : ∀ w, |w| < unit → overflowBound ≤ |x + w| := by
      intro w hw
      have := abs_sub_abs_le_abs_sub x (-w)
      rw [abs_neg, sub_neg_eq_add] at this
      linarith
    exact iff_of_true (hsum y hy) (hsum z hz)

/-- Addends two places below the last one at least matter by their signs only: the unit next above
them divides the greater addend and the bound. -/
theorem overflowBound_le_add_congr_of_far (s : Bool) {floor : Int} {y z : Rat} (he : floor < e)
    (hfar : floor + 2 ≤ lastPlace) (hy : |y| ≤ 10 ^ floor) (hz : |z| ≤ 10 ^ floor) (hy0 : y ≠ 0)
    (hz0 : z ≠ 0) (hsign : 0 < y ↔ 0 < z) :
    overflowBound ≤ |(signed s c : Rat) * 10 ^ e + y| ↔
      overflowBound ≤ |(signed s c : Rat) * 10 ^ e + z| := by
  have hunit : (10 : Rat) ^ floor < 10 ^ (floor + 1) :=
    zpow_lt_zpow_right₀ (by norm_num) (by omega)
  obtain ⟨k, rfl⟩ : ∃ k : Nat, e = floor + 1 + k := ⟨(e - floor - 1).toNat, by omega⟩
  obtain ⟨m, hm⟩ : ∃ m : Nat, lastPlace = floor + 1 + m + 1 :=
    ⟨(lastPlace - floor - 2).toNat, by omega⟩
  have hx : |(signed s c : Rat) * 10 ^ (floor + 1 + (k : Int))| =
      (c * 10 ^ k : Int) * 10 ^ (floor + 1) := by
    rw [abs_signed, ← mul_ten_zpow, Int.cast_natCast]
  have hb : overflowBound =
      ((2 * 10 ^ precision - 1) * 5 * 10 ^ m : Int) * 10 ^ (floor + 1) := by
    rw [← mul_ten_zpow, overflowBound, hm, zpow_add₀ (by norm_num) _ 1, zpow_one]
    push_cast
    ring
  exact overflowBound_le_add_congr (ten_zpow_pos _) hx hb (hy.trans_lt hunit) (hz.trans_lt hunit)
    hy0 hz0 hsign

theorem signed_pos_iff (s : Bool) {c : Nat} (hc : c ≠ 0) (e : Int) :
    (signed s c : Rat) * 10 ^ e ≠ 0 ∧ (0 < (signed s c : Rat) * 10 ^ e ↔ s = false) := by
  have hc0 : (0 : Rat) < c := by exact_mod_cast Nat.pos_of_ne_zero hc
  have hvalue := mul_pos hc0 (ten_zpow_pos e)
  rw [signed_cast]
  cases s with
  | false => exact ⟨by simpa using hvalue.ne', by simpa using hvalue⟩
  | true => exact ⟨by simpa using hvalue.ne', by simpa using hvalue.le⟩

/-- The first addend is past the bound, and so far that the other one cannot take that away. -/
theorem overflowBound_le_add_of_lead {x y : Rat} {l floor : Int} (hl : greatestExponent < l)
    (hfloor : floor + precision + 1 ≤ l) (hx : 10 ^ l ≤ |x|) (hy : |y| ≤ 10 ^ floor) :
    overflowBound ≤ |x + y| := by
  have hpow := ten_zpow_le (show greatestExponent + 1 ≤ l by omega)
  have hsmall := ten_zpow_le (show floor ≤ l + (-29 : Int) by unfold precision at hfloor; omega)
  rw [zpow_add₀ (by norm_num)] at hsmall
  rw [zpow_greatest] at hpow
  have hsub := abs_sub_abs_le_abs_sub x (-y)
  rw [abs_neg, sub_neg_eq_add] at hsub
  have hlast := ten_zpow_pos lastPlace
  unfold overflowBound
  unfold precision at *
  norm_num at hsmall hpow ⊢
  linarith

/-- An addend that is seen from a far greater one as a single unit may be taken for it. -/
theorem overflowBound_le_addendSeenFrom_iff (s t : Bool) {c d : Nat} {e f : Int} (hc : c ≠ 0)
    (hd : d ≠ 0) (hfe : f ≤ e) :
    (addendSeenFrom c e d f).2 ≤ e ∧
      (overflowBound ≤ |(signed s c : Rat) * 10 ^ e +
          signed t (addendSeenFrom c e d f).1 * 10 ^ (addendSeenFrom c e d f).2| ↔
        overflowBound ≤ |(signed s c : Rat) * 10 ^ e + signed t d * 10 ^ f|) := by
  unfold addendSeenFrom
  dsimp only
  generalize hfloor : e + (if (digitCount c : Int) - precision - 2 < -1 then
    (digitCount c : Int) - precision - 2 else -1) = floor
  have hfloor_lt : floor < e ∧ floor + precision + 1 ≤ lead c e := by
    unfold lead
    split at hfloor <;> omega
  split
  · rename_i hseen
    refine ⟨hfloor_lt.1.le, ?_⟩
    have hy : |(signed t 1 : Rat) * 10 ^ floor| = 10 ^ floor := by
      rw [abs_signed, Nat.cast_one, one_mul]
    have hz : |(signed t d : Rat) * 10 ^ f| < 10 ^ floor := by
      rw [abs_signed]
      refine (lt_zpow_lead d f).trans_le (ten_zpow_le ?_)
      unfold lead
      omega
    by_cases hfar : floor + 2 ≤ lastPlace
    · refine overflowBound_le_add_congr_of_far s hfloor_lt.1 hfar hy.le hz.le
        (signed_pos_iff t one_ne_zero floor).1 (signed_pos_iff t hd f).1 ?_
      rw [(signed_pos_iff t one_ne_zero floor).2, (signed_pos_iff t hd f).2]
    · have hover : greatestExponent < lead c e := by
        unfold lastPlace at hfar
        omega
      have hx : (10 : Rat) ^ lead c e ≤ |(signed s c : Rat) * 10 ^ e| := by
        rw [abs_signed]
        exact zpow_lead_le hc e
      exact iff_of_true (overflowBound_le_add_of_lead hover hfloor_lt.2 hx hy.le)
        (overflowBound_le_add_of_lead hover hfloor_lt.2 hx hz.le)
  · exact ⟨hfe, Iff.rfl⟩

/-- Digits may be written out towards a smaller exponent. -/
theorem signed_mul_pow (s : Bool) (c : Nat) {e place : Int} (h : place ≤ e) :
    ((signed s (c * Nat.pow 10 (e - place).toNat) : Int) : Rat) * 10 ^ place =
      signed s c * 10 ^ e := by
  obtain ⟨k, rfl⟩ : ∃ k : Nat, e = place + k := ⟨(e - place).toNat, by omega⟩
  rw [mul_ten_zpow, add_sub_cancel_left, Int.toNat_natCast, Nat.pow_eq]
  cases s <;> simp [signed]

theorem addOrdered_eq_error_iff (s t : Bool) {c d : Nat} {e f : Int} (hc : c ≠ 0) (hd : d ≠ 0)
    (hfe : f ≤ e) {cause : SumFault} : addOrdered s c e t d f = .error cause ↔
      cause = .decimalOverflow ∧
        overflowBound ≤ |(signed s c : Rat) * 10 ^ e + signed t d * 10 ^ f| := by
  obtain ⟨hplace, hseen⟩ := overflowBound_le_addendSeenFrom_iff s t hc hd hfe
  rw [← hseen]
  unfold addOrdered
  generalize addendSeenFrom c e d f = seen at hplace ⊢
  obtain ⟨d', f'⟩ := seen
  dsimp only at hplace ⊢
  rw [← signed_mul_pow s c hplace, ← add_mul, ← Int.cast_add]
  split
  · rename_i hzero
    have hpos := overflowBound_pos
    rw [hzero, Int.cast_zero, zero_mul, abs_zero]
    exact iff_of_false nofun fun h => absurd h.2 (not_le.mpr hpos)
  · exact fit_int_eq_error_iff _ _

theorem addZero_eq_error_iff (s : Bool) (c : Nat) (e zeroExponent : Int) {cause : SumFault} :
    addZero s c e zeroExponent = .error cause ↔
      cause = .decimalOverflow ∧ overflowBound ≤ |(signed s c : Rat) * 10 ^ e| := by
  unfold addZero
  dsimp only
  generalize hplace : (if (if zeroExponent < e then zeroExponent else e) < e - precision - 1 then
    e - precision - 1 else if zeroExponent < e then zeroExponent else e) = place
  have hle : place ≤ e := by
    subst hplace
    split
    · omega
    · split <;> omega
  rw [fit_eq_error_iff, ← signed_mul_pow s c hle, abs_signed]

/-- A sum of finite decimals is missing only if its exact value is too large. -/
theorem addFinite_eq_error_iff (s t : Bool) (c d : Nat) (e f : Int) {cause : SumFault} :
    addFinite s c e t d f = .error cause ↔
      cause = .decimalOverflow ∧
        overflowBound ≤ |(signed s c : Rat) * 10 ^ e + signed t d * 10 ^ f| := by
  have hzero : ∀ u : Bool, (signed u 0 : Rat) = 0 := fun u => by cases u <;> simp [signed]
  have hpos := overflowBound_pos
  unfold addFinite
  by_cases hc : c = 0
  · by_cases hd : d = 0
    · rw [if_pos ⟨hc, hd⟩, hc, hd, hzero, hzero, zero_mul, zero_mul, add_zero, abs_zero]
      refine iff_of_false ?_ fun h => absurd h.2 (not_le.mpr hpos)
      intro h
      cases h
    · rw [if_neg fun h => hd h.2, if_pos hc, addZero_eq_error_iff, hc, hzero, zero_mul, zero_add]
  · by_cases hd : d = 0
    · rw [if_neg fun h => hc h.1, if_neg hc, if_pos hd, addZero_eq_error_iff, hd, hzero, zero_mul,
        add_zero]
    · rw [if_neg fun h => hc h.1, if_neg hc, if_neg hd]
      split
      · rename_i hlt
        rw [addOrdered_eq_error_iff t s hd hc hlt.le, add_comm]
      · rename_i hge
        exact addOrdered_eq_error_iff s t hc hd (not_lt.mp hge)

/-! ## Decimals without a sum -/

/-- The sum of two decimals is not defined: one of them signals, or they are opposite infinities. -/
def Undefined (x y : Decimal) : Prop :=
  x.isSignalling = true ∨ y.isSignalling = true ∨ ∃ s, x = infinite s ∧ y = infinite (!s)

/-- The exact sum of two finite decimals is rounded to an exponent past the greatest. -/
def TooLarge (x y : Decimal) : Prop :=
  ∃ u v, x.value? = some (.finite u) ∧ y.value? = some (.finite v) ∧ overflowBound ≤ |u + v|

theorem tooLarge_finite_iff (s t : Bool) (c d : Nat) (e f : Int) :
    (finite s c e).TooLarge (finite t d f) ↔
      overflowBound ≤ |(signed s c : Rat) * 10 ^ e + signed t d * 10 ^ f| := by
  constructor
  · rintro ⟨u, v, hx, hy, h⟩
    cases hx
    cases hy
    exact h
  · exact fun h => ⟨_, _, rfl, rfl, h⟩

theorem ite_eq_error_iff {p : Prop} [Decidable p] {fault cause : SumFault} {z : Decimal} :
    (if p then .error fault else .ok z : Except SumFault Decimal) = .error cause ↔
      cause = fault ∧ p := by
  by_cases h : p <;> simp [h, eq_comm]

/-- Two decimals have no sum if and only if it is not defined, or too large. -/
theorem add_eq_error_iff (label : Nat) (x y : Decimal) (cause : SumFault) :
    x.add label y = .error cause ↔
      cause = .decimalInvalid ∧ x.Undefined y ∨ cause = .decimalOverflow ∧ x.TooLarge y := by
  cases x with
  | nan s signalling payload l =>
    rw [add, ite_eq_error_iff]
    simp [Undefined, TooLarge, isSignalling, value?]
  | infinite s =>
    cases y with
    | nan t signalling payload l =>
      rw [add, ite_eq_error_iff]
      · simp [Undefined, TooLarge, isSignalling, value?]
      · nofun
    | infinite t =>
      show (if s = t then _ else _) = _ ↔ _
      rw [← ite_not, ite_eq_error_iff]
      cases s <;> cases t <;> simp [Undefined, TooLarge, isSignalling, value?]
    | finite t d f => simp [add, Undefined, TooLarge, isSignalling, value?]
  | finite s c e =>
    cases y with
    | nan t signalling payload l =>
      rw [add, ite_eq_error_iff]
      · simp [Undefined, TooLarge, isSignalling, value?]
      · nofun
    | infinite t => simp [add, Undefined, TooLarge, isSignalling, value?]
    | finite t d f =>
      rw [tooLarge_finite_iff, add, addFinite_eq_error_iff]
      simp [Undefined, isSignalling]

end Decimal

end SmallLisp
