-- Rounding quotients of whole numbers. A quotient goes to the nearest whole number, a tie to
-- the even one, and every step is decided in whole numbers, so no digit is lost on the way.
namespace SmallLisp

/-- The whole number nearest to `n / d`, and of two equally near ones the even one. -/
def roundHalfEven (n d : Nat) : Nat :=
  let q := n / d
  if 2 * (n % d) < d then q
  else if d < 2 * (n % d) then q + 1
  else q + q % 2

/-- A rounded quotient is at most half a unit away from the exact one. -/
theorem roundHalfEven_near (n d : Nat) (pos : 0 < d) :
    2 * (roundHalfEven n d * d) ≤ 2 * n + d ∧ 2 * n ≤ 2 * (roundHalfEven n d * d) + d := by
  have split := Nat.div_add_mod n d
  have next : (n / d + 1) * d = d * (n / d) + d := by rw [Nat.add_mul, Nat.mul_comm, Nat.one_mul]
  have same : n / d * d = d * (n / d) := Nat.mul_comm ..
  unfold roundHalfEven
  dsimp only
  rcases Nat.lt_trichotomy (2 * (n % d)) d with low | tie | high
  · rw [if_pos low, same]
    omega
  · rw [if_neg (by omega), if_neg (by omega)]
    rcases Nat.mod_two_eq_zero_or_one (n / d) with even | odd
    · rw [even, Nat.add_zero, same]
      omega
    · rw [odd, next]
      omega
  · rw [if_neg (by omega), if_pos high]
    have := Nat.mod_lt n pos
    rw [next]
    omega

/-- A tie goes to an even number. -/
theorem roundHalfEven_even_of_tie (n d : Nat) (tie : 2 * (n % d) = d) :
    roundHalfEven n d % 2 = 0 := by
  unfold roundHalfEven
  dsimp only
  rw [if_neg (by omega), if_neg (by omega)]
  omega

/-- The quotient `n / d` over `base` to the power `e`, again as a quotient. -/
def overPower (base : Nat) (e : Int) (n d : Nat) : Nat × Nat :=
  (n * Nat.pow base (-e).toNat, d * Nat.pow base e.toNat)

/-- The exponent of the largest power of two that is at most `n / d`, for positive `n`
and `d`. The bit lengths of the two numbers leave two candidates. -/
def floorLog2 (n d : Nat) : Int :=
  let e : Int := n.log2 - d.log2
  let (a, b) := overPower 2 e n d
  if b ≤ a then e else e - 1

/-- The exponent of the largest power of ten that is at most `n / d`, for positive `n`
and `d` below 2 to the 1100 and above its inverse. The binary exponent times the logarithm
of two is off by one at most, either way. -/
def floorLog10 (n d : Nat) : Int :=
  let guess := floorLog2 n d * 30103 / 100000
  let reached (e : Int) : Bool := let (a, b) := overPower 10 e n d; b ≤ a
  if reached (guess + 1) then guess + 1
  else if reached guess then guess
  else guess - 1

/-- The number of decimal digits of `n`; zero has one. -/
def digitCount (n : Nat) : Nat := (Nat.toDigits 10 n).length

theorem digitCount_le_iff {n k : Nat} (hk : 0 < k) : digitCount n ≤ k ↔ n < Nat.pow 10 k :=
  Nat.length_toDigits_le_iff (by decide) hk

/-- The decimal digits of `n`. -/
def digitText (n : Nat) : String := String.ofList (Nat.toDigits 10 n)

/-- Takes trailing zeros off the decimal `coefficient · 10 ^ exponent`, at most `bound` of
them, and keeps its value. -/
def stripZeros : (bound : Nat) → (coefficient : Nat) → (exponent : Int) → Nat × Int
  | 0, c, e => (c, e)
  | bound + 1, c, e =>
    if c % 10 = 0 then stripZeros bound (c / 10) (e + 1) else (c, e)

/-- The zeros that are taken off a coefficient go into the exponent. -/
theorem stripZeros_value (bound c : Nat) (e : Int) :
    ∃ k : Nat, (stripZeros bound c e).1 * Nat.pow 10 k = c ∧
      (stripZeros bound c e).2 = e + k := by
  induction bound generalizing c e with
  | zero => exact ⟨0, by simp [stripZeros]⟩
  | succ bound ih =>
    by_cases h : c % 10 = 0
    · obtain ⟨k, hc, he⟩ := ih (c / 10) (e + 1)
      refine ⟨k + 1, ?_, ?_⟩
      · simp only [stripZeros, h, if_true]
        rw [Nat.pow_eq, Nat.pow_succ, ← Nat.mul_assoc, ← Nat.pow_eq, hc]
        omega
      · simp only [stripZeros, h, if_true, he]
        omega
    · exact ⟨0, by simp [stripZeros, h]⟩

end SmallLisp
