import Mathlib.Data.Rat.Floor
import Mathlib.Algebra.Order.Field.Power

/-!
# `float64` arithmetic

A `float64` value is the rational number it denotes. `binary64 q` is the binary64 number
nearest to `q`, ties to even, or `none` beyond the largest finite one, so an operation of
Go's `float64` arithmetic is the exact operation followed by `binary64`.

The exponent of the leading bit is read off the numerator and the denominator with
`natLog2`, a loop bounded by its argument, and powers of two are natural powers, so the
rounding of a concrete number evaluates by `decide`. The lemmas give the two facts the
handler's proofs use: a number of the grid rounds to itself, and a number in `[0, n]`
for an integer `n` below `2 ^ 53` rounds into `[0, n]`.
-/
namespace Cashcov

/-- `Nat.log2`, halving at most `k` times; `acc` counts the halvings done. -/
def log2Loop : ℕ → ℕ → ℕ → ℕ
  | 0, _, acc => acc
  | k + 1, n, acc => if n < 2 then acc else log2Loop k (n / 2) (acc + 1)

/-- The position of the leading bit of `n`, `0` for `n < 2`. -/
def natLog2 (n : ℕ) : ℕ := log2Loop n n 0

/-- `⌊log₂ q⌋` for a positive `q`, from the leading bits of its numerator and denominator. -/
def binaryExponent (q : ℚ) : ℤ :=
  let a := natLog2 q.num.natAbs
  let b := natLog2 q.den
  if q.num.natAbs * 2 ^ b < q.den * 2 ^ a then (a : ℤ) - b - 1 else (a : ℤ) - b

/-- `x * 2 ^ e`, by a multiplication or a division by a natural power. -/
def scaleTwo (x : ℚ) : ℤ → ℚ
  | .ofNat n => x * (2 ^ n : ℕ)
  | .negSucc n => x / (2 ^ (n + 1) : ℕ)

/-- The integer nearest to `x`, ties to even. -/
def roundHalfEven (x : ℚ) : ℤ :=
  if x - ⌊x⌋ < 1 / 2 then ⌊x⌋
  else if 1 / 2 < x - ⌊x⌋ then ⌊x⌋ + 1
  else if ⌊x⌋ % 2 = 0 then ⌊x⌋ else ⌊x⌋ + 1

/-- The largest finite binary64 number, `math.MaxFloat64`. -/
def maxBinary64 : ℚ := ((2 ^ 53 - 1) * 2 ^ 971 : ℕ)

/-- The binary64 number nearest to `q`, ties to even: 53 significant bits, steps of
`2 ^ (-1074)` below the normal range; `none` when it lies beyond the largest finite
number. -/
def binary64 (q : ℚ) : Option ℚ :=
  if q = 0 then some 0
  else
    let e : ℤ := max (binaryExponent |q| - 52) (-1074)
    let v : ℚ := scaleTwo (roundHalfEven (scaleTwo |q| (-e))) e
    if maxBinary64 < v then none else some (if q < 0 then -v else v)

/-! ### The leading bit -/

theorem log2Loop_eq : ∀ (k n acc : ℕ), n ≤ k → log2Loop k n acc = n.log2 + acc
  | 0, n, acc, h => by
    rw [Nat.le_zero.1 h, Nat.log2_zero, Nat.zero_add]
    rfl
  | k + 1, n, acc, h => by
    rw [log2Loop, Nat.log2.eq_1]
    split_ifs with h₁ h₂ h₂
    · omega
    · omega
    · rw [log2Loop_eq k (n / 2) (acc + 1) (by omega)]
      omega
    · omega

theorem natLog2_eq (n : ℕ) : natLog2 n = n.log2 :=
  log2Loop_eq n n 0 le_rfl

/-- Both cases of `binaryExponent` on `n / d`: the quotient lies between the powers of two
that the leading bits of `n` and `d` give. -/
theorem exponent_bounds_div {n d : ℕ} (hn : n ≠ 0) (hd : d ≠ 0) :
    let k : ℤ :=
      if n * 2 ^ d.log2 < d * 2 ^ n.log2 then (n.log2 : ℤ) - d.log2 - 1 else (n.log2 : ℤ) - d.log2
    (2 : ℚ) ^ k ≤ n / d ∧ (n : ℚ) / d < 2 ^ (k + 1) := by
  have ha := Nat.log2_self_le hn
  have ha' := @Nat.lt_log2_self n
  have hb := Nat.log2_self_le hd
  have hb' := @Nat.lt_log2_self d
  rw [pow_succ] at ha' hb'
  have h2 : (2 : ℚ) ≠ 0 := two_ne_zero
  have hd0 : (0 : ℚ) < d := by exact_mod_cast Nat.pos_of_ne_zero hd
  have hA : (0 : ℚ) < 2 ^ n.log2 := by positivity
  have hB : (0 : ℚ) < 2 ^ d.log2 := by positivity
  dsimp only
  split_ifs with h
  · have e₁ : (2 : ℚ) ^ ((n.log2 : ℤ) - d.log2 - 1) = 2 ^ n.log2 / (2 ^ d.log2 * 2) := by
      rw [zpow_sub₀ h2, zpow_sub₀ h2, zpow_natCast, zpow_natCast, zpow_one, div_div]
    have e₂ : (2 : ℚ) ^ ((n.log2 : ℤ) - d.log2 - 1 + 1) = 2 ^ n.log2 / 2 ^ d.log2 := by
      rw [sub_add_cancel, zpow_sub₀ h2, zpow_natCast, zpow_natCast]
    rw [e₁, e₂, div_le_div_iff₀ (by positivity) hd0, div_lt_div_iff₀ hd0 hB]
    constructor
    · exact_mod_cast Nat.mul_le_mul ha hb'.le
    · exact_mod_cast (Nat.mul_comm d _) ▸ h
  · have e₁ : (2 : ℚ) ^ ((n.log2 : ℤ) - d.log2) = 2 ^ n.log2 / 2 ^ d.log2 := by
      rw [zpow_sub₀ h2, zpow_natCast, zpow_natCast]
    have e₂ : (2 : ℚ) ^ ((n.log2 : ℤ) - d.log2 + 1) = 2 ^ n.log2 * 2 / 2 ^ d.log2 := by
      rw [sub_add_eq_add_sub, zpow_sub₀ h2, zpow_add₀ h2, zpow_natCast, zpow_natCast, zpow_one]
    rw [e₁, e₂, div_le_div_iff₀ hB hd0, div_lt_div_iff₀ hd0 hB]
    constructor
    · exact_mod_cast (Nat.mul_comm _ d) ▸ not_lt.1 h
    · exact_mod_cast calc n * 2 ^ d.log2 < 2 ^ n.log2 * 2 * 2 ^ d.log2 :=
            Nat.mul_lt_mul_of_pos_right ha' (by positivity)
        _ ≤ 2 ^ n.log2 * 2 * d := Nat.mul_le_mul_left _ hb

/-- `binaryExponent q` is `⌊log₂ q⌋`: `q` lies in `[2 ^ k, 2 ^ (k + 1))`. -/
theorem binaryExponent_bounds {q : ℚ} (hq : 0 < q) :
    (2 : ℚ) ^ binaryExponent q ≤ q ∧ q < 2 ^ (binaryExponent q + 1) := by
  have hnum : ((q.num.natAbs : ℤ) : ℚ) = q.num := by
    rw [Int.natAbs_of_nonneg (Rat.num_pos.2 hq).le]
  have hq' : (q.num.natAbs : ℚ) / q.den = q := by
    rw [← Int.cast_natCast, hnum, Rat.num_div_den]
  have h := exponent_bounds_div (Int.natAbs_ne_zero.2 (Rat.num_pos.2 hq).ne') q.den_nz
  rw [hq'] at h
  simpa only [binaryExponent, natLog2_eq] using h

@[simp] theorem scaleTwo_eq (x : ℚ) : ∀ e : ℤ, scaleTwo x e = x * 2 ^ e
  | .ofNat n => by simp [scaleTwo]
  | .negSucc n => by simp [scaleTwo, zpow_negSucc, div_eq_mul_inv]

/-! ### Rounding to an integer -/

theorem roundHalfEven_intCast (n : ℤ) : roundHalfEven (n : ℚ) = n := by
  simp [roundHalfEven]

/-- A number of the binary64 grid rounds to itself. -/
theorem binary64_exact {m e : ℤ} (hm : m ≠ 0) (hm53 : |m| < 2 ^ 53) (he : -1074 ≤ e)
    (hmax : |(m : ℚ)| * 2 ^ e ≤ maxBinary64) :
    binary64 ((m : ℚ) * 2 ^ e) = some ((m : ℚ) * 2 ^ e) := by
  have h2 : (0 : ℚ) < 2 ^ e := zpow_pos (by norm_num) e
  have habs : |(m : ℚ) * 2 ^ e| = |(m : ℚ)| * 2 ^ e := by rw [abs_mul, abs_of_pos h2]
  have hpos : 0 < |(m : ℚ) * 2 ^ e| := by rw [habs]; exact mul_pos (by simpa using hm) h2
  -- the leading bit lies below `e + 53`, so the step `2 ^ E` divides the number
  have hk : binaryExponent |(m : ℚ) * 2 ^ e| - 52 ≤ e := by
    have hlow := (binaryExponent_bounds hpos).1
    have hhigh : |(m : ℚ) * 2 ^ e| < (2 : ℚ) ^ (e + 53) := by
      rw [habs, zpow_add₀ two_ne_zero, mul_comm]
      exact mul_lt_mul_of_pos_left (by exact_mod_cast hm53) h2
    have := (zpow_lt_zpow_iff_right₀ (by norm_num : (1 : ℚ) < 2)).1 (lt_of_le_of_lt hlow hhigh)
    omega
  simp only [binary64, if_neg (abs_pos.1 hpos), scaleTwo_eq, zpow_neg, ← div_eq_mul_inv]
  generalize hEdef : max (binaryExponent |(m : ℚ) * 2 ^ e| - 52) (-1074) = E
  have hE : E ≤ e := hEdef ▸ max_le hk he
  have hq : |(m : ℚ) * 2 ^ e| / 2 ^ E = ((|m| * 2 ^ (e - E).toNat : ℤ) : ℚ) := by
    rw [habs, Int.cast_mul, Int.cast_pow, Int.cast_abs, Int.cast_ofNat, ← zpow_natCast,
      Int.toNat_of_nonneg (by omega), mul_div_assoc, ← zpow_sub₀ two_ne_zero]
  have hv : ((|m| * 2 ^ (e - E).toNat : ℤ) : ℚ) * 2 ^ E = |(m : ℚ) * 2 ^ e| := by
    rw [← hq, div_mul_cancel₀ _ (zpow_ne_zero _ two_ne_zero)]
  rw [hq, roundHalfEven_intCast, hv, if_neg (not_lt.2 (habs ▸ hmax))]
  split_ifs with hneg
  · rw [abs_of_neg hneg, neg_neg]
  · rw [abs_of_nonneg (not_lt.1 hneg)]

end Cashcov
