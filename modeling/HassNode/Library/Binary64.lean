import Mathlib.Algebra.Order.Round
import Mathlib.Data.Int.Log
import Mathlib.Data.Rat.Floor
import Mathlib.Tactic.Linarith
import Mathlib.Tactic.Positivity

/-!
# Binary64 as rationals

Numbers of the IEEE binary64 format by their exact values.  `nearest` rounds a nonnegative rational
to a multiple of the unit in its last place, ties to even; `ofRat` overflows to an infinity.  The two
zeros are not told apart.
-/

inductive Binary64 where
  | nan
  | inf (neg : Bool)
  | finite (q : ℚ)
deriving DecidableEq

namespace Binary64

/-! ## Rounding -/

/-- The nearest integer, the even one of two. -/
def halfEven (q : ℚ) : ℤ :=
  if Int.fract q < 1 / 2 then ⌊q⌋
  else if 1 / 2 < Int.fract q then ⌊q⌋ + 1
  else if ⌊q⌋ % 2 = 0 then ⌊q⌋ else ⌊q⌋ + 1

theorem halfEven_nonneg {q : ℚ} (h : 0 ≤ q) : 0 ≤ halfEven q := by
  have hfloor : 0 ≤ ⌊q⌋ := Int.floor_nonneg.mpr h
  unfold halfEven
  split_ifs <;> omega

theorem halfEven_le (q : ℚ) : halfEven q ≤ ⌊q⌋ + 1 := by
  unfold halfEven
  split_ifs <;> omega

theorem halfEven_intCast (i : ℤ) : halfEven i = i := by
  rw [halfEven, Int.fract_intCast, if_pos (by norm_num), Int.floor_intCast]

/-- The unit in the last place of a number of the size of `q`: 53 bits, or subnormal. -/
def unit (q : ℚ) : ℚ := 2 ^ max (Int.log 2 q - 52) (-1074)

theorem unit_pos (q : ℚ) : 0 < unit q := by
  exact zpow_pos (by norm_num) _

/-- Rounding to nearest, without a bound on the exponent. -/
def nearest (q : ℚ) : ℚ := unit q * halfEven (q / unit q)

theorem nearest_nonneg {q : ℚ} (h : 0 ≤ q) : 0 ≤ nearest q := by
  have hquotient : 0 ≤ halfEven (q / unit q) :=
    halfEven_nonneg (div_nonneg h (unit_pos q).le)
  exact mul_nonneg (unit_pos q).le (by exact_mod_cast hquotient)

/-- Rounding adds one unit at most. -/
theorem nearest_le (q : ℚ) : nearest q ≤ q + unit q := by
  have hunit := unit_pos q
  have hround : (halfEven (q / unit q) : ℚ) ≤ q / unit q + 1 := by
    have hcast : (halfEven (q / unit q) : ℚ) ≤ (⌊q / unit q⌋ : ℚ) + 1 := by
      exact_mod_cast halfEven_le (q / unit q)
    linarith [Int.floor_le (q / unit q)]
  calc nearest q
      ≤ unit q * (q / unit q + 1) := mul_le_mul_of_nonneg_left hround hunit.le
    _ = q + unit q := by rw [mul_add, mul_div_cancel₀ q hunit.ne', mul_one]

/-- The unit of a positive number is at most the number itself, or the least subnormal. -/
theorem unit_le {q : ℚ} (h : 0 < q) : unit q ≤ max q 1 := by
  unfold unit
  rcases le_total (Int.log 2 q - 52) (-1074) with hsmall | hlarge
  · rw [max_eq_right hsmall]
    exact le_max_of_le_right (zpow_le_one_of_nonpos₀ (by norm_num) (by norm_num))
  · rw [max_eq_left hlarge]
    apply le_max_of_le_left
    calc (2 : ℚ) ^ (Int.log 2 q - 52)
        ≤ 2 ^ Int.log 2 q := zpow_le_zpow_right₀ (by norm_num) (by omega)
      _ ≤ q := by exact_mod_cast Int.zpow_log_le_self (b := 2) (by norm_num) h

/-- The first number past the finite ones. -/
def bound : ℚ := 2 ^ 1024

/-- The nearest number of the format. -/
def ofRat (q : ℚ) : Binary64 :=
  if nearest |q| < bound then .finite (if q < 0 then -nearest |q| else nearest |q|)
  else .inf (q < 0)

theorem four_lt_bound : 4 < bound := by
  calc (4 : ℚ) = 2 ^ 2 := by norm_num
    _ < 2 ^ 1024 := pow_lt_pow_right₀ (by norm_num) (by norm_num)

theorem one_lt_bound : 1 < bound := by linarith [four_lt_bound]

/-- Finite numbers are below the bound. -/
theorem lt_bound_of_ofRat {q r : ℚ} (h : ofRat q = .finite r) : r < bound := by
  have hbound := one_lt_bound
  unfold ofRat at h
  split at h
  · rename_i hnearest
    cases h
    split
    · linarith [nearest_nonneg (abs_nonneg q)]
    · exact hnearest
  · cases h

theorem ofRat_of_nonneg {q : ℚ} (h : 0 ≤ q) :
    ofRat q = if nearest q < bound then .finite (nearest q) else .inf false := by
  rw [ofRat, abs_of_nonneg h, if_neg (not_lt.mpr h), decide_eq_false (not_lt.mpr h)]

/-- A quotient far below the bound is finite. -/
theorem ofRat_finite {q : ℚ} (h : 0 ≤ q) (hbound : 2 * q + 1 < bound) :
    ofRat q = .finite (nearest q) := by
  rw [ofRat_of_nonneg h]
  apply if_pos
  rcases h.eq_or_lt with rfl | hpos
  · have hzero : nearest 0 = 0 := by simp [nearest, halfEven]
    rw [hzero]
    norm_num [bound]
  · have hunit : unit q ≤ q + 1 := by
      rcases max_cases q 1 with ⟨hmax, -⟩ | ⟨hmax, -⟩
      · linarith [unit_le hpos]
      · linarith [unit_le hpos]
    linarith [nearest_le q]

/-- `x / k` for a finite number `k`, which is not zero. -/
def div : Binary64 → ℚ → Binary64
  | .nan, _ => .nan
  | .inf neg, k => .inf (neg != decide (k < 0))
  | .finite q, k => ofRat (q / k)

end Binary64
