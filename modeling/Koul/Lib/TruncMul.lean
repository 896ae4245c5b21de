import Mathlib.Algebra.Order.Field.Rat
import Mathlib.Data.Int.Cast.Lemmas
import Mathlib.Tactic.Linarith
import Mathlib.Tactic.Ring

set_option relaxedAutoImplicit false
set_option autoImplicit false

/-!
# Truncated products

A product by a fraction `m / n` of integers, rounded down, as fixed-point code computes it: the
whole part and the remainder of the factor apart, so that no intermediate value is as large as
the product.

## Main definitions

* `TruncMul.scale` — the factor times `m / n`, rounded down in two parts.

## Main results

* `TruncMul.scale_eq` — the two parts lose nothing: it is the floor of the product.
* `TruncMul.scale_le`, `TruncMul.lt_scale_add_one` — it is within one below the exact value.
-/

namespace TruncMul

/-- `a * m / n` rounded down, with the whole part and the remainder of `a / n` apart. -/
def scale (a m n : ℤ) : ℤ := a.tdiv n * m + (a.tmod n * m).tdiv n

variable {a m n : ℤ}

/-- **Splitting loses nothing**: for a factor and a fraction that are not negative the two parts
add up to the floor of the product. -/
theorem scale_eq (ha : 0 ≤ a) (hm : 0 ≤ m) (hn : 0 < n) : scale a m n = a * m / n := by
  unfold scale
  rw [Int.tdiv_eq_ediv_of_nonneg ha, Int.tmod_eq_emod_of_nonneg ha,
    Int.tdiv_eq_ediv_of_nonneg (mul_nonneg (Int.emod_nonneg a hn.ne') hm)]
  have hsplit : a * m = a % n * m + a / n * m * n := by
    calc a * m = (n * (a / n) + a % n) * m := by rw [Int.mul_ediv_add_emod]
      _ = a % n * m + a / n * m * n := by ring
  rw [hsplit, Int.add_mul_ediv_right _ _ hn.ne', add_comm]

lemma scale_nonneg (ha : 0 ≤ a) (hm : 0 ≤ m) (hn : 0 < n) : 0 ≤ scale a m n := by
  rw [scale_eq ha hm hn]
  exact Int.ediv_nonneg (mul_nonneg ha hm) hn.le

/-- By a fraction that is not positive the two parts give nothing positive. -/
lemma scale_nonpos (ha : 0 ≤ a) (hm : m ≤ 0) (hn : 0 < n) : scale a m n ≤ 0 := by
  unfold scale
  rw [Int.tdiv_eq_ediv_of_nonneg ha, Int.tmod_eq_emod_of_nonneg ha]
  have hq : a / n * m ≤ 0 := mul_nonpos_of_nonneg_of_nonpos (Int.ediv_nonneg ha hn.le) hm
  have hr : a % n * m ≤ 0 := mul_nonpos_of_nonneg_of_nonpos (Int.emod_nonneg a hn.ne') hm
  have hr' : 0 ≤ (-(a % n * m)).tdiv n := Int.tdiv_nonneg (by omega) hn.le
  rw [Int.neg_tdiv] at hr'
  omega

/-- A floor is at most the exact quotient. -/
lemma floor_le (a : ℤ) (hn : 0 < n) : ((a / n : ℤ) : ℚ) ≤ a / n := by
  have hn' : (0 : ℚ) < n := by exact_mod_cast hn
  rw [le_div_iff₀ hn']
  exact_mod_cast Int.ediv_mul_le a hn.ne'

/-- It is within one of it. -/
lemma lt_floor_add_one (a : ℤ) (hn : 0 < n) : (a : ℚ) / n < ((a / n : ℤ) : ℚ) + 1 := by
  have hn' : (0 : ℚ) < n := by exact_mod_cast hn
  rw [div_lt_iff₀ hn']
  exact_mod_cast Int.lt_ediv_add_one_mul_self a hn

/-- A scaled factor is at most the exact product. -/
lemma scale_le (ha : 0 ≤ a) (hm : 0 ≤ m) (hn : 0 < n) : (scale a m n : ℚ) ≤ a * m / n := by
  rw [scale_eq ha hm hn]
  have h := floor_le (a * m) hn
  push_cast at h
  exact h

/-- It is within one of it. -/
lemma lt_scale_add_one (ha : 0 ≤ a) (hm : 0 ≤ m) (hn : 0 < n) :
    (a : ℚ) * m / n < scale a m n + 1 := by
  rw [scale_eq ha hm hn]
  have h := lt_floor_add_one (a * m) hn
  push_cast at h
  exact h

end TruncMul
