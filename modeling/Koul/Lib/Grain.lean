import Mathlib.Algebra.Order.Ring.Int
import Mathlib.Algebra.Ring.Divisibility.Basic

set_option relaxedAutoImplicit false
set_option autoImplicit false

/-!
# Amounts snapped to a grain

Amounts that must be the same when a transaction is built and when it runs are rounded to a
multiple of a fixed grain `g`. Amounts that are not positive round to zero. The machine
remainder truncates, and on the positive amounts it is applied to that is the Euclidean one.

## Main definitions

* `Grain.down`, `Grain.up` — the multiple of the grain below, and above, an amount.

## Main results

* `Grain.dvd_down`, `Grain.down_le`, `Grain.lt_down_add` — `down` is the greatest multiple.
* `Grain.down_mono` — and it keeps the order.
* `Grain.dvd_up`, `Grain.le_up`, `Grain.up_lt` — `up` is the least multiple.
-/

namespace Grain

variable {g x y : ℤ}

/-- The greatest multiple of the grain that is at most the amount, zero below zero. -/
def down (g x : ℤ) : ℤ := if x ≤ 0 then 0 else x - x.tmod g

/-- The least multiple of the grain that is at least the amount, zero below zero. -/
def up (g x : ℤ) : ℤ := if x ≤ 0 then 0 else if x.tmod g = 0 then x else x - x.tmod g + g

lemma down_of_nonpos (hx : x ≤ 0) : down g x = 0 := if_pos hx

/-- On positive amounts the truncated remainder is the Euclidean one. -/
lemma down_of_pos (hx : 0 < x) : down g x = x - x % g := by
  rw [down, if_neg (not_le.mpr hx), Int.tmod_eq_emod_of_nonneg hx.le]

/-- The snapped amount is a multiple of the grain. -/
lemma dvd_down (g x : ℤ) : g ∣ down g x := by
  rcases le_or_gt x 0 with hx | hx
  · rw [down_of_nonpos hx]
    exact Int.dvd_zero g
  · rw [down_of_pos hx]
    exact Int.dvd_self_sub_emod

lemma down_nonneg (hg : 0 < g) : 0 ≤ down g x := by
  rcases le_or_gt x 0 with hx | hx
  · rw [down_of_nonpos hx]
  · rw [down_of_pos hx]
    have := Int.mul_ediv_add_emod x g
    have := Int.mul_nonneg hg.le (Int.ediv_nonneg hx.le hg.le)
    omega

/-- Snapping down never goes above a nonnegative amount. -/
lemma down_le (hg : 0 < g) (hx : 0 ≤ x) : down g x ≤ x := by
  rcases hx.eq_or_lt with rfl | hx
  · rw [down_of_nonpos le_rfl]
  · rw [down_of_pos hx]
    have := Int.emod_nonneg x hg.ne'
    omega

/-- Snapping down loses less than a grain. -/
lemma lt_down_add (hg : 0 < g) : x < down g x + g := by
  rcases le_or_gt x 0 with hx | hx
  · rw [down_of_nonpos hx]
    omega
  · rw [down_of_pos hx]
    have := Int.emod_lt_of_pos x hg
    omega

/-- Snapping down keeps the order. -/
lemma down_mono (hg : 0 < g) (hxy : x ≤ y) : down g x ≤ down g y := by
  rcases le_or_gt x 0 with hx | hx
  · rw [down_of_nonpos hx]
    exact down_nonneg hg
  · have hmul : ∀ z, z - z % g = g * (z / g) := fun z => by
      have := Int.mul_ediv_add_emod z g
      omega
    rw [down_of_pos hx, down_of_pos (hx.trans_le hxy), hmul, hmul]
    exact mul_le_mul_of_nonneg_left (Int.ediv_le_ediv hg hxy) hg.le

/-- A nonnegative multiple of the grain snaps to itself. -/
lemma down_of_dvd (hx : 0 ≤ x) (h : g ∣ x) : down g x = x := by
  rcases hx.eq_or_lt with rfl | hx
  · exact down_of_nonpos le_rfl
  · rw [down_of_pos hx, Int.emod_eq_zero_of_dvd h, sub_zero]

lemma up_of_nonpos (hx : x ≤ 0) : up g x = 0 := if_pos hx

/-- On positive amounts `up` adds what is missing to the next multiple. -/
lemma up_of_pos (hx : 0 < x) : up g x = if x % g = 0 then x else x - x % g + g := by
  rw [up, if_neg (not_le.mpr hx), Int.tmod_eq_emod_of_nonneg hx.le]

/-- The amount snapped up is a multiple of the grain. -/
lemma dvd_up (g x : ℤ) : g ∣ up g x := by
  rcases le_or_gt x 0 with hx | hx
  · rw [up_of_nonpos hx]
    exact Int.dvd_zero g
  · rw [up_of_pos hx]
    split_ifs with h
    · exact Int.dvd_of_emod_eq_zero h
    · exact dvd_add Int.dvd_self_sub_emod (dvd_refl g)

/-- Snapping up never goes below the amount. -/
lemma le_up (hg : 0 < g) : x ≤ up g x := by
  rcases le_or_gt x 0 with hx | hx
  · rw [up_of_nonpos hx]
    exact hx
  · rw [up_of_pos hx]
    have := Int.emod_lt_of_pos x hg
    split_ifs <;> omega

/-- Snapping up adds less than one grain to a positive amount. -/
lemma up_lt (hg : 0 < g) (hx : 0 < x) : up g x < x + g := by
  rw [up_of_pos hx]
  have := Int.emod_nonneg x hg.ne'
  split_ifs <;> omega

end Grain
