import Mathlib.Algebra.Order.Ring.Int

set_option relaxedAutoImplicit false
set_option autoImplicit false

/-!
# Checked machine arithmetic

Signed integers between two bounds, with overflow checks on: an operation whose exact result is
out of bounds panics, which is `none` here. Division and remainder truncate, and panic at zero
and where the quotient is out of bounds.

## Main definitions

* `Checked.Width` — the bounds of a machine type; `Checked.Fits` — a value within them.
* `Checked.add`, `sub`, `mul`, `div`, `rem` — the operations.

## Main results

* `Checked.add_of_fits` and its siblings — an operation that fits is the exact one.
-/

namespace Checked

/-- The least and the greatest value of a signed machine type. -/
structure Width where
  least : ℤ
  greatest : ℤ
deriving DecidableEq, Repr

/-- A value that the type can hold. -/
def Fits (w : Width) (x : ℤ) : Prop := w.least ≤ x ∧ x ≤ w.greatest

instance (w : Width) (x : ℤ) : Decidable (Fits w x) := by
  unfold Fits
  infer_instance

/-- The exact result, or a panic. -/
def check (w : Width) (x : ℤ) : Option ℤ := if Fits w x then some x else none

def add (w : Width) (x y : ℤ) : Option ℤ := check w (x + y)

def sub (w : Width) (x y : ℤ) : Option ℤ := check w (x - y)

def mul (w : Width) (x y : ℤ) : Option ℤ := check w (x * y)

def div (w : Width) (x y : ℤ) : Option ℤ := if y = 0 then none else check w (x.tdiv y)

/-- The remainder overflows where the quotient does. -/
def rem (w : Width) (x y : ℤ) : Option ℤ := (div w x y).map fun _ => x.tmod y

variable {w : Width} {x y : ℤ}

lemma check_of_fits (h : Fits w x) : check w x = some x := if_pos h

lemma check_of_not_fits (h : ¬ Fits w x) : check w x = none := if_neg h

lemma add_of_fits (h : Fits w (x + y)) : add w x y = some (x + y) := check_of_fits h

lemma sub_of_fits (h : Fits w (x - y)) : sub w x y = some (x - y) := check_of_fits h

lemma mul_of_fits (h : Fits w (x * y)) : mul w x y = some (x * y) := check_of_fits h

lemma div_of_fits (hy : y ≠ 0) (h : Fits w (x.tdiv y)) : div w x y = some (x.tdiv y) := by
  unfold div
  rw [if_neg hy, check_of_fits h]

lemma rem_of_fits (hy : y ≠ 0) (h : Fits w (x.tdiv y)) : rem w x y = some (x.tmod y) := by
  unfold rem
  rw [div_of_fits hy h, Option.map_some]

/-- Between two values that fit, everything fits. -/
lemma Fits.of_le_of_le {a b : ℤ} (ha : Fits w a) (hb : Fits w b) (hax : a ≤ x) (hxb : x ≤ b) :
    Fits w x :=
  ⟨ha.1.trans hax, hxb.trans hb.2⟩

/-- Dividing a nonnegative value by a positive one stays between zero and the value. -/
lemma Fits.tdiv (h0 : Fits w 0) (h : Fits w x) (hx : 0 ≤ x) (hy : 0 < y) : Fits w (x.tdiv y) :=
  h0.of_le_of_le h (Int.tdiv_nonneg hx hy.le) (Int.tdiv_le_self y hx)

end Checked
