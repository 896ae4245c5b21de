import Mathlib.Data.Nat.Digits.Lemmas
import Mathlib.Data.List.Lex
import Mathlib.Tactic.Ring

set_option relaxedAutoImplicit false
set_option autoImplicit false

/-!
# Numbers in a fixed number of digits

Numbers that are written with zeros in front, in as many digits as each other, are in the order of
their texts.

## Main definitions

* `Padded.codes` — the codes of a number's digits, with zeros in front.

## Main results

* `Padded.codes_append_lt` — a smaller number comes first, whatever follows it.
* `Padded.map_toNat_digits` — these are the codes of the number's text.
* `Padded.ofDigitChars_digits` — which is read back as the number.
-/

namespace Padded

/-- The codes of the last `width` digits of a number, the highest first. -/
def codes : ℕ → ℕ → List ℕ
  | 0, _ => []
  | width + 1, n => (48 + n / 10 ^ width % 10) :: codes width n

lemma codes_mod (width n : ℕ) : codes width (n % 10 ^ width) = codes width n := by
  suffices h : ∀ k, codes width (n % 10 ^ (width + k)) = codes width n from h 0
  induction width with
  | zero => exact fun _ => rfl
  | succ width ih =>
    intro k
    have hrest := ih (k + 1)
    rw [show width + (k + 1) = width + 1 + k by omega] at hrest
    have hdigit : n % 10 ^ (width + 1 + k) / 10 ^ width % 10 = n / 10 ^ width % 10 := by
      rw [show width + 1 + k = width + (1 + k) by omega, pow_add, Nat.mod_mul_right_div_self,
        Nat.mod_mod_of_dvd]
      exact dvd_pow_self 10 (by omega)
    rw [codes, codes, hrest, hdigit]

/-- **The order of the texts**: of two numbers in as many digits the smaller one comes first, whatever
follows the two. -/
theorem codes_append_lt {width n m : ℕ} (hlt : n < m) (hm : m < 10 ^ width) (xs ys : List ℕ) :
    codes width n ++ xs < codes width m ++ ys := by
  induction width generalizing n m with
  | zero => omega
  | succ width ih =>
    have hpos : 0 < 10 ^ width := Nat.pow_pos (by decide)
    have hhigh : ∀ {k : ℕ}, k ≤ m → k / 10 ^ width % 10 = k / 10 ^ width := by
      intro k hk
      apply Nat.mod_eq_of_lt
      rw [Nat.div_lt_iff_lt_mul hpos]
      calc k ≤ m := hk
        _ < 10 ^ (width + 1) := hm
        _ = 10 * 10 ^ width := pow_succ' 10 width
    rw [codes, codes, List.cons_append, List.cons_append, List.cons_lt_cons_iff, hhigh hlt.le,
      hhigh le_rfl]
    rcases (Nat.div_le_div_right (c := 10 ^ width) hlt.le).lt_or_eq with hless | heq
    · exact .inl (by omega)
    · refine .inr ⟨by rw [heq], ?_⟩
      rw [← codes_mod width n, ← codes_mod width m]
      refine ih ?_ (Nat.mod_lt m hpos)
      have hn := Nat.div_add_mod n (10 ^ width)
      have hm' := Nat.div_add_mod m (10 ^ width)
      rw [heq] at hn
      omega

lemma append_lt_append {zs xs ys : List ℕ} (h : xs < ys) : zs ++ xs < zs ++ ys := by
  induction zs with
  | nil => exact h
  | cons z zs ih => exact List.cons_lt_cons_iff.mpr (.inr ⟨rfl, ih⟩)

/-- The text of a number in at least `width` digits. -/
def digits (width n : ℕ) : List Char :=
  List.replicate (width - (Nat.toDigits 10 n).length) '0' ++ Nat.toDigits 10 n

lemma codes_succ (width n : ℕ) : codes (width + 1) n = codes width (n / 10) ++ [48 + n % 10] := by
  induction width with
  | zero => simp [codes]
  | succ width ih =>
    rw [codes, ih, codes, List.cons_append, pow_succ', Nat.div_div_eq_div_mul]

lemma codes_zero (width : ℕ) : codes width 0 = List.replicate width 48 := by
  induction width with
  | zero => rfl
  | succ width ih =>
    rw [codes, ih, Nat.zero_div]
    rfl

lemma toNat_digitChar {d : ℕ} (hd : d < 10) : d.digitChar.toNat = 48 + d := by
  interval_cases d <;> rfl

/-- **The text** of a number that fits has the codes of its digits. -/
theorem map_toNat_digits {width n : ℕ} (hwidth : 0 < width) (hn : n < 10 ^ width) :
    (digits width n).map Char.toNat = codes width n := by
  induction width generalizing n with
  | zero => omega
  | succ width ih =>
    rw [codes_succ]
    by_cases hsmall : n < 10
    · rw [digits, Nat.toDigits_of_lt_base hsmall, Nat.div_eq_of_lt hsmall, Nat.mod_eq_of_lt hsmall,
        codes_zero]
      simp [toNat_digitChar hsmall]
    · have hquot : n / 10 < 10 ^ width := by
        rw [Nat.div_lt_iff_lt_mul (by decide), ← pow_succ]
        exact hn
      have hpos : 0 < width := by
        rcases Nat.eq_zero_or_pos width with rfl | hpos
        · omega
        · exact hpos
      rw [← ih hpos hquot, digits, digits, Nat.toDigits_of_base_le (by decide) (by omega)]
      simp [toNat_digitChar (Nat.mod_lt n (by decide : 0 < 10))]

lemma ofDigitChars_replicate (k : ℕ) (cs : List Char) :
    Nat.ofDigitChars 10 (List.replicate k '0' ++ cs) 0 = Nat.ofDigitChars 10 cs 0 := by
  induction k with
  | zero => rfl
  | succ k ih => exact ih

/-- **The number is read back** from its text. -/
theorem ofDigitChars_digits (width n : ℕ) : Nat.ofDigitChars 10 (digits width n) 0 = n := by
  rw [digits, ofDigitChars_replicate, Nat.ofDigitChars_toDigits (by decide) (by decide)]

lemma isDigit_of_mem_digits {width n : ℕ} {c : Char} (hc : c ∈ digits width n) :
    c.isDigit = true := by
  rcases List.mem_append.mp hc with hc | hc
  · obtain ⟨-, rfl⟩ := List.mem_replicate.mp hc
    rfl
  · exact Nat.isDigit_of_mem_toDigits (by decide) (by decide) hc

lemma digits_ne_nil (width n : ℕ) : digits width n ≠ [] :=
  List.append_ne_nil_of_right_ne_nil _ Nat.toDigits_ne_nil

end Padded
