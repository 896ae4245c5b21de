import Mathlib.Data.Nat.Digits.Lemmas

set_option relaxedAutoImplicit false
set_option autoImplicit false

/-!
# Whole numbers in bytes

Whole numbers with their most significant byte first: in as few bytes as they take, in a fixed number
of bytes, and as DER has them, where a number whose first byte is 128 or more gets a zero before it.

## Main definitions

* `Der.minimal`, `Der.fixed` — the fewest bytes, and a fixed number of them.
* `Der.value` — the number that bytes stand for.
* `Der.contents` — the contents of a DER integer, and `Der.Integer` what they have to be.
* `Der.signature` — two integers in a sequence, all lengths in their short form.

## Main results

* `Der.value_fixed`, `Der.length_fixed` — the fixed bytes are of their number, and so many.
* `Der.fixed_eq_fill` — they are the fewest bytes, filled up with zeros.
* `Der.integer` — the contents are of their number, and minimal.
-/

namespace Der

/-- The fewest bytes of a number; none for zero. -/
def minimal (n : ℕ) : List UInt8 := ((Nat.digits 256 n).map UInt8.ofNat).reverse

/-- A number in `k` bytes. -/
def fixed (k n : ℕ) : List UInt8 := ((Nat.digitsAppend 256 k n).map UInt8.ofNat).reverse

/-- The number of bytes. -/
def value (bytes : List UInt8) : ℕ := Nat.ofDigits 256 (bytes.map UInt8.toNat).reverse

/-- Bytes filled up with zeros at the front. -/
def fill (k : ℕ) (bytes : List UInt8) : List UInt8 :=
  List.replicate (k - bytes.length) 0 ++ bytes

/-- The contents of a DER integer that is not negative. -/
def contents (n : ℕ) : List UInt8 :=
  if (minimal n).head?.any (· < 0x80) then minimal n else 0 :: minimal n

/-- A tag, a length in its short form, and the contents. -/
def element (tag : UInt8) (contents : List UInt8) : List UInt8 :=
  tag :: UInt8.ofNat contents.length :: contents

variable {k n : ℕ}

/-! ## Fixed bytes -/

lemma map_toNat_ofNat {digits : List ℕ} (h : ∀ d ∈ digits, d < 256) :
    (digits.map UInt8.ofNat).map UInt8.toNat = digits := by
  rw [List.map_map, List.map_congr_left (g := id), List.map_id]
  intro d hd
  exact UInt8.toNat_ofNat_of_lt (h d hd)

/-- **Fixed bytes** are of their number. -/
theorem value_fixed (k n : ℕ) : value (fixed k n) = n := by
  have hlt : ∀ d ∈ Nat.digitsAppend 256 k n, d < 256 := fun d hd =>
    Nat.lt_of_mem_digitsAppend (by decide) k d hd
  rw [value, fixed, List.map_reverse, List.reverse_reverse, map_toNat_ofNat hlt, Nat.digitsAppend,
    Nat.ofDigits_append_replicate_zero, Nat.ofDigits_digits]

theorem length_fixed (h : n < 256 ^ k) : (fixed k n).length = k := by
  rw [fixed, List.length_reverse, List.length_map, Nat.length_digitsAppend (by decide) k h]

/-- The fixed bytes are the fewest, filled up. -/
lemma fixed_eq_fill (k n : ℕ) : fixed k n = fill k (minimal n) := by
  rw [fixed, Nat.digitsAppend, List.map_append, List.map_replicate, List.reverse_append,
    List.reverse_replicate, fill, minimal, List.length_reverse, List.length_map]
  rfl

lemma length_minimal_le (h : n < 256 ^ k) : (minimal n).length ≤ k := by
  rw [minimal, List.length_reverse, List.length_map]
  exact (Nat.digits_length_le_iff (by decide) n).mpr h

lemma length_fill {bytes : List UInt8} (h : bytes.length ≤ k) : (fill k bytes).length = k := by
  rw [fill, List.length_append, List.length_replicate]
  omega

/-- Zeros at the front are filled up as well. -/
lemma fill_zeros {bytes : List UInt8} {zeros : ℕ} (h : zeros + bytes.length ≤ k) :
    fill k (List.replicate zeros 0 ++ bytes) = fill k bytes := by
  have hzeros : k - (List.replicate zeros (0 : UInt8) ++ bytes).length + zeros =
      k - bytes.length := by
    rw [List.length_append, List.length_replicate]
    omega
  rw [fill, ← List.append_assoc, ← List.replicate_add, hzeros]
  rfl

/-! ## Contents -/

/-- The contents are the fewest bytes, with or without a zero before them. -/
lemma contents_eq (n : ℕ) :
    ∃ zeros ≤ 1, contents n = List.replicate zeros 0 ++ minimal n := by
  unfold contents
  split_ifs
  · exact ⟨0, by decide, rfl⟩
  · exact ⟨1, le_rfl, rfl⟩

lemma length_contents_le (h : n < 256 ^ k) : (contents n).length ≤ k + 1 := by
  obtain ⟨zeros, hzeros, heq⟩ := contents_eq n
  have := length_minimal_le h
  rw [heq, List.length_append, List.length_replicate]
  omega

/-- The contents are of their number. -/
lemma value_contents (n : ℕ) : value (contents n) = n := by
  obtain ⟨zeros, -, heq⟩ := contents_eq n
  have hlt : ∀ d ∈ Nat.digits 256 n, d < 256 := fun d hd => Nat.digits_lt_base (by decide) hd
  rw [heq, minimal, value, List.map_append, List.map_reverse, map_toNat_ofNat hlt,
    List.reverse_append, List.reverse_reverse, List.map_replicate, List.reverse_replicate]
  have hzero : (0 : UInt8).toNat = 0 := rfl
  rw [hzero, Nat.ofDigits_append_replicate_zero, Nat.ofDigits_digits]

/-- The fewest bytes do not begin with a zero. -/
lemma ne_zero_of_minimal_eq {b : UInt8} {bytes : List UInt8} (h : minimal n = b :: bytes) :
    b ≠ 0 := by
  have hlt : ∀ d ∈ Nat.digits 256 n, d < 256 := fun d hd => Nat.digits_lt_base (by decide) hd
  have hdigits : Nat.digits 256 n = bytes.reverse.map UInt8.toNat ++ [b.toNat] := by
    rw [minimal, List.reverse_eq_iff, List.reverse_cons] at h
    rw [← map_toNat_ofNat hlt, h, List.map_append, List.map_singleton]
  have hn : n ≠ 0 := by
    rintro rfl
    simp at hdigits
  have hlast := Nat.getLast_digit_ne_zero 256 hn
  simp only [hdigits, List.getLast_append_singleton] at hlast
  rintro rfl
  exact hlast rfl

/-- The first byte of the contents is less than 128, and where it is zero the next, if there is one,
is not. -/
lemma contents_minimal (n : ℕ) : ∃ b bytes, contents n = b :: bytes ∧ b < 0x80 ∧
    (b = 0 → ∀ c, bytes.head? = some c → 0x80 ≤ c) := by
  cases h : minimal n with
  | nil => exact ⟨0, [], by rw [contents, h]; rfl, by decide, fun _ _ hc => nomatch hc⟩
  | cons c bytes =>
    by_cases hc : c < 0x80
    · refine ⟨c, bytes, ?_, hc, fun h0 => absurd h0 (ne_zero_of_minimal_eq h)⟩
      rw [contents, h, List.head?_cons, Option.any_some, if_pos (decide_eq_true hc)]
    · refine ⟨0, c :: bytes, ?_, by decide, fun _ c' hc' => ?_⟩
      · rw [contents, h, List.head?_cons, Option.any_some, if_neg (by simpa using hc)]
      · obtain rfl : c = c' := Option.some.inj hc'
        exact UInt8.not_lt.mp hc

/-- The contents of the integer `n` in DER: bytes of it in two's complement, none of them to spare. -/
structure Integer (n : ℕ) where
  bytes : List UInt8
  value_bytes : value bytes = n
  minimal_bytes : ∃ b rest, bytes = b :: rest ∧ b < 0x80 ∧
    (b = 0 → ∀ c, rest.head? = some c → 0x80 ≤ c)

/-- Every number that is not negative has one. -/
def integer (n : ℕ) : Integer n where
  bytes := contents n
  value_bytes := value_contents n
  minimal_bytes := contents_minimal n

/-- A sequence of two integers. -/
def signature (r s : ℕ) : List UInt8 :=
  element 0x30 (element 0x02 (integer r).bytes ++ element 0x02 (integer s).bytes)

end Der
