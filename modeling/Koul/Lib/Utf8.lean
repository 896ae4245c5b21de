import Mathlib.Data.List.Basic
import Mathlib.Tactic.SplitIfs

set_option relaxedAutoImplicit false
set_option autoImplicit false

/-!
# UTF-8

`TextEncoder` and `TextDecoder`. The decoder reads a byte at a time and puts U+FFFD where the bytes are
of no character; a byte that cannot go on with a character may begin another. It leaves a byte order
mark at the front out.

## Main definitions

* `Utf8.encode` — `new TextEncoder().encode`.
* `Utf8.decode` — `new TextDecoder().decode`.

## Main results

* `Utf8.decode_utf8` — a text that does not begin with a byte order mark is decoded as it was.
-/

namespace Utf8

def encode (text : List Char) : List UInt8 := text.flatMap String.utf8EncodeChar

/-- A string has as many bytes as its encoding. -/
lemma length_encode_toList (s : String) : (encode s.toList).length = s.utf8ByteSize := by
  have h : s.toByteArray = s.toList.utf8Encode := by
    rw [← String.toByteArray_ofList, String.ofList_toList]
  rw [← String.size_toByteArray, h, List.utf8Encode, List.size_toByteArray]
  rfl

/-- Between two bytes: how many more a character needs, its code so far, and the bounds of the next. -/
structure State where
  needed : ℕ
  code : ℕ
  lower : ℕ
  upper : ℕ

def State.start : State := ⟨0, 0, 0x80, 0xbf⟩

def replacement : Char := Char.ofNat 0xfffd

/-- The first byte of a character. -/
def first (b : ℕ) : List Char × State :=
  if b ≤ 0x7f then ([Char.ofNat b], .start)
  else if 0xc2 ≤ b ∧ b ≤ 0xdf then ([], ⟨1, b % 0x20, 0x80, 0xbf⟩)
  else if 0xe0 ≤ b ∧ b ≤ 0xef then
    ([], ⟨2, b % 0x10, if b = 0xe0 then 0xa0 else 0x80, if b = 0xed then 0x9f else 0xbf⟩)
  else if 0xf0 ≤ b ∧ b ≤ 0xf4 then
    ([], ⟨3, b % 0x08, if b = 0xf0 then 0x90 else 0x80, if b = 0xf4 then 0x8f else 0xbf⟩)
  else ([replacement], .start)

def step (s : State) (b : ℕ) : List Char × State :=
  if s.needed = 0 then first b
  else if b < s.lower ∨ s.upper < b then (replacement :: (first b).1, (first b).2)
  else if s.needed = 1 then ([Char.ofNat (s.code * 0x40 + b % 0x40)], .start)
  else ([], ⟨s.needed - 1, s.code * 0x40 + b % 0x40, 0x80, 0xbf⟩)

def run (s : State) : List UInt8 → List Char
  | [] => if s.needed = 0 then [] else [replacement]
  | b :: bytes => (step s b.toNat).1 ++ run (step s b.toNat).2 bytes

def decode (bytes : List UInt8) : List Char :=
  match run .start bytes with
  | c :: text => if c.toNat = 0xfeff then text else c :: text
  | [] => []

/-! ## Decoding what was encoded -/

lemma toNat_ofNat {n : ℕ} (h : n < 0x100) : (UInt8.ofNat n).toNat = n := by
  rw [UInt8.toNat_ofNat']
  exact Nat.mod_eq_of_lt h

/-- The code of a character is no surrogate's. -/
lemma toNat_cases (c : Char) : c.toNat < 0xd800 ∨ 0xdfff < c.toNat ∧ c.toNat < 0x110000 := c.valid

lemma run_start (b : UInt8) (bytes : List UInt8) :
    run .start (b :: bytes) = (first b.toNat).1 ++ run (first b.toNat).2 bytes := rfl

/-- A byte that is not the last of its character. -/
lemma run_tail {needed code lower upper n : ℕ} (hn : n < 0x100) (hlower : lower ≤ n)
    (hupper : n ≤ upper) (bytes : List UInt8) :
    run ⟨needed + 2, code, lower, upper⟩ (UInt8.ofNat n :: bytes) =
      run ⟨needed + 1, code * 0x40 + n % 0x40, 0x80, 0xbf⟩ bytes := by
  have hbounds : ¬ (n < lower ∨ upper < n) := by omega
  have hstep : step ⟨needed + 2, code, lower, upper⟩ n =
      ([], ⟨needed + 1, code * 0x40 + n % 0x40, 0x80, 0xbf⟩) := by
    rw [step, if_neg (by simp), if_neg hbounds, if_neg (by simp)]
    rfl
  rw [run, toNat_ofNat hn, hstep]
  rfl

/-- The last byte of a character. -/
lemma run_last {code lower upper n : ℕ} (hn : n < 0x100) (hlower : lower ≤ n) (hupper : n ≤ upper)
    (bytes : List UInt8) :
    run ⟨1, code, lower, upper⟩ (UInt8.ofNat n :: bytes) =
      Char.ofNat (code * 0x40 + n % 0x40) :: run .start bytes := by
  have hbounds : ¬ (n < lower ∨ upper < n) := by omega
  have hstep : step ⟨1, code, lower, upper⟩ n =
      ([Char.ofNat (code * 0x40 + n % 0x40)], .start) := by
    rw [step, if_neg (by simp), if_neg hbounds, if_pos rfl]
  rw [run, toNat_ofNat hn, hstep]
  rfl

lemma first_two {n : ℕ} (hlo : 0xc2 ≤ n) (hhi : n ≤ 0xdf) :
    first n = ([], ⟨1, n % 0x20, 0x80, 0xbf⟩) := by
  rw [first, if_neg (by omega), if_pos ⟨hlo, hhi⟩]

lemma first_three {n : ℕ} (hlo : 0xe0 ≤ n) (hhi : n ≤ 0xef) : first n =
    ([], ⟨2, n % 0x10, if n = 0xe0 then 0xa0 else 0x80, if n = 0xed then 0x9f else 0xbf⟩) := by
  rw [first, if_neg (by omega), if_neg (by omega), if_pos ⟨hlo, hhi⟩]

lemma first_four {n : ℕ} (hlo : 0xf0 ≤ n) (hhi : n ≤ 0xf4) : first n =
    ([], ⟨3, n % 0x08, if n = 0xf0 then 0x90 else 0x80, if n = 0xf4 then 0x8f else 0xbf⟩) := by
  rw [first, if_neg (by omega), if_neg (by omega), if_neg (by omega), if_pos ⟨hlo, hhi⟩]

/-- **A character** that was encoded is decoded, with one case for each number of bytes. -/
theorem run_utf8EncodeChar (c : Char) (bytes : List UInt8) :
    run .start (String.utf8EncodeChar c ++ bytes) = c :: run .start bytes := by
  have hvalid := toNat_cases c
  have hchar : Char.ofNat c.toNat = c := Char.ofNat_toNat c
  have hcode : c.val.toNat = c.toNat := rfl
  rw [String.utf8EncodeChar]
  simp only [hcode]
  generalize c.toNat = v at *
  split_ifs with hone htwo hthree
  · rw [List.cons_append, List.nil_append, run_start, toNat_ofNat (by omega), first, if_pos hone,
      hchar]
    rfl
  · simp only [List.cons_append, List.nil_append]
    rw [run_start, toNat_ofNat (by omega), first_two (by omega) (by omega), List.nil_append,
      run_last (by omega) (by omega) (by omega)]
    have hsame : (v / 64 % 0x20 + 0xc0) % 0x20 * 0x40 + (v % 0x40 + 0x80) % 0x40 = v := by omega
    rw [hsame, hchar]
  · simp only [List.cons_append, List.nil_append]
    rw [run_start, toNat_ofNat (by omega), first_three (by omega) (by omega), List.nil_append,
      run_tail (by omega) (by split_ifs <;> omega) (by split_ifs <;> omega),
      run_last (by omega) (by omega) (by omega)]
    have hsame : ((v / 4096 % 0x10 + 0xe0) % 0x10 * 0x40 + (v / 64 % 0x40 + 0x80) % 0x40) * 0x40 +
        (v % 0x40 + 0x80) % 0x40 = v := by omega
    rw [hsame, hchar]
  · simp only [List.cons_append, List.nil_append]
    rw [run_start, toNat_ofNat (by omega), first_four (by omega) (by omega), List.nil_append,
      run_tail (by omega) (by split_ifs <;> omega) (by split_ifs <;> omega),
      run_tail (by omega) (by omega) (by omega), run_last (by omega) (by omega) (by omega)]
    have hsame : (((v / 262144 % 0x08 + 0xf0) % 0x08 * 0x40 +
        (v / 4096 % 0x40 + 0x80) % 0x40) * 0x40 + (v / 64 % 0x40 + 0x80) % 0x40) * 0x40 +
        (v % 0x40 + 0x80) % 0x40 = v := by omega
    rw [hsame, hchar]

lemma run_encode (text : List Char) : run .start (encode text) = text := by
  induction text with
  | nil => rfl
  | cons c text ih =>
    rw [encode, List.flatMap_cons, run_utf8EncodeChar]
    exact congrArg (c :: ·) ih

/-- **A text** that was encoded is decoded as it was, unless it begins with a byte order mark. -/
theorem decode_utf8 {text : List Char} (h : ∀ c, text.head? = some c → c.toNat ≠ 0xfeff) :
    decode (encode text) = text := by
  rw [decode, run_encode]
  cases text with
  | nil => rfl
  | cons c text => exact if_neg (h c rfl)

end Utf8
