import Mathlib.Data.List.Basic
import Mathlib.Tactic.Common

set_option relaxedAutoImplicit false
set_option autoImplicit false

/-!
# Base64

`btoa` and `atob`. A binary string is the list of its codes. Three bytes are four characters; one or two
at the end are two or three, and the text is filled up with equals signs.

## Main definitions

* `Base64.btoa`, `Base64.atob` — the text of bytes, and the bytes of a text.

## Main results

* `Base64.atob_btoa` — bytes that were written are read back.
-/

namespace Base64

/-- The character of six bits. -/
def char (n : ℕ) : Char :=
  if n < 26 then Char.ofNat (n + 65)
  else if n < 52 then Char.ofNat (n + 71)
  else if n < 62 then Char.ofNat (n - 4)
  else if n = 62 then '+'
  else '/'

/-- The six bits of a character. -/
def value (c : Char) : Option ℕ :=
  if c.isUpper then some (c.toNat - 65)
  else if c.isLower then some (c.toNat - 71)
  else if c.isDigit then some (c.toNat + 4)
  else if c = '+' then some 62
  else if c = '/' then some 63
  else none

/-- Bytes, six bits at a time. -/
def sixes : List UInt8 → List ℕ
  | a :: b :: c :: rest =>
    a.toNat / 4 :: (a.toNat % 4 * 16 + b.toNat / 16) :: (b.toNat % 16 * 4 + c.toNat / 64) ::
      c.toNat % 64 :: sixes rest
  | [a, b] => [a.toNat / 4, a.toNat % 4 * 16 + b.toNat / 16, b.toNat % 16 * 4]
  | [a] => [a.toNat / 4, a.toNat % 4 * 16]
  | [] => []

/-- The bytes in groups of six bits; what fills no byte is dropped. -/
def bytes : List ℕ → List UInt8
  | a :: b :: c :: d :: rest =>
    UInt8.ofNat (a * 4 + b / 16) :: UInt8.ofNat (b % 16 * 16 + c / 4) ::
      UInt8.ofNat (c % 4 * 64 + d) :: bytes rest
  | [a, b, c] => [UInt8.ofNat (a * 4 + b / 16), UInt8.ofNat (b % 16 * 16 + c / 4)]
  | [a, b] => [UInt8.ofNat (a * 4 + b / 16)]
  | _ => []

/-- The equals signs that fill a text of so many characters up. -/
def padding (length : ℕ) : List Char := List.replicate ((4 - length % 4) % 4) '='

def btoa (bs : List UInt8) : List Char := (sixes bs).map char ++ padding (sixes bs).length

def isSpace (c : Char) : Bool :=
  c == '\t' || c == '\n' || c.toNat == 0x0c || c == '\r' || c == ' '

/-- A text without one equals sign at its end, or two. -/
def dropPadding (text : List Char) : List Char :=
  if text.getLast? = some '=' then
    if text.dropLast.getLast? = some '=' then text.dropLast.dropLast else text.dropLast
  else text

/-- The bytes of a text; `none` where it throws. -/
def atob (text : List Char) : Option (List UInt8) :=
  let text := text.filter (!isSpace ·)
  let text := if text.length % 4 = 0 then dropPadding text else text
  if text.length % 4 = 1 then none else (text.mapM value).map bytes

/-! ## Characters -/

lemma value_char : ∀ n < 64, value (char n) = some n := by decide

lemma isSpace_char : ∀ n < 64, isSpace (char n) = false := by decide

lemma char_ne_equals : ∀ n < 64, char n ≠ '=' := by decide

/-! ## Bytes -/

lemma sixes_lt (bs : List UInt8) : ∀ n ∈ sixes bs, n < 64 := by
  fun_induction sixes bs with
  | case1 a b c rest ih =>
    have ha := a.toNat_lt
    have hb := b.toNat_lt
    have hc := c.toNat_lt
    simp only [List.forall_mem_cons]
    exact ⟨by omega, by omega, by omega, by omega, ih⟩
  | case2 a b =>
    have ha := a.toNat_lt
    have hb := b.toNat_lt
    simp only [List.forall_mem_cons, List.not_mem_nil, false_implies, implies_true, and_true]
    omega
  | case3 a =>
    have ha := a.toNat_lt
    simp only [List.forall_mem_cons, List.not_mem_nil, false_implies, implies_true, and_true]
    omega
  | case4 => simp

/-- No number of bytes leaves six bits over a group of four. -/
lemma length_sixes (bs : List UInt8) : (sixes bs).length % 4 ≠ 1 := by
  fun_induction sixes bs with
  | case1 a b c rest ih =>
    simp only [List.length_cons]
    omega
  | case2 a b =>
    show 3 % 4 ≠ 1
    decide
  | case3 a =>
    show 2 % 4 ≠ 1
    decide
  | case4 => decide

lemma ofNat_eq {b : UInt8} {n : ℕ} (h : n = b.toNat) : UInt8.ofNat n = b := by
  rw [h, UInt8.ofNat_toNat]

/-- **Bytes in groups of six bits** are those bytes. -/
lemma bytes_sixes (bs : List UInt8) : bytes (sixes bs) = bs := by
  fun_induction sixes bs with
  | case1 a b c rest ih =>
    have hb := b.toNat_lt
    have hc := c.toNat_lt
    rw [bytes, ih, ofNat_eq (b := a) (by omega), ofNat_eq (b := b) (by omega),
      ofNat_eq (b := c) (by omega)]
  | case2 a b =>
    have hb := b.toNat_lt
    rw [bytes, ofNat_eq (b := a) (by omega), ofNat_eq (b := b) (by omega)]
  | case3 a => rw [bytes, ofNat_eq (b := a) (by omega)]
  | case4 => rfl

/-! ## Texts -/

/-- The equals signs that were put at the end of a text are taken off. -/
lemma dropPadding_append {text : List Char} (h : ∀ c ∈ text, c ≠ '=') {k : ℕ} (hk : k ≤ 2) :
    dropPadding (text ++ List.replicate k '=') = text := by
  have hlast : text.getLast? ≠ some '=' := fun hlast => h '=' (List.mem_of_getLast? hlast) rfl
  have hone : dropPadding (text ++ ['=']) = text := by
    rw [dropPadding, List.getLast?_concat, if_pos rfl, List.dropLast_concat, if_neg hlast]
  rcases Nat.lt_or_ge k 1 with hk0 | hk1
  · obtain rfl : k = 0 := by omega
    rw [List.replicate_zero, List.append_nil, dropPadding, if_neg hlast]
  · rcases Nat.lt_or_ge k 2 with hk1' | hk2
    · obtain rfl : k = 1 := by omega
      exact hone
    · obtain rfl : k = 2 := by omega
      have htwo : text ++ List.replicate 2 '=' = text ++ ['='] ++ ['='] := by
        rw [List.append_assoc]
        rfl
      rw [htwo, dropPadding, List.getLast?_concat, if_pos rfl, List.dropLast_concat,
        List.getLast?_concat, if_pos rfl, List.dropLast_concat]

lemma mapM_value {ns : List ℕ} (h : ∀ n ∈ ns, n < 64) : (ns.map char).mapM value = some ns := by
  induction ns with
  | nil => rfl
  | cons n ns ih =>
    obtain ⟨hn, hns⟩ := List.forall_mem_cons.mp h
    rw [List.map_cons, List.mapM_cons, value_char n hn, ih hns]
    rfl

/-- **Bytes that were written** are read back. -/
theorem atob_btoa (bs : List UInt8) : atob (btoa bs) = some bs := by
  have hlt := sixes_lt bs
  have hlength := length_sixes bs
  have hmap : ∀ c ∈ (sixes bs).map char, isSpace c = false ∧ c ≠ '=' := by
    intro c hc
    obtain ⟨n, hn, rfl⟩ := List.mem_map.mp hc
    exact ⟨isSpace_char n (hlt n hn), char_ne_equals n (hlt n hn)⟩
  have hfilter : (btoa bs).filter (!isSpace ·) = btoa bs := by
    refine List.filter_eq_self.mpr fun c hc => ?_
    rcases List.mem_append.mp hc with hc | hc
    · rw [(hmap c hc).1]
      rfl
    · rw [List.eq_of_mem_replicate hc]
      rfl
  have hfull : (btoa bs).length % 4 = 0 := by
    rw [btoa, padding, List.length_append, List.length_map, List.length_replicate]
    omega
  have hdrop : dropPadding (btoa bs) = (sixes bs).map char :=
    dropPadding_append (fun c hc => (hmap c hc).2) (by omega)
  simp only [atob, hfilter, if_pos hfull, hdrop, List.length_map, if_neg hlength, mapM_value hlt,
    Option.map_some, bytes_sixes]

end Base64
