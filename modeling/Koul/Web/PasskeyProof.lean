import Koul.Lib.Der
import Koul.Lib.Transactional

set_option relaxedAutoImplicit false
set_option autoImplicit false

/-!
# Passkey signatures

A passkey signs in DER, and WebCrypto verifies the raw form: 32 bytes of `r`, then 32 of `s`.
`derToRaw` of `passkey-proof.ts` reads the one and writes the other.

## Main definitions

* `Koul.Passkey.derToRaw` — the raw form of a signature.

## Main results

* `Koul.Passkey.value_of_derToRaw` — the halves of the raw form of a signature are its numbers.
* `Koul.Passkey.derToRaw_spec` — a signature in minimal DER is converted, and whatever is converted has 64
  bytes.

## Design

A byte past the end of a buffer is `undefined`, and an offset computed from it is `NaN`, at which
there is no byte either: an offset is an optional number, and so is a byte.
-/

namespace Koul.Passkey

open Transactional (bind_eq_ok_iff)

inductive Thrown
  | error (message : String)
  /-- `Buffer.alloc` of a negative size. -/
  | rangeError
deriving DecidableEq, Repr

abbrev Buffer := List UInt8

/-- `der[i]`. -/
def byteAt (der : Buffer) (i : Option ℕ) : Option UInt8 := i.bind (der[·]?)

/-- `der.subarray(start, stop)`, with ends past the buffer cut to it and `NaN` taken as zero. -/
def subarray (der : Buffer) (start stop : Option ℕ) : Buffer :=
  (der.take (stop.getD 0)).drop (start.getD 0)

/-- The bytes from the first that is not zero, or the last 32. -/
def strip : Buffer → Buffer
  | [] => []
  | b :: n => if 32 < (b :: n).length ∧ b = 0 then strip n else b :: n

/-- `Buffer.alloc` of so many bytes. -/
def alloc (size : ℤ) : Except Thrown Buffer :=
  if size < 0 then .error .rangeError else .ok (List.replicate size.toNat 0)

/-- An integer in 32 bytes, and the offset after it. -/
def read (der : Buffer) (i : Option ℕ) : Except Thrown (Buffer × Option ℕ) :=
  if byteAt der i ≠ some 0x02 then .error (.error "signature is not DER")
  else do
    let len := byteAt der (i.map (· + 1))
    let next := i.bind fun i => len.map fun len => i + 2 + len.toNat
    let n := strip (subarray der (i.map (· + 2)) next)
    let zeros ← alloc (32 - n.length)
    pure (zeros ++ n, next)

/-- WebAuthn signs ECDSA as DER; WebCrypto verifies the raw 64-byte r||s form. -/
def derToRaw (der : Buffer) : Except Thrown Buffer :=
  if byteAt der (some 0) ≠ some 0x30 then .error (.error "signature is not DER")
  else do
    let (r, i) ← read der (some 2)
    let (s, _) ← read der i
    pure (r ++ s)

/-! ## Stripping and filling up -/

lemma strip_of_length_le {n : Buffer} (h : n.length ≤ 32) : strip n = n := by
  cases n with
  | nil => rfl
  | cons b n => exact if_neg fun hc => by omega

/-- Zeros before at most 32 bytes are stripped or filled up again. -/
lemma fill_strip_zeros {bytes : Buffer} (h : bytes.length ≤ 32) (zeros : ℕ) :
    (strip (List.replicate zeros 0 ++ bytes)).length ≤ 32 ∧
      Der.fill 32 (strip (List.replicate zeros 0 ++ bytes)) = Der.fill 32 bytes := by
  induction zeros with
  | zero =>
    rw [List.replicate_zero, List.nil_append, strip_of_length_le h]
    exact ⟨h, rfl⟩
  | succ zeros ih =>
    by_cases hlong : 32 < (List.replicate (zeros + 1) (0 : UInt8) ++ bytes).length
    · have hstrip : strip (List.replicate (zeros + 1) 0 ++ bytes) =
          strip (List.replicate zeros 0 ++ bytes) := if_pos ⟨hlong, rfl⟩
      rw [hstrip]
      exact ih
    · rw [strip_of_length_le (not_lt.mp hlong)]
      rw [List.length_append, List.length_replicate] at hlong
      refine ⟨?_, Der.fill_zeros (by omega)⟩
      rw [List.length_append, List.length_replicate]
      omega

/-- The contents of an integer that fits 32 bytes, stripped and filled up. -/
lemma fill_strip_contents {n : ℕ} (h : n < 256 ^ 32) :
    (strip (Der.contents n)).length ≤ 32 ∧ Der.fill 32 (strip (Der.contents n)) = Der.fixed 32 n := by
  obtain ⟨zeros, -, heq⟩ := Der.contents_eq n
  rw [heq, Der.fixed_eq_fill]
  exact fill_strip_zeros (Der.length_minimal_le h) zeros

/-- Up to 32 bytes are filled up; more have no room. -/
lemma alloc_eq (n : Buffer) : alloc (32 - n.length) =
    if n.length ≤ 32 then .ok (List.replicate (32 - n.length) 0) else .error .rangeError := by
  unfold alloc
  split_ifs with hneg hle hle
  · omega
  · rfl
  · have hsize : (32 - (n.length : ℤ)).toNat = 32 - n.length := by omega
    rw [hsize]
  · omega

/-! ## One integer -/

/-- What is read, where a tag stands: the bytes that are left once stripped, if there is room. -/
lemma read_of_tag {der : Buffer} {i : ℕ} (htag : der[i]? = some 0x02) :
    read der (some i) =
      let next := (der[i + 1]?).map fun len => i + 2 + len.toNat
      let n := strip (subarray der (some (i + 2)) next)
      if n.length ≤ 32 then .ok (Der.fill 32 n, next) else .error .rangeError := by
  unfold read
  rw [if_neg (by simpa [byteAt] using htag)]
  simp only [alloc_eq, byteAt, Option.map_some, Option.bind_some]
  split_ifs <;> rfl

/-- Whatever is read has 32 bytes. -/
lemma length_of_read {der n : Buffer} {i next : Option ℕ} (h : read der i = .ok (n, next)) :
    n.length = 32 := by
  by_cases htag : byteAt der i = some 0x02
  · obtain ⟨i, rfl, htag⟩ := Option.bind_eq_some_iff.mp htag
    rw [read_of_tag htag] at h
    dsimp only at h
    split_ifs at h with hle
    obtain ⟨rfl, -⟩ := Prod.mk.inj (Except.ok.inj h)
    exact Der.length_fill hle
  · rw [read, if_pos htag] at h
    exact nomatch h

/-- **An integer** of a signature is read in 32 bytes, wherever it stands. -/
lemma read_element (before after : Buffer) {n : ℕ} (h : n < 256 ^ 32) :
    read (before ++ (Der.element 0x02 (Der.contents n) ++ after)) (some before.length) =
      .ok (Der.fixed 32 n, some (before.length + 2 + (Der.contents n).length)) := by
  have hlen : (UInt8.ofNat (Der.contents n).length).toNat = (Der.contents n).length := by
    have := Der.length_contents_le h
    exact UInt8.toNat_ofNat_of_lt (by rw [UInt8.size]; omega)
  obtain ⟨hle, hfill⟩ := fill_strip_contents h
  set der := before ++ (Der.element 0x02 (Der.contents n) ++ after) with hder
  have htag : der[before.length]? = some 0x02 := by simp [hder, Der.element]
  have hnext : der[before.length + 1]? = some (UInt8.ofNat (Der.contents n).length) := by
    simp [hder, Der.element]
  have hsplit : der = (before ++ [0x02, UInt8.ofNat (Der.contents n).length]) ++
      (Der.contents n ++ after) := by
    simp [hder, Der.element]
  have hsub : subarray der (some (before.length + 2))
      (some (before.length + 2 + (Der.contents n).length)) = Der.contents n := by
    rw [subarray, Option.getD_some, Option.getD_some, hsplit, List.drop_take,
      List.drop_left' (by simp), List.take_left' (by omega)]
  rw [read_of_tag htag]
  simp only [hnext, Option.map_some, hlen, hsub]
  rw [if_pos hle, hfill]

/-! ## The signature -/

/-- What is converted begins with the tag of a sequence and is read as two integers. -/
lemma derToRaw_eq_ok_iff {der raw : Buffer} : derToRaw der = .ok raw ↔
    byteAt der (some 0) = some 0x30 ∧ ∃ r i s j, read der (some 2) = .ok (r, i) ∧
      read der i = .ok (s, j) ∧ raw = r ++ s := by
  unfold derToRaw
  split_ifs with htag
  · exact ⟨fun h => (nomatch h), fun h => absurd h.1 htag⟩
  · simp only [bind_eq_ok_iff, Prod.exists]
    constructor
    · rintro ⟨r, i, hr, s, j, hs, hraw⟩
      exact ⟨not_not.mp htag, r, i, s, j, hr, hs, (Except.ok.inj hraw).symm⟩
    · rintro ⟨-, r, i, s, j, hr, hs, rfl⟩
      exact ⟨r, i, hr, s, j, hs, rfl⟩

/-- **A signature in minimal DER** is read integer by integer. -/
lemma derToRaw_signature {r s : ℕ} (hr : r < 256 ^ 32) (hs : s < 256 ^ 32) :
    derToRaw (Der.signature r s) = .ok (Der.fixed 32 r ++ Der.fixed 32 s) := by
  set head : Buffer := [0x30, UInt8.ofNat (Der.element 0x02 (Der.contents r) ++
    Der.element 0x02 (Der.contents s)).length] with hhead
  have hfirst : read (Der.signature r s) (some 2) =
      .ok (Der.fixed 32 r, some (2 + 2 + (Der.contents r).length)) :=
    read_element head (Der.element 0x02 (Der.contents s)) hr
  have hsecond := read_element (head ++ Der.element 0x02 (Der.contents r)) [] hs
  have hder : head ++ Der.element 0x02 (Der.contents r) ++
      (Der.element 0x02 (Der.contents s) ++ []) = Der.signature r s := by
    rw [List.append_nil, List.append_assoc]
    rfl
  have hat : (head ++ Der.element 0x02 (Der.contents r)).length =
      2 + 2 + (Der.contents r).length := by
    simp only [hhead, Der.element, List.length_append, List.length_cons, List.length_nil]
    omega
  rw [hder, hat] at hsecond
  exact derToRaw_eq_ok_iff.mpr ⟨rfl, _, _, _, _, hfirst, hsecond, rfl⟩

/-- **The two halves** of the raw form are the two numbers. -/
theorem value_of_derToRaw {r s : ℕ} {raw : Buffer} (hr : r < 256 ^ 32) (hs : s < 256 ^ 32)
    (h : derToRaw (Der.signature r s) = .ok raw) :
    Der.value (raw.take 32) = r ∧ Der.value (raw.drop 32) = s := by
  rw [derToRaw_signature hr hs] at h
  obtain rfl := Except.ok.inj h
  have hlength : (Der.fixed 32 r).length = 32 := Der.length_fixed hr
  rw [List.take_left' hlength, List.drop_left' hlength]
  exact ⟨Der.value_fixed 32 r, Der.value_fixed 32 s⟩

/-- Two integers of 32 bytes each. -/
lemma length_of_derToRaw {der raw : Buffer} (h : derToRaw der = .ok raw) : raw.length = 64 := by
  obtain ⟨-, r, i, s, j, hr, hs, rfl⟩ := derToRaw_eq_ok_iff.mp h
  rw [List.length_append, length_of_read hr, length_of_read hs]

/-- **The raw form.** A signature of two numbers in minimal DER becomes their 32 bytes each, and what
becomes of any bytes has 64.

**Proof sketch.** Each integer is its fewest bytes with at most one zero before them, so that what is
left once stripped has room in 32 bytes; the second is read where the first ends. -/
theorem derToRaw_spec :
    (∀ r s : ℕ, 1 ≤ r → r < 2 ^ 256 → 1 ≤ s → s < 2 ^ 256 →
      derToRaw (Der.signature r s) = .ok (Der.fixed 32 r ++ Der.fixed 32 s)) ∧
    ∀ der : Buffer, (∃ e, derToRaw der = .error e) ∨
      ∃ raw, derToRaw der = .ok raw ∧ raw.length = 64 := by
  constructor
  · intro r s _ hr _ hs
    have hbytes : 2 ^ 256 = 256 ^ 32 := by norm_num
    rw [hbytes] at hr hs
    exact derToRaw_signature hr hs
  · intro der
    cases h : derToRaw der with
    | error e => exact Or.inl ⟨e, rfl⟩
    | ok raw => exact Or.inr ⟨raw, rfl, length_of_derToRaw h⟩

/-- The number 1, and one whose first byte takes a zero before it. -/
theorem derToRaw_spec_top :
    derToRaw (Der.signature 1 (2 ^ 255)) = .ok (Der.fixed 32 1 ++ Der.fixed 32 (2 ^ 255)) :=
  derToRaw_spec.1 1 (2 ^ 255) le_rfl (by norm_num) (by norm_num) (by norm_num)

end Koul.Passkey
