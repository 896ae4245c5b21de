import Koul.Lib.JsonText
import Koul.Lib.Utf8

set_option relaxedAutoImplicit false
set_option autoImplicit false

/-!
# Strings of code units

A JavaScript string is a list of UTF-16 code units, in which a surrogate may stand without its other
half. `TextEncoder` writes such a half as U+FFFD, and `JSON.stringify` as a `\u` escape.

## Main definitions

* `Utf16.codePoints` — the characters of a string and its lone surrogates.
* `Utf16.ofText` — the code units of a text.
* `Utf16.byteLength` — how many bytes `TextEncoder` makes of a string.
* `Utf16.quote` — a string as `JSON.stringify` writes it.

## Main results

* `Utf16.codePoints_ofText` — the code units of a text are those of its characters.
* `Utf16.quote_ofText` — which are written as `JsonText.quote` has it.
* `Utf16.length_encode_quote` — a written string has its own bytes, two quotes and its escapes.
-/

namespace Utf16

open JsonText

/-- A string is the list of its code units. -/
abbrev Units := List UInt16

/-- A character, or half of a pair that is not there. -/
inductive CodePoint
  | scalar (c : Char)
  | surrogate (u : UInt16)
deriving DecidableEq

def isLead (u : UInt16) : Bool := 0xd800 ≤ u.toNat && u.toNat ≤ 0xdbff

def isTrail (u : UInt16) : Bool := 0xdc00 ≤ u.toNat && u.toNat ≤ 0xdfff

def single (u : UInt16) : CodePoint :=
  if isLead u || isTrail u then .surrogate u else .scalar (Char.ofNat u.toNat)

/-- The character of a surrogate pair. -/
def pair (lead trail : UInt16) : Char :=
  Char.ofNat (0x10000 + (lead.toNat - 0xd800) * 0x400 + (trail.toNat - 0xdc00))

def codePoints : Units → List CodePoint
  | [] => []
  | [u] => [single u]
  | u :: v :: units =>
    if isLead u && isTrail v then .scalar (pair u v) :: codePoints units
    else single u :: codePoints (v :: units)

/-- The code units of a character. -/
def ofChar (c : Char) : Units :=
  if c.toNat < 0x10000 then [UInt16.ofNat c.toNat]
  else [UInt16.ofNat (0xd800 + (c.toNat - 0x10000) / 0x400),
    UInt16.ofNat (0xdc00 + (c.toNat - 0x10000) % 0x400)]

def ofText (text : Text) : Units := text.flatMap ofChar

/-! ## The code units of a text -/

lemma toNat_ofNat {n : ℕ} (h : n < 0x10000) : (UInt16.ofNat n).toNat = n := by
  rw [UInt16.toNat_ofNat']
  exact Nat.mod_eq_of_lt h

/-- A unit that is no surrogate is a character, whatever follows it. -/
lemma codePoints_cons {u : UInt16} (hlead : isLead u = false) (units : Units) :
    codePoints (u :: units) = single u :: codePoints units := by
  cases units with
  | nil => rfl
  | cons v units =>
    rw [codePoints, hlead]
    exact if_neg Bool.false_ne_true

/-- **A character** that was taken apart is put together, with one case for one unit and one for two. -/
lemma codePoints_ofChar (c : Char) (units : Units) :
    codePoints (ofChar c ++ units) = .scalar c :: codePoints units := by
  have hvalid := Utf8.toNat_cases c
  unfold ofChar
  split_ifs with hone
  · have hsame := toNat_ofNat hone
    have hlead : isLead (UInt16.ofNat c.toNat) = false := by
      simp only [isLead, hsame, Bool.and_eq_false_iff, decide_eq_false_iff_not]
      omega
    have htrail : isTrail (UInt16.ofNat c.toNat) = false := by
      simp only [isTrail, hsame, Bool.and_eq_false_iff, decide_eq_false_iff_not]
      omega
    rw [List.singleton_append, codePoints_cons hlead, single, hlead, htrail, hsame,
      Char.ofNat_toNat]
    rfl
  · have hlead := toNat_ofNat (n := 0xd800 + (c.toNat - 0x10000) / 0x400) (by omega)
    have htrail := toNat_ofNat (n := 0xdc00 + (c.toNat - 0x10000) % 0x400) (by omega)
    have hpair : (isLead (UInt16.ofNat (0xd800 + (c.toNat - 0x10000) / 0x400)) &&
        isTrail (UInt16.ofNat (0xdc00 + (c.toNat - 0x10000) % 0x400))) = true := by
      simp only [isLead, isTrail, hlead, htrail, Bool.and_eq_true, decide_eq_true_eq]
      omega
    have hcode : 0x10000 + (0xd800 + (c.toNat - 0x10000) / 0x400 - 0xd800) * 0x400 +
        (0xdc00 + (c.toNat - 0x10000) % 0x400 - 0xdc00) = c.toNat := by
      omega
    rw [List.cons_append, List.singleton_append, codePoints, if_pos hpair, pair, hlead, htrail,
      hcode, Char.ofNat_toNat]

/-- **A text** that was taken apart is put together. -/
theorem codePoints_ofText (text : Text) : codePoints (ofText text) = text.map .scalar := by
  induction text with
  | nil => rfl
  | cons c text ih =>
    rw [ofText, List.flatMap_cons, codePoints_ofChar]
    exact congrArg (CodePoint.scalar c :: ·) ih

/-! ## Bytes -/

def CodePoint.toChar : CodePoint → Char
  | .scalar c => c
  | .surrogate _ => Utf8.replacement

/-- `new TextEncoder().encode` of a string. -/
def encode (units : Units) : List UInt8 := Utf8.encode ((codePoints units).map CodePoint.toChar)

def byteLength (units : Units) : ℕ := (encode units).length

/-- A string of whole characters is encoded as a text is. -/
lemma byteLength_ofText (text : Text) : byteLength (ofText text) = (Utf8.encode text).length := by
  have hmap : (text.map CodePoint.scalar).map CodePoint.toChar = text := by
    rw [List.map_map]
    exact List.map_id text
  rw [byteLength, encode, codePoints_ofText, hmap]

def CodePoint.escape : CodePoint → Text
  | .scalar c => JsonText.escape c
  | .surrogate u => '\\' :: 'u' :: hex4 u.toNat

/-- A string in its quotes. -/
def quote (units : Units) : Text :=
  QUOTE :: ((codePoints units).flatMap CodePoint.escape ++ [QUOTE])

/-- How many bytes the escape of a code point has more than the code point. -/
def CodePoint.extra : CodePoint → ℕ
  | .surrogate _ => 3
  | .scalar c =>
    if c = QUOTE ∨ c = '\\' then 1
    else if c.toNat = 0x08 ∨ c.toNat = 0x0c ∨ c = '\n' ∨ c = '\r' ∨ c = '\t' then 1
    else if c.toNat < 0x20 then 5
    else 0

/-- What the escapes of a string add to its bytes. -/
def escapeBytes (units : Units) : ℕ := ((codePoints units).map CodePoint.extra).sum

/-- A string of whole characters is quoted as a text is. -/
theorem quote_ofText (text : Text) : quote (ofText text) = JsonText.quote (String.ofList text) := by
  rw [quote, codePoints_ofText, List.flatMap_map, JsonText.quote, String.toList_ofList]
  rfl

lemma length_utf8EncodeChar_of_lt {c : Char} (h : c.toNat < 0x80) :
    (String.utf8EncodeChar c).length = 1 := by
  have hle : c.val.toNat ≤ 0x7f := Nat.lt_succ_iff.mp h
  rw [String.utf8EncodeChar, if_pos hle]
  rfl

lemma length_encode_cons (c : Char) (text : Text) :
    (Utf8.encode (c :: text)).length =
      (String.utf8EncodeChar c).length + (Utf8.encode text).length := by
  rw [Utf8.encode, List.flatMap_cons, List.length_append]
  rfl

lemma length_encode_append (a b : Text) :
    (Utf8.encode (a ++ b)).length = (Utf8.encode a).length + (Utf8.encode b).length := by
  rw [Utf8.encode, List.flatMap_append, List.length_append]
  rfl

/-- Plain characters are a byte each. -/
lemma length_encode_of_lt {text : Text} (h : ∀ c ∈ text, c.toNat < 0x80) :
    (Utf8.encode text).length = text.length := by
  induction text with
  | nil => rfl
  | cons c text ih =>
    obtain ⟨hc, htext⟩ := List.forall_mem_cons.mp h
    rw [length_encode_cons, length_utf8EncodeChar_of_lt hc, ih htext, List.length_cons, add_comm]

lemma digitChar_lt : ∀ d < 16, (Nat.digitChar d).toNat < 0x80 := by decide

lemma length_encode_hex4 (n : ℕ) : (Utf8.encode ('\\' :: 'u' :: hex4 n)).length = 6 := by
  have hdigit : ∀ m, (Nat.digitChar (m % 16)).toNat < 0x80 := fun m =>
    digitChar_lt _ (Nat.mod_lt m (by decide))
  apply length_encode_of_lt
  intro c hc
  simp only [hex4, List.mem_cons, List.not_mem_nil, or_false] at hc
  rcases hc with rfl | rfl | rfl | rfl | rfl | rfl
  · decide
  · decide
  all_goals exact hdigit _

lemma extra_of_short {c : Char}
    (h : c.toNat = 0x08 ∨ c.toNat = 0x0c ∨ c = '\n' ∨ c = '\r' ∨ c = '\t') :
    (String.utf8EncodeChar c).length + (CodePoint.scalar c).extra = 2 := by
  have hlt : c.toNat < 0x80 := by
    rcases h with h | h | rfl | rfl | rfl
    · omega
    · omega
    all_goals decide
  rw [length_utf8EncodeChar_of_lt hlt, CodePoint.extra, if_pos h, ite_self]

/-- **An escape** has the bytes of its character and the extra ones, with one case for each way to
write a character. -/
lemma length_encode_escape (p : CodePoint) : (Utf8.encode p.escape).length =
    (String.utf8EncodeChar p.toChar).length + p.extra := by
  cases p with
  | surrogate u => exact length_encode_hex4 u.toNat
  | scalar c =>
    show (Utf8.encode (JsonText.escape c)).length =
      (String.utf8EncodeChar c).length + (CodePoint.scalar c).extra
    unfold JsonText.escape
    split_ifs with hself hb hf hn hr ht hcontrol
    · obtain rfl | rfl := hself <;> decide
    · exact (extra_of_short (Or.inl hb)).symm
    · exact (extra_of_short (Or.inr (Or.inl hf))).symm
    · exact (extra_of_short (Or.inr (Or.inr (Or.inl hn)))).symm
    · exact (extra_of_short (Or.inr (Or.inr (Or.inr (Or.inl hr))))).symm
    · exact (extra_of_short (Or.inr (Or.inr (Or.inr (Or.inr ht))))).symm
    · rw [length_encode_hex4, length_utf8EncodeChar_of_lt (by omega), CodePoint.extra,
        if_neg hself, if_neg (by simp [hb, hf, hn, hr, ht]), if_pos hcontrol]
    · rw [length_encode_cons, CodePoint.extra, if_neg hself, if_neg (by simp [hb, hf, hn, hr, ht]),
        if_neg hcontrol]
      rfl

/-- **A string in its quotes**: its own bytes, the two quotes, and what its escapes add. -/
theorem length_encode_quote (units : Units) :
    (Utf8.encode (quote units)).length = byteLength units + 2 + escapeBytes units := by
  have hbody : ∀ points : List CodePoint, (Utf8.encode (points.flatMap CodePoint.escape)).length =
      (Utf8.encode (points.map CodePoint.toChar)).length + (points.map CodePoint.extra).sum := by
    intro points
    induction points with
    | nil => rfl
    | cons p points ih =>
      rw [List.flatMap_cons, length_encode_append, ih, length_encode_escape, List.map_cons,
        List.map_cons, length_encode_cons, List.sum_cons]
      omega
  have hquote : (String.utf8EncodeChar QUOTE).length = 1 := by decide
  rw [quote, length_encode_cons, length_encode_append, hbody, length_encode_cons, hquote, byteLength,
    encode, escapeBytes]
  simp only [Utf8.encode, List.flatMap_nil, List.length_nil]
  omega

end Utf16
