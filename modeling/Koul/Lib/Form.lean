import Koul.Lib.Url
import Koul.Lib.Utf8

set_option relaxedAutoImplicit false
set_option autoImplicit false

/-!
# Forms

`application/x-www-form-urlencoded`, as `URLSearchParams` reads and writes it: a list of names and
values, with `&` between them and `=` in each. A space is written as `+`, and every byte but those of a
few characters as `%` and two digits.

## Main definitions

* `Form.serialize` — `toString` of the parameters.
* `Form.parse` — the parameters of a text.

## Main results

* `Form.decode_encoded` — a name or a value is read as it was written.
* `Form.parse_serialize` — so are the parameters.
-/

namespace Form

open Url (Text escapeByte hexDigit)

/-! ## Writing -/

/-- The bytes that are written as they are. -/
def keeps (b : UInt8) : Bool :=
  (Char.ofNat b.toNat).isAlphanum && b.toNat < 0x80 || [0x2a, 0x2d, 0x2e, 0x5f].contains b.toNat

def encodeByte (b : UInt8) : Text :=
  if b.toNat = 0x20 then ['+'] else if keeps b then [Char.ofNat b.toNat] else escapeByte b

def encode (text : Text) : Text := (Utf8.encode text).flatMap encodeByte

def pair (p : Text × Text) : Text := encode p.1 ++ '=' :: encode p.2

def serialize (ps : List (Text × Text)) : Text := ['&'].intercalate (ps.map pair)

/-! ## Reading -/

/-- The value of a hexadecimal digit. -/
def hexValue (b : UInt8) : Option ℕ :=
  if 0x30 ≤ b.toNat ∧ b.toNat ≤ 0x39 then some (b.toNat - 0x30)
  else if 0x41 ≤ b.toNat ∧ b.toNat ≤ 0x46 then some (b.toNat - 0x37)
  else if 0x61 ≤ b.toNat ∧ b.toNat ≤ 0x66 then some (b.toNat - 0x57)
  else none

def percentDecode : List UInt8 → List UInt8
  | b :: c :: d :: bytes =>
    if b.toNat = 0x25 then
      match hexValue c, hexValue d with
      | some hi, some lo => UInt8.ofNat (hi * 16 + lo) :: percentDecode bytes
      | _, _ => b :: percentDecode (c :: d :: bytes)
    else b :: percentDecode (c :: d :: bytes)
  | bytes => bytes

def plusToSpace (b : UInt8) : UInt8 := if b.toNat = 0x2b then 0x20 else b

/-- A name or a value. -/
def decode (text : Text) : Text :=
  Utf8.run .start (percentDecode ((Utf8.encode text).map plusToSpace))

/-- The name and the value of a piece. -/
def unpair (piece : Text) : Text × Text :=
  (decode (piece.takeWhile (· ≠ '=')), decode ((piece.dropWhile (· ≠ '=')).drop 1))

def parse (text : Text) : List (Text × Text) :=
  ((text.splitOn '&').filter (· ≠ [])).map unpair

/-- The parameters of a URL's query, with or without its question mark. -/
def ofSearch (search : Text) : List (Text × Text) :=
  parse (if search.head? = some '?' then search.tail else search)

/-- The first value of a name. -/
def get (name : Text) (ps : List (Text × Text)) : Option Text := ps.lookup name

/-- All but those of a name. -/
def delete (name : Text) (ps : List (Text × Text)) : List (Text × Text) := ps.filter (·.1 ≠ name)

/-! ## Bytes -/

/-- The byte of a hexadecimal digit. -/
def hexByte (n : ℕ) : UInt8 := UInt8.ofNat (hexDigit n).toNat

lemma hexValue_hexByte : ∀ n < 16, hexValue (hexByte n) = some n := by decide

/-- What is read of a byte that was written, before the percent signs are. -/
def written (b : UInt8) : List UInt8 := (Utf8.encode (encodeByte b)).map plusToSpace

/-- A byte is written as itself, and is no percent sign then, or as a percent sign and two digits. -/
lemma written_digits : ∀ hi < 16, ∀ lo < 16,
    written (UInt8.ofNat (hi * 16 + lo)) = [UInt8.ofNat (hi * 16 + lo)] ∧ hi * 16 + lo ≠ 0x25 ∨
      written (UInt8.ofNat (hi * 16 + lo)) = [0x25, hexByte hi, hexByte lo] := by
  decide +kernel

/-- No character that is kept is a separator. -/
lemma ne_separator_of_keeps {b : UInt8} (h : keeps b = true) :
    Char.ofNat b.toNat ≠ '&' ∧ Char.ofNat b.toNat ≠ '=' := by
  unfold keeps at h
  rcases (Bool.or_eq_true _ _).mp h with halnum | hmem
  · have hc : (Char.ofNat b.toNat).isAlphanum = true := ((Bool.and_eq_true _ _).mp halnum).1
    constructor
    · intro heq
      rw [heq] at hc
      exact absurd hc (by decide)
    · intro heq
      rw [heq] at hc
      exact absurd hc (by decide)
  · have hmem := List.contains_iff_mem.mp hmem
    simp only [List.mem_cons, List.not_mem_nil, or_false] at hmem
    rcases hmem with heq | heq | heq | heq <;> rw [heq] <;> decide

lemma hexDigit_ne_separator : ∀ n < 16, hexDigit n ≠ '&' ∧ hexDigit n ≠ '=' := by decide

/-- No separator is in what a byte is written as. -/
lemma ne_separator_of_mem {b : UInt8} {c : Char} (h : c ∈ encodeByte b) : c ≠ '&' ∧ c ≠ '=' := by
  unfold encodeByte at h
  split_ifs at h with hspace hkeeps
  · obtain rfl := List.mem_singleton.mp h
    decide
  · obtain rfl := List.mem_singleton.mp h
    exact ne_separator_of_keeps hkeeps
  · have hlt : b.toNat < 256 := b.toNat_lt
    simp only [escapeByte, List.mem_cons, List.not_mem_nil, or_false] at h
    rcases h with rfl | rfl | rfl
    · decide
    · exact hexDigit_ne_separator _ (by omega)
    · exact hexDigit_ne_separator _ (by omega)

/-- A byte by its two digits. -/
lemma exists_digits (b : UInt8) : ∃ hi < 16, ∃ lo < 16, b = UInt8.ofNat (hi * 16 + lo) := by
  have hlt : b.toNat < 256 := b.toNat_lt
  refine ⟨b.toNat / 16, by omega, b.toNat % 16, by omega, ?_⟩
  rw [Nat.div_add_mod', UInt8.ofNat_toNat]

lemma percentDecode_cons {b : UInt8} (hb : b.toNat ≠ 0x25) (bytes : List UInt8) :
    percentDecode (b :: bytes) = b :: percentDecode bytes := by
  match bytes with
  | [] => rfl
  | [_] => rfl
  | c :: d :: bytes => rw [percentDecode, if_neg hb]

/-- **A byte that was written** is read as it was. -/
lemma percentDecode_written (b : UInt8) (bytes : List UInt8) :
    percentDecode (written b ++ bytes) = b :: percentDecode bytes := by
  obtain ⟨hi, hhi, lo, hlo, rfl⟩ := exists_digits b
  rcases written_digits hi hhi lo hlo with ⟨hself, hne⟩ | hescaped
  · have hbyte : (UInt8.ofNat (hi * 16 + lo)).toNat ≠ 0x25 := by
      rw [UInt8.toNat_ofNat', Nat.mod_eq_of_lt (by omega)]
      exact hne
    rw [hself, List.singleton_append, percentDecode_cons hbyte]
  · rw [hescaped]
    show percentDecode (0x25 :: hexByte hi :: hexByte lo :: bytes) = _
    rw [percentDecode, if_pos (by decide), hexValue_hexByte _ hhi, hexValue_hexByte _ hlo]

/-! ## Round trips -/

/-- **A name or a value** is read as it was written. -/
theorem decode_encoded (text : Text) : decode (encode text) = text := by
  have hwritten : (Utf8.encode (encode text)).map plusToSpace = (Utf8.encode text).flatMap written := by
    rw [encode, Utf8.encode, List.flatMap_assoc, List.map_flatMap]
    rfl
  have hbytes : ∀ bytes : List UInt8, percentDecode (bytes.flatMap written) = bytes := by
    intro bytes
    induction bytes with
    | nil => rfl
    | cons b bytes ih => rw [List.flatMap_cons, percentDecode_written, ih]
  rw [decode, hwritten, hbytes, Utf8.run_encode]

lemma ne_separator {text : Text} {c : Char} (h : c ∈ encode text) : c ≠ '&' ∧ c ≠ '=' := by
  obtain ⟨b, -, hc⟩ := List.mem_flatMap.mp h
  exact ne_separator_of_mem hc

/-- **A pair** is read as it was written. -/
lemma unpair_pair (p : Text × Text) : unpair (pair p) = p := by
  have hname : ∀ c ∈ encode p.1, decide (c ≠ '=') = true := fun c hc => decide_eq_true (ne_separator hc).2
  rw [unpair, pair, List.takeWhile_append_of_pos hname, List.dropWhile_append_of_pos hname]
  simp [decode_encoded]

/-- **The parameters** are read as they were written. -/
theorem parse_serialize (ps : List (Text × Text)) : parse (serialize ps) = ps := by
  cases ps with
  | nil => rfl
  | cons p ps =>
    have hno : ∀ piece ∈ (p :: ps).map pair, '&' ∉ piece := by
      intro piece hpiece hmem
      obtain ⟨q, -, rfl⟩ := List.mem_map.mp hpiece
      rcases List.mem_append.mp hmem with hmem | hmem
      · exact (ne_separator hmem).1 rfl
      · rcases List.mem_cons.mp hmem with heq | hmem
        · cases heq
        · exact (ne_separator hmem).1 rfl
    have hne : ∀ piece ∈ (p :: ps).map pair, decide (piece ≠ []) = true := by
      intro piece hpiece
      obtain ⟨q, -, rfl⟩ := List.mem_map.mp hpiece
      simp [pair]
    have hself : unpair ∘ pair = id := funext unpair_pair
    rw [parse, serialize, List.splitOn_intercalate _ hno (by simp), List.filter_eq_self.mpr hne,
      List.map_map, hself, List.map_id]

end Form
