import Koul.Lib.Js
import Mathlib.Algebra.Order.Field.Basic
import Mathlib.Algebra.Order.Ring.Rat
import Mathlib.Data.Nat.Log
import Mathlib.Data.Nat.Prime.Basic
import Mathlib.Data.Rat.Lemmas
import Mathlib.Tactic.FieldSimp
import Mathlib.Tactic.Ring

set_option relaxedAutoImplicit false
set_option autoImplicit false

/-!
# JSON texts

`JSON.stringify` and `JSON.parse`, on texts as lists of characters. How a number is written and read is a
parameter: a double that is written is read back, and its text is made of the characters of numbers.

## Main definitions

* `JsonText.stringify?` — the text of a value, when it has one.
* `JsonText.parse?` — the value of a text, when it is JSON.
* `JsonText.IsJson` — the values that a text can hold.
* `JsonText.Numerals` — how doubles are written and read, and `wholeNumerals`, one way to do so.

## Main results

* `JsonText.parse_stringify` — a value that was written is read back.

## Design

The strings are well-formed Unicode, so a text that escapes half of a surrogate pair has no value here.
-/

namespace JsonText

/-- A text is the list of its characters. -/
abbrev Text := List Char

def isNumberChar (c : Char) : Bool := c.isDigit || ['-', '+', '.', 'e', 'E'].contains c

/-- The finite doubles. -/
def IsDouble (q : ℚ) : Prop :=
  ∃ m e : ℤ, |m| < 2 ^ 53 ∧ -1074 ≤ e ∧ e ≤ 971 ∧ q = m * (2 : ℚ) ^ e

lemma isDouble_natCast {n : ℕ} (h : n < 2 ^ 53) : IsDouble n := by
  refine ⟨n, 0, ?_, by decide, by decide, by simp⟩
  rw [Nat.abs_cast]
  exact_mod_cast h

/-- How doubles are written, and what a text of number characters is read as. -/
structure Numerals where
  write : ℚ → Text
  read : Text → Option Js
  read_write : ∀ q, IsDouble q → read (write q) = some (.number q)
  write_ne_nil : ∀ q, IsDouble q → write q ≠ []
  isNumberChar_write : ∀ q, IsDouble q → ∀ c ∈ write q, isNumberChar c = true

mutual

/-- `String` of a value. -/
def toText (N : Numerals) : Js → Text
  | .undefined => "undefined".toList
  | .null => "null".toList
  | .bool b => if b then "true".toList else "false".toList
  | .number q => N.write q
  | .notFinite => "Infinity".toList
  | .bigint z => (toString z).toList
  | .string s => s.toList
  | .array items => [','].intercalate (joinedTexts N items)
  | .object _ => "[object Object]".toList

/-- The texts that the items of an array are joined from. -/
def joinedTexts (N : Numerals) : List Js → List Text
  | [] => []
  | .undefined :: items | .null :: items => [] :: joinedTexts N items
  | item :: items => toText N item :: joinedTexts N items

end

/-! ## Strings -/

def QUOTE : Char := Char.ofNat 0x22

def hex4 (n : ℕ) : Text :=
  [Nat.digitChar (n / 4096 % 16), Nat.digitChar (n / 256 % 16), Nat.digitChar (n / 16 % 16),
    Nat.digitChar (n % 16)]

def escape (c : Char) : Text :=
  if c = QUOTE ∨ c = '\\' then ['\\', c]
  else if c.toNat = 0x08 then ['\\', 'b']
  else if c.toNat = 0x0c then ['\\', 'f']
  else if c = '\n' then ['\\', 'n']
  else if c = '\r' then ['\\', 'r']
  else if c = '\t' then ['\\', 't']
  else if c.toNat < 0x20 then '\\' :: 'u' :: hex4 c.toNat
  else [c]

def quote (s : String) : Text := QUOTE :: (s.toList.flatMap escape ++ [QUOTE])

/-- The character after a backslash. -/
def unescape (c : Char) : Option Char :=
  if c = QUOTE ∨ c = '\\' ∨ c = '/' then some c
  else if c = 'b' then some (Char.ofNat 0x08)
  else if c = 'f' then some (Char.ofNat 0x0c)
  else if c = 'n' then some '\n'
  else if c = 'r' then some '\r'
  else if c = 't' then some '\t'
  else none

/-- The code unit of four digits. -/
def unit? (a b c d : Char) : Option ℕ :=
  match Js.digitValue a, Js.digitValue b, Js.digitValue c, Js.digitValue d with
  | some a, some b, some c, some d => some (a * 4096 + b * 256 + c * 16 + d)
  | _, _, _, _ => none

/-- The characters of a string up to its closing quote, and the text after it. -/
def string? : Text → Option (Text × Text)
  | [] => none
  | [c] => if c = QUOTE then some ([], []) else none
  | c :: e :: text =>
    if c = QUOTE then some ([], e :: text)
    else if c = '\\' then
      if e = 'u' then
        match text with
        | w :: x :: y :: z :: text =>
          match unit? w x y z with
          | none => none
          | some high =>
            if high < 0xd800 ∨ 0xdfff < high then
              (string? text).map fun r => (Char.ofNat high :: r.1, r.2)
            else
              match text with
              | '\\' :: 'u' :: w :: x :: y :: z :: text =>
                match unit? w x y z with
                | none => none
                | some low =>
                  if high < 0xdc00 ∧ 0xdc00 ≤ low ∧ low ≤ 0xdfff then
                    (string? text).map fun r =>
                      (Char.ofNat (0x10000 + (high - 0xd800) * 0x400 + (low - 0xdc00)) :: r.1, r.2)
                  else none
              | _ => none
        | _ => none
      else
        match unescape e with
        | none => none
        | some e => (string? text).map fun r => (e :: r.1, r.2)
    else if c.toNat < 0x20 then none
    else (string? (e :: text)).map fun r => (c :: r.1, r.2)

/-! ## Strings that were written -/

lemma string_quote (rest : Text) : string? (QUOTE :: rest) = some ([], rest) := by
  cases rest with
  | nil => exact if_pos rfl
  | cons e text =>
    rw [string?.eq_def]
    exact if_pos rfl

/-- A character that stands for itself. -/
lemma string_cons {c : Char} (hquote : c ≠ QUOTE) (hslash : c ≠ '\\') (hcontrol : ¬ c.toNat < 0x20)
    {text : Text} (hne : text ≠ []) :
    string? (c :: text) = (string? text).map fun r => (c :: r.1, r.2) := by
  obtain ⟨e, text, rfl⟩ := List.exists_cons_of_ne_nil hne
  rw [string?.eq_def]
  dsimp only
  rw [if_neg hquote, if_neg hslash, if_neg hcontrol]

/-- A character after a backslash. -/
lemma string_unescape {e c : Char} (hu : e ≠ 'u') (h : unescape e = some c) (text : Text) :
    string? ('\\' :: e :: text) = (string? text).map fun r => (c :: r.1, r.2) := by
  rw [string?.eq_def]
  dsimp only
  rw [if_neg (by decide), if_pos rfl, if_neg hu, h]

lemma unit_hex4 : ∀ n < 0x20, unit? (Nat.digitChar (n / 4096 % 16)) (Nat.digitChar (n / 256 % 16))
    (Nat.digitChar (n / 16 % 16)) (Nat.digitChar (n % 16)) = some n := by decide

lemma string_hex4 {n : ℕ} (hn : n < 0x20) (text : Text) :
    string? ('\\' :: 'u' :: (hex4 n ++ text)) =
      (string? text).map fun r => (Char.ofNat n :: r.1, r.2) := by
  rw [hex4, List.cons_append, List.cons_append, List.cons_append, List.cons_append, List.nil_append,
    string?, if_neg (by decide), if_pos rfl, if_pos rfl, unit_hex4 n hn]
  exact if_pos (Or.inl (by omega))

/-- **A character that was escaped** is read back, with one case for each way to write it. -/
lemma string_escape (c : Char) {text : Text} (hne : text ≠ []) :
    string? (escape c ++ text) = (string? text).map fun r => (c :: r.1, r.2) := by
  have hcode : ∀ {n}, c.toNat = n → c = Char.ofNat n := fun h => by rw [← h, Char.ofNat_toNat]
  unfold escape
  split_ifs with hself hb hf hn hr ht hcontrol
  · obtain rfl | rfl := hself
    · exact string_unescape (by decide) (by decide) text
    · exact string_unescape (by decide) (by decide) text
  · rw [hcode hb]
    exact string_unescape (by decide) (by decide) text
  · rw [hcode hf]
    exact string_unescape (by decide) (by decide) text
  · subst hn
    exact string_unescape (by decide) (by decide) text
  · subst hr
    exact string_unescape (by decide) (by decide) text
  · subst ht
    exact string_unescape (by decide) (by decide) text
  · have h := string_hex4 hcontrol text
    rw [Char.ofNat_toNat] at h
    exact h
  · exact string_cons (fun h => hself (Or.inl h)) (fun h => hself (Or.inr h)) hcontrol hne

/-- **A string that was written** is read back up to its closing quote. -/
theorem string_flatMap_escape (s rest : Text) :
    string? (s.flatMap escape ++ QUOTE :: rest) = some (s, rest) := by
  induction s with
  | nil => exact string_quote rest
  | cons c s ih =>
    rw [List.flatMap_cons, List.append_assoc, string_escape c (by simp), ih]
    rfl

lemma quote_append (s : String) (rest : Text) :
    quote s ++ rest = QUOTE :: (s.toList.flatMap escape ++ QUOTE :: rest) := by
  rw [quote, List.cons_append, List.append_assoc]
  rfl

/-! ## Writing -/

variable (N : Numerals)

def commas : List Text → Text
  | [] => []
  | [text] => text
  | text :: texts => text ++ ',' :: commas texts

mutual

/-- `JSON.stringify`: `none` for `undefined`, and for a big integer, on which it throws. -/
def stringify? : Js → Option Text
  | .undefined | .bigint _ => none
  | .null | .notFinite => some "null".toList
  | .bool true => some "true".toList
  | .bool false => some "false".toList
  | .number q => some (N.write q)
  | .string s => some (quote s)
  | .array items => (itemTexts? items).map fun texts => '[' :: (commas texts ++ [']'])
  | .object fields => (fieldTexts? fields).map fun texts => '{' :: (commas texts ++ ['}'])

def itemTexts? : List Js → Option (List Text)
  | [] => some []
  | .undefined :: items => (itemTexts? items).map ("null".toList :: ·)
  | v :: items => (stringify? v).bind fun text => (itemTexts? items).map (text :: ·)

/-- A field that is `undefined` is left out. -/
def fieldTexts? : List (String × Js) → Option (List Text)
  | [] => some []
  | (_, .undefined) :: fields => fieldTexts? fields
  | (key, v) :: fields =>
    (stringify? v).bind fun text => (fieldTexts? fields).map ((quote key ++ ':' :: text) :: ·)

end

/-! ## Reading -/

def isSpace (c : Char) : Bool := c == ' ' || c == '\t' || c == '\n' || c == '\r'

def skipSpace (text : Text) : Text := text.dropWhile isSpace

/-- A field is assigned in its place; of two with one name the later counts. -/
def assign (fields : List (String × Js)) (f : String × Js) : List (String × Js) :=
  if f.1 ∈ fields.map Prod.fst then fields.map fun g => if g.1 = f.1 then f else g
  else fields ++ [f]

def number? (text : Text) : Option (Js × Text) :=
  (N.read (text.takeWhile isNumberChar)).map fun v => (v, text.dropWhile isNumberChar)

mutual

/-- A value and the text after it. A value takes a character at least, so the length of a text is fuel
enough for what is in it. -/
def value? : ℕ → Text → Option (Js × Text)
  | 0, _ => none
  | fuel + 1, text =>
    match skipSpace text with
    | [] => none
    | c :: text =>
      if c = QUOTE then (string? text).map fun r => (.string (String.ofList r.1), r.2)
      else if c = '[' then
        if (skipSpace text).head? = some ']' then some (.array [], (skipSpace text).tail)
        else (items? fuel text).map fun r => (.array r.1, r.2)
      else if c = '{' then
        if (skipSpace text).head? = some '}' then some (.object [], (skipSpace text).tail)
        else (fields? fuel text).map fun r => (.object (r.1.foldl assign []), r.2)
      else if c = 'n' then (text.dropPrefix? "ull".toList).map fun r => (.null, r)
      else if c = 't' then (text.dropPrefix? "rue".toList).map fun r => (.bool true, r)
      else if c = 'f' then (text.dropPrefix? "alse".toList).map fun r => (.bool false, r)
      else number? N (c :: text)

def items? : ℕ → Text → Option (List Js × Text)
  | 0, _ => none
  | fuel + 1, text =>
    match value? fuel text with
    | none => none
    | some (v, text) =>
      match skipSpace text with
      | ',' :: text => (items? fuel text).map fun r => (v :: r.1, r.2)
      | ']' :: text => some ([v], text)
      | _ => none

def fields? : ℕ → Text → Option (List (String × Js) × Text)
  | 0, _ => none
  | fuel + 1, text =>
    match skipSpace text with
    | [] => none
    | c :: text =>
      if c ≠ QUOTE then none
      else
        match string? text with
        | none => none
        | some (key, text) =>
          match skipSpace text with
          | ':' :: text =>
            match value? fuel text with
            | none => none
            | some (v, text) =>
              match skipSpace text with
              | ',' :: text => (fields? fuel text).map fun r => ((String.ofList key, v) :: r.1, r.2)
              | '}' :: text => some ([(String.ofList key, v)], text)
              | _ => none
          | _ => none

end

/-- `JSON.parse`: `none` where it throws. -/
def parse? (text : Text) : Option Js :=
  match value? N (text.length + 1) text with
  | some (v, rest) => if skipSpace rest = [] then some v else none
  | none => none

/-! ## Values that were written -/

/-- The values that a text can hold. -/
inductive IsJson : Js → Prop
  | null : IsJson .null
  | bool (b : Bool) : IsJson (.bool b)
  | number {q : ℚ} (h : IsDouble q) : IsJson (.number q)
  | string (s : String) : IsJson (.string s)
  | array {items : List Js} (h : ∀ v ∈ items, IsJson v) : IsJson (.array items)
  | object {fields : List (String × Js)} (hkeys : (fields.map Prod.fst).Nodup)
      (h : ∀ f ∈ fields, IsJson f.2) : IsJson (.object fields)

@[simp] lemma isJson_string (s : String) : IsJson (.string s) := .string s

@[simp] lemma isJson_bool (b : Bool) : IsJson (.bool b) := .bool b

@[simp] lemma isJson_array_iff {items : List Js} :
    IsJson (.array items) ↔ ∀ v ∈ items, IsJson v := by
  constructor
  · intro h
    cases h with
    | array h => exact h
  · exact .array

@[simp] lemma isJson_object_iff {fields : List (String × Js)} :
    IsJson (.object fields) ↔ (fields.map Prod.fst).Nodup ∧ ∀ f ∈ fields, IsJson f.2 := by
  constructor
  · intro h
    cases h with
    | object hkeys h => exact ⟨hkeys, h⟩
  · exact fun h => .object h.1 h.2

/-- What follows a value goes on with no number. -/
def Ends (rest : Text) : Prop := ∀ c, rest.head? = some c → isNumberChar c = false

/-- The first character is one that a value begins with. -/
def Starts (text : Text) : Prop :=
  ∃ c rest, text = c :: rest ∧ isSpace c = false ∧ c ≠ ']' ∧ c ≠ '}'

/-- A text is read as a value, whatever follows it. -/
structure Reads (v : Js) (text : Text) : Prop where
  starts : Starts text
  value : ∀ fuel, text.length ≤ fuel → ∀ rest, Ends rest →
    value? N fuel (text ++ rest) = some (v, rest)

/-- A text is read as a field. -/
def ReadsField (f : String × Js) (text : Text) : Prop :=
  ∃ t, text = quote f.1 ++ ':' :: t ∧ Reads N f.2 t

/-- A value is written, and its text is read as it. -/
def Written (v : Js) : Prop := ∃ text, stringify? N v = some text ∧ Reads N v text

variable {N}

lemma Ends.cons {c : Char} (h : isNumberChar c = false) (rest : Text) : Ends (c :: rest) := by
  intro d hd
  cases hd
  exact h

lemma skipSpace_cons {c : Char} (h : isSpace c = false) (text : Text) :
    skipSpace (c :: text) = c :: text := by
  rw [skipSpace, List.dropWhile_cons, h]
  rfl

lemma skipSpace_of_starts {text : Text} (h : Starts text) (rest : Text) :
    skipSpace (text ++ rest) = text ++ rest := by
  obtain ⟨c, t, rfl, hspace, -, -⟩ := h
  exact skipSpace_cons hspace (t ++ rest)

/-- A value that begins with the first character of a text. -/
lemma value_cons (fuel : ℕ) {c : Char} (h : isSpace c = false) (text : Text) :
    value? N (fuel + 1) (c :: text) =
      if c = QUOTE then (string? text).map fun r => (.string (String.ofList r.1), r.2)
      else if c = '[' then
        if (skipSpace text).head? = some ']' then some (.array [], (skipSpace text).tail)
        else (items? N fuel text).map fun r => (.array r.1, r.2)
      else if c = '{' then
        if (skipSpace text).head? = some '}' then some (.object [], (skipSpace text).tail)
        else (fields? N fuel text).map fun r => (.object (r.1.foldl assign []), r.2)
      else if c = 'n' then (text.dropPrefix? "ull".toList).map fun r => (.null, r)
      else if c = 't' then (text.dropPrefix? "rue".toList).map fun r => (.bool true, r)
      else if c = 'f' then (text.dropPrefix? "alse".toList).map fun r => (.bool false, r)
      else number? N (c :: text) := by
  rw [value?.eq_def]
  dsimp only
  rw [skipSpace_cons h]

lemma isNumberChar_ne {c d : Char} (h : isNumberChar c = true) (hd : isNumberChar d = false) :
    c ≠ d := by
  rintro rfl
  rw [h] at hd
  cases hd

lemma isSpace_of_isNumberChar {c : Char} (h : isNumberChar c = true) : isSpace c = false := by
  simp only [isSpace, Bool.or_eq_false_iff, beq_eq_false_iff_ne]
  exact ⟨⟨⟨isNumberChar_ne h (by decide), isNumberChar_ne h (by decide)⟩,
    isNumberChar_ne h (by decide)⟩, isNumberChar_ne h (by decide)⟩

/-! ## One kind of value at a time -/

lemma Reads.of_cons {v : Js} {c : Char} {t : Text} (hspace : isSpace c = false) (hitem : c ≠ ']')
    (hfield : c ≠ '}') (h : ∀ fuel, t.length ≤ fuel → ∀ rest, Ends rest →
      value? N (fuel + 1) (c :: (t ++ rest)) = some (v, rest)) : Reads N v (c :: t) := by
  refine ⟨⟨c, t, rfl, hspace, hitem, hfield⟩, fun fuel hfuel rest hrest => ?_⟩
  cases fuel with
  | zero => exact absurd hfuel (Nat.not_succ_le_zero _)
  | succ fuel => exact h fuel (Nat.le_of_succ_le_succ hfuel) rest hrest

lemma Reads.of_word {v : Js} {c : Char} {word : Text} (hspace : isSpace c = false) (hitem : c ≠ ']')
    (hfield : c ≠ '}') (h : ∀ fuel text, value? N (fuel + 1) (c :: text) =
      (text.dropPrefix? word).map fun r => (v, r)) : Reads N v (c :: word) := by
  refine .of_cons hspace hitem hfield fun fuel _ rest _ => ?_
  rw [h, List.dropPrefix?_append_of_beq rest (by simp)]
  rfl

lemma Reads.quote (s : String) : Reads N (.string s) (quote s) := by
  refine .of_cons (by decide) (by decide) (by decide) fun fuel _ rest _ => ?_
  rw [value_cons fuel (by decide), if_pos rfl, List.append_assoc, List.cons_append, List.nil_append,
    string_flatMap_escape, Option.map_some, String.ofList_toList]

lemma Reads.number {q : ℚ} (h : IsDouble q) : Reads N (.number q) (N.write q) := by
  have hall := N.isNumberChar_write q h
  have hread := N.read_write q h
  obtain ⟨c, t, hwrite⟩ := List.exists_cons_of_ne_nil (N.write_ne_nil q h)
  rw [hwrite] at hall hread ⊢
  have hc := hall c List.mem_cons_self
  refine .of_cons (isSpace_of_isNumberChar hc) (isNumberChar_ne hc (by decide))
    (isNumberChar_ne hc (by decide)) fun fuel _ rest hrest => ?_
  have htake : (c :: t ++ rest).takeWhile isNumberChar = c :: t := by
    rw [List.takeWhile_append_of_pos hall]
    cases rest with
    | nil => simp
    | cons d rest => simp [hrest d rfl]
  have hdrop : (c :: t ++ rest).dropWhile isNumberChar = rest := by
    rw [List.dropWhile_append_of_pos hall]
    cases rest with
    | nil => rfl
    | cons d rest => simp [hrest d rfl]
  rw [value_cons fuel (isSpace_of_isNumberChar hc), if_neg (isNumberChar_ne hc (by decide)),
    if_neg (isNumberChar_ne hc (by decide)), if_neg (isNumberChar_ne hc (by decide)),
    if_neg (isNumberChar_ne hc (by decide)), if_neg (isNumberChar_ne hc (by decide)),
    if_neg (isNumberChar_ne hc (by decide)), ← List.cons_append, number?, htake, hdrop, hread]
  rfl

/-! ## Items -/

lemma commas_cons_cons (text text' : Text) (texts : List Text) :
    commas (text :: text' :: texts) = text ++ ',' :: commas (text' :: texts) := rfl

/-- The texts of items, read one after another. A text and the comma after it give a step of the fuel. -/
lemma items_commas {items : List Js} {texts : List Text} (h : List.Forall₂ (Reads N) items texts)
    (hne : items ≠ []) (rest : Text) {fuel : ℕ} (hfuel : (commas texts).length + 1 ≤ fuel) :
    items? N fuel (commas texts ++ ']' :: rest) = some (items, rest) := by
  induction h generalizing fuel with
  | nil => exact absurd rfl hne
  | @cons v text items texts hv htail ih =>
    obtain ⟨fuel, rfl⟩ : ∃ k, fuel = k + 1 := ⟨fuel - 1, by omega⟩
    cases htail with
    | nil =>
      rw [commas, items?, hv.value fuel (by simpa [commas] using hfuel) _ (.cons (by decide) rest)]
      dsimp only
      rw [skipSpace_cons (by decide)]
      rfl
    | @cons v' text' items texts hv' htail =>
      have hlength : text.length + 1 + (commas (text' :: texts)).length ≤ fuel := by
        rw [commas_cons_cons, List.length_append, List.length_cons] at hfuel
        omega
      rw [commas_cons_cons, List.append_assoc, List.cons_append, items?,
        hv.value fuel (by omega) _ (.cons (by decide) _)]
      dsimp only
      rw [skipSpace_cons (by decide)]
      show (items? N fuel (commas (text' :: texts) ++ ']' :: rest)).map _ = _
      rw [ih (List.cons_ne_nil _ _) (by omega)]
      rfl

lemma starts_commas {text : Text} (h : Starts text) (texts : List Text) :
    Starts (commas (text :: texts)) := by
  obtain ⟨c, t, rfl, hspace, hitem, hfield⟩ := h
  cases texts with
  | nil => exact ⟨c, t, rfl, hspace, hitem, hfield⟩
  | cons text' texts => exact ⟨c, t ++ ',' :: commas (text' :: texts), rfl, hspace, hitem, hfield⟩

lemma Reads.array {items : List Js} {texts : List Text}
    (h : List.Forall₂ (Reads N) items texts) :
    Reads N (.array items) ('[' :: (commas texts ++ [']'])) := by
  refine .of_cons (by decide) (by decide) (by decide) fun fuel hfuel rest _ => ?_
  rw [List.append_assoc, List.singleton_append]
  cases h with
  | nil =>
    rw [value_cons fuel (by decide)]
    rfl
  | @cons v text items texts hv htail =>
    have hstarts := starts_commas hv.starts texts
    have hhead : (skipSpace (commas (text :: texts) ++ ']' :: rest)).head? ≠ some ']' := by
      rw [skipSpace_of_starts hstarts]
      obtain ⟨c, t, hcommas, -, hitem, -⟩ := hstarts
      rw [hcommas]
      exact fun h => hitem (Option.some.inj h)
    rw [value_cons fuel (by decide), if_neg (by decide), if_pos rfl, if_neg hhead,
      items_commas (.cons hv htail) (List.cons_ne_nil _ _) rest (by simpa using hfuel)]
    rfl

/-! ## Fields -/

lemma ReadsField.starts {f : String × Js} {text : Text} (h : ReadsField N f text) : Starts text := by
  obtain ⟨t, rfl, -⟩ := h
  rw [quote_append]
  exact ⟨QUOTE, _, rfl, by decide, by decide, by decide⟩

/-- A field, its colon and its value are read; what is next decides whether more fields are. -/
lemma fields_succ {f : String × Js} {text : Text} (h : ReadsField N f text) {fuel : ℕ}
    (hfuel : text.length ≤ fuel) {rest : Text} (hrest : Ends rest) :
    fields? N (fuel + 1) (text ++ rest) =
      match skipSpace rest with
      | ',' :: rest => (fields? N fuel rest).map fun r => (f :: r.1, r.2)
      | '}' :: rest => some ([f], rest)
      | _ => none := by
  obtain ⟨key, v⟩ := f
  obtain ⟨t, rfl, hv⟩ := h
  have hlength : t.length ≤ fuel := by
    rw [List.length_append, List.length_cons] at hfuel
    omega
  rw [List.append_assoc, List.cons_append, quote_append, fields?, skipSpace_cons (by decide)]
  dsimp only
  rw [if_neg (by simp), string_flatMap_escape]
  dsimp only
  rw [skipSpace_cons (by decide)]
  simp only [hv.value fuel hlength rest hrest, String.ofList_toList]

/-- The texts of fields, read one after another. -/
lemma fields_commas {fields : List (String × Js)} {texts : List Text}
    (h : List.Forall₂ (ReadsField N) fields texts) (hne : fields ≠ []) (rest : Text) {fuel : ℕ}
    (hfuel : (commas texts).length + 1 ≤ fuel) :
    fields? N fuel (commas texts ++ '}' :: rest) = some (fields, rest) := by
  induction h generalizing fuel with
  | nil => exact absurd rfl hne
  | @cons f text fields texts hf htail ih =>
    obtain ⟨fuel, rfl⟩ : ∃ k, fuel = k + 1 := ⟨fuel - 1, by omega⟩
    cases htail with
    | nil =>
      rw [commas, fields_succ hf (by simpa [commas] using hfuel) (.cons (by decide) rest),
        skipSpace_cons (by decide)]
      rfl
    | @cons f' text' fields texts hf' htail =>
      have hlength : text.length + 1 + (commas (text' :: texts)).length ≤ fuel := by
        rw [commas_cons_cons, List.length_append, List.length_cons] at hfuel
        omega
      rw [commas_cons_cons, List.append_assoc, List.cons_append,
        fields_succ hf (by omega) (.cons (by decide) _), skipSpace_cons (by decide)]
      show (fields? N fuel (commas (text' :: texts) ++ '}' :: rest)).map _ = _
      rw [ih (List.cons_ne_nil _ _) (by omega)]
      rfl

/-- Fields of distinct names are all kept, in their order. -/
lemma foldl_assign {fields acc : List (String × Js)}
    (h : ((acc ++ fields).map Prod.fst).Nodup) : fields.foldl assign acc = acc ++ fields := by
  induction fields generalizing acc with
  | nil => rw [List.foldl_nil, List.append_nil]
  | cons f fields ih =>
    have hnew : f.1 ∉ acc.map Prod.fst := by
      rw [List.map_append, List.map_cons, List.nodup_append] at h
      exact fun hf => h.2.2 f.1 hf f.1 List.mem_cons_self rfl
    have hacc : acc ++ f :: fields = acc ++ [f] ++ fields := by rw [List.append_assoc]; rfl
    rw [List.foldl_cons, assign, if_neg hnew, hacc, ih (hacc ▸ h)]

lemma Reads.object {fields : List (String × Js)} {texts : List Text}
    (hkeys : (fields.map Prod.fst).Nodup) (h : List.Forall₂ (ReadsField N) fields texts) :
    Reads N (.object fields) ('{' :: (commas texts ++ ['}'])) := by
  refine .of_cons (by decide) (by decide) (by decide) fun fuel hfuel rest _ => ?_
  rw [List.append_assoc, List.singleton_append]
  cases h with
  | nil =>
    rw [value_cons fuel (by decide)]
    rfl
  | @cons f text fields texts hf htail =>
    have hstarts := starts_commas hf.starts texts
    have hhead : (skipSpace (commas (text :: texts) ++ '}' :: rest)).head? ≠ some '}' := by
      rw [skipSpace_of_starts hstarts]
      obtain ⟨c, t, hcommas, -, -, hfield⟩ := hstarts
      rw [hcommas]
      exact fun h => hfield (Option.some.inj h)
    rw [value_cons fuel (by decide), if_neg (by decide), if_neg (by decide), if_pos rfl, if_neg hhead,
      fields_commas (.cons hf htail) (List.cons_ne_nil _ _) rest (by simpa using hfuel),
      Option.map_some, foldl_assign (by rwa [List.nil_append]), List.nil_append]

/-! ## Whole texts -/

lemma itemTexts_cons {v : Js} (hv : v ≠ .undefined) (items : List Js) :
    itemTexts? N (v :: items) =
      (stringify? N v).bind fun text => (itemTexts? N items).map (text :: ·) := by
  cases v <;> first | exact absurd rfl hv | rfl

lemma fieldTexts_cons {v : Js} (hv : v ≠ .undefined) (key : String) (fields : List (String × Js)) :
    fieldTexts? N ((key, v) :: fields) = (stringify? N v).bind fun text =>
      (fieldTexts? N fields).map ((quote key ++ ':' :: text) :: ·) := by
  cases v <;> first | exact absurd rfl hv | rfl

lemma Written.ne_undefined {v : Js} (h : Written N v) : v ≠ .undefined := by
  rintro rfl
  obtain ⟨text, htext, -⟩ := h
  cases htext

lemma written_items {items : List Js} (h : ∀ v ∈ items, Written N v) :
    ∃ texts, itemTexts? N items = some texts ∧ List.Forall₂ (Reads N) items texts := by
  induction items with
  | nil => exact ⟨[], rfl, .nil⟩
  | cons v items ih =>
    obtain ⟨hv, hitems⟩ := List.forall_mem_cons.mp h
    obtain ⟨text, htext, hread⟩ := id hv
    obtain ⟨texts, htexts, hreads⟩ := ih hitems
    refine ⟨text :: texts, ?_, .cons hread hreads⟩
    rw [itemTexts_cons hv.ne_undefined, htext, Option.bind_some, htexts, Option.map_some]

lemma written_fields {fields : List (String × Js)} (h : ∀ f ∈ fields, Written N f.2) :
    ∃ texts, fieldTexts? N fields = some texts ∧ List.Forall₂ (ReadsField N) fields texts := by
  induction fields with
  | nil => exact ⟨[], rfl, .nil⟩
  | cons f fields ih =>
    obtain ⟨key, v⟩ := f
    obtain ⟨hv, hfields⟩ := List.forall_mem_cons.mp h
    obtain ⟨text, htext, hread⟩ := id hv
    obtain ⟨texts, htexts, hreads⟩ := ih hfields
    refine ⟨(quote key ++ ':' :: text) :: texts, ?_, .cons ⟨text, rfl, hread⟩ hreads⟩
    rw [fieldTexts_cons hv.ne_undefined, htext, Option.bind_some, htexts, Option.map_some]

/-- By induction on the value, with one case for each kind. -/
lemma IsJson.written {v : Js} (h : IsJson v) : Written N v := by
  induction h with
  | null =>
    have hword : "null".toList = 'n' :: "ull".toList := by decide
    refine ⟨"null".toList, by rw [stringify?], ?_⟩
    rw [hword]
    exact .of_word (by decide) (by decide) (by decide) fun fuel => value_cons fuel (by decide)
  | bool b =>
    cases b with
    | true =>
      have hword : "true".toList = 't' :: "rue".toList := by decide
      refine ⟨"true".toList, by rw [stringify?], ?_⟩
      rw [hword]
      exact .of_word (by decide) (by decide) (by decide) fun fuel => value_cons fuel (by decide)
    | false =>
      have hword : "false".toList = 'f' :: "alse".toList := by decide
      refine ⟨"false".toList, by rw [stringify?], ?_⟩
      rw [hword]
      exact .of_word (by decide) (by decide) (by decide) fun fuel => value_cons fuel (by decide)
  | number h => exact ⟨_, by rw [stringify?], .number h⟩
  | string s => exact ⟨_, by rw [stringify?], .quote s⟩
  | array h ih =>
    obtain ⟨texts, htexts, hreads⟩ := written_items ih
    exact ⟨_, by rw [stringify?, htexts, Option.map_some], .array hreads⟩
  | object hkeys h ih =>
    obtain ⟨texts, htexts, hreads⟩ := written_fields ih
    exact ⟨_, by rw [stringify?, htexts, Option.map_some], .object hkeys hreads⟩

/-- **A value that was written** is read back. -/
theorem parse_stringify {v : Js} (h : IsJson v) :
    ∃ text, stringify? N v = some text ∧ parse? N text = some v := by
  obtain ⟨text, htext, hread⟩ := h.written
  refine ⟨text, htext, ?_⟩
  have hvalue := hread.value (text.length + 1) (Nat.le_succ _) [] (fun c hc => by cases hc)
  rw [List.append_nil] at hvalue
  rw [parse?, hvalue]
  rfl

/-- The text of an object begins with its brace. -/
lemma head_of_object {fields : List (String × Js)} {text : Text}
    (h : stringify? N (.object fields) = some text) : text.head? = some '{' := by
  rw [stringify?, Option.map_eq_some_iff] at h
  obtain ⟨texts, -, rfl⟩ := h
  rfl

/-! ## Whole numbers as numerals -/

/-- The denominator of a double is a power of two. -/
lemma den_eq_of_isDouble {q : ℚ} (h : IsDouble q) : q.den = 2 ^ Nat.log 2 q.den := by
  obtain ⟨m, e, -, -, -, rfl⟩ := h
  have hpow : ∃ k, ((m : ℚ) * 2 ^ e).den = 2 ^ k := by
    rcases Int.le_total 0 e with he | he
    · obtain ⟨n, rfl⟩ := Int.eq_ofNat_of_zero_le he
      refine ⟨0, ?_⟩
      have hcast : (m : ℚ) * 2 ^ (n : ℤ) = ((m * 2 ^ n : ℤ) : ℚ) := by
        push_cast
        rw [zpow_natCast]
      rw [hcast, Rat.den_intCast, pow_zero]
    · obtain ⟨n, hn⟩ := Int.eq_ofNat_of_zero_le (Int.neg_nonneg_of_nonpos he)
      obtain rfl : e = -(n : ℤ) := by omega
      have hcast : (m : ℚ) * 2 ^ (-(n : ℤ)) = (m : ℚ) / ((2 ^ n : ℤ) : ℚ) := by
        push_cast
        rw [zpow_neg, zpow_natCast, div_eq_mul_inv]
      have hdvd := Rat.den_dvd m (2 ^ n)
      rw [Rat.divInt_eq_div, ← hcast] at hdvd
      obtain ⟨k, -, hk⟩ := (Nat.dvd_prime_pow Nat.prime_two).mp (by exact_mod_cast hdvd)
      exact ⟨k, hk⟩
  obtain ⟨k, hk⟩ := hpow
  rw [hk, Nat.log_pow (by decide)]

/-- A double as a whole number, with an exponent of ten when it is none. -/
def wholeText (q : ℚ) : Text :=
  let k := Nat.log 2 q.den
  (if q.num < 0 then ['-'] else []) ++ (Nat.toDigits 10 (q.num.natAbs * 5 ^ k) ++
    if k = 0 then [] else 'e' :: '-' :: Nat.toDigits 10 k)

def unsigned? (text : Text) : Option ℚ :=
  let n := text.takeWhile Char.isDigit
  if n = [] then none
  else
    match text.dropWhile Char.isDigit with
    | [] => some (Nat.ofDigitChars 10 n 0)
    | 'e' :: '-' :: k => some (Nat.ofDigitChars 10 n 0 / 10 ^ Nat.ofDigitChars 10 k 0)
    | _ => none

def signed? : Text → Option ℚ
  | '-' :: text => (unsigned? text).map (- ·)
  | text => unsigned? text

lemma unsigned_toDigits (n k : ℕ) :
    unsigned? (Nat.toDigits 10 n ++ if k = 0 then [] else 'e' :: '-' :: Nat.toDigits 10 k) =
      some ((n : ℚ) / 10 ^ k) := by
  have hdigits : ∀ c ∈ Nat.toDigits 10 n, c.isDigit = true :=
    fun c hc => Nat.isDigit_of_mem_toDigits (by decide) (by decide) hc
  rw [unsigned?, List.takeWhile_append_of_pos hdigits, List.dropWhile_append_of_pos hdigits]
  rcases Nat.eq_zero_or_pos k with rfl | hk
  · simp [Nat.toDigits_ne_nil, Nat.ofDigitChars_ten_toDigits]
  · rw [if_neg (by omega : ¬ k = 0)]
    have he : Char.isDigit 'e' = false := by decide
    simp [he, Nat.toDigits_ne_nil, Nat.ofDigitChars_ten_toDigits]

lemma signed_wholeText {q : ℚ} (h : IsDouble q) : signed? (wholeText q) = some q := by
  have hden := den_eq_of_isDouble h
  unfold wholeText
  set k := Nat.log 2 q.den with hk
  have hvalue : ((q.num.natAbs * 5 ^ k : ℕ) : ℚ) / 10 ^ k = |q| := by
    have hq : |q| = (q.num.natAbs : ℚ) / 2 ^ k := by
      conv_lhs => rw [← Rat.num_div_den q, abs_div, hden]
      simp [Nat.cast_natAbs]
    rw [hq]
    have h10 : (10 : ℚ) ^ k = 2 ^ k * 5 ^ k := by rw [← mul_pow]; norm_num
    push_cast
    rw [h10]
    field_simp
  rcases lt_or_ge q.num 0 with hneg | hpos
  · rw [if_pos hneg, List.singleton_append, signed?, unsigned_toDigits, hvalue, Option.map_some,
      abs_of_neg (Rat.num_neg.mp hneg), neg_neg]
  · rw [if_neg (by omega), List.nil_append]
    obtain ⟨c, t, hct⟩ := List.exists_cons_of_ne_nil 
      (Nat.toDigits_ne_nil (n := q.num.natAbs * 5 ^ k) (b := 10))
    have hc : c.isDigit = true := Nat.isDigit_of_mem_toDigits (b := 10)
      (n := q.num.natAbs * 5 ^ k) (by decide) (by decide) (by rw [hct]; exact List.mem_cons_self)
    have hu := unsigned_toDigits (q.num.natAbs * 5 ^ k) k
    rw [hvalue, abs_of_nonneg (Rat.num_nonneg.mp hpos)] at hu
    rw [hct, List.cons_append] at hu ⊢
    rw [signed?]
    · exact hu
    · intro text htext
      rw [(List.cons.inj htext).1] at hc
      cases hc

/-- Numerals that write a double as a whole number, with an exponent when it is none. -/
def wholeNumerals : Numerals where
  write := wholeText
  read text := (signed? text).map .number
  read_write q hq := by rw [signed_wholeText hq, Option.map_some]
  write_ne_nil q _ := by simp [wholeText, Nat.toDigits_ne_nil]
  isNumberChar_write q _ := by
    have hdigit : ∀ n, ∀ c ∈ Nat.toDigits 10 n, isNumberChar c = true := by
      intro n c hc
      rw [isNumberChar, Nat.isDigit_of_mem_toDigits (by decide) (by decide) hc, Bool.true_or]
    intro c hc
    rcases List.mem_append.mp hc with hc | hc
    · split_ifs at hc
      · obtain rfl := List.mem_singleton.mp hc
        decide
      · cases hc
    · rcases List.mem_append.mp hc with hc | hc
      · exact hdigit _ c hc
      · split_ifs at hc
        · cases hc
        · rcases List.mem_cons.mp hc with rfl | hc
          · decide
          · rcases List.mem_cons.mp hc with rfl | hc
            · decide
            · exact hdigit _ c hc

end JsonText
