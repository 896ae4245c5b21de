import Mathlib.Algebra.Field.Rat
import Mathlib.Data.List.DropRight
import Mathlib.Data.List.Forall2

set_option relaxedAutoImplicit false
set_option autoImplicit false

/-!
# JavaScript values

Plain data as JavaScript holds it: what `JSON.parse` answers, with the `undefined`, the numbers
that are not finite and the big integers that a program adds. An object is the list of its own
fields, of which the first of a name counts. A string is well-formed Unicode.

## Main definitions

* `Js` — a value.
* `Js.Same` — equal up to the order of an object's fields.
* `Js.toBigInt` — `BigInt` of a string, `none` when it throws.

## Main results

* `Js.same_object_iff` — the values that are the same as a given object.
* `Js.toBigInt_of_isDigit` — a printed number is read back.
-/

/-- A JavaScript value. -/
inductive Js
  | undefined
  | null
  | bool (b : Bool)
  | number (q : ℚ)
  /-- `NaN` or an infinity. -/
  | notFinite
  | bigint (z : ℤ)
  | string (s : String)
  | array (items : List Js)
  | object (fields : List (String × Js))
deriving Repr

namespace Js

/-- With distinct keys, a key finds what it stands beside. -/
lemma lookup_eq_some_iff_mem {β : Type} {entries : List (String × β)}
    (h : (entries.map Prod.fst).Nodup) {key : String} {b : β} :
    entries.lookup key = some b ↔ (key, b) ∈ entries := by
  induction entries with
  | nil => simp
  | cons e entries ih =>
    obtain ⟨k, c⟩ := e
    rw [List.map_cons, List.nodup_cons] at h
    rw [List.lookup_cons, List.mem_cons, Prod.mk.injEq, ← ih h.2]
    by_cases heq : key = k
    · subst heq
      have hnone : entries.lookup key ≠ some b := fun hs =>
        h.1 (List.mem_map.mpr ⟨(key, b), (ih h.2).mp hs, rfl⟩)
      simp [hnone, eq_comm]
    · simp [heq, beq_eq_false_iff_ne.mpr heq]

/-- A field of an object; a missing one is `undefined`. -/
def field (fields : List (String × Js)) (key : String) : Js := (fields.lookup key).getD .undefined

/-- What counts as true. -/
def truthy : Js → Bool
  | .undefined | .null => false
  | .bool b => b
  | .number q => q ≠ 0
  | .bigint z => z ≠ 0
  | .string s => s ≠ ""
  | .notFinite | .array _ | .object _ => true

/-- `v === s`. -/
def isText (v : Js) (s : String) : Bool :=
  match v with
  | .string t => t = s
  | _ => false

lemma isText_eq_true_iff {v : Js} {s : String} : isText v s = true ↔ v = .string s := by
  cases v <;> simp [isText]

/-! ## Equality up to the order of fields -/

/-- Equal up to the order of the fields of objects. -/
inductive Same : Js → Js → Prop
  | undefined : Same .undefined .undefined
  | null : Same .null .null
  | bool (b : Bool) : Same (.bool b) (.bool b)
  | number (q : ℚ) : Same (.number q) (.number q)
  | notFinite : Same .notFinite .notFinite
  | bigint (z : ℤ) : Same (.bigint z) (.bigint z)
  | string (s : String) : Same (.string s) (.string s)
  | array {xs ys : List Js} (h : List.Forall₂ Same xs ys) : Same (.array xs) (.array ys)
  | object {fs gs : List (String × Js)} (hkeys : ∀ k ∈ gs.map Prod.fst, k ∈ fs.map Prod.fst)
      (hsome : ∀ f ∈ fs, (gs.lookup f.1).isSome)
      (h : ∀ f ∈ fs, ∀ v, gs.lookup f.1 = some v → Same f.2 v) :
      Same (.object fs) (.object gs)

variable {v : Js}

@[simp] lemma same_bool_iff {b : Bool} : Same (.bool b) v ↔ v = .bool b := by
  constructor
  · intro h
    cases h
    rfl
  · rintro rfl
    exact .bool b

@[simp] lemma same_number_iff {q : ℚ} : Same (.number q) v ↔ v = .number q := by
  constructor
  · intro h
    cases h
    rfl
  · rintro rfl
    exact .number q

@[simp] lemma same_string_iff {s : String} : Same (.string s) v ↔ v = .string s := by
  constructor
  · intro h
    cases h
    rfl
  · rintro rfl
    exact .string s

lemma same_array_iff {xs : List Js} :
    Same (.array xs) v ↔ ∃ ys, v = .array ys ∧ List.Forall₂ Same xs ys := by
  constructor
  · intro h
    cases h with
    | array h => exact ⟨_, rfl, h⟩
  · rintro ⟨ys, rfl, h⟩
    exact .array h

/-- **The same object**: it has the same field names, each with the same value. -/
theorem same_object_iff {fs : List (String × Js)} :
    Same (.object fs) v ↔ ∃ gs, v = .object gs ∧ (∀ k ∈ gs.map Prod.fst, k ∈ fs.map Prod.fst) ∧
      ∀ f ∈ fs, ∃ u, gs.lookup f.1 = some u ∧ Same f.2 u := by
  constructor
  · intro h
    cases h with
    | object hkeys hsome h =>
      refine ⟨_, rfl, hkeys, fun f hf => ?_⟩
      obtain ⟨u, hu⟩ := Option.isSome_iff_exists.mp (hsome f hf)
      exact ⟨u, hu, h f hf u hu⟩
  · rintro ⟨gs, rfl, hkeys, h⟩
    refine .object hkeys (fun f hf => ?_) fun f hf u hu => ?_
    · obtain ⟨u, hu, -⟩ := h f hf
      exact Option.isSome_iff_exists.mpr ⟨u, hu⟩
    · obtain ⟨u', hu', hsame⟩ := h f hf
      obtain rfl : u' = u := Option.some.inj (hu'.symm.trans hu)
      exact hsame

lemma Same.undefined_left {u : Js} (h : Same u .undefined) : u = .undefined := by
  cases h
  rfl

/-- The same object as one without `undefined` fields, field by field. -/
lemma same_object_iff_field {fs : List (String × Js)} (hfs : ∀ f ∈ fs, f.2 ≠ .undefined) :
    Same (.object fs) v ↔ ∃ gs, v = .object gs ∧ (∀ k ∈ gs.map Prod.fst, k ∈ fs.map Prod.fst) ∧
      ∀ f ∈ fs, Same f.2 (field gs f.1) := by
  rw [same_object_iff]
  refine exists_congr fun gs => and_congr_right fun _ => and_congr_right fun _ =>
    forall₂_congr fun f hf => ?_
  unfold field
  cases hlookup : gs.lookup f.1 with
  | none =>
    simp only [reduceCtorEq, false_and, exists_false, Option.getD_none, false_iff]
    exact fun h => hfs f hf h.undefined_left
  | some u => simp

/-- Every value whose objects have distinct field names is the same as itself. -/
lemma same_object_self {fs : List (String × Js)} (hfs : (fs.map Prod.fst).Nodup)
    (h : ∀ f ∈ fs, Same f.2 f.2) : Same (.object fs) (.object fs) :=
  same_object_iff.mpr ⟨fs, rfl, fun _ hk => hk, fun f hf =>
    ⟨f.2, (lookup_eq_some_iff_mem hfs).mpr hf, h f hf⟩⟩

/-! ## Conversions and properties -/

/-- `String` of a value; `none` for the texts that are not spelled out here, an array's and that
of a number which is no plain integer. -/
def toText : Js → Option String
  | .undefined => some "undefined"
  | .null => some "null"
  | .bool b => some (toString b)
  | .number q => if q.den = 1 ∧ q.num.natAbs < 1000000000000000000000 then some (toString q.num)
    else none
  | .notFinite => none
  | .bigint z => some (toString z)
  | .string s => some s
  | .array _ => none
  | .object _ => some "[object Object]"

/-- `Number` of a value; `none` for the numbers that are not spelled out here, a text's, an
array's and that of a big integer which no number holds. -/
def toNumber : Js → Option Js
  | .undefined => some .notFinite
  | .null => some (.number 0)
  | .bool b => some (.number (if b then 1 else 0))
  | .number q => some (.number q)
  | .notFinite => some .notFinite
  | .bigint z => if z.natAbs ≤ 9007199254740992 then some (.number z) else none
  | .string _ => none
  | .array _ => none
  | .object _ => some .notFinite

/-- A property of a value, `none` when reading it throws. -/
def prop? (key : String) : Js → Option Js
  | .undefined => none
  | .null => none
  | .object fields => some (field fields key)
  | _ => some .undefined

/-! ## `BigInt` of a string -/

/-- White space and line terminators. -/
def isSpace (c : Char) : Bool :=
  (9 ≤ c.toNat && c.toNat ≤ 13) || c.toNat == 0x20 || c.toNat == 0xa0 || c.toNat == 0x1680 ||
    (0x2000 ≤ c.toNat && c.toNat ≤ 0x200a) || c.toNat == 0x2028 || c.toNat == 0x2029 ||
    c.toNat == 0x202f || c.toNat == 0x205f || c.toNat == 0x3000 || c.toNat == 0xfeff

/-- The value of a digit in bases up to 16. -/
def digitValue (c : Char) : Option ℕ :=
  if c.isDigit then some (c.toNat - '0'.toNat)
  else if 'a' ≤ c && c ≤ 'f' then some (c.toNat - 'a'.toNat + 10)
  else if 'A' ≤ c && c ≤ 'F' then some (c.toNat - 'A'.toNat + 10)
  else none

/-- One or more digits of a base. -/
def digits (base : ℕ) (cs : List Char) : Option ℕ :=
  if cs.isEmpty || !cs.all fun c => (digitValue c).any (· < base) then none
  else some (cs.foldl (fun n c => n * base + (digitValue c).getD 0) 0)

/-- The text without white space at both ends. -/
def trim (cs : List Char) : List Char :=
  ((cs.dropWhile isSpace).reverse.dropWhile isSpace).reverse

lemma trim_eq (cs : List Char) : trim cs = (cs.dropWhile isSpace).rdropWhile isSpace := rfl

/-- Trimming twice is trimming once. -/
lemma trim_trim (cs : List Char) : trim (trim cs) = trim cs := by
  set l := cs.dropWhile isSpace with hl
  have hhead : l.dropWhile isSpace = l := List.dropWhile_idempotent isSpace cs
  have hstart : (l.rdropWhile isSpace).dropWhile isSpace = l.rdropWhile isSpace := by
    rw [List.dropWhile_eq_self_iff]
    intro hpos
    have hprefix := List.rdropWhile_prefix isSpace l
    rw [List.dropWhile_eq_self_iff] at hhead
    have hlen : 0 < l.length := hpos.trans_le hprefix.length_le
    have hget : (l.rdropWhile isSpace)[0] = l[0] := hprefix.getElem hpos
    rw [hget]
    exact hhead hlen
  rw [trim_eq cs, ← hl, trim_eq, hstart, List.rdropWhile_idempotent]

/-- `BigInt` of a string, `none` when it throws. -/
def toBigInt (s : String) : Option ℤ :=
  match trim s.toList with
  | [] => some 0
  | '0' :: 'x' :: cs => (digits 16 cs).map (↑)
  | '0' :: 'X' :: cs => (digits 16 cs).map (↑)
  | '0' :: 'o' :: cs => (digits 8 cs).map (↑)
  | '0' :: 'O' :: cs => (digits 8 cs).map (↑)
  | '0' :: 'b' :: cs => (digits 2 cs).map (↑)
  | '0' :: 'B' :: cs => (digits 2 cs).map (↑)
  | '-' :: cs => (digits 10 cs).map fun n => -(n : ℤ)
  | '+' :: cs => (digits 10 cs).map (↑)
  | cs => (digits 10 cs).map (↑)

/-- The code of a digit. -/
lemma toNat_of_isDigit {c : Char} (h : c.isDigit = true) : 48 ≤ c.toNat ∧ c.toNat ≤ 57 := by
  rw [Char.isDigit, Bool.and_eq_true, decide_eq_true_eq, decide_eq_true_eq] at h
  exact ⟨UInt32.le_iff_toNat_le.mp h.1, UInt32.le_iff_toNat_le.mp h.2⟩

/-- A digit is no white space. -/
lemma isSpace_of_isDigit {c : Char} (h : c.isDigit = true) : isSpace c = false := by
  have hc := toNat_of_isDigit h
  unfold isSpace
  simp only [Bool.or_eq_false_iff, Bool.and_eq_false_iff, decide_eq_false_iff_not, beq_eq_false_iff_ne]
  omega

/-- Digits have no white space at either end. -/
lemma trim_of_digits {cs : List Char} (h : ∀ c ∈ cs, c.isDigit = true) : trim cs = cs := by
  have hdrop : ∀ l : List Char, (∀ c ∈ l, c.isDigit = true) → l.dropWhile isSpace = l := by
    intro l hl
    cases l with
    | nil => rfl
    | cons c l =>
      rw [List.dropWhile_cons, isSpace_of_isDigit (hl c List.mem_cons_self)]
      rfl
  have hrev : ∀ c ∈ cs.reverse, c.isDigit = true := fun c hc => h c (List.mem_reverse.mp hc)
  rw [trim, hdrop cs h, hdrop cs.reverse hrev, List.reverse_reverse]

/-- A decimal digit counts as its value. -/
lemma digitValue_of_isDigit {c : Char} (h : c.isDigit = true) :
    digitValue c = some (c.toNat - '0'.toNat) ∧ c.toNat - '0'.toNat < 10 := by
  have hc := toNat_of_isDigit h
  refine ⟨if_pos h, ?_⟩
  show c.toNat - 48 < 10
  omega

lemma digits_of_isDigit {cs : List Char} (hne : cs ≠ []) (h : ∀ c ∈ cs, c.isDigit = true) :
    digits 10 cs = some (Nat.ofDigitChars 10 cs 0) := by
  have hall : (cs.all fun c => (digitValue c).any (· < 10)) = true := by
    rw [List.all_eq_true]
    intro c hc
    obtain ⟨hv, hlt⟩ := digitValue_of_isDigit (h c hc)
    rw [hv]
    exact decide_eq_true hlt
  have hfold : ∀ (l : List Char) (n : ℕ), (∀ c ∈ l, c.isDigit = true) →
      l.foldl (fun n c => n * 10 + (digitValue c).getD 0) n = Nat.ofDigitChars 10 l n := by
    intro l
    induction l with
    | nil => exact fun n _ => (Nat.ofDigitChars_nil).symm
    | cons c l ih =>
      intro n hl
      obtain ⟨hv, -⟩ := digitValue_of_isDigit (hl c List.mem_cons_self)
      rw [List.foldl_cons, hv, Option.getD_some, ih _ fun d hd => hl d (List.mem_cons_of_mem c hd),
        Nat.ofDigitChars_cons, Nat.mul_comm]
  have hempty : cs.isEmpty = false := by
    rw [List.isEmpty_eq_false_iff]
    exact hne
  rw [digits, hempty, hall, hfold cs 0 h]
  rfl

/-- **A printed number is read back.** -/
theorem toBigInt_of_isDigit {s : String} (hne : s.toList ≠ [])
    (h : ∀ c ∈ s.toList, c.isDigit = true) :
    toBigInt s = some (Nat.ofDigitChars 10 s.toList 0 : ℕ) := by
  have hdigits := digits_of_isDigit hne h
  have hsecond : ∀ c d cs, s.toList = c :: d :: cs → d.isDigit = true := by
    intro c d cs hs
    exact h d (by rw [hs]; simp)
  have hfirst : ∀ c cs, s.toList = c :: cs → c.isDigit = true := by
    intro c cs hs
    exact h c (by rw [hs]; simp)
  rw [toBigInt, trim_of_digits h]
  split
  · next hs => exact absurd hs hne
  · next hs => exact absurd (hsecond _ _ _ hs) (by decide)
  · next hs => exact absurd (hsecond _ _ _ hs) (by decide)
  · next hs => exact absurd (hsecond _ _ _ hs) (by decide)
  · next hs => exact absurd (hsecond _ _ _ hs) (by decide)
  · next hs => exact absurd (hsecond _ _ _ hs) (by decide)
  · next hs => exact absurd (hsecond _ _ _ hs) (by decide)
  · next hs => exact absurd (hfirst _ _ hs) (by decide)
  · next hs => exact absurd (hfirst _ _ hs) (by decide)
  · rw [hdigits]
    rfl

end Js
