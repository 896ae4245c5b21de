import Koul.Lib.Js
import Mathlib.Data.Rat.Cast.Order
import Mathlib.Tactic.FieldSimp
import Mathlib.Tactic.Ring

set_option relaxedAutoImplicit false
set_option autoImplicit false

/-!
# Amounts as text

USDC has seven decimals. An amount is kept as a whole number of its smallest unit, and shown and
entered as a decimal text: `parseAssetAmount` and `formatAssetAmount` of `core/src/funds.ts`.

## Main definitions

* `Koul.Anchor.parseAssetAmount`, `Koul.Anchor.formatAssetAmount` — the two ways.
* `Koul.Anchor.Decimal` — a text with an optional fraction of up to seven digits, well formed by
  construction.
* `Koul.Anchor.decimalValue` — the rational number that a decimal text stands for.

## Main results

* `Koul.Anchor.isAmount_iff` — the texts that are accepted are those of decimals.
* `Koul.Anchor.parseAssetAmount_text` — what a decimal is parsed as.
* `Koul.Anchor.assetAmount_spec` — the two ways are inverse, and exact.
-/

namespace Koul.Anchor

inductive AmountError
  | error (message : String)
  /-- `BigInt` of a text that is no number. -/
  | syntaxError
deriving DecidableEq, Repr

/-- `0|[1-9]\d*`, of a text of digits. -/
def isWhole : List Char → Bool
  | [] => false
  | c :: digits => c != '0' || digits.isEmpty

/-- `(\.\d{1,7})?`, up to the end of the text. -/
def isPart : List Char → Bool
  | [] => true
  | c :: digits => c == '.' && !digits.isEmpty && digits.length ≤ 7 && digits.all Char.isDigit

/-- `/^(0|[1-9]\d*)(\.\d{1,7})?$/`. The digits at the front end where the first other character is. -/
def isAmount (value : List Char) : Bool :=
  isWhole (value.takeWhile Char.isDigit) && isPart (value.dropWhile Char.isDigit)

def padEnd (length : ℕ) (text : List Char) : List Char :=
  text ++ List.replicate (length - text.length) '0'

def padStart (length : ℕ) (text : List Char) : List Char :=
  List.replicate (length - text.length) '0' ++ text

def parseAssetAmount (value : String) : Except AmountError ℤ :=
  if !isAmount value.toList then .error (.error "Amount must have at most 7 decimals")
  else
    let pieces := value.toList.splitOn '.'
    let whole := pieces.headD []
    let part := (pieces[1]?).getD []
    match Js.toBigInt (String.ofList whole), Js.toBigInt (String.ofList (padEnd 7 part)) with
    | some whole, some part =>
      let units := whole * 10000000 + part
      if units ≤ 0 then .error (.error "Amount must be positive") else .ok units
    | _, _ => .error .syntaxError

/-- A big integer as text. -/
def bigIntText (z : ℤ) : List Char :=
  if z < 0 then '-' :: Nat.toDigits 10 z.natAbs else Nat.toDigits 10 z.natAbs

def formatAssetAmount (units : ℤ) : String :=
  String.ofList (bigIntText (units.tdiv 10000000) ++
    '.' :: padStart 7 (bigIntText (units.tmod 10000000)))

/-! ## Decimals -/

/-- The number of a text of digits with at most one point, the digits after it being a fraction. -/
def decimalValue (text : String) : ℚ :=
  let whole := text.toList.takeWhile (· ≠ '.')
  let part := (text.toList.dropWhile (· ≠ '.')).drop 1
  Nat.ofDigitChars 10 whole 0 + Nat.ofDigitChars 10 part 0 / 10 ^ part.length

/-- Whole digits with no zero before others, and at most seven digits after the point. -/
structure Decimal where
  whole : List Char
  part : List Char
  whole_digits : ∀ c ∈ whole, c.isDigit = true
  part_digits : ∀ c ∈ part, c.isDigit = true
  isWhole_whole : isWhole whole = true
  length_part : part.length ≤ 7

namespace Decimal

/-- The text; with no fraction there is no point. -/
def text (d : Decimal) : List Char := if d.part = [] then d.whole else d.whole ++ '.' :: d.part

/-- In ten-millionths. -/
def units (d : Decimal) : ℕ :=
  Nat.ofDigitChars 10 d.whole 0 * 10 ^ 7 + Nat.ofDigitChars 10 d.part 0 * 10 ^ (7 - d.part.length)

variable (d : Decimal)

lemma whole_ne_nil : d.whole ≠ [] := by
  intro h
  have := d.isWhole_whole
  rw [h] at this
  exact Bool.false_ne_true this

lemma not_mem_of_digits {digits : List Char} (h : ∀ c ∈ digits, c.isDigit = true) :
    '.' ∉ digits := fun hmem => absurd (h '.' hmem) (by decide)

/-- What a text begins with that the point is not, and what is after it. -/
lemma span_text {p : Char → Bool} (hwhole : ∀ c ∈ d.whole, p c = true) (hpoint : p '.' = false) :
    d.text.takeWhile p = d.whole ∧
      d.text.dropWhile p = if d.part = [] then [] else '.' :: d.part := by
  unfold text
  split_ifs
  · exact ⟨List.takeWhile_eq_self_iff.mpr hwhole, List.dropWhile_eq_nil_iff.mpr hwhole⟩
  · rw [List.takeWhile_append_of_pos hwhole, List.dropWhile_append_of_pos hwhole,
      List.takeWhile_cons_of_neg (by simp [hpoint]), List.dropWhile_cons_of_neg (by simp [hpoint]),
      List.append_nil]
    exact ⟨rfl, rfl⟩

/-- The digits up to the point, and what is after it. -/
lemma span_point : d.text.takeWhile (· ≠ '.') = d.whole ∧
    (d.text.dropWhile (· ≠ '.')).drop 1 = d.part := by
  obtain ⟨htake, hdrop⟩ := d.span_text (p := (· ≠ '.'))
    (fun c hc => decide_eq_true (ne_of_mem_of_not_mem hc (not_mem_of_digits d.whole_digits)))
    (by decide)
  refine ⟨htake, ?_⟩
  rw [hdrop]
  split_ifs with hpart
  · rw [hpart]
    rfl
  · rfl

/-- The pieces between the points. -/
lemma splitOn_text : (d.text.splitOn '.').headD [] = d.whole ∧
    ((d.text.splitOn '.')[1]?).getD [] = d.part := by
  have hwhole := not_mem_of_digits d.whole_digits
  have hpart := not_mem_of_digits d.part_digits
  unfold text
  split_ifs with h
  · rw [List.splitOn_eq_singleton hwhole, h]
    exact ⟨rfl, rfl⟩
  · rw [List.splitOn_append_cons_self_of_not_mem hwhole, List.splitOn_eq_singleton hpart]
    exact ⟨rfl, rfl⟩

/-- **The value of a decimal** in its units. -/
lemma decimalValue_text : decimalValue (String.ofList d.text) * 10 ^ 7 = d.units := by
  obtain ⟨hwhole, hpart⟩ := d.span_point
  have hpow : (10 : ℚ) ^ 7 = 10 ^ d.part.length * 10 ^ (7 - d.part.length) := by
    rw [← pow_add, Nat.add_sub_cancel' d.length_part]
  unfold decimalValue units
  rw [String.toList_ofList, hwhole, hpart]
  push_cast
  rw [add_mul, div_mul_eq_mul_div]
  congr 1
  rw [hpow, mul_left_comm]
  exact mul_div_cancel_left₀ _ (pow_ne_zero _ (by norm_num))

end Decimal

/-- **What is accepted**: the texts of decimals. -/
theorem isAmount_iff {value : List Char} : isAmount value = true ↔ ∃ d : Decimal, value = d.text := by
  constructor
  · intro h
    rw [isAmount, Bool.and_eq_true] at h
    obtain ⟨hwhole, hpart⟩ := h
    have hdigits : ∀ c ∈ value.takeWhile Char.isDigit, c.isDigit = true := fun c hc =>
      List.mem_takeWhile_imp hc
    have hsplit := List.takeWhile_append_dropWhile (p := Char.isDigit) (l := value)
    cases hrest : value.dropWhile Char.isDigit with
    | nil =>
      rw [hrest, List.append_nil] at hsplit
      exact ⟨⟨_, [], hdigits, by simp, hwhole, by simp⟩, hsplit.symm⟩
    | cons c part =>
      rw [hrest] at hpart hsplit
      simp only [isPart, Bool.and_eq_true, beq_iff_eq, Bool.not_eq_true', decide_eq_true_eq,
        List.all_eq_true, List.isEmpty_eq_false_iff] at hpart
      obtain ⟨⟨⟨rfl, hne⟩, hlen⟩, hall⟩ := hpart
      refine ⟨⟨_, part, hdigits, hall, hwhole, hlen⟩, ?_⟩
      rw [Decimal.text, if_neg hne]
      exact hsplit.symm
  · rintro ⟨d, rfl⟩
    obtain ⟨hwhole, hrest⟩ := d.span_text d.whole_digits (by decide)
    have hpart : isPart (if d.part = [] then [] else '.' :: d.part) = true := by
      split_ifs with h
      · rfl
      · simp only [isPart, beq_self_eq_true, Bool.true_and, Bool.and_eq_true, Bool.not_eq_true',
          decide_eq_true_eq, List.all_eq_true, List.isEmpty_eq_false_iff]
        exact ⟨⟨h, d.length_part⟩, d.part_digits⟩
    rw [isAmount, hwhole, hrest, d.isWhole_whole, hpart]
    rfl

/-! ## Parsing -/

lemma ofDigitChars_padEnd (text : List Char) : Nat.ofDigitChars 10 (padEnd 7 text) 0 =
    Nat.ofDigitChars 10 text 0 * 10 ^ (7 - text.length) := by
  rw [padEnd, Nat.ofDigitChars_append, Nat.ofDigitChars_replicate_zero, mul_comm]

lemma ofDigitChars_padStart (text : List Char) :
    Nat.ofDigitChars 10 (padStart 7 text) 0 = Nat.ofDigitChars 10 text 0 := by
  rw [padStart, Nat.ofDigitChars_append, Nat.ofDigitChars_replicate_zero, mul_zero]

lemma isDigit_of_mem_replicate {n : ℕ} : ∀ c ∈ List.replicate n '0', c.isDigit = true := by
  intro c hc
  rw [List.eq_of_mem_replicate hc]
  decide

/-- The digits of a fraction, filled up, are never none. -/
lemma padEnd_ne_nil (text : List Char) : padEnd 7 text ≠ [] := by
  intro h
  have := congrArg List.length h
  simp only [padEnd, List.length_append, List.length_replicate, List.length_nil] at this
  omega

lemma toBigInt_ofList {digits : List Char} (hne : digits ≠ [])
    (h : ∀ c ∈ digits, c.isDigit = true) :
    Js.toBigInt (String.ofList digits) = some ((Nat.ofDigitChars 10 digits 0 : ℕ) : ℤ) := by
  have htext := String.toList_ofList (l := digits)
  rw [Js.toBigInt_of_isDigit (by rwa [htext]) (by rwa [htext]), htext]
  rfl

/-- **A decimal is parsed** as its units, unless they are none. -/
theorem parseAssetAmount_text (d : Decimal) : parseAssetAmount (String.ofList d.text) =
    if d.units = 0 then .error (.error "Amount must be positive") else .ok (d.units : ℤ) := by
  have haccept : isAmount d.text = true := isAmount_iff.mpr ⟨d, rfl⟩
  obtain ⟨hwhole, hpart⟩ := d.splitOn_text
  have hdigits : ∀ c ∈ padEnd 7 d.part, c.isDigit = true := fun c hc =>
    (List.mem_append.mp hc).elim (d.part_digits c) (isDigit_of_mem_replicate c)
  unfold parseAssetAmount
  rw [String.toList_ofList, haccept, if_neg (by decide)]
  simp only [hwhole, hpart, toBigInt_ofList d.whole_ne_nil d.whole_digits,
    toBigInt_ofList (padEnd_ne_nil d.part) hdigits, ofDigitChars_padEnd]
  have hunits : (Nat.ofDigitChars 10 d.whole 0 : ℤ) * 10000000 +
      (Nat.ofDigitChars 10 d.part 0 * 10 ^ (7 - d.part.length) : ℕ) = d.units := by
    rw [Decimal.units]
    push_cast
    norm_num
  rw [hunits]
  split_ifs <;> first | rfl | omega

/-! ## Formatting -/

/-- A number that is not zero does not begin with one. -/
lemma head_toDigits {n : ℕ} (hn : 0 < n) : (Nat.toDigits 10 n).head? ≠ some '0' := by
  induction n using Nat.strong_induction_on with
  | _ n ih =>
    rcases lt_or_ge n 10 with h | h
    · have hdigit : ∀ d < 10, 0 < d → [Nat.digitChar d].head? ≠ some '0' := by decide
      rw [Nat.toDigits_of_lt_base h]
      exact hdigit n h hn
    · rw [Nat.toDigits_of_base_le (by decide) h, List.head?_append_of_ne_nil _ Nat.toDigits_ne_nil]
      exact ih (n / 10) (by omega) (by omega)

lemma isWhole_toDigits (n : ℕ) : isWhole (Nat.toDigits 10 n) = true := by
  rcases Nat.eq_zero_or_pos n with rfl | hn
  · decide
  · cases h : Nat.toDigits 10 n with
    | nil => exact absurd h Nat.toDigits_ne_nil
    | cons c digits =>
      have hhead := head_toDigits hn
      rw [h, List.head?_cons, ne_eq, Option.some.injEq] at hhead
      simp [isWhole, hhead]

/-- The fraction has seven digits, with zeros before those of its number. -/
lemma length_padStart_toDigits (n : ℕ) :
    (padStart 7 (Nat.toDigits 10 (n % 10 ^ 7))).length = 7 := by
  have hle : (Nat.toDigits 10 (n % 10 ^ 7)).length ≤ 7 :=
    (Nat.length_toDigits_le_iff (by decide) (by decide)).mpr (Nat.mod_lt n (by decide))
  rw [padStart, List.length_append, List.length_replicate]
  omega

/-- The decimal of a number of units, with all its seven digits after the point. -/
def Decimal.ofUnits (n : ℕ) : Decimal where
  whole := Nat.toDigits 10 (n / 10 ^ 7)
  part := padStart 7 (Nat.toDigits 10 (n % 10 ^ 7))
  whole_digits _ hc := Nat.isDigit_of_mem_toDigits (by decide) (by decide) hc
  part_digits c hc := (List.mem_append.mp hc).elim (isDigit_of_mem_replicate c) fun hc =>
    Nat.isDigit_of_mem_toDigits (by decide) (by decide) hc
  isWhole_whole := isWhole_toDigits _
  length_part := (length_padStart_toDigits n).le

/-- **A decimal is shown** with the units it has. -/
lemma Decimal.units_ofUnits (n : ℕ) : (Decimal.ofUnits n).units = n := by
  have hlength : (Decimal.ofUnits n).part.length = 7 := length_padStart_toDigits n
  rw [Decimal.units, hlength, Decimal.ofUnits, ofDigitChars_padStart,
    Nat.ofDigitChars_ten_toDigits, Nat.ofDigitChars_ten_toDigits, Nat.sub_self, pow_zero, mul_one,
    Nat.div_add_mod']

lemma bigIntText_natCast (n : ℕ) : bigIntText n = Nat.toDigits 10 n :=
  if_neg (Int.natCast_nonneg n).not_gt

/-- An amount that is not negative is shown as its decimal. -/
lemma formatAssetAmount_natCast (n : ℕ) :
    formatAssetAmount n = String.ofList (Decimal.ofUnits n).text := by
  have hpart : (Decimal.ofUnits n).part ≠ [] := by
    intro h
    have hlength : (Decimal.ofUnits n).part.length = 7 := length_padStart_toDigits n
    rw [h] at hlength
    exact absurd hlength (by decide)
  have hdiv : (n : ℤ).tdiv 10000000 = (n / 10 ^ 7 : ℕ) := rfl
  have hmod : (n : ℤ).tmod 10000000 = (n % 10 ^ 7 : ℕ) := rfl
  rw [formatAssetAmount, hdiv, hmod, bigIntText_natCast, bigIntText_natCast, Decimal.text,
    if_neg hpart]
  rfl

/-- What was shown is parsed. -/
lemma parse_formatAssetAmount {u : ℤ} (h : 0 < u) :
    parseAssetAmount (formatAssetAmount u) = .ok u := by
  lift u to ℕ using h.le
  have hne : u ≠ 0 := by omega
  rw [formatAssetAmount_natCast, parseAssetAmount_text, Decimal.units_ofUnits, if_neg hne]

/-- What was parsed is the value of the text, in units. -/
lemma decimalValue_of_parse {s : String} {u : ℤ} (h : parseAssetAmount s = .ok u) :
    decimalValue s * 10 ^ 7 = u ∧ 0 < u := by
  have haccept : isAmount s.toList = true := by
    by_contra hnot
    rw [parseAssetAmount, Bool.not_eq_true _ |>.mp hnot] at h
    exact nomatch h
  obtain ⟨d, hd⟩ := isAmount_iff.mp haccept
  obtain rfl : s = String.ofList d.text := by rw [← hd, String.ofList_toList]
  rw [parseAssetAmount_text] at h
  split_ifs at h with hunits
  obtain rfl : (d.units : ℤ) = u := Except.ok.inj h
  refine ⟨?_, by omega⟩
  rw [d.decimalValue_text]
  rfl

/-- **Amounts are exact**: every positive amount is parsed back from its text, and whatever text is
accepted stands for exactly the amount, which is positive and shown as a text of the same value. -/
theorem assetAmount_spec :
    (∀ u : ℤ, 0 < u → parseAssetAmount (formatAssetAmount u) = .ok u) ∧
    ∀ (s : String) (u : ℤ), parseAssetAmount s = .ok u →
      decimalValue s * 10 ^ 7 = u ∧ 0 < u ∧ decimalValue (formatAssetAmount u) = decimalValue s := by
  refine ⟨fun u hu => parse_formatAssetAmount hu, fun s u h => ?_⟩
  obtain ⟨hvalue, hpos⟩ := decimalValue_of_parse h
  have hshown := (decimalValue_of_parse (parse_formatAssetAmount hpos)).1
  have hpow : (10 : ℚ) ^ 7 ≠ 0 := by norm_num
  exact ⟨hvalue, hpos, mul_right_cancel₀ hpow (hshown.trans hvalue.symm)⟩

end Koul.Anchor
