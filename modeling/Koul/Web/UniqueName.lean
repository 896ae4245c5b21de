import Koul.Lib.Fresh
import Koul.Lib.Utf16
import Koul.Web.Library

set_option relaxedAutoImplicit false
set_option autoImplicit false

/-!
# Names in the library

A set is kept under a name that no other set of the library has: `uniqueName` of `library.ts` numbers
a name that is taken, and cuts it to make room for the number.

## Main definitions

* `Koul.Web.uniqueName` — the name a set is kept under.

## Main results

* `Koul.Web.candidate_injective` — no two candidates are the same.
* `Koul.Web.uniqueName_spec` — a name of 1 to 40 characters is found that is not taken.

## Design

A string is the list of its code units, and its length counts them. An array has fewer than 2³² items, so
that the number of a candidate is whole and exact, and its text is its digits. The loop of the source
has no end of its own: here it stops after so many candidates.
-/

namespace Koul.Web

open Utf16 (Units ofText)

/-- White space and line terminators. No surrogate is either. -/
def isSpaceUnit (u : UInt16) : Bool := Js.isSpace (Char.ofNat u.toNat)

def trimUnits (s : Units) : Units := (s.dropWhile isSpaceUnit).rdropWhile isSpaceUnit

/-- `s.slice(0, stop)`; an end below zero counts from the end of the string. -/
def sliceTo (s : Units) (stop : ℤ) : Units :=
  if stop < 0 then s.take (s.length + stop).toNat else s.take stop.toNat

/-- `String(i)`. -/
def digits (i : ℕ) : Units := ofText (Nat.toDigits 10 i)

def SPACE : UInt16 := 0x20

/-- The names of an array. -/
structure Taken where
  names : List Units
  length_lt : names.length < 2 ^ 32

/-- The name with its number. -/
def candidate (base : Units) (i : ℕ) : Units :=
  sliceTo base (MAX_NAME - 1 - (digits i).length) ++ SPACE :: digits i

/-- The name that is numbered when it is taken. -/
def baseName (name : Units) : Units :=
  let base := sliceTo (trimUnits name) MAX_NAME
  if base = [] then ofText "Autopilot".toList else base

/-- A name that is not taken yet: "My autopilot", then "My autopilot 2", and so on. `none` where so many
candidates are not enough. -/
def uniqueName (tries : ℕ) (name : Units) (taken : Taken) : Option Units :=
  let base := baseName name
  if base ∉ taken.names then some base
  else Fresh.search (candidate base) taken.names tries 2

/-! ## Digits -/

lemma ofChar_of_isDigit {c : Char} (h : c.isDigit = true) :
    Utf16.ofChar c = [UInt16.ofNat c.toNat] := by
  have := Js.toNat_of_isDigit h
  exact if_pos (by omega)

lemma length_ofText_of_isDigit {text : List Char} (h : ∀ c ∈ text, c.isDigit = true) :
    (ofText text).length = text.length := by
  induction text with
  | nil => rfl
  | cons c text ih =>
    obtain ⟨hc, htext⟩ := List.forall_mem_cons.mp h
    have hrest := ih htext
    rw [ofText] at hrest ⊢
    rw [List.flatMap_cons, ofChar_of_isDigit hc, List.singleton_append, List.length_cons,
      List.length_cons, hrest]

/-- A number has as many units as digits. -/
lemma length_digits (i : ℕ) : (digits i).length = (Nat.toDigits 10 i).length :=
  length_ofText_of_isDigit fun c hc => Nat.isDigit_of_mem_toDigits (by decide) (by decide) hc

lemma length_digits_le {i : ℕ} (h : i < 10 ^ 39) : (digits i).length ≤ 39 := by
  rw [length_digits]
  exact (Nat.length_toDigits_le_iff (by decide) (by decide)).mpr h

lemma space_not_mem_digits (i : ℕ) : SPACE ∉ digits i := by
  intro h
  obtain ⟨c, hc, hmem⟩ := List.mem_flatMap.mp h
  have hdigit := Nat.isDigit_of_mem_toDigits (by decide) (by decide) hc
  have hbounds := Js.toNat_of_isDigit hdigit
  rw [ofChar_of_isDigit hdigit, List.mem_singleton] at hmem
  have hcode := congrArg UInt16.toNat hmem
  rw [Utf16.toNat_ofNat (by omega)] at hcode
  have hspace : SPACE.toNat = 32 := rfl
  omega

/-- The digits tell the number. -/
lemma digits_injective : Function.Injective digits := by
  intro i j h
  have hpoints := congrArg Utf16.codePoints h
  rw [digits, digits, Utf16.codePoints_ofText, Utf16.codePoints_ofText] at hpoints
  have hchars : Nat.toDigits 10 i = Nat.toDigits 10 j :=
    List.map_injective_iff.mpr (fun _ _ hc => Utf16.CodePoint.scalar.inj hc) hpoints
  rw [← Nat.ofDigitChars_ten_toDigits (n := i), hchars, Nat.ofDigitChars_ten_toDigits]

/-! ## Candidates -/

/-- What is after the last space of a candidate is its number, however much of the name is before. -/
lemma digits_of_candidate (base : Units) (i : ℕ) :
    ((candidate base i).reverse.takeWhile (· ≠ SPACE)).reverse = digits i := by
  have hdigits : ∀ u ∈ (digits i).reverse, decide (u ≠ SPACE) = true := fun u hu =>
    decide_eq_true (ne_of_mem_of_not_mem (List.mem_reverse.mp hu) (space_not_mem_digits i))
  rw [candidate, List.reverse_append, List.reverse_cons, List.append_assoc, List.singleton_append,
    List.takeWhile_append_of_pos hdigits, List.takeWhile_cons_of_neg (by simp), List.append_nil,
    List.reverse_reverse]

/-- **Candidates are distinct**, though what is before their numbers shrinks. -/
theorem candidate_injective (base : Units) : Function.Injective (candidate base) := by
  intro i j h
  apply digits_injective
  rw [← digits_of_candidate base i, h, digits_of_candidate]

/-- A candidate has room for its number. -/
lemma length_candidate {i : ℕ} (base : Units) (h : i < 10 ^ 39) :
    1 ≤ (candidate base i).length ∧ (candidate base i).length ≤ MAX_NAME := by
  have hdigits := length_digits_le h
  have hstop : ¬ ((MAX_NAME : ℤ) - 1 - (digits i).length < 0) := by
    rw [MAX_NAME]
    omega
  rw [candidate, sliceTo, if_neg hstop, List.length_append, List.length_take, List.length_cons,
    MAX_NAME]
  omega

lemma length_baseName (name : Units) :
    1 ≤ (baseName name).length ∧ (baseName name).length ≤ MAX_NAME := by
  unfold baseName
  dsimp only
  split_ifs with h
  · decide
  · have hstop : ¬ ((MAX_NAME : ℤ) < 0) := by decide
    refine ⟨List.length_pos_iff.mpr h, ?_⟩
    rw [sliceTo, if_neg hstop, List.length_take]
    exact min_le_left _ _

/-- **A unique name**: whatever is taken, trying one candidate more than that is enough, trying further
changes nothing, and what is found is a name of 1 to 40 characters that is not taken.

**Proof sketch.** The number of a candidate can be read after its last space, so that no two candidates
are the same and not all of them are taken; a number below 2³³ leaves room for a name before it. -/
theorem uniqueName_spec (name : Units) (taken : Taken) :
    ∃ result, (∀ tries, taken.names.length + 1 ≤ tries → uniqueName tries name taken = some result) ∧
      1 ≤ result.length ∧ result.length ≤ 40 ∧ result ∉ taken.names := by
  by_cases hbase : baseName name ∈ taken.names
  · have hinj : Set.InjOn (candidate (baseName name)) (Set.Icc 2 (2 + taken.names.length)) :=
      (candidate_injective (baseName name)).injOn
    obtain ⟨k, hk, hfound, hfree⟩ := Fresh.exists_search hinj
    have hlt := taken.length_lt
    obtain ⟨hpos, hle⟩ := length_candidate (i := 2 + k) (baseName name) (by omega)
    refine ⟨_, fun tries htries => ?_, hpos, hle, hfree⟩
    rw [uniqueName, if_neg (not_not.mpr hbase)]
    exact Fresh.search_of_le hfound htries
  · obtain ⟨hpos, hle⟩ := length_baseName name
    exact ⟨_, fun tries _ => if_pos hbase, hpos, hle, hbase⟩

end Koul.Web
