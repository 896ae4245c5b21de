import Mathlib.Order.Bounds.Basic

set_option relaxedAutoImplicit false
set_option autoImplicit false

/-!
# The first match of a list

A walk over a list from its start that stops at the first element a partial function, which may
depend on the element's index, is defined on.

## Main definitions

* `FirstMatch.find` — the first index with a value, and that value.

## Main results

* `FirstMatch.find_eq_some` — what the walk found.
* `FirstMatch.isLeast_of_find` — the index found is the least one with a value.
* `FirstMatch.loop_eq` — a loop that passes what has no value and stops at what has one.
-/

namespace FirstMatch

variable {α β : Type*} (f : ℕ → α → Option β)

/-- The first element of the list with a value under `f`, its elements numbered from `start`. -/
def find : List α → ℕ → Option (ℕ × β)
  | [], _ => none
  | a :: as, start =>
    match f start a with
    | some b => some (start, b)
    | none => find as (start + 1)

variable {f} {as : List α} {start : ℕ}

lemma find_cons_of_some {a : α} {b : β} (h : f start a = some b) :
    find f (a :: as) start = some (start, b) := by
  simp only [find, h]

lemma find_cons_of_none {a : α} (h : f start a = none) :
    find f (a :: as) start = find f as (start + 1) := by
  simp only [find, h]

/-- What is found is the value of an element before which no element has one. -/
lemma find_eq_some {k : ℕ} {b : β} (h : find f as start = some (k, b)) :
    ∃ j a, k = start + j ∧ as[j]? = some a ∧ f k a = some b ∧
      ∀ i < j, ∀ a', as[i]? = some a' → f (start + i) a' = none := by
  induction as generalizing start with
  | nil => cases h
  | cons a as ih =>
    cases ha : f start a with
    | some b' =>
      rw [find_cons_of_some ha] at h
      cases h
      exact ⟨0, a, rfl, rfl, ha, fun i hi => absurd hi (Nat.not_lt_zero i)⟩
    | none =>
      rw [find_cons_of_none ha] at h
      obtain ⟨j, a', rfl, hj, hb, hbefore⟩ := ih h
      refine ⟨j + 1, a', by omega, by simpa using hj, hb, ?_⟩
      intro i hi a'' hi'
      cases i with
      | zero =>
        obtain rfl : a = a'' := by simpa using hi'
        exact ha
      | succ i =>
        have := hbefore i (by omega) a'' (by simpa using hi')
        rwa [Nat.add_right_comm] at this

/-- When nothing is found, no element has a value. -/
lemma find_eq_none (h : find f as start = none) {j : ℕ} {a : α} (hj : as[j]? = some a) :
    f (start + j) a = none := by
  induction as generalizing start j with
  | nil => cases hj
  | cons a' as ih =>
    cases ha : f start a' with
    | some b =>
      rw [find_cons_of_some ha] at h
      cases h
    | none =>
      rw [find_cons_of_none ha] at h
      cases j with
      | zero =>
        obtain rfl : a' = a := by simpa using hj
        exact ha
      | succ j =>
        have hnone := ih h (by simpa using hj)
        rwa [Nat.add_assoc, Nat.add_comm 1] at hnone

/-- **The index found** is the least one whose element has a value. -/
theorem isLeast_of_find {k : ℕ} {b : β} (h : find f as 0 = some (k, b)) :
    IsLeast {i | ∃ a, as[i]? = some a ∧ (f i a).isSome} k := by
  obtain ⟨j, a, hk, hj, hb, hbefore⟩ := find_eq_some h
  obtain rfl : k = j := by omega
  refine ⟨⟨a, hj, by rw [hb]; rfl⟩, ?_⟩
  rintro i ⟨a', ha', hsome⟩
  by_contra hlt
  have hnone := hbefore i (not_le.mp hlt) a' ha'
  rw [Nat.zero_add] at hnone
  rw [hnone] at hsome
  cases hsome

/-- **The rule for a loop** that goes past every element without a value and stops at one that has
a value: it is what it makes of the walk's answer. -/
theorem loop_eq {γ : Type*} {loop : List α → ℕ → γ} {g : Option (ℕ × β) → γ}
    (hnil : ∀ i, loop [] i = g none)
    (hskip : ∀ a as i, f i a = none → loop (a :: as) i = loop as (i + 1))
    (hstop : ∀ a as i b, f i a = some b → loop (a :: as) i = g (some (i, b))) :
    loop as start = g (find f as start) := by
  induction as generalizing start with
  | nil => exact hnil start
  | cons a as ih =>
    cases ha : f start a with
    | none =>
      rw [hskip a as start ha, find_cons_of_none ha]
      exact ih
    | some b => rw [hstop a as start b ha, find_cons_of_some ha]

end FirstMatch
