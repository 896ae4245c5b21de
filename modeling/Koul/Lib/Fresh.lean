import Mathlib.Data.List.Nodup
import Mathlib.Data.List.Perm.Subperm
import Mathlib.Data.Set.Function
import Mathlib.Order.Interval.Set.Defs

set_option relaxedAutoImplicit false
set_option autoImplicit false

/-!
# The first name that is not taken

Candidates are tried one after the other, from some index on, until one is not in a list. Where the
first candidates are distinct, one more of them than the list has items is enough.

## Main definitions

* `Fresh.search` — the first candidate that is not taken, of so many.

## Main results

* `Fresh.search_of_le` — further candidates change nothing once one was found.
* `Fresh.exists_search` — among distinct candidates, one is found.
-/

namespace Fresh

variable {α : Type*} [DecidableEq α] (f : ℕ → α) (taken : List α)

/-- The first of `f i`, `f (i + 1)`, … that is not taken, of so many. -/
def search : ℕ → ℕ → Option α
  | 0, _ => none
  | tries + 1, i => if f i ∈ taken then search tries (i + 1) else some (f i)

variable {f taken} {tries i : ℕ}

/-- What is found is a candidate that is not taken. -/
lemma search_eq_some {x : α} (h : search f taken tries i = some x) :
    ∃ k < tries, x = f (i + k) ∧ x ∉ taken := by
  induction tries generalizing i with
  | zero => exact nomatch h
  | succ tries ih =>
    rw [search] at h
    split_ifs at h with hmem
    · obtain ⟨k, hk, rfl, hfree⟩ := ih h
      have hnext : i + 1 + k = i + (k + 1) := by omega
      exact ⟨k + 1, by omega, by rw [hnext], hfree⟩
    · obtain rfl : f i = x := Option.some.inj h
      exact ⟨0, by omega, rfl, hmem⟩

/-- Where none is found, all that were tried are taken. -/
lemma mem_of_search_eq_none (h : search f taken tries i = none) : ∀ k < tries, f (i + k) ∈ taken := by
  induction tries generalizing i with
  | zero => exact fun k hk => absurd hk (Nat.not_lt_zero k)
  | succ tries ih =>
    rw [search] at h
    split_ifs at h with hmem
    intro k hk
    cases k with
    | zero => exact hmem
    | succ k =>
      have hnext : i + (k + 1) = i + 1 + k := by omega
      rw [hnext]
      exact ih h k (by omega)

/-- Once one was found, it is found with more tries. -/
lemma search_of_le {x : α} (h : search f taken tries i = some x) {more : ℕ} (hle : tries ≤ more) :
    search f taken more i = some x := by
  induction tries generalizing i more with
  | zero => exact nomatch h
  | succ tries ih =>
    obtain ⟨more, rfl⟩ : ∃ m, more = m + 1 := ⟨more - 1, by omega⟩
    rw [search] at h ⊢
    split_ifs at h ⊢ with hmem
    · exact ih h (by omega)
    · exact h

/-- **One more candidate than are taken** is enough, where those are distinct. -/
theorem exists_search (hinj : Set.InjOn f (Set.Icc i (i + taken.length))) :
    ∃ k ≤ taken.length, search f taken (taken.length + 1) i = some (f (i + k)) ∧
      f (i + k) ∉ taken := by
  cases h : search f taken (taken.length + 1) i with
  | some x =>
    obtain ⟨k, hk, rfl, hfree⟩ := search_eq_some h
    exact ⟨k, by omega, rfl, hfree⟩
  | none =>
    -- as many distinct items as that do not fit the list
    have hmem := mem_of_search_eq_none h
    have hnodup : ((List.range (taken.length + 1)).map fun k => f (i + k)).Nodup := by
      refine List.Nodup.map_on (fun a ha b hb hab => ?_) List.nodup_range
      rw [List.mem_range] at ha hb
      have := hinj ⟨by omega, by omega⟩ ⟨by omega, by omega⟩ hab
      omega
    have hsub : ((List.range (taken.length + 1)).map fun k => f (i + k)) ⊆ taken := by
      intro x hx
      obtain ⟨k, hk, rfl⟩ := List.mem_map.mp hx
      exact hmem k (List.mem_range.mp hk)
    have hlength := (List.subperm_of_subset hnodup hsub).length_le
    rw [List.length_map, List.length_range] at hlength
    omega

end Fresh
