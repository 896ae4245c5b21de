import Mathlib.Algebra.Order.Floor.Div
import Mathlib.Data.List.Pairwise

set_option relaxedAutoImplicit false
set_option autoImplicit false

/-!
# Spaced times

Times that come in order and at least a gap apart, and how many of them an interval can hold.

## Main definitions

* `Spaced` — each time is at least `gap` after every earlier one.

## Main results

* `Spaced.cons` — a time that is a gap before all others goes in front.
* `Spaced.length_filter_le` — an interval of length `n` holds at most `⌈n / gap⌉` of them.
-/

/-- Each time is at least `gap` after every earlier one. -/
def Spaced (gap : ℕ) (ts : List ℕ) : Prop := ts.Pairwise fun a b => a + gap ≤ b

namespace Spaced

variable {gap t : ℕ} {ts : List ℕ}

lemma nil : Spaced gap [] := List.Pairwise.nil

lemma cons (ht : ∀ b ∈ ts, t + gap ≤ b) (hts : Spaced gap ts) : Spaced gap (t :: ts) :=
  List.pairwise_cons.mpr ⟨ht, hts⟩

lemma sublist {us : List ℕ} (h : Spaced gap ts) (hus : us.Sublist ts) : Spaced gap us :=
  List.Pairwise.sublist hus h

/-- From the first time on, the times take up all but the last gap. -/
lemma mul_length_le (h : Spaced gap (t :: ts)) {hi : ℕ} (hlt : ∀ b ∈ t :: ts, b < hi) :
    gap * ts.length < hi - t := by
  induction ts generalizing t with
  | nil =>
    have ht := hlt t List.mem_cons_self
    simp only [List.length_nil, mul_zero]
    omega
  | cons u ts ih =>
    obtain ⟨ht, hts⟩ := List.pairwise_cons.mp h
    have hu : t + gap ≤ u := ht u List.mem_cons_self
    have hrest := ih hts fun b hb => hlt b (List.mem_cons_of_mem t hb)
    rw [List.length_cons, mul_add, mul_one]
    omega

/-- **The interval bound**: spaced times in an interval of length `n` are at most
`⌈n / gap⌉` many. -/
theorem length_le (hgap : 0 < gap) (h : Spaced gap ts) {lo n : ℕ}
    (hts : ∀ b ∈ ts, lo ≤ b ∧ b < lo + n) : ts.length ≤ n ⌈/⌉ gap := by
  cases ts with
  | nil => exact Nat.zero_le _
  | cons t ts =>
    have hlast := h.mul_length_le fun b hb => (hts b hb).2
    have hlo := (hts t List.mem_cons_self).1
    have hlt : gap * ts.length < gap * (n ⌈/⌉ gap) :=
      lt_of_lt_of_le (by omega : gap * ts.length < n) (le_smul_ceilDiv hgap)
    exact Nat.lt_of_mul_lt_mul_left hlt

/-- So are those of them that fall into the interval. -/
theorem length_filter_le (hgap : 0 < gap) (h : Spaced gap ts) (lo n : ℕ) :
    (ts.filter fun b => lo ≤ b && b < lo + n).length ≤ n ⌈/⌉ gap := by
  have hfilter : Spaced gap (ts.filter fun b => lo ≤ b && b < lo + n) :=
    h.sublist List.filter_sublist
  have hinside : ∀ b ∈ ts.filter (fun b => lo ≤ b && b < lo + n), lo ≤ b ∧ b < lo + n := by
    intro b hb
    simpa using (List.mem_filter.mp hb).2
  exact hfilter.length_le hgap hinside

end Spaced
