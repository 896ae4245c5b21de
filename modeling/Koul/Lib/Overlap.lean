import Mathlib.Data.List.Basic
import Mathlib.Order.Lattice

set_option relaxedAutoImplicit false
set_option autoImplicit false

/-!
# Reading a list in overlapping slices

A state that counts items one by one, skips those it has counted, and is cleaned after every slice of
them that is read. However a list is cut into slices, overlapping or read again, what is left at the
end is what one read of the whole list leaves, cleaned as the last slice cleans.

## Main definitions

* `Overlap.Slice`, `Overlap.Covers` — the slices of a list, and when they cover it.
* `Overlap.Counts` — a step that counts every item once.
* `Overlap.Cleans` — a cleaning that later steps and cleanings do not see.

## Main results

* `Overlap.foldlM_slices` — the slices together count what the list counts.
-/

namespace Overlap

variable {σ α τ : Type}

/-! ## Slices -/

/-- The items between two positions, read at some time. -/
structure Slice (τ : Type) where
  start : ℕ
  stop : ℕ
  time : τ

def Slice.items (b : Slice τ) (es : List α) : List α := (es.take b.stop).drop b.start

/-- Slices of a list of `n` items that start no later than the furthest point covered before them, and
reach the end. -/
def Covers (n : ℕ) : ℕ → List (Slice τ) → Prop
  | covered, [] => n ≤ covered
  | covered, b :: bs => b.start ≤ covered ∧ Covers n (max covered b.stop) bs

/-- A slice is items that are covered, then those beyond. -/
lemma items_eq {b : Slice τ} {k : ℕ} (hstart : b.start ≤ k) (es : List α) :
    b.items es = ((es.take k).take b.stop).drop b.start ++ (es.drop k).take (b.stop - k) := by
  rw [Slice.items, List.take_take, ← List.drop_take]
  have hcut : es.take b.stop = es.take (min b.stop k) ++ (es.take b.stop).drop k := by
    conv_lhs => rw [← List.take_append_drop k (es.take b.stop), List.take_take, Nat.min_comm]
  conv_lhs => rw [hcut, List.drop_append]
  congr 1
  rcases Nat.lt_or_ge (es.take (min b.stop k)).length k with hlt | hge
  · -- the covered part is all there is
    have hnone : (es.take b.stop).drop k = [] := by
      rw [List.drop_eq_nil_iff]
      rw [List.length_take] at hlt ⊢
      omega
    rw [hnone, List.drop_nil]
  · rw [Nat.sub_eq_zero_of_le (hstart.trans hge), List.drop_zero]

/-! ## Counting and cleaning -/

/-- A step that counts an item, or fails; what is past it skips. -/
structure Counts (step : σ → α → Option σ) (past : σ → α → Prop) : Prop where
  skip : ∀ {s a}, past s a → step s a = some s
  counted : ∀ {s a t}, step s a = some t → past t a
  keeps : ∀ {s a t b}, step s a = some t → past s b → past t b

/-- A cleaning that loses nothing of what later ones keep. -/
structure Cleans [Preorder τ] (step : σ → α → Option σ) (past : σ → α → Prop)
    (clean : τ → σ → σ) : Prop where
  again : ∀ {m n} s, m ≤ n → clean n (clean m s) = clean n s
  step : ∀ n s a, (step (clean n s) a).map (clean n) = (step s a).map (clean n)
  past : ∀ {n s a}, past (clean n s) a ↔ past s a

section

variable {step : σ → α → Option σ} {past : σ → α → Prop}

/-- What is past is skipped. -/
lemma foldlM_skip (hcounts : Counts step past) {s : σ} {l : List α} (h : ∀ a ∈ l, past s a) :
    l.foldlM step s = some s := by
  induction l with
  | nil => rfl
  | cons a l ih =>
    rw [List.foldlM_cons, hcounts.skip (h a List.mem_cons_self)]
    exact ih fun b hb => h b (List.mem_cons_of_mem a hb)

/-- After a run, what was past before it is past, and so are its items. -/
lemma past_foldlM (hcounts : Counts step past) {s t : σ} {l : List α}
    (hrun : l.foldlM step s = some t) {a : α} (h : past s a ∨ a ∈ l) : past t a := by
  induction l generalizing s with
  | nil =>
    obtain rfl : s = t := Option.some.inj hrun
    exact h.resolve_right List.not_mem_nil
  | cons b l ih =>
    rw [List.foldlM_cons] at hrun
    obtain ⟨u, hu, hrest⟩ := Option.bind_eq_some_iff.mp hrun
    rcases h with h | h
    · exact ih hrest (.inl (hcounts.keeps hu h))
    · rcases List.mem_cons.mp h with rfl | h
      · exact ih hrest (.inl (hcounts.counted hu))
      · exact ih hrest (.inr h)

variable [Preorder τ] {clean : τ → σ → σ}

/-- A run from a cleaned state ends where the run does, up to that cleaning. -/
lemma map_foldlM_clean (hclean : Cleans step past clean) (n : τ) (s : σ) (l : List α) :
    (l.foldlM step (clean n s)).map (clean n) = (l.foldlM step s).map (clean n) := by
  induction l generalizing s with
  | nil => exact congrArg some (hclean.again s le_rfl)
  | cons a l ih =>
    have hstep := hclean.step n s a
    rw [List.foldlM_cons, List.foldlM_cons]
    cases hs : step s a with
    | none =>
      rw [hs, Option.map_none, Option.map_eq_none_iff] at hstep
      rw [hstep]
    | some t =>
      rw [hs, Option.map_some, Option.map_eq_some_iff] at hstep
      obtain ⟨t', ht', heq⟩ := hstep
      rw [ht']
      show (l.foldlM step t').map (clean n) = (l.foldlM step t).map (clean n)
      rw [← ih t', heq, ih t]

/-- The slices that are left, from a state in which the items before are past. -/
lemma foldlM_slices_from (hcounts : Counts step past) (hclean : Cleans step past clean)
    {es : List α} {bs : List (Slice τ)} (hne : bs ≠ []) {k : ℕ} (hcover : Covers es.length k bs)
    (htimes : bs.Pairwise fun b b' => b.time ≤ b'.time) {s t : σ}
    (hpast : ∀ a ∈ es.take k, past s a) (hsame : ∀ b ∈ bs, clean b.time s = clean b.time t) :
    bs.foldlM (fun s b => ((b.items es).foldlM step s).map (clean b.time)) s =
      ((es.drop k).foldlM step t).map (clean (bs.getLast hne).time) := by
  induction bs generalizing k s t with
  | nil => exact absurd rfl hne
  | cons b bs ih =>
    obtain ⟨hstart, hcover⟩ := hcover
    obtain ⟨hlater, htimes⟩ := List.pairwise_cons.mp htimes
    obtain ⟨hb, hsame⟩ := List.forall_mem_cons.mp hsame
    set mid := (es.drop k).take (b.stop - k) with hmid
    have hslice : (b.items es).foldlM step s = mid.foldlM step s := by
      rw [items_eq hstart, List.foldlM_append, foldlM_skip hcounts]
      · rfl
      · exact fun a ha => hpast a (List.mem_of_mem_take (List.mem_of_mem_drop ha))
    have hrest : es.drop k = mid ++ es.drop (max k b.stop) := by
      have hmax : max k b.stop = k + (b.stop - k) := by omega
      rw [hmid, hmax, ← List.drop_drop, List.take_append_drop]
    have hclean_mid : (mid.foldlM step s).map (clean b.time) =
        (mid.foldlM step t).map (clean b.time) := by
      rw [← map_foldlM_clean hclean, hb, map_foldlM_clean hclean]
    rw [List.foldlM_cons, hslice, hclean_mid, hrest, List.foldlM_append]
    cases ht : mid.foldlM step t with
    | none => rfl
    | some t' =>
      rw [ht, Option.map_some, Option.map_eq_some_iff] at hclean_mid
      obtain ⟨s', hs', heq⟩ := hclean_mid
      rw [Option.map_some]
      show bs.foldlM _ (clean b.time t') = ((es.drop (max k b.stop)).foldlM step t').map _
      by_cases hbs : bs = []
      · subst hbs
        rw [List.drop_eq_nil_of_le hcover]
        rfl
      · rw [List.getLast_cons hbs, ← heq]
        refine ih hbs hcover htimes (fun a ha => hclean.past.mpr ?_) fun b' hb' => ?_
        · apply past_foldlM hcounts hs'
          have hmax : max k b.stop = k + (b.stop - k) := by omega
          rw [hmax, List.take_add, List.mem_append] at ha
          exact ha.imp_left (hpast a)
        · rw [hclean.again _ (hlater b' hb'), ← hclean.again t' (hlater b' hb'), ← heq,
            hclean.again s' (hlater b' hb')]

/-- **Overlapping slices**: read in slices that cover the list, at times that do not go back, the items
are counted as by one read of the list, cleaned at the last of the times.

**Proof sketch.** Along the slices the state is, up to a cleaning that every later slice repeats, the
one that has counted the items up to the furthest point covered. The part of a slice before that
point is skipped, and the rest goes on from it. -/
theorem foldlM_slices (hcounts : Counts step past) (hclean : Cleans step past clean) (s : σ)
    {es : List α} {bs : List (Slice τ)} (hne : bs ≠ []) (hcover : Covers es.length 0 bs)
    (htimes : bs.Pairwise fun b b' => b.time ≤ b'.time) :
    bs.foldlM (fun s b => ((b.items es).foldlM step s).map (clean b.time)) s =
      (es.foldlM step s).map (clean (bs.getLast hne).time) :=
  foldlM_slices_from hcounts hclean hne hcover htimes (fun _ ha => absurd ha List.not_mem_nil)
    fun _ _ => rfl

end

end Overlap
