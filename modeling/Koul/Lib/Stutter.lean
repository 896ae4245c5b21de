import Mathlib.Data.List.Destutter
import Mathlib.Data.List.Flatten

set_option relaxedAutoImplicit false
set_option autoImplicit false

/-!
# Folding runs of equal items

A pass over a list that keeps the first item of each run of equal neighbours, and notes for every
item which run it is in.

## Main definitions

* `Stutter.Folded` — the first items of the runs, and the run of each item.
* `Stutter.fold` — the pass.

## Main results

* `Stutter.heads_fold` — the first items are the list without its repetitions.
* `Stutter.heads_blocks` — a list of blocks folds as the list of their items.
* `Stutter.runOf_blocks` — when no two neighbouring blocks are equal, every item is in its own
  block's run.
-/

namespace Stutter

variable {α β : Type} [DecidableEq α]

/-- The first items of the runs so far, and the run of each item. -/
structure Folded (α : Type) where
  heads : List α
  runOf : List ℕ

/-- One item: it joins the last run or starts one. -/
def push (f : Folded α) (a : α) : Folded α :=
  if f.heads.getLast? = some a then { f with runOf := f.runOf ++ [f.heads.length - 1] }
  else ⟨f.heads ++ [a], f.runOf ++ [f.heads.length]⟩

def fold (l : List α) : Folded α := l.foldl push ⟨[], []⟩

/-- Every item has a run. -/
lemma length_runOf (l : List α) : (fold l).runOf.length = l.length := by
  have hfold : ∀ f : Folded α, (l.foldl push f).runOf.length = f.runOf.length + l.length := by
    induction l with
    | nil => exact fun _ => rfl
    | cons a l ih =>
      intro f
      rw [List.foldl_cons, ih, push]
      split <;> simp <;> omega
  rw [fold, hfold]
  exact Nat.zero_add _

/-! ## The first items -/

/-- From a last run of `a`, the pass keeps what is left of the list after `a`. -/
lemma heads_foldl (l hs : List α) (a : α) (is : List ℕ) :
    (l.foldl push ⟨hs ++ [a], is⟩).heads = hs ++ l.destutter' (· ≠ ·) a := by
  induction l generalizing hs a is with
  | nil => rfl
  | cons b l ih =>
    rw [List.foldl_cons, push, List.getLast?_concat]
    by_cases h : a = b
    · subst h
      rw [if_pos rfl, List.destutter'_cons_neg _ (by simp), ih]
    · rw [if_neg fun hab => h (Option.some.inj hab), List.destutter'_cons_pos _ h, ih,
        List.append_assoc, List.singleton_append]

/-- **The first items of the runs** are the list without its repetitions. -/
theorem heads_fold (l : List α) : (fold l).heads = l.destutter (· ≠ ·) := by
  cases l with
  | nil => rfl
  | cons a l =>
    rw [fold, List.foldl_cons, List.destutter_cons']
    exact heads_foldl l [] a [0]

/-! ## Blocks -/

/-- A block of equal items joins the last run or starts one. -/
lemma foldl_block (f : Folded α) (a : α) (n : ℕ) :
    (List.replicate (n + 1) a).foldl push f =
      ⟨(push f a).heads,
        f.runOf ++ List.replicate (n + 1) ((push f a).heads.length - 1)⟩ := by
  induction n generalizing f with
  | zero =>
    rw [List.replicate_one, List.foldl_cons, List.foldl_nil, List.replicate_one, push]
    split_ifs with h
    · rfl
    · simp
  | succ n ih =>
    have hlast : (push f a).heads.getLast? = some a := by
      rw [push]
      split_ifs with h
      · exact h
      · exact List.getLast?_concat
    have hpush : push (push f a) a =
        ⟨(push f a).heads, (push f a).runOf ++ [(push f a).heads.length - 1]⟩ := if_pos hlast
    have hruns : (push f a).runOf = f.runOf ++ [(push f a).heads.length - 1] := by
      rw [push]
      split_ifs with h
      · rfl
      · simp
    rw [List.replicate_succ, List.foldl_cons, ih, hpush]
    simp only [hruns, List.append_assoc, List.singleton_append, ← List.replicate_succ]

/-- The blocks of a list: each item's value, once or more. -/
def blocks (value : β → α) (extra : β → ℕ) (l : List β) : List α :=
  l.flatMap fun b => List.replicate (extra b + 1) (value b)

lemma heads_foldl_blocks (value : β → α) (extra : β → ℕ) (l : List β) (f f' : Folded α)
    (h : f.heads = f'.heads) :
    ((blocks value extra l).foldl push f).heads = ((l.map value).foldl push f').heads := by
  induction l generalizing f f' with
  | nil => exact h
  | cons b l ih =>
    have hblocks : blocks value extra (b :: l) =
        List.replicate (extra b + 1) (value b) ++ blocks value extra l := List.flatMap_cons
    rw [hblocks, List.foldl_append, foldl_block, List.map_cons, List.foldl_cons]
    refine ih _ _ ?_
    simp only [push, h]
    split_ifs <;> rfl

/-- **Blocks fold as their values.** -/
theorem heads_blocks (value : β → α) (extra : β → ℕ) (l : List β) :
    (fold (blocks value extra l)).heads = (l.map value).destutter (· ≠ ·) := by
  rw [← heads_fold]
  exact heads_foldl_blocks value extra l _ _ rfl

/-- From runs whose last is not of the first value, each block starts a run of its own. -/
lemma runOf_foldl_blocks (value : β → α) (extra : β → ℕ) (l : List β) (f : Folded α)
    (hchain : (l.map value).IsChain (· ≠ ·))
    (hlast : ∀ b ∈ l.head?, f.heads.getLast? ≠ some (value b)) :
    ((blocks value extra l).foldl push f).runOf = f.runOf ++
      (l.zipIdx f.heads.length).flatMap fun b => List.replicate (extra b.1 + 1) b.2 := by
  induction l generalizing f with
  | nil => simp [blocks]
  | cons b l ih =>
    have hblocks : blocks value extra (b :: l) =
        List.replicate (extra b + 1) (value b) ++ blocks value extra l := List.flatMap_cons
    have hpush : push f (value b) = ⟨f.heads ++ [value b], f.runOf ++ [f.heads.length]⟩ :=
      if_neg (hlast b rfl)
    rw [hblocks, List.foldl_append, foldl_block, hpush, List.zipIdx_cons, List.flatMap_cons,
      ← List.append_assoc]
    have htail : ∀ c ∈ l.head?, (f.heads ++ [value b]).getLast? ≠ some (value c) := by
      intro c hc
      cases l with
      | nil => cases hc
      | cons c' l =>
        obtain rfl : c' = c := Option.some.inj hc
        rw [List.getLast?_concat]
        intro heq
        exact (List.isChain_cons_cons.mp hchain).1 (Option.some.inj heq)
    rw [ih _ (List.IsChain.tail hchain) htail, List.length_append, List.length_singleton,
      Nat.add_sub_cancel]

/-- **When no two neighbouring blocks are equal**, every item is in the run of its own block. -/
theorem runOf_blocks (value : β → α) (extra : β → ℕ) (l : List β)
    (hchain : (l.map value).IsChain (· ≠ ·)) :
    (fold (blocks value extra l)).runOf =
      l.zipIdx.flatMap fun b => List.replicate (extra b.1 + 1) b.2 := by
  have h := runOf_foldl_blocks value extra l ⟨[], []⟩ hchain (by simp)
  rwa [List.nil_append] at h

end Stutter
