import Mathlib.Algebra.BigOperators.Group.List.Basic
import Mathlib.Algebra.Order.BigOperators.Group.List
import Mathlib.Data.List.Infix

set_option relaxedAutoImplicit false
set_option autoImplicit false

/-!
# Dividing a list into groups under a limit

A list is divided into consecutive groups whose sizes add up to at most a limit; an item that is
larger than the limit is a group of its own. The greedy division lets a group grow until the next
item would take it over the limit.

## Main definitions

* `Chunks.Fits` — a group within the limit, or one item.
* `Chunks.Filled` — a division in which no group has room for the item after it.
* `Chunks.chunk` — the greedy division.

## Main results

* `Chunks.filled_chunk`, `Chunks.flatten_chunk` — the greedy division is filled, and divides the list.
* `Chunks.Filled.length_le` — no division into groups that fit has fewer groups than a filled one.
* `Chunks.Filled.unique` — a list has one filled division.
-/

namespace Chunks

section Total

variable {α K : Type*} [AddCommMonoid K] {size : α → K} {x : α} {group items : List α}

def total (size : α → K) (group : List α) : K := (group.map size).sum

@[simp] lemma total_nil : total size [] = 0 := rfl

@[simp] lemma total_cons : total size (x :: items) = size x + total size items := List.sum_cons

@[simp] lemma total_singleton : total size [x] = size x := by
  rw [total_cons, total_nil, add_zero]

@[simp] lemma total_append : total size (group ++ items) = total size group + total size items := by
  rw [total, List.map_append, List.sum_append]
  rfl

end Total

variable {α K : Type*} [AddCommMonoid K] [LinearOrder K]

/-- A group within the limit, or one item alone. -/
def Fits (limit : K) (size : α → K) (group : List α) : Prop :=
  total size group ≤ limit ∨ group.length = 1

/-- Groups with items that fit, none of which has room for the first item after it. -/
inductive Filled (limit : K) (size : α → K) : List (List α) → Prop
  | nil : Filled limit size []
  | cons {group : List α} {rest : List (List α)} (hne : group ≠ []) (hfits : Fits limit size group)
      (hfull : ∀ x, rest.flatten.head? = some x → limit < total size group + size x)
      (hrest : Filled limit size rest) : Filled limit size (group :: rest)

/-- Go on with a group until the next item would take it over the limit. -/
def pack (limit : K) (size : α → K) (group : List α) : List α → List (List α)
  | [] => [group]
  | x :: items =>
    if limit < total size group + size x then group :: pack limit size [x] items
    else pack limit size (group ++ [x]) items

/-- The greedy division. -/
def chunk (limit : K) (size : α → K) : List α → List (List α)
  | [] => []
  | x :: items => pack limit size [x] items

variable {limit : K} {size : α → K} {x : α} {group items : List α} {groups : List (List α)}

lemma fits_singleton (x : α) : Fits limit size [x] := Or.inr rfl

/-! ## The greedy division -/

lemma flatten_pack (group items : List α) :
    (pack limit size group items).flatten = group ++ items := by
  induction items generalizing group with
  | nil => simp [pack]
  | cons x items ih =>
    rw [pack]
    split_ifs
    · rw [List.flatten_cons, ih, List.singleton_append]
    · rw [ih, List.append_assoc, List.singleton_append]

/-- A group that fits is packed into a filled division, one item at a time. -/
lemma filled_pack (hne : group ≠ []) (hfits : Fits limit size group) :
    Filled limit size (pack limit size group items) := by
  induction items generalizing group with
  | nil => exact .cons hne hfits (fun _ h => nomatch h) .nil
  | cons y items ih =>
    rw [pack]
    split_ifs with hfull
    · refine .cons hne hfits (fun x hx => ?_) (ih (List.cons_ne_nil y []) (fits_singleton y))
      -- the item after the group is the one it had no room for
      rw [flatten_pack] at hx
      obtain rfl : y = x := Option.some.inj hx
      exact hfull
    · have hroom : total size (group ++ [y]) ≤ limit := by
        rw [total_append, total_singleton]
        exact not_lt.mp hfull
      exact ih (by simp) (Or.inl hroom)

/-- **The greedy division** divides the list, in order. -/
theorem flatten_chunk (items : List α) : (chunk limit size items).flatten = items := by
  cases items with
  | nil => rfl
  | cons x items => exact flatten_pack [x] items

/-- **The greedy division is filled.** -/
theorem filled_chunk (items : List α) : Filled limit size (chunk limit size items) := by
  cases items with
  | nil => exact .nil
  | cons x items => exact filled_pack (List.cons_ne_nil x []) (fits_singleton x)

lemma pack_map {β : Type*} (f : β → α) (group items : List β) :
    pack limit size (group.map f) (items.map f) =
      (pack limit (size ∘ f) group items).map (List.map f) := by
  induction items generalizing group with
  | nil => rfl
  | cons x items ih =>
    have htotal : total size (group.map f) = total (size ∘ f) group := by
      rw [total, List.map_map]
      rfl
    have hgroup : group.map f ++ [f x] = (group ++ [x]).map f := by
      rw [List.map_append, List.map_singleton]
    rw [List.map_cons, pack, pack, htotal, hgroup, Function.comp_apply]
    split_ifs
    · rw [List.map_cons]
      exact congrArg (group.map f :: ·) (ih [x])
    · exact ih (group ++ [x])

/-- Items that stand for others are divided as those. -/
theorem chunk_map {β : Type*} (f : β → α) (items : List β) :
    chunk limit size (items.map f) = (chunk limit (size ∘ f) items).map (List.map f) := by
  cases items with
  | nil => rfl
  | cons x items => exact pack_map f [x] items

lemma Filled.ne_nil (h : Filled limit size groups) : ∀ g ∈ groups, g ≠ [] := by
  induction h with
  | nil => simp
  | cons hne _ _ _ ih => exact List.forall_mem_cons.mpr ⟨hne, ih⟩

lemma Filled.fits (h : Filled limit size groups) : ∀ g ∈ groups, Fits limit size g := by
  induction h with
  | nil => simp
  | cons _ hfits _ _ ih => exact List.forall_mem_cons.mpr ⟨hfits, ih⟩

/-! ## Filled divisions -/

section Ordered

variable [IsOrderedAddMonoid K]

lemma total_nonneg (hsize : ∀ x, 0 ≤ size x) (group : List α) : 0 ≤ total size group :=
  List.sum_nonneg (by simpa using fun x _ => hsize x)

/-- What takes in a group and the item it had no room for does not fit. -/
lemma not_fits_of_full (hsize : ∀ x, 0 ≤ size x) (hne : group ≠ [])
    (hfull : limit < total size group + size x) (before after : List α) :
    ¬ Fits limit size (before ++ (group ++ x :: after)) := by
  rintro (h | h)
  · have hle : total size group + size x ≤ total size (before ++ (group ++ x :: after)) := by
      rw [total_append, total_append, total_cons, ← add_assoc (total size group)]
      exact (le_add_of_nonneg_right (total_nonneg hsize after)).trans
        (le_add_of_nonneg_left (total_nonneg hsize before))
    exact absurd (hfull.trans_le hle) (not_lt.mpr h)
  · have := List.length_pos_iff.mpr hne
    simp only [List.length_append, List.length_cons] at h
    omega

/-- Where a group that fits ends, at least as much is left as after the filled group it began in. -/
lemma suffix_of_fits (hsize : ∀ x, 0 ≤ size x) {o others rest : List α} (hne : group ≠ [])
    (hfull : ∀ x, rest.head? = some x → limit < total size group + size x)
    (ho : Fits limit size o) (h : group ++ rest <:+ o ++ others) : rest <:+ others := by
  obtain ⟨before, hbefore⟩ := h
  rcases le_or_gt rest.length others.length with hle | hlt
  · have hrest : rest <:+ o ++ others := ⟨before ++ group, by rw [List.append_assoc, hbefore]⟩
    exact List.suffix_of_suffix_length_le hrest (List.suffix_append o others) hle
  · -- otherwise the group would take in the filled group and the item after it
    have hothers : others <:+ rest :=
      List.suffix_of_suffix_length_le (List.suffix_append o others)
        ⟨before ++ group, by rw [List.append_assoc, hbefore]⟩ hlt.le
    obtain ⟨mid, rfl⟩ := hothers
    cases mid with
    | nil => simp at hlt
    | cons x after =>
      have ho' : o = before ++ (group ++ x :: after) := by
        have hsame : o ++ others = before ++ (group ++ x :: after) ++ others := by
          rw [← hbefore]
          simp
        exact List.append_cancel_right hsame
      rw [ho'] at ho
      exact absurd ho (not_fits_of_full hsize hne (hfull x rfl) before after)

/-- **A filled division has the fewest groups**, of all divisions into groups that fit.

**Proof sketch.** Induction on the other division: after each of its groups at least as much of the
list is left as after a group of the filled one. -/
theorem Filled.length_le (hsize : ∀ x, 0 ≤ size x) {others : List (List α)}
    (hothers : ∀ o ∈ others, Fits limit size o) (h : Filled limit size groups)
    (hsuffix : groups.flatten <:+ others.flatten) : groups.length ≤ others.length := by
  induction others generalizing groups with
  | nil =>
    cases h with
    | nil => exact le_rfl
    | cons hne _ _ _ =>
      rw [List.flatten_nil, List.suffix_nil, List.flatten_cons, List.append_eq_nil_iff] at hsuffix
      exact absurd hsuffix.1 hne
  | cons o others ih =>
    obtain ⟨ho, hothers⟩ := List.forall_mem_cons.mp hothers
    cases h with
    | nil => exact Nat.zero_le _
    | cons hne _ hfull hrest =>
      have hleft := suffix_of_fits hsize hne hfull ho hsuffix
      exact Nat.succ_le_succ (ih hothers hrest hleft)

/-- **A list has one filled division**: after its first group the same is left. -/
theorem Filled.unique (hsize : ∀ x, 0 ≤ size x) {others : List (List α)}
    (h : Filled limit size groups) (h' : Filled limit size others)
    (heq : groups.flatten = others.flatten) : groups = others := by
  induction h generalizing others with
  | nil =>
    cases h' with
    | nil => rfl
    | cons hne _ _ _ => exact absurd (List.append_eq_nil_iff.mp heq.symm).1 hne
  | cons hne hfits hfull _ ih =>
    cases h' with
    | nil => exact absurd (List.append_eq_nil_iff.mp heq).1 hne
    | cons hne' hfits' hfull' hrest' =>
      rw [List.flatten_cons, List.flatten_cons] at heq
      have hleft := suffix_of_fits hsize hne hfull hfits' ⟨[], heq⟩
      have hright := suffix_of_fits hsize hne' hfull' hfits ⟨[], heq.symm⟩
      have hsame := hleft.eq_of_length (le_antisymm hleft.length_le hright.length_le)
      rw [hsame] at heq
      rw [List.append_cancel_right heq, ih hrest' hsame]

end Ordered

end Chunks
