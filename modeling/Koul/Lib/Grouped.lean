import Mathlib.Algebra.BigOperators.Group.Finset.Basic
import Mathlib.Algebra.BigOperators.Group.Finset.Piecewise
import Mathlib.Data.Finset.Basic
import Mathlib.Data.List.Perm.Basic

set_option relaxedAutoImplicit false
set_option autoImplicit false

/-!
# Grouping a list by key

A pass over a list that keeps, for every key, what the items with that key add up to, as a map in
insertion order does; and what a second pass over the groups sums. The sum depends neither on the
order of the items nor on where the list is cut, as long as no key is on both sides of the cut.

## Main definitions

* `Grouped.set` — a map in insertion order with the value of one key replaced.
* `Grouped.byKey` — the groups of a list.

## Main results

* `Grouped.read_foldl` — a loop that adds to what it keeps ends at a sum.
* `Grouped.sum_filter_key` — a sum over a list is a sum over its keys.
* `Grouped.sum_byKey` — a sum over the groups is the sum over the keys of the list.
* `Grouped.sum_perm` — it is the same for every order of the items.
* `Grouped.sum_append` — and additive over cuts that split no key.
-/

namespace Grouped

variable {α κ ν : Type} [DecidableEq κ]

/-! ## Maps in insertion order -/

/-- The value of a key. -/
def get? (k : κ) : List (κ × ν) → Option ν
  | [] => none
  | e :: m => if e.1 = k then some e.2 else get? k m

/-- The map with the value of `k` replaced in its place, or added at the end. -/
def set (k : κ) (v : ν) : List (κ × ν) → List (κ × ν)
  | [] => [(k, v)]
  | e :: m => if e.1 = k then (k, v) :: m else e :: set k v m

lemma map_fst_set (k : κ) (v : ν) (m : List (κ × ν)) :
    (set k v m).map Prod.fst = if k ∈ m.map Prod.fst then m.map Prod.fst
      else m.map Prod.fst ++ [k] := by
  induction m with
  | nil => rfl
  | cons e m ih =>
    by_cases h : e.1 = k
    · subst h
      simp [set]
    · have hne : k ≠ e.1 := fun heq => h heq.symm
      simp only [set, if_neg h, List.map_cons, ih, List.mem_cons, hne, false_or]
      split <;> rfl

lemma get?_set (k k' : κ) (v : ν) (m : List (κ × ν)) :
    get? k' (set k v m) = if k' = k then some v else get? k' m := by
  induction m with
  | nil => simp [set, get?, eq_comm]
  | cons e m ih =>
    by_cases h : e.1 = k
    · subst h
      simp only [set, if_true, get?, eq_comm]
      split <;> rfl
    · simp only [set, if_neg h, get?, ih]
      by_cases he : e.1 = k'
      · subst he
        rw [if_pos rfl, if_neg h, if_pos rfl]
      · rw [if_neg he, if_neg he]

/-- In a map without repeated keys a key has the value of its entry. -/
lemma get?_of_mem {m : List (κ × ν)} (hnodup : (m.map Prod.fst).Nodup) {e : κ × ν} (he : e ∈ m) :
    get? e.1 m = some e.2 := by
  induction m with
  | nil => cases he
  | cons e' m ih =>
    rw [List.map_cons, List.nodup_cons] at hnodup
    rcases List.mem_cons.mp he with rfl | he
    · simp [get?]
    · have hne : e'.1 ≠ e.1 := fun heq => hnodup.1 (heq ▸ List.mem_map_of_mem he)
      rw [get?, if_neg hne, ih hnodup.2 he]

/-- An entry of the map after a replacement is the new one or was there. -/
lemma mem_set {k : κ} {v : ν} {m : List (κ × ν)} {e : κ × ν} (he : e ∈ set k v m) :
    e = (k, v) ∨ e ∈ m := by
  induction m with
  | nil => exact .inl (List.mem_singleton.mp he)
  | cons e' m ih =>
    rw [set] at he
    split at he
    · exact (List.mem_cons.mp he).imp_right (List.mem_cons_of_mem e')
    · rcases List.mem_cons.mp he with rfl | he
      · exact .inr List.mem_cons_self
      · exact (ih he).imp_right (List.mem_cons_of_mem e')

lemma mem_of_get? {k : κ} {v : ν} {m : List (κ × ν)} (h : get? k m = some v) : (k, v) ∈ m := by
  induction m with
  | nil => cases h
  | cons e m ih =>
    rw [get?] at h
    split at h
    · next hk =>
      obtain rfl := Option.some.inj h
      subst hk
      exact List.mem_cons_self
    · exact List.mem_cons_of_mem e (ih h)

/-- A replacement is seen by those who keep its key. -/
lemma filter_set (q : κ → Bool) (k : κ) (v : ν) (m : List (κ × ν)) :
    (set k v m).filter (fun e => q e.1) =
      if q k then set k v (m.filter fun e => q e.1) else m.filter fun e => q e.1 := by
  induction m with
  | nil => cases hk : q k <;> simp [set, hk]
  | cons e m ih =>
    by_cases he : e.1 = k
    · subst he
      cases hk : q e.1 <;> simp [set, hk]
    · cases hk : q k <;> cases hq : q e.1 <;> simp_all [set]

lemma get?_filter {q : κ → Bool} {k : κ} (hk : q k) (m : List (κ × ν)) :
    get? k (m.filter fun e => q e.1) = get? k m := by
  induction m with
  | nil => rfl
  | cons e m ih =>
    by_cases he : e.1 = k
    · subst he
      simp [get?, hk]
    · cases hq : q e.1 <;> simp [get?, he, hq, ih]

/-- A replacement by a value worth `d` more adds `d` to what the map is worth. -/
lemma sum_map_set {M : Type} [AddCommMonoid M] (f : ν → M) {k : κ} {v : ν} {m : List (κ × ν)} {d : M}
    (h : f v = ((get? k m).map f).getD 0 + d) :
    ((set k v m).map fun e => f e.2).sum = (m.map fun e => f e.2).sum + d := by
  induction m with
  | nil => simpa [set, get?] using h
  | cons e m ih =>
    by_cases he : e.1 = k
    · rw [get?, if_pos he] at h
      rw [set, if_pos he, List.map_cons, List.map_cons, List.sum_cons, List.sum_cons, h]
      exact add_right_comm _ _ _
    · rw [get?, if_neg he] at h
      rw [set, if_neg he, List.map_cons, List.map_cons, List.sum_cons, List.sum_cons, ih h,
        add_assoc]

/-! ## Sums of a loop -/

/-- A loop each of whose steps adds `f` to what `read` reads ends at the sum. -/
lemma read_foldl {σ M : Type} [AddCommMonoid M] {step : σ → α → σ} {read : σ → M} {f : α → M}
    (hstep : ∀ s a, read (step s a) = read s + f a) (s : σ) (l : List α) :
    read (l.foldl step s) = read s + (l.map f).sum := by
  induction l generalizing s with
  | nil => rw [List.foldl_nil, List.map_nil, List.sum_nil, add_zero]
  | cons a l ih => rw [List.foldl_cons, ih, hstep, List.map_cons, List.sum_cons, add_assoc]

/-- A sum over a list, key by key. -/
lemma sum_filter_key {M : Type} [AddCommMonoid M] (key : α → κ) (g : α → M) {s : Finset κ}
    {l : List α} (hs : ∀ a ∈ l, key a ∈ s) :
    ∑ k ∈ s, ((l.filter (key · = k)).map g).sum = (l.map g).sum := by
  induction l with
  | nil => simp
  | cons a l ih =>
    have hcons : ∀ k, (((a :: l).filter (key · = k)).map g).sum =
        (if key a = k then g a else 0) + ((l.filter (key · = k)).map g).sum := by
      intro k
      by_cases h : key a = k
      · rw [List.filter_cons_of_pos (by simpa using h), if_pos h, List.map_cons, List.sum_cons]
      · rw [List.filter_cons_of_neg (by simpa using h), if_neg h, zero_add]
    rw [Finset.sum_congr rfl fun k _ => hcons k, Finset.sum_add_distrib, Finset.sum_ite_eq,
      if_pos (hs a List.mem_cons_self), ih fun b hb => hs b (List.mem_cons_of_mem a hb),
      List.map_cons, List.sum_cons]

/-! ## Groups -/

section Groups

variable (key : α → κ) (push : ν → α → ν) (zero : ν)

/-- One item: it is added to its key's group. -/
def add (m : List (κ × ν)) (a : α) : List (κ × ν) :=
  set (key a) (push ((get? (key a) m).getD zero) a) m

/-- The groups of a list, in the order of their first items. -/
def byKey (l : List α) : List (κ × ν) := l.foldl (add key push zero) []

/-- What the items with one key add up to. -/
def group (l : List α) (k : κ) : ν := (l.filter (key · = k)).foldl push zero

variable {key push zero}

lemma group_concat (l : List α) (a : α) (k : κ) : group key push zero (l ++ [a]) k =
    if key a = k then push (group key push zero l k) a else group key push zero l k := by
  rw [group, List.filter_append, List.foldl_append]
  by_cases h : key a = k
  · rw [if_pos h, List.filter_cons_of_pos (by simpa using h)]
    rfl
  · rw [if_neg h, List.filter_cons_of_neg (by simpa using h)]
    rfl

/-- **The groups**: each key of the list once, with what its items add up to. -/
lemma byKey_spec (l : List α) : ((byKey key push zero l).map Prod.fst).Nodup ∧
    (∀ k, k ∈ (byKey key push zero l).map Prod.fst ↔ k ∈ l.map key) ∧
    ∀ k, (get? k (byKey key push zero l)).getD zero = group key push zero l k := by
  induction l using List.reverseRecOn with
  | nil => exact ⟨List.nodup_nil, fun k => Iff.rfl, fun k => rfl⟩
  | append_singleton l a ih =>
    obtain ⟨hnodup, hkeys, hvalues⟩ := ih
    have hstep : byKey key push zero (l ++ [a]) = add key push zero (byKey key push zero l) a := by
      rw [byKey, List.foldl_append]
      rfl
    rw [hstep, add, map_fst_set]
    refine ⟨?_, ?_, ?_⟩
    · split
      · exact hnodup
      · next hmem =>
        exact List.nodup_append.mpr ⟨hnodup, List.nodup_singleton _, fun b hb c hc heq =>
          hmem (List.mem_singleton.mp hc ▸ heq ▸ hb)⟩
    · intro k
      rw [List.map_append, List.mem_append, ← hkeys k]
      split
      · next hmem =>
        constructor
        · exact fun h => .inl h
        · rintro (h | h)
          · exact h
          · obtain rfl := List.mem_singleton.mp h
            exact hmem
      · rw [List.mem_append]
        exact Iff.rfl
    · intro k
      rw [get?_set, group_concat, hvalues]
      by_cases h : k = key a
      · subst h
        rw [if_pos rfl, if_pos rfl]
        rfl
      · rw [if_neg h, if_neg fun heq => h heq.symm, hvalues]

variable {M : Type} [AddCommMonoid M]

/-- What a sum over the groups adds up, key by key. -/
def total (f : κ → ν → M) (key : α → κ) (push : ν → α → ν) (zero : ν) (l : List α) : M :=
  ∑ k ∈ (l.map key).toFinset, f k (group key push zero l k)

/-- **A sum over the groups** is the sum over the keys of the list. -/
theorem sum_byKey (f : κ → ν → M) (l : List α) :
    ((byKey key push zero l).map fun e => f e.1 e.2).sum = total f key push zero l := by
  obtain ⟨hnodup, hkeys, hvalues⟩ := @byKey_spec _ _ _ _ key push zero l
  -- the entries are read back from their keys, and the keys are those of the list
  have hentries : ((byKey key push zero l).map fun e => f e.1 e.2) =
      ((byKey key push zero l).map Prod.fst).map fun k => f k (group key push zero l k) := by
    rw [List.map_map]
    apply List.map_congr_left
    intro e he
    have hvalue : e.2 = group key push zero l e.1 := by
      rw [← hvalues e.1, get?_of_mem hnodup he]
      rfl
    rw [Function.comp_apply, ← hvalue]
  have hset : ((byKey key push zero l).map Prod.fst).toFinset = (l.map key).toFinset := by
    ext k
    rw [List.mem_toFinset, List.mem_toFinset, hkeys]
  rw [hentries, ← List.sum_toFinset _ hnodup, hset]
  rfl

/-- **Order**: where pushes commute, the order of the items does not matter. -/
theorem sum_perm [RightCommutative push] (f : κ → ν → M) {l l' : List α} (hperm : l.Perm l') :
    total f key push zero l = total f key push zero l' := by
  have hset : (l.map key).toFinset = (l'.map key).toFinset :=
    List.toFinset_eq_of_perm _ _ (hperm.map key)
  rw [total, total, hset]
  apply Finset.sum_congr rfl
  intro k _
  rw [group, group, (hperm.filter _).foldl_eq]

/-- **Cuts**: where no key is on both sides, the sums of the two sides add up. -/
theorem sum_append (f : κ → ν → M) {l l' : List α}
    (hcut : ∀ a ∈ l, ∀ b ∈ l', key a ≠ key b) :
    total f key push zero (l ++ l') = total f key push zero l + total f key push zero l' := by
  have hdisjoint : Disjoint (l.map key).toFinset (l'.map key).toFinset := by
    rw [Finset.disjoint_left]
    intro k hk hk'
    obtain ⟨a, ha, rfl⟩ := List.mem_map.mp (List.mem_toFinset.mp hk)
    obtain ⟨b, hb, heq⟩ := List.mem_map.mp (List.mem_toFinset.mp hk')
    exact hcut a ha b hb heq.symm
  rw [total, List.map_append, List.toFinset_append, Finset.sum_union hdisjoint]
  -- the group of a key of one side holds no item of the other
  congr 1
  · apply Finset.sum_congr rfl
    intro k hk
    obtain ⟨a, ha, rfl⟩ := List.mem_map.mp (List.mem_toFinset.mp hk)
    have hnone : l'.filter (key · = key a) = [] := by
      rw [List.filter_eq_nil_iff]
      intro b hb
      simpa using fun heq => hcut a ha b hb heq.symm
    rw [group, List.filter_append, hnone, List.append_nil]
    rfl
  · apply Finset.sum_congr rfl
    intro k hk
    obtain ⟨b, hb, rfl⟩ := List.mem_map.mp (List.mem_toFinset.mp hk)
    have hnone : l.filter (key · = key b) = [] := by
      rw [List.filter_eq_nil_iff]
      intro a ha
      simpa using hcut a ha b hb
    rw [group, List.filter_append, hnone, List.nil_append]
    rfl

end Groups

end Grouped
