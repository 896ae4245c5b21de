import Mathlib.Data.Int.Basic
import Mathlib.Data.List.Pairwise
import Mathlib.Data.List.Perm.Basic
import Mathlib.Order.Lattice
import Mathlib.Tactic.Set

set_option relaxedAutoImplicit false
set_option autoImplicit false

/-!
# Reading a log in pages

A server that answers a request for the matching items of a log a page at a time, with a cursor that
goes on after the last item of the page and has no upper bound. Reading on while the page is full
and its last item still counts, and reading a long range in windows, finds every item of the range
once.

## Main definitions

* `Paged.page` — one answer: the next matching items, and the log after the last of them.
* `Paged.follow` — reading on by cursor from an answer.
* `Paged.windows` — the windows a range is read in.

## Main results

* `Paged.follow_eq` — reading on finds what counts in the rest of the log.
* `Paged.follow_before` — what is found of a window whose first answer ends early.
* `Paged.follow_page` — a window read on by cursor is all of it.
* `Paged.filter_cut`, `Paged.filter_range_cut` — a sorted log falls in two at every point.
* `Paged.flatMap_windows` — the windows together are the range.
* `Paged.perm_groups` — asking for the keys in groups gives what asking for all of them gives.
* `Paged.flatMap_filter_perm` — parts that hold every item once are the whole, in some order.
* `Paged.flatMap_perm_iff` — parts that may miss something are the whole when none does.
-/

namespace Paged

variable {α : Type}

/-! ## Pages -/

/-- One answer: the next `limit` items that match, and what comes after the last of them, which is
what the answer's cursor stands for. -/
def page (p : α → Bool) : ℕ → List α → List α × List α
  | _, [] => ([], [])
  | 0, l => ([], l)
  | limit + 1, a :: l =>
    if p a then (a :: (page p limit l).1, (page p limit l).2) else page p (limit + 1) l

variable {p : α → Bool}

/-- **A page loses nothing**: the matching items of the log are those of the page, then those after
it. -/
lemma page_append (limit : ℕ) (l : List α) :
    (page p limit l).1 ++ (page p limit l).2.filter p = l.filter p := by
  fun_induction page p limit l with
  | case1 => rfl
  | case2 l hne => rfl
  | case3 limit a l hp ih => rw [List.cons_append, ih, List.filter_cons_of_pos hp]
  | case4 limit a l hp ih => rw [ih, List.filter_cons_of_neg hp]

lemma page_sublist (limit : ℕ) (l : List α) :
    ((page p limit l).1 ++ (page p limit l).2).Sublist l := by
  fun_induction page p limit l with
  | case1 => exact List.Sublist.refl _
  | case2 l hne => exact List.Sublist.refl _
  | case3 limit a l hp ih => exact ih.cons_cons a
  | case4 limit a l hp ih => exact ih.cons a

lemma length_page_le (limit : ℕ) (l : List α) : (page p limit l).1.length ≤ limit := by
  fun_induction page p limit l with
  | case1 => exact Nat.zero_le _
  | case2 l hne => exact Nat.le_refl _
  | case3 limit a l hp ih => exact Nat.succ_le_succ ih
  | case4 limit a l hp ih => exact ih

/-- A page that is not full has come to the end of the log. -/
lemma page_short (limit : ℕ) (l : List α) (h : (page p limit l).1.length < limit) :
    (page p limit l).2 = [] := by
  fun_induction page p limit l with
  | case1 => rfl
  | case2 l hne => exact absurd h (Nat.lt_irrefl _)
  | case3 limit a l hp ih => exact ih (Nat.lt_of_succ_lt_succ h)
  | case4 limit a l hp ih => exact ih h

/-- The items of a page match. -/
lemma page_match (limit : ℕ) (l : List α) : ∀ a ∈ (page p limit l).1, p a := by
  intro a ha
  have hmem : a ∈ l.filter p := by
    rw [← page_append limit l]
    exact List.mem_append_left _ ha
  exact (List.mem_filter.mp hmem).2

/-- A page takes at least one item off the log. -/
lemma length_rest_le {limit : ℕ} (hlimit : 0 < limit) (l : List α) :
    (page p limit l).2.length ≤ l.length - 1 := by
  cases l with
  | nil => simp [page]
  | cons a l =>
    obtain ⟨n, rfl⟩ := Nat.exists_eq_succ_of_ne_zero (Nat.pos_iff_ne_zero.mp hlimit)
    have hrest : ∀ m, (page p m l).2.length ≤ l.length := fun m =>
      ((List.sublist_append_right _ _).trans (page_sublist m l)).length_le
    rw [page]
    split
    · exact hrest n
    · exact hrest (n + 1)

/-- **A full page skips nothing beyond its reach**: where every item it may hold is near, and the near
ones come first, what is not near is all after it. -/
lemma filter_rest {near : α → Bool} (r : α → Bool) {limit : ℕ} (hlimit : 0 < limit) {l : List α}
    (hnear : l.Pairwise fun a b => near b → near a) (hp : ∀ a, p a → near a)
    (hfull : (page p limit l).1.length = limit) :
    (page p limit l).2.filter (fun a => r a && !near a) = l.filter fun a => r a && !near a := by
  fun_induction page p limit l with
  | case1 => rfl
  | case2 l hne => exact absurd hlimit (Nat.lt_irrefl _)
  | case3 limit a l hpa ih =>
    rw [List.filter_cons_of_neg (by simp [hp a hpa])]
    cases limit with
    | zero => cases l <;> rfl
    | succ limit =>
      exact ih (Nat.succ_pos limit) (List.pairwise_cons.mp hnear).2 (Nat.succ.inj hfull)
  | case4 limit a l hpa ih =>
    obtain ⟨hhead, htail⟩ := List.pairwise_cons.mp hnear
    -- an item of the page comes after `a`, and it is near
    have hne : (page p (limit + 1) l).1 ≠ [] := by
      intro hnil
      rw [hnil] at hfull
      cases hfull
    obtain ⟨b, hb⟩ := List.exists_mem_of_ne_nil _ hne
    have hmem : b ∈ l := (page_sublist _ l).subset (List.mem_append_left _ hb)
    have ha := hhead b hmem (hp b (page_match _ l b hb))
    rw [List.filter_cons_of_neg (by simp [ha])]
    exact ih hlimit htail hfull

/-! ## Reading on by cursor -/

/-- From an answer on: its items that count, and those of the next page while the page was full and
its last item counts. -/
def follow (p keep : α → Bool) (limit : ℕ) : ℕ → List α × List α → List α
  | 0, res => res.1.filter keep
  | fuel + 1, res =>
    res.1.filter keep ++
      if res.1.length = limit ∧ res.1.getLast?.any keep then
        follow p keep limit fuel (page p limit res.2)
      else []

/-- **Reading on finds everything**: where what counts comes before what does not, the items found
are those of the answer and the matching ones after it. -/
theorem follow_eq {keep : α → Bool} {limit : ℕ} (hlimit : 0 < limit) {fuel : ℕ}
    {res : List α × List α} (hfuel : res.2.length ≤ fuel)
    (hdown : (res.1 ++ res.2).Pairwise fun a b => keep b → keep a)
    (hle : res.1.length ≤ limit) (hshort : res.1.length < limit → res.2 = []) :
    follow p keep limit fuel res =
      res.1.filter keep ++ res.2.filter fun a => p a && keep a := by
  induction fuel generalizing res with
  | zero => rw [List.length_eq_zero_iff.mp (Nat.le_zero.mp hfuel), follow, List.filter_nil,
      List.append_nil]
  | succ fuel ih =>
    rw [follow]
    congr 1
    split
    · -- the page was full: the next one is read, and takes something off the log
      have hsub := page_sublist (p := p) limit res.2
      have hrest := length_rest_le (p := p) hlimit res.2
      have hdown' : res.2.Pairwise fun a b => keep b → keep a :=
        hdown.sublist (List.sublist_append_right _ _)
      rw [ih (by omega) (hdown'.sublist hsub) (length_page_le _ _) (page_short _ _)]
      have hcounts := congrArg (List.filter keep) (page_append (p := p) limit res.2)
      simpa only [List.filter_append, List.filter_filter, Bool.and_comm] using hcounts
    · next hstop =>
      rw [eq_comm, List.filter_eq_nil_iff]
      intro b hb hcount
      have hfull : res.1.length = limit := by
        by_contra hne
        rw [hshort (Nat.lt_of_le_of_ne hle hne)] at hb
        exact absurd hb List.not_mem_nil
      -- the last item of the full page does not count, so nothing after it does
      apply hstop
      refine ⟨hfull, ?_⟩
      have hne : res.1 ≠ [] := by
        intro hnil
        rw [hnil, List.length_nil] at hfull
        omega
      rw [List.getLast?_eq_some_getLast hne, Option.any_some]
      have hbefore := (List.pairwise_append.mp hdown).2.2 _ (List.getLast_mem hne) b hb
      exact hbefore (by simpa using (Bool.and_eq_true _ _ ▸ hcount).2)

/-- **Cuts**: where what is on the near side of a point comes before what is beyond it, a log is its
two sides in order. -/
theorem filter_cut (near q : α → Bool) {l : List α}
    (h : l.Pairwise fun a b => near b → near a) :
    l.filter q = (l.filter fun a => q a && near a) ++ l.filter fun a => q a && !near a := by
  induction l with
  | nil => rfl
  | cons a l ih =>
    obtain ⟨hhead, htail⟩ := List.pairwise_cons.mp h
    by_cases hq : q a
    · by_cases hn : near a
      · rw [List.filter_cons_of_pos hq, List.filter_cons_of_pos (by simp [hq, hn]),
          List.filter_cons_of_neg (by simp [hn]), ih htail, List.cons_append]
      · -- nothing after `a` is near
        have hnone : (l.filter fun a => q a && near a) = [] := by
          rw [List.filter_eq_nil_iff]
          intro b hb hcount
          exact hn (hhead b hb (by simpa using (Bool.and_eq_true _ _ ▸ hcount).2))
        rw [List.filter_cons_of_pos hq, List.filter_cons_of_neg (by simp [hn]),
          List.filter_cons_of_pos (by simp [hq, hn]), ih htail, hnone]
        rfl
    · rw [List.filter_cons_of_neg hq, List.filter_cons_of_neg (by simp [hq]),
        List.filter_cons_of_neg (by simp [hq]), ih htail]

/-- After an item from a point on there are only such items. -/
lemma filter_since {since r : α → Bool} {xs ys : List α} (hne : xs ≠ []) (hxs : ∀ a ∈ xs, since a)
    (hsince : (xs ++ ys).Pairwise fun a b => since a → since b) :
    (ys.filter fun a => p a && r a) = ys.filter fun a => p a && (since a && r a) := by
  apply List.filter_congr
  intro b hb
  obtain ⟨a, ha⟩ := List.exists_mem_of_ne_nil _ hne
  rw [(List.pairwise_append.mp hsince).2.2 a ha b hb (hxs a ha), Bool.true_and]

/-- What counts, cut where less than that is asked for. -/
lemma filter_cut_before {keep since before : α → Bool} {l : List α}
    (hbefore : l.Pairwise fun a b => before b → before a) (hle : ∀ a, before a → keep a) :
    (l.filter fun a => p a && (since a && keep a)) =
      (l.filter fun a => p a && (since a && before a)) ++
        l.filter fun a => (p a && (since a && keep a)) && !before a := by
  rw [filter_cut before _ hbefore]
  congr 1
  apply List.filter_congr
  intro a _
  have hkept := hle a
  cases hb : before a with
  | true => rw [hkept hb, Bool.and_true, Bool.and_true]
  | false => rw [Bool.and_false, Bool.and_false, Bool.and_false]

/-- **A window whose first answer ends early**: where the first request asks for less than what counts
later, the rest is found only if the first answer is a full page. -/
theorem follow_before {keep since before : α → Bool} {limit : ℕ} (hlimit : 0 < limit) {l : List α}
    (hsince : l.Pairwise fun a b => since a → since b)
    (hkeep : l.Pairwise fun a b => keep b → keep a)
    (hbefore : l.Pairwise fun a b => before b → before a) (hle : ∀ a, before a → keep a) :
    follow p keep limit l.length (page (fun a => p a && (since a && before a)) limit l) =
      if limit ≤ (l.filter fun a => p a && (since a && before a)).length then
        l.filter fun a => p a && (since a && keep a)
      else l.filter fun a => p a && (since a && before a) := by
  set q := fun a => p a && (since a && before a) with hq
  have hq' : ∀ a, q a → p a = true ∧ since a = true ∧ before a = true := by
    intro a ha
    simpa only [hq, Bool.and_eq_true] using ha
  set res := page q limit l with hres
  have hall : res.1 ++ res.2.filter q = l.filter q := page_append limit l
  have hsub : (res.1 ++ res.2).Sublist l := page_sublist limit l
  have hfirst : res.1.filter keep = res.1 := by
    rw [List.filter_eq_self]
    intro a ha
    exact hle a (hq' a (page_match limit l a ha)).2.2
  rw [follow_eq hlimit ((List.sublist_append_right _ _).trans hsub).length_le (hkeep.sublist hsub)
    (length_page_le _ _) (page_short _ _), hfirst]
  have hlength := congrArg List.length hall
  rw [List.length_append] at hlength
  have hlen : res.1.length ≤ limit := length_page_le limit l
  have hshort : res.1.length < limit → res.2 = [] := page_short limit l
  split
  · next hmany =>
    have hfull : res.1.length = limit := by
      by_contra hne
      rw [hshort (by omega), List.filter_nil, List.length_nil] at hlength
      omega
    have hbefore_rest := hbefore.sublist ((List.sublist_append_right _ _).trans hsub)
    have hpos : 0 < res.1.length := by omega
    rw [filter_since (List.length_pos_iff.mp hpos)
        (fun a ha => (hq' a (page_match limit l a ha)).2.1) (hsince.sublist hsub),
      filter_cut_before hbefore_rest hle, filter_cut_before hbefore hle, ← hq, ← hall,
      List.append_assoc]
    -- what is not asked for first is all after a full page
    congr 2
    exact filter_rest _ hlimit hbefore (fun a ha => (hq' a ha).2.2) hfull
  · next hfew =>
    rw [hshort (by omega), List.filter_nil, List.append_nil] at hall ⊢
    exact hall

/-- **A window**: a first answer from a point on, read on by cursor while the items count, gives the
matching items from the point on that count. -/
theorem follow_page {keep since : α → Bool} {limit : ℕ} (hlimit : 0 < limit) {l : List α}
    (hsince : l.Pairwise fun a b => since a → since b)
    (hkeep : l.Pairwise fun a b => keep b → keep a) :
    follow p keep limit l.length (page (fun a => p a && (since a && keep a)) limit l) =
      l.filter fun a => p a && (since a && keep a) := by
  rw [follow_before hlimit hsince hkeep hkeep fun _ h => h]
  split <;> rfl

/-! ## Sorted logs -/

section Sorted

variable {time : α → ℤ} {l : List α} (hsorted : l.Pairwise fun a b => time a ≤ time b) (t : ℤ)
include hsorted

/-- Items up to a time come first. -/
lemma pairwise_le : l.Pairwise fun a b => decide (time b ≤ t) → decide (time a ≤ t) :=
  hsorted.imp fun hab hb => by
    rw [decide_eq_true_eq] at hb ⊢
    omega

/-- Items before a time come first. -/
lemma pairwise_lt : l.Pairwise fun a b => decide (time b < t) → decide (time a < t) :=
  hsorted.imp fun hab hb => by
    rw [decide_eq_true_eq] at hb ⊢
    omega

/-- Items from a time on come last. -/
lemma pairwise_since : l.Pairwise fun a b => decide (t ≤ time a) → decide (t ≤ time b) :=
  hsorted.imp fun hab ha => by
    rw [decide_eq_true_eq] at ha ⊢
    omega

end Sorted

/-! ## Windows -/

/-- A range of times of a sorted log, cut in two. -/
theorem filter_range_cut {time : α → ℤ} {l : List α}
    (hsorted : l.Pairwise fun a b => time a ≤ time b) (q : α → Bool) {lo mid hi : ℤ}
    (hlo : lo ≤ mid + 1) (hhi : mid ≤ hi) :
    (l.filter fun a => q a && (decide (lo ≤ time a) && decide (time a ≤ hi))) =
      (l.filter fun a => q a && (decide (lo ≤ time a) && decide (time a ≤ mid))) ++
        l.filter fun a => q a && (decide (mid + 1 ≤ time a) && decide (time a ≤ hi)) := by
  have hcut := filter_cut (fun a => decide (time a ≤ mid))
    (fun a => q a && (decide (lo ≤ time a) && decide (time a ≤ hi)))
    (pairwise_le hsorted mid)
  rw [hcut]
  congr 1
  · apply List.filter_congr
    intro a _
    have htimes : (lo ≤ time a ∧ time a ≤ mid) ↔
        (lo ≤ time a ∧ time a ≤ hi) ∧ time a ≤ mid := by omega
    rw [Bool.and_assoc, Bool.eq_iff_iff]
    simp only [Bool.and_eq_true, decide_eq_true_eq, htimes]
  · apply List.filter_congr
    intro a _
    have htimes : (mid + 1 ≤ time a ∧ time a ≤ hi) ↔
        (lo ≤ time a ∧ time a ≤ hi) ∧ ¬time a ≤ mid := by omega
    rw [Bool.and_assoc, Bool.eq_iff_iff]
    simp only [Bool.and_eq_true, decide_eq_true_eq, Bool.not_eq_true', decide_eq_false_iff_not,
      htimes]

/-- The windows of at most `size` that the range up to `hi` is read in, from `start` on. -/
def windows (size hi : ℤ) : ℕ → ℤ → List (ℤ × ℤ)
  | 0, _ => []
  | fuel + 1, start =>
    if start ≤ hi then
      (start, min (start + size - 1) hi) :: windows size hi fuel (start + size)
    else []

/-- **The windows are the range**: read one after the other they give the items of the range, in
order. -/
theorem flatMap_windows {time : α → ℤ} {l : List α} (hsorted : l.Pairwise fun a b => time a ≤ time b)
    (q : α → Bool) {size hi : ℤ} (hsize : 0 < size) {fuel : ℕ} {start : ℤ}
    (hfuel : hi < start + fuel) :
    (windows size hi fuel start).flatMap (fun w =>
        l.filter fun a => q a && (decide (w.1 ≤ time a) && decide (time a ≤ w.2))) =
      l.filter fun a => q a && (decide (start ≤ time a) && decide (time a ≤ hi)) := by
  have hempty : ∀ start : ℤ, hi < start →
      (l.filter fun a => q a && (decide (start ≤ time a) && decide (time a ≤ hi))) = [] := by
    intro start hlt
    rw [List.filter_eq_nil_iff]
    intro a _ hcount
    simp only [Bool.and_eq_true, decide_eq_true_eq] at hcount
    omega
  induction fuel generalizing start with
  | zero =>
    rw [hempty start (by simpa using hfuel)]
    rfl
  | succ fuel ih =>
    rw [windows]
    split
    · next hle =>
      rw [List.flatMap_cons, ih (by push_cast at hfuel; omega)]
      by_cases hlast : start + size - 1 ≤ hi
      · have hcut := filter_range_cut hsorted q (by omega : start ≤ start + size - 1 + 1) hlast
        rw [min_eq_left hlast, hcut, Int.sub_add_cancel]
      · rw [min_eq_right (by omega), hempty (start + size) (by omega), List.append_nil]
    · next hgt =>
      rw [hempty start (by omega)]
      rfl

/-! ## Parts -/

/-- **Parts that hold every item once** are the whole, in some order. -/
theorem flatMap_filter_perm {β : Type} (ws : List β) (P : β → α → Bool) (q : α → Bool) (l : List α)
    (h : ∀ a ∈ l, ws.countP (fun w => P w a) = if q a then 1 else 0) :
    (ws.flatMap fun w => l.filter (P w)).Perm (l.filter q) := by
  induction l with
  | nil => simp
  | cons a l ih =>
    have hih := ih fun b hb => h b (List.mem_cons_of_mem a hb)
    have hhead : ∀ ws : List β, (ws.flatMap fun w => (a :: l).filter (P w)).Perm
        (List.replicate (ws.countP fun w => P w a) a ++ ws.flatMap fun w => l.filter (P w)) := by
      intro ws
      induction ws with
      | nil => simp
      | cons w ws ihw =>
        rw [List.flatMap_cons, List.flatMap_cons, List.countP_cons]
        by_cases hw : P w a
        · rw [List.filter_cons_of_pos hw, if_pos hw, List.replicate_succ, List.cons_append,
            List.cons_append]
          refine List.Perm.cons a ((ihw.append_left _).trans ?_)
          rw [← List.append_assoc, ← List.append_assoc]
          exact List.perm_append_comm.append_right _
        · rw [List.filter_cons_of_neg hw, if_neg hw, Nat.add_zero]
          refine (ihw.append_left _).trans ?_
          rw [← List.append_assoc, ← List.append_assoc]
          exact List.perm_append_comm.append_right _
    have ha := h a List.mem_cons_self
    refine (hhead ws).trans ?_
    by_cases hqa : q a
    · rw [if_pos hqa] at ha
      rw [ha, List.filter_cons_of_pos hqa]
      exact hih.cons a
    · rw [if_neg hqa] at ha
      rw [ha, List.filter_cons_of_neg hqa]
      exact hih

lemma flatMap_sublist {β : Type} {ws : List β} {W E : β → List α}
    (h : ∀ w ∈ ws, (W w).Sublist (E w)) : (ws.flatMap W).Sublist (ws.flatMap E) := by
  induction ws with
  | nil => exact List.Sublist.refl _
  | cons w ws ih =>
    obtain ⟨hw, hws⟩ := List.forall_mem_cons.mp h
    exact hw.append (ih hws)

/-- **Parts that may miss something** are the whole when none of them does. -/
theorem flatMap_perm_iff {β : Type} {ws : List β} {W E : β → List α}
    (h : ∀ w ∈ ws, (W w).Sublist (E w)) :
    (ws.flatMap W).Perm (ws.flatMap E) ↔ ∀ w ∈ ws, W w = E w := by
  constructor
  · intro hperm
    have hlength := hperm.length_eq
    clear hperm
    induction ws with
    | nil => simp
    | cons w ws ih =>
      obtain ⟨hw, hws⟩ := List.forall_mem_cons.mp h
      have hle := (flatMap_sublist hws).length_le
      have hone := hw.length_le
      rw [List.flatMap_cons, List.flatMap_cons, List.length_append, List.length_append] at hlength
      exact List.forall_mem_cons.mpr ⟨hw.eq_of_length (by omega), ih hws (by omega)⟩
  · intro heq
    rw [List.flatMap_congr heq]

lemma flatMap_eq_iff {β : Type} {ws : List β} {W E : β → List α}
    (h : ∀ w ∈ ws, (W w).Sublist (E w)) :
    ws.flatMap W = ws.flatMap E ↔ ∀ w ∈ ws, W w = E w :=
  ⟨fun heq => (flatMap_perm_iff h).mp (List.Perm.of_eq heq), List.flatMap_congr⟩

/-- Where what counts comes first, taking while it counts is taking all of it. -/
lemma takeWhile_eq_filter {keep : α → Bool} {l : List α}
    (h : l.Pairwise fun a b => keep b → keep a) : l.takeWhile keep = l.filter keep := by
  induction l with
  | nil => rfl
  | cons a l ih =>
    obtain ⟨hhead, htail⟩ := List.pairwise_cons.mp h
    by_cases ha : keep a
    · rw [List.takeWhile_cons_of_pos ha, List.filter_cons_of_pos ha, ih htail]
    · rw [List.takeWhile_cons_of_neg ha, List.filter_cons_of_neg ha, eq_comm,
        List.filter_eq_nil_iff]
      intro b hb hcount
      exact ha (hhead b hb hcount)

/-! ## Groups of keys -/

/-- **Groups**: asking for the keys a group at a time gives what asking for all of them gives, in
another order. -/
theorem perm_groups {κ : Type} [DecidableEq κ] (key : α → κ) {gs : List (List κ)}
    (hnodup : gs.flatten.Nodup) (q : α → Bool) (l : List α) :
    (gs.flatMap fun g => l.filter fun a => q a && decide (key a ∈ g)).Perm
      (l.filter fun a => q a && decide (key a ∈ gs.flatten)) := by
  induction gs with
  | nil => simp
  | cons g gs ih =>
    rw [List.flatten_cons] at hnodup ⊢
    obtain ⟨-, hrest, hdisjoint⟩ := List.nodup_append.mp hnodup
    have hsplit := List.filter_append_perm (fun a => decide (key a ∈ g))
      (l.filter fun a => q a && decide (key a ∈ g ++ gs.flatten))
    have hnear : ((l.filter fun a => q a && decide (key a ∈ g ++ gs.flatten)).filter
        fun a => decide (key a ∈ g)) = l.filter fun a => q a && decide (key a ∈ g) := by
      rw [List.filter_filter]
      apply List.filter_congr
      intro a _
      by_cases hg : key a ∈ g <;> simp [hg]
    have hfar : ((l.filter fun a => q a && decide (key a ∈ g ++ gs.flatten)).filter
        fun a => !decide (key a ∈ g)) = l.filter fun a => q a && decide (key a ∈ gs.flatten) := by
      rw [List.filter_filter]
      apply List.filter_congr
      intro a _
      by_cases hg : key a ∈ g
      · have hnot : key a ∉ gs.flatten := fun h => hdisjoint _ hg _ h rfl
        rw [decide_eq_true hg, decide_eq_false hnot]
        simp
      · simp only [List.mem_append, hg, false_or, decide_false, Bool.not_false, Bool.true_and]
    rw [hnear, hfar] at hsplit
    exact ((ih hrest).append_left _).trans hsplit

end Paged
