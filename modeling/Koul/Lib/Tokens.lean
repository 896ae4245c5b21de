import Koul.Lib.Interleaving
import Mathlib.Data.List.Count
import Mathlib.Data.List.Perm.Subperm

set_option relaxedAutoImplicit false
set_option autoImplicit false

/-!
# Tokens that work once

Programs that share a store put tokens into it and take them out: a token that was taken is gone, and
so may be one that nobody took. However the programs run beside each other, the tokens that were taken
are among those that were put, each no more often than it was put.

## Main definitions

* `Interleaving.Pool.collect` — what the programs of a pool have heard, read one reply at a time.
* `Interleaving.Tokens` — how the commands of a store put and take tokens.

## Main results

* `Interleaving.Tokens.subperm` — what was taken was put.
-/

namespace Interleaving

variable {Cmd : Type} {Reply : Cmd → Type} {σ ι α γ : Type}

/-! ## What was heard -/

namespace Pool

/-- What the programs have heard, as `f` reads each reply. -/
def collect (f : ((c : Cmd) × Reply c) → Option γ) (w : Pool σ ι Reply α) : List γ :=
  w.procs.flatMap fun p => p.heard.filterMap f

variable {f : ((c : Cmd) × Reply c) → Option γ} {w : Pool σ ι Reply α}

lemma collect_start (prog : ι → Prog Reply α) (exec : (c : Cmd) → σ → Reply c × σ) (i : ι) :
    (w.step prog exec (.start i)).collect f = w.collect f := by
  rw [collect, step, List.flatMap_append]
  exact List.append_nil _

/-- A program that goes on having heard nothing. -/
lemma collect_choose {n : ℕ} {p : Proc ι Reply α} (hp : w.procs[n]? = some p)
    (left : Prog Reply α) (s : σ) :
    (w.replace n ⟨p.arg, p.heard, left⟩ s).collect f = w.collect f := by
  obtain ⟨hn, rfl⟩ := List.getElem?_eq_some_iff.mp hp
  rw [collect, collect, replace, List.set_eq_take_append_cons_drop, if_pos hn]
  conv_rhs => rw [← List.take_append_drop n w.procs, List.drop_eq_getElem_cons hn]
  rw [List.flatMap_append, List.flatMap_append, List.flatMap_cons, List.flatMap_cons]

/-- A program that has heard one more reply. -/
lemma collect_concat {n : ℕ} {p : Proc ι Reply α} (hp : w.procs[n]? = some p)
    (m : (c : Cmd) × Reply c) (left : Prog Reply α) (s : σ) :
    ((w.replace n ⟨p.arg, p.heard ++ [m], left⟩ s).collect f).Perm
      (w.collect f ++ (f m).toList) := by
  obtain ⟨hn, rfl⟩ := List.getElem?_eq_some_iff.mp hp
  rw [collect, collect, replace, List.set_eq_take_append_cons_drop, if_pos hn]
  conv_rhs => rw [← List.take_append_drop n w.procs, List.drop_eq_getElem_cons hn]
  simp only [List.flatMap_append, List.flatMap_cons, List.filterMap_append, List.append_assoc]
  have hone : List.filterMap f [m] = (f m).toList := by
    cases hm : f m <;> simp [hm]
  rw [hone]
  refine List.Perm.append_left _ (List.Perm.append_left _ ?_)
  exact List.perm_append_comm

/-- One of the things that each program has heard. -/
lemma subperm_collect {g : Proc ι Reply α → Option γ}
    (hg : ∀ p ∈ w.procs, ∀ x, g p = some x → x ∈ p.heard.filterMap f) :
    (w.procs.filterMap g).Subperm (w.collect f) := by
  rw [collect]
  generalize w.procs = procs at hg
  induction procs with
  | nil => exact List.Subperm.refl _
  | cons p procs ih =>
    obtain ⟨hp, hprocs⟩ := List.forall_mem_cons.mp hg
    rw [List.flatMap_cons]
    cases hx : g p with
    | none =>
      rw [List.filterMap_cons_none hx]
      exact (ih hprocs).trans (List.sublist_append_right _ _).subperm
    | some x =>
      rw [List.filterMap_cons_some hx, ← List.singleton_append]
      exact (List.singleton_subperm_iff.mpr (hp x hx)).append (ih hprocs)

end Pool

/-! ## Putting and taking -/

/-- A store holds one token at a time for a key. A command puts one, or has taken one by what it
answers, or leaves every key its token or nothing. -/
structure Tokens {Cmd : Type} {Reply : Cmd → Type} {σ : Type}
    (exec : (c : Cmd) → σ → Reply c × σ) (κ ν : Type) where
  slot : σ → κ → Option ν
  put : ((c : Cmd) × Reply c) → Option (κ × ν)
  take : ((c : Cmd) × Reply c) → Option (κ × ν)
  slot_of_take : ∀ c s k v, take ⟨c, (exec c s).1⟩ = some (k, v) → slot s k = some v
  /-- What a key holds after a command was put by it, or stayed and was not taken. -/
  of_slot : ∀ c s k v, slot (exec c s).2 k = some v →
    put ⟨c, (exec c s).1⟩ = some (k, v) ∨
      slot s k = some v ∧ take ⟨c, (exec c s).1⟩ ≠ some (k, v)
  /-- No command puts and takes. -/
  take_of_put : ∀ m, (put m).isSome → take m = none

namespace Tokens

variable {exec : (c : Cmd) → σ → Reply c × σ} {κ ν : Type} [DecidableEq κ] [DecidableEq ν]
  (T : Tokens exec κ ν)

/-- Whether the store holds a token for its key. -/
def live (s : σ) (x : κ × ν) : ℕ := if T.slot s x.1 = some x.2 then 1 else 0

/-- Every token was put at least as often as it was taken, and once more when it is still there. -/
def Balanced (w : Pool σ ι Reply α) : Prop :=
  ∀ x, (w.collect T.take).count x + T.live w.store x ≤ (w.collect T.put).count x

omit [DecidableEq κ] [DecidableEq ν] in
lemma count_toList {δ : Type} [BEq δ] [LawfulBEq δ] (o : Option δ) (x : δ)
    [Decidable (o = some x)] : o.toList.count x = if o = some x then 1 else 0 := by
  cases o with
  | none => simp
  | some y => by_cases h : y = x <;> simp [h]

/-- One command: what it takes was there, and what is there after it was put or had been there. -/
lemma live_exec_le (c : Cmd) (s : σ) (x : κ × ν) :
    (T.take ⟨c, (exec c s).1⟩).toList.count x + T.live (exec c s).2 x ≤
      T.live s x + (T.put ⟨c, (exec c s).1⟩).toList.count x := by
  have hslot := T.slot_of_take c s x.1 x.2
  have hof := T.of_slot c s x.1 x.2
  rw [count_toList, count_toList, live, live]
  by_cases ht : T.take ⟨c, (exec c s).1⟩ = some x
  · -- what is taken was there and is gone
    have hgone : T.slot (exec c s).2 x.1 ≠ some x.2 := by
      intro hlive
      rcases hof hlive with hput | ⟨-, hne⟩
      · have hnone := T.take_of_put ⟨c, (exec c s).1⟩ (by rw [hput]; rfl)
        rw [hnone] at ht
        cases ht
      · exact hne ht
    rw [if_pos ht, if_neg hgone, if_pos (hslot ht)]
    omega
  · rw [if_neg ht, Nat.zero_add]
    by_cases hlive : T.slot (exec c s).2 x.1 = some x.2
    · rw [if_pos hlive]
      rcases hof hlive with hput | ⟨hs, -⟩
      · rw [if_pos hput]
        omega
      · rw [if_pos hs]
        omega
    · rw [if_neg hlive]
      exact Nat.zero_le _

variable {T} {w : Pool σ ι Reply α}

lemma Balanced.start (hw : T.Balanced w) (prog : ι → Prog Reply α) (i : ι) :
    T.Balanced (w.step prog exec (.start i)) := by
  intro x
  rw [Pool.collect_start, Pool.collect_start]
  exact hw x

lemma Balanced.choose (hw : T.Balanced w) {n : ℕ} {p : Proc ι Reply α} (left : Prog Reply α)
    (hp : w.procs[n]? = some p) : T.Balanced (w.replace n ⟨p.arg, p.heard, left⟩ w.store) := by
  intro x
  rw [Pool.collect_choose hp, Pool.collect_choose hp]
  exact hw x

lemma Balanced.call (hw : T.Balanced w) {n : ℕ} {p : Proc ι Reply α} (hp : w.procs[n]? = some p)
    (c : Cmd) (left : Prog Reply α) :
    T.Balanced (w.replace n ⟨p.arg, p.heard ++ [⟨c, (exec c w.store).1⟩], left⟩
      (exec c w.store).2) := by
  intro x
  have hstep := T.live_exec_le c w.store x
  have hx := hw x
  rw [(Pool.collect_concat hp _ left _).count_eq, (Pool.collect_concat hp _ left _).count_eq,
    List.count_append, List.count_append]
  show _ + _ + T.live (exec c w.store).2 x ≤ _
  omega

/-- **What was taken was put**, each token at least as often. -/
theorem Balanced.subperm (hw : T.Balanced w) : (w.collect T.take).Subperm (w.collect T.put) :=
  List.subperm_ext_iff.mpr fun x _ => (Nat.le_add_right _ _).trans (hw x)

end Tokens

end Interleaving
