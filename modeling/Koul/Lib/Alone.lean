import Koul.Lib.Interleaving

set_option relaxedAutoImplicit false
set_option autoImplicit false

/-!
# Programs that run alone

A program against one store, with no other program beside it: what it can end with and the store it
leaves. The relation is on programs, so a sequence of programs is taken apart as it is written, and a
pool with a single program is an instance of it.

## Main definitions

* `Interleaving.Prog.Alone` — from a store the program can end with a value and a store.

## Main results

* `Interleaving.Prog.alone_bind` — one program after another.
* `Interleaving.Prog.alone_together` — commands that only read, sent together.
* `Interleaving.Pool.alone_of_run` — a pool with one program runs it alone.
* `Interleaving.Pool.exists_done` — and it ends.
-/

namespace Interleaving

variable {Cmd : Type} {Reply : Cmd → Type} {σ ι α β : Type}

namespace Prog

variable (exec : (c : Cmd) → σ → Reply c × σ)

/-- From `s` the program can end with `b` and leave `t`. -/
def Alone : Prog Reply α → σ → α → σ → Prop
  | done a, s, b, t => a = b ∧ s = t
  | call c next, s, b, t => Alone (next (exec c s).1) (exec c s).2 b t
  | either p q, s, b, t => Alone p s b t ∨ Alone q s b t

variable {exec} {s t : σ}

@[simp] lemma alone_done {a b : α} : Alone exec (done a) s b t ↔ a = b ∧ s = t := Iff.rfl

lemma alone_call {c : Cmd} {next : Reply c → Prog Reply α} {b : α} :
    Alone exec (call c next) s b t ↔ Alone exec (next (exec c s).1) (exec c s).2 b t := Iff.rfl

lemma alone_either {p q : Prog Reply α} {b : α} :
    Alone exec (either p q) s b t ↔ Alone exec p s b t ∨ Alone exec q s b t := Iff.rfl

lemma alone_ask_bind {c : Cmd} {f : Reply c → Prog Reply α} {b : α} :
    Alone exec (ask c >>= f) s b t ↔ Alone exec (f (exec c s).1) (exec c s).2 b t := Iff.rfl

/-- **Sequencing**: the second program runs from where the first leaves the store. -/
theorem alone_bind {p : Prog Reply α} {f : α → Prog Reply β} {b : β} :
    Alone exec (p >>= f) s b t ↔ ∃ a u, Alone exec p s a u ∧ Alone exec (f a) u b t := by
  induction p generalizing s with
  | done a =>
    rw [done_bind]
    constructor
    · intro hf
      exact ⟨a, s, ⟨rfl, rfl⟩, hf⟩
    · rintro ⟨a', u, ⟨rfl, rfl⟩, hf⟩
      exact hf
  | call c next ih =>
    rw [call_bind, alone_call, ih]
    exact Iff.rfl
  | either p q ihp ihq =>
    rw [either_bind, alone_either, ihp, ihq]
    constructor
    · rintro (⟨a, u, hp, hf⟩ | ⟨a, u, hq, hf⟩)
      · exact ⟨a, u, .inl hp, hf⟩
      · exact ⟨a, u, .inr hq, hf⟩
    · rintro ⟨a, u, hp | hq, hf⟩
      · exact .inl ⟨a, u, hp, hf⟩
      · exact .inr ⟨a, u, hq, hf⟩

/-- Commands that only read, one after the other: the store stays, and each reply is what it says. -/
lemma alone_inOrder {cs : List Cmd} (hread : ∀ c ∈ cs, (exec c s).2 = s) {h : Heard Reply}
    (hp : Alone exec (inOrder cs) s h t) : t = s ∧ h = cs.map fun c => ⟨c, (exec c s).1⟩ := by
  induction cs generalizing h with
  | nil => exact ⟨hp.2.symm, hp.1.symm⟩
  | cons c cs ih =>
    obtain ⟨hc, hcs⟩ := List.forall_mem_cons.mp hread
    have hrest : Alone exec (inOrder cs >>= fun rs => pure (⟨c, (exec c s).1⟩ :: rs))
        (exec c s).2 h t := hp
    obtain ⟨rs, u, hrs, hlast⟩ := alone_bind.mp hrest
    obtain ⟨rfl, rfl⟩ := hlast
    rw [hc] at hrs
    obtain ⟨ht, rfl⟩ := ih hcs hrs
    exact ⟨ht, rfl⟩

lemma alone_anyOf {p : Prog Reply α} {ps : List (Prog Reply α)} {b : α}
    (h : Alone exec (anyOf p ps) s b t) : Alone exec p s b t ∨ ∃ q ∈ ps, Alone exec q s b t := by
  induction ps generalizing p with
  | nil => exact .inl h
  | cons q ps ih =>
    rcases ih h with (hp | hq) | ⟨r, hr, hrun⟩
    · exact .inl hp
    · exact .inr ⟨q, List.mem_cons_self, hq⟩
    · exact .inr ⟨r, List.mem_cons_of_mem _ hr, hrun⟩

/-- **Reading together**: the store stays, and the replies are the ones of the commands, in some
order. -/
theorem alone_together {cs : List Cmd} (hread : ∀ c ∈ cs, (exec c s).2 = s) {h : Heard Reply}
    (hp : Alone exec (together cs) s h t) :
    t = s ∧ h.Perm (cs.map fun c => ⟨c, (exec c s).1⟩) := by
  rcases alone_anyOf hp with hp | ⟨q, hq, hp⟩
  · obtain ⟨ht, rfl⟩ := alone_inOrder hread hp
    exact ⟨ht, .rfl⟩
  · obtain ⟨cs', hcs', rfl⟩ := List.mem_map.mp hq
    have hperm : cs'.Perm cs := List.mem_permutations'.mp hcs'
    obtain ⟨ht, rfl⟩ := alone_inOrder (fun c hc => hread c (hperm.mem_iff.mp hc)) hp
    exact ⟨ht, hperm.map _⟩

end Prog

namespace Pool

open Prog (Alone)

variable (prog : ι → Prog Reply α) (exec : (c : Cmd) → σ → Reply c × σ)

/-- A single program's move is a step of its running alone. -/
lemma alone_of_move {p : Proc ι Reply α} {second : Bool} {s t : σ} {b : α}
    (h : Alone exec (p.move exec second s).1.left (p.move exec second s).2 b t) :
    Alone exec p.left s b t := by
  rw [Proc.move] at h
  split at h
  · exact h
  · next c next hleft =>
    rw [hleft]
    exact h
  · next q r hleft =>
    rw [hleft]
    cases second with
    | false => exact .inl h
    | true => exact .inr h

/-- **One program in a pool** stays the only one, and whatever it can still end with it could end
with from the start. -/
theorem alone_of_run (s : σ) (p : Proc ι Reply α) (moves : List Bool) :
    ∃ q, (run prog exec ⟨s, [p]⟩ (moves.map (.move 0))).procs = [q] ∧
      ∀ b t, Alone exec q.left (run prog exec ⟨s, [p]⟩ (moves.map (.move 0))).store b t →
        Alone exec p.left s b t := by
  induction moves generalizing s p with
  | nil => exact ⟨p, rfl, fun b t h => h⟩
  | cons second moves ih =>
    obtain ⟨q, hprocs, hq⟩ := ih (p.move exec second s).2 (p.move exec second s).1
    exact ⟨q, hprocs, fun b t h => alone_of_move exec (hq b t h)⟩

/-- A program that is done stays so. -/
lemma run_of_done {s : σ} {p : Proc ι Reply α} {a : α} (hdone : p.left = .done a)
    (moves : List Bool) : run prog exec ⟨s, [p]⟩ (moves.map (.move 0)) = ⟨s, [p]⟩ := by
  induction moves with
  | nil => rfl
  | cons second moves ih =>
    have hmove : p.move exec second s = (p, s) := by rw [Proc.move, hdone]
    have hstep : step prog exec ⟨s, [p]⟩ (.move 0 second) = ⟨s, [p]⟩ := by
      simp only [step, List.getElem?_cons_zero, hmove, List.set_cons_zero]
    rw [List.map_cons, run_cons, hstep, ih]

/-- **Every program ends** once it has moved often enough. -/
theorem exists_done (s : σ) (p : Proc ι Reply α) :
    ∃ n, ∀ moves : List Bool, n ≤ moves.length →
      ∃ q a, (run prog exec ⟨s, [p]⟩ (moves.map (.move 0))).procs = [q] ∧ q.left = .done a := by
  obtain ⟨i, heard, left⟩ := p
  induction left generalizing s heard with
  | done a => exact ⟨0, fun moves _ => ⟨_, a, by rw [run_of_done prog exec rfl], rfl⟩⟩
  | call c next ih =>
    obtain ⟨n, hn⟩ := ih (exec c s).1 (exec c s).2 (heard ++ [⟨c, (exec c s).1⟩])
    refine ⟨n + 1, fun moves hlen => ?_⟩
    cases moves with
    | nil => exact absurd hlen (Nat.not_succ_le_zero n)
    | cons second moves => exact hn moves (Nat.le_of_succ_le_succ hlen)
  | either q r ihq ihr =>
    obtain ⟨n, hn⟩ := ihq s heard
    obtain ⟨m, hm⟩ := ihr s heard
    refine ⟨max n m + 1, fun moves hlen => ?_⟩
    cases moves with
    | nil => exact absurd hlen (Nat.not_succ_le_zero _)
    | cons second moves =>
      have hle := Nat.le_of_succ_le_succ hlen
      cases second with
      | false => exact hn moves ((le_max_left n m).trans hle)
      | true => exact hm moves ((le_max_right n m).trans hle)

end Pool

end Interleaving
