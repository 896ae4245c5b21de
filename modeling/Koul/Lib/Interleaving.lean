import Mathlib.Data.List.Permutation
import Mathlib.Data.List.Basic

set_option relaxedAutoImplicit false
set_option autoImplicit false

/-!
# Programs that share a store

Any number of programs run on one store that executes each command at once. Between two commands
of a program any others may run, so a pool of such programs has many runs: this file says what
holds in all of them, from a discipline that every program keeps by itself.

## Main definitions

* `Interleaving.Prog` — a program of commands, with the order of some left open.
* `Interleaving.Prog.together` — commands that are sent together and run in any order.
* `Interleaving.Pool` — the store and the programs on it, each with what it has heard.
* `Interleaving.Prog.Obeys` — a program sends no command, and ends in no way, that a discipline
  rules out after what it has heard.

## Main results

* `Interleaving.Pool.run_invariant_of_starts`, `Interleaving.Pool.run_invariant` — what every permitted
  command of a disciplined program preserves holds after every run of the pool.
-/

namespace Interleaving

variable {Cmd : Type} {Reply : Cmd → Type} {σ ι α β : Type}

/-! ## Programs -/

/-- A program of commands: it is done, sends a command and goes on with the reply, or goes on as
either of two programs. -/
inductive Prog {Cmd : Type} (Reply : Cmd → Type) (α : Type) : Type
  | done (a : α)
  | call (c : Cmd) (next : Reply c → Prog Reply α)
  | either (p q : Prog Reply α)

/-- The commands a program has sent so far, each with its reply. -/
abbrev Heard {Cmd : Type} (Reply : Cmd → Type) : Type := List ((c : Cmd) × Reply c)

namespace Prog

def bind : Prog Reply α → (α → Prog Reply β) → Prog Reply β
  | done a, f => f a
  | call c next, f => call c fun r => (next r).bind f
  | either p q, f => either (p.bind f) (q.bind f)

instance : Monad (Prog Reply) where
  pure := done
  bind := bind

@[simp] lemma pure_eq (a : α) : (pure a : Prog Reply α) = done a := rfl

@[simp] lemma done_bind (a : α) (f : α → Prog Reply β) : (done a : Prog Reply α) >>= f = f a := rfl

@[simp] lemma call_bind (c : Cmd) (next : Reply c → Prog Reply α) (f : α → Prog Reply β) :
    call c next >>= f = call c fun r => next r >>= f := rfl

@[simp] lemma either_bind (p q : Prog Reply α) (f : α → Prog Reply β) :
    either p q >>= f = either (p >>= f) (q >>= f) := rfl

lemma bind_assoc {γ : Type} (p : Prog Reply α) (f : α → Prog Reply β) (g : β → Prog Reply γ) :
    p >>= f >>= g = p >>= fun a => f a >>= g := by
  induction p with
  | done a => rfl
  | call c next ih =>
    rw [call_bind, call_bind, call_bind]
    exact congrArg _ (funext ih)
  | either p q ihp ihq =>
    rw [either_bind, either_bind, either_bind, ihp, ihq]

/-- Sends one command and returns its reply. -/
def ask (c : Cmd) : Prog Reply (Reply c) := call c done

@[simp] lemma ask_bind (c : Cmd) (f : Reply c → Prog Reply α) : ask c >>= f = call c f := rfl

/-- Sends the commands one after the other. -/
def inOrder : List Cmd → Prog Reply (Heard Reply)
  | [] => pure []
  | c :: cs => do
    let r ← ask c
    let rs ← inOrder cs
    return ⟨c, r⟩ :: rs

/-- Goes on as `p` or as any of `ps`. -/
def anyOf (p : Prog Reply α) (ps : List (Prog Reply α)) : Prog Reply α := ps.foldl either p

/-- Sends the commands together: the store may run them in any order. -/
def together (cs : List Cmd) : Prog Reply (Heard Reply) :=
  anyOf (inOrder cs) (cs.permutations'.map inOrder)

def isDone : Prog Reply α → Bool
  | done _ => true
  | _ => false

lemma eq_done_of_isDone {p : Prog Reply α} (h : p.isDone = true) : ∃ a, p = done a := by
  cases p with
  | done a => exact ⟨a, rfl⟩
  | call c next => cases h
  | either p q => cases h

end Prog

/-! ## Pools -/

/-- A program that is running: what it was started with, what it has heard and what is left of
it. -/
structure Proc (ι : Type) {Cmd : Type} (Reply : Cmd → Type) (α : Type) where
  arg : ι
  heard : Heard Reply
  left : Prog Reply α

structure Pool (σ ι : Type) {Cmd : Type} (Reply : Cmd → Type) (α : Type) where
  store : σ
  procs : List (Proc ι Reply α)

/-- One step of a pool: a new program starts, or the `n`-th one moves, to the second of two
programs if `second`. -/
inductive Act (ι : Type)
  | start (i : ι)
  | move (n : ℕ) (second : Bool)

/-- A program and the store after the program's next move. -/
def Proc.move (exec : (c : Cmd) → σ → Reply c × σ) (second : Bool) (s : σ) (p : Proc ι Reply α) :
    Proc ι Reply α × σ :=
  match p.left with
  | .done _ => (p, s)
  | .call c next =>
    let answer := exec c s
    (⟨p.arg, p.heard ++ [⟨c, answer.1⟩], next answer.1⟩, answer.2)
  | .either q r => (⟨p.arg, p.heard, if second then r else q⟩, s)

namespace Pool

variable (prog : ι → Prog Reply α) (exec : (c : Cmd) → σ → Reply c × σ)

def step (w : Pool σ ι Reply α) : Act ι → Pool σ ι Reply α
  | .start i => ⟨w.store, w.procs ++ [⟨i, [], prog i⟩]⟩
  | .move n second =>
    match w.procs[n]? with
    | none => w
    | some p => ⟨(p.move exec second w.store).2, w.procs.set n (p.move exec second w.store).1⟩

/-- The pool after a run: any interleaving of the moves of its programs. -/
def run (w : Pool σ ι Reply α) (acts : List (Act ι)) : Pool σ ι Reply α :=
  acts.foldl (step prog exec) w

@[simp] lemma run_nil (w : Pool σ ι Reply α) : run prog exec w [] = w := rfl

@[simp] lemma run_cons (w : Pool σ ι Reply α) (a : Act ι) (acts : List (Act ι)) :
    run prog exec w (a :: acts) = run prog exec (step prog exec w a) acts := rfl

/-- Every step of the run satisfies `P`. -/
def Along (P : Pool σ ι Reply α → Act ι → Prop) : Pool σ ι Reply α → List (Act ι) → Prop
  | _, [] => True
  | w, a :: acts => P w a ∧ Along P (step prog exec w a) acts

end Pool

/-! ## Disciplines -/

/-- What a program may do by what it was started with and what it has heard: the commands it may
send and the ways it may end, given the replies that it can get. -/
structure Discipline (ι : Type) {Cmd : Type} (Reply : Cmd → Type) (α : Type) where
  may : ι → Heard Reply → Cmd → Prop
  ends : ι → Heard Reply → α → Prop
  can : (c : Cmd) → Reply c → Prop

/-- The discipline of a program whose result is wrapped. -/
def Discipline.comap (d : Discipline ι Reply β) (g : α → β) : Discipline ι Reply α :=
  ⟨d.may, fun i h a => d.ends i h (g a), d.can⟩

variable {d : Discipline ι Reply α}

/-- A program keeps a discipline, whatever replies it gets. -/
def Prog.Obeys (d : Discipline ι Reply α) (i : ι) : Heard Reply → Prog Reply α → Prop
  | h, .done a => d.ends i h a
  | h, .call c next => d.may i h c ∧ ∀ r, d.can c r → Obeys d i (h ++ [⟨c, r⟩]) (next r)
  | h, .either p q => Obeys d i h p ∧ Obeys d i h q

namespace Prog

variable {i : ι} {h : Heard Reply}

lemma obeys_done {a : α} : Obeys d i h (done a) ↔ d.ends i h a := Iff.rfl

lemma obeys_call {c : Cmd} {next : Reply c → Prog Reply α} : Obeys d i h (call c next) ↔
    d.may i h c ∧ ∀ r, d.can c r → Obeys d i (h ++ [⟨c, r⟩]) (next r) := Iff.rfl

lemma obeys_either {p q : Prog Reply α} :
    Obeys d i h (either p q) ↔ Obeys d i h p ∧ Obeys d i h q := Iff.rfl

/-- Wrapping the result leaves the commands. -/
lemma obeys_wrap {d : Discipline ι Reply β} {g : α → β} {p : Prog Reply α} :
    Obeys d i h (p >>= fun a => pure (g a)) ↔ Obeys (d.comap g) i h p := by
  induction p generalizing h with
  | done a => exact Iff.rfl
  | call c next ih =>
    rw [call_bind, obeys_call, obeys_call]
    exact and_congr_right fun _ => forall_congr' fun r => imp_congr_right fun _ => ih r
  | either p q ihp ihq =>
    rw [either_bind, obeys_either, obeys_either, ihp, ihq]

/-- Commands that may be sent whatever else is heard can be sent one after the other. -/
lemma obeys_inOrder {cs : List Cmd} {f : Heard Reply → Prog Reply α}
    (hmay : ∀ h', ∀ c ∈ cs, d.may i (h ++ h') c) (hf : ∀ h' rs, Obeys d i (h ++ h') (f rs)) :
    Obeys d i h (inOrder cs >>= f) := by
  induction cs generalizing h f with
  | nil =>
    have hdone := hf [] []
    rw [List.append_nil] at hdone
    exact hdone
  | cons c cs ih =>
    have hc := hmay [] c List.mem_cons_self
    rw [List.append_nil] at hc
    refine ⟨hc, fun r _ => ?_⟩
    show Obeys d i (h ++ [⟨c, r⟩]) (inOrder cs >>= (fun rs => pure (⟨c, r⟩ :: rs)) >>= f)
    rw [bind_assoc]
    apply ih
    · intro h' c' hc'
      rw [List.append_assoc]
      exact hmay _ c' (List.mem_cons_of_mem c hc')
    · intro h' rs
      rw [List.append_assoc]
      exact hf _ _

/-- A choice obeys when all of its options do. -/
lemma obeys_anyOf {p : Prog Reply β} {ps : List (Prog Reply β)} {f : β → Prog Reply α}
    (hp : Obeys d i h (p >>= f)) (hps : ∀ q ∈ ps, Obeys d i h (q >>= f)) :
    Obeys d i h (anyOf p ps >>= f) := by
  induction ps generalizing p with
  | nil => exact hp
  | cons q ps ih =>
    obtain ⟨hq, hps⟩ := List.forall_mem_cons.mp hps
    exact ih ⟨hp, hq⟩ hps

/-- **Commands sent together**: when each may be sent whatever else is heard, they may run in any
order. -/
theorem obeys_together {cs : List Cmd} {f : Heard Reply → Prog Reply α}
    (hmay : ∀ h', ∀ c ∈ cs, d.may i (h ++ h') c) (hf : ∀ h' rs, Obeys d i (h ++ h') (f rs)) :
    Obeys d i h (together cs >>= f) := by
  apply obeys_anyOf (obeys_inOrder hmay hf)
  intro q hq
  obtain ⟨cs', hcs', rfl⟩ := List.mem_map.mp hq
  have hperm : cs'.Perm cs := List.mem_permutations'.mp hcs'
  exact obeys_inOrder (fun h' c hc => hmay h' c (hperm.mem_iff.mp hc)) hf

end Prog

namespace Pool

variable (prog : ι → Prog Reply α) (exec : (c : Cmd) → σ → Reply c × σ)

/-- Whether every step of a run satisfies `P` can be computed. -/
instance decidableAlong {P : Pool σ ι Reply α → Act ι → Prop} [∀ w a, Decidable (P w a)]
    (w : Pool σ ι Reply α) (acts : List (Act ι)) : Decidable (Along prog exec P w acts) :=
  match acts with
  | [] => isTrue trivial
  | a :: acts =>
    have : Decidable (Along prog exec P (step prog exec w a) acts) := decidableAlong _ acts
    inferInstanceAs (Decidable (_ ∧ _))

lemma along_of_forall {P : Pool σ ι Reply α → Act ι → Prop} (h : ∀ w a, P w a)
    (w : Pool σ ι Reply α) (acts : List (Act ι)) : Along prog exec P w acts := by
  induction acts generalizing w with
  | nil => exact trivial
  | cons a acts ih => exact ⟨h w a, ih _⟩

lemma run_append (w : Pool σ ι Reply α) (acts acts' : List (Act ι)) :
    run prog exec w (acts ++ acts') = run prog exec (run prog exec w acts) acts' := List.foldl_append ..

/-- One run after another. -/
lemma along_append {P : Pool σ ι Reply α → Act ι → Prop} {w : Pool σ ι Reply α}
    {acts acts' : List (Act ι)} : Along prog exec P w (acts ++ acts') ↔
      Along prog exec P w acts ∧ Along prog exec P (run prog exec w acts) acts' := by
  induction acts generalizing w with
  | nil => exact (and_iff_right trivial).symm
  | cons a acts ih =>
    rw [List.cons_append, Along, Along, ih, run_cons, and_assoc]

/-- Every program of the pool keeps the discipline from where it is. -/
def Disciplined (d : Discipline ι Reply α) (w : Pool σ ι Reply α) : Prop :=
  ∀ (n : ℕ) (p : Proc ι Reply α), w.procs[n]? = some p → p.left.Obeys d p.arg p.heard

/-- The pool with its `n`-th program replaced. -/
def replace (w : Pool σ ι Reply α) (n : ℕ) (p : Proc ι Reply α) (s : σ) : Pool σ ι Reply α :=
  ⟨s, w.procs.set n p⟩

/-- The programs after a replacement: the new one and the others. -/
lemma getElem?_replace {w : Pool σ ι Reply α} {n m : ℕ} {p q : Proc ι Reply α} {s : σ}
    (h : (w.replace n p s).procs[m]? = some q) : m = n ∧ q = p ∨ m ≠ n ∧ w.procs[m]? = some q := by
  rw [replace, List.getElem?_set] at h
  split at h
  · next hmn =>
    split at h
    · exact .inl ⟨hmn.symm, (Option.some.inj h).symm⟩
    · cases h
  · next hmn => exact .inr ⟨fun heq => hmn heq.symm, h⟩

lemma Disciplined.replace {w : Pool σ ι Reply α} {n : ℕ} {p : Proc ι Reply α} {s : σ}
    (h : Disciplined d w) (hp : p.left.Obeys d p.arg p.heard) :
    Disciplined d (w.replace n p s) := by
  intro m q hq
  rcases getElem?_replace hq with ⟨-, rfl⟩ | ⟨-, hold⟩
  · exact hp
  · exact h m q hold

/-- A move of the `n`-th program replaces it. -/
lemma step_move {w : Pool σ ι Reply α} {n : ℕ} {p : Proc ι Reply α} (second : Bool)
    (hp : w.procs[n]? = some p) : w.step prog exec (.move n second) =
      w.replace n (p.move exec second w.store).1 (p.move exec second w.store).2 := by
  simp only [step, hp, replace]

/-- A program that is done, or is not there, does not move. -/
lemma step_move_of_none {w : Pool σ ι Reply α} {n : ℕ} (second : Bool)
    (hp : w.procs[n]? = none) : w.step prog exec (.move n second) = w := by
  simp only [step, hp]

lemma replace_self {w : Pool σ ι Reply α} {n : ℕ} {p : Proc ι Reply α}
    (hp : w.procs[n]? = some p) : w.replace n p w.store = w := by
  obtain ⟨hlt, rfl⟩ := List.getElem?_eq_some_iff.mp hp
  rw [replace, List.set_getElem_self]

/-- The programs after a start: the ones before and the new one. -/
lemma getElem?_start {w : Pool σ ι Reply α} {i : ι} {n : ℕ} {p : Proc ι Reply α}
    (h : (w.step prog exec (.start i)).procs[n]? = some p) :
    w.procs[n]? = some p ∨ p = ⟨i, [], prog i⟩ := by
  rw [step, List.getElem?_append] at h
  split at h
  · exact .inl h
  · rw [List.getElem?_singleton] at h
    split at h
    · exact .inr (Option.some.inj h).symm
    · cases h

/-- Some program of the pool has heard `m`. -/
def Knows (w : Pool σ ι Reply α) (m : (c : Cmd) × Reply c) : Prop := ∃ p ∈ w.procs, m ∈ p.heard

lemma Knows.of_getElem? {w : Pool σ ι Reply α} {n : ℕ} {p : Proc ι Reply α}
    {m : (c : Cmd) × Reply c} (hp : w.procs[n]? = some p) (hm : m ∈ p.heard) : w.Knows m :=
  ⟨p, List.mem_of_getElem? hp, hm⟩

lemma Knows.start {w : Pool σ ι Reply α} {m : (c : Cmd) × Reply c} (hm : w.Knows m) (i : ι) :
    (w.step prog exec (.start i)).Knows m := by
  obtain ⟨p, hp, hmem⟩ := hm
  exact ⟨p, List.mem_append_left _ hp, hmem⟩

omit prog exec in
/-- What was heard stays heard when a program goes on. -/
lemma Knows.replace {w : Pool σ ι Reply α} {m : (c : Cmd) × Reply c} {n : ℕ} {p p' : Proc ι Reply α}
    {s : σ} (hm : w.Knows m) (hp : w.procs[n]? = some p) (hheard : p.heard ⊆ p'.heard) :
    (w.replace n p' s).Knows m := by
  obtain ⟨q, hq, hmem⟩ := hm
  obtain ⟨k, hk⟩ := List.mem_iff_getElem?.mp hq
  by_cases hkn : k = n
  · subst hkn
    obtain rfl : q = p := Option.some.inj (hk.symm.trans hp)
    exact ⟨p', List.mem_set (List.getElem?_eq_some_iff.mp hp).1 p', hheard hmem⟩
  · refine ⟨q, List.mem_of_getElem? (i := k) ?_, hmem⟩
    rw [Pool.replace, List.getElem?_set_ne (Ne.symm hkn)]
    exact hk

omit prog exec in
/-- What is known after a program has heard `m` was known before, or is `m`. -/
lemma knows_replace {w : Pool σ ι Reply α} {m m' : (c : Cmd) × Reply c} {n : ℕ}
    {p : Proc ι Reply α} {left : Prog Reply α} {s : σ} (hp : w.procs[n]? = some p)
    (h : (w.replace n ⟨p.arg, p.heard ++ [m], left⟩ s).Knows m') : w.Knows m' ∨ m' = m := by
  obtain ⟨q, hq, hmem⟩ := h
  rcases List.mem_or_eq_of_mem_set hq with hq | rfl
  · exact .inl ⟨q, hq, hmem⟩
  · rcases List.mem_append.mp hmem with hmem | hmem
    · exact .inl (.of_getElem? hp hmem)
    · exact .inr (List.mem_singleton.mp hmem)

lemma disciplined_start (hprog : ∀ i, (prog i).Obeys d i []) {w : Pool σ ι Reply α}
    (h : Disciplined d w) (i : ι) : Disciplined d (w.step prog exec (.start i)) := by
  intro n p hp
  rcases getElem?_start prog exec hp with hold | rfl
  · exact h n p hold
  · exact hprog i

/-- **The invariant rule for pools**, where what starts matters too: the step that starts a program
satisfies `P`, and the programs before it have kept the discipline. -/
theorem run_invariant_of_starts (hprog : ∀ i, (prog i).Obeys d i []) {I : Pool σ ι Reply α → Prop}
    {P : Pool σ ι Reply α → Act ι → Prop}
    (hstart : ∀ w i, I w → Disciplined d w → P w (.start i) → I (w.step prog exec (.start i)))
    (hchoose : ∀ w n p left, I w → w.procs[n]? = some p → p.left.isDone = false →
      I (w.replace n ⟨p.arg, p.heard, left⟩ w.store))
    (hcall : ∀ w n second p c next, I w → w.procs[n]? = some p → p.left = .call c next →
      P w (.move n second) → d.may p.arg p.heard c → d.can c (exec c w.store).1 ∧
        I (w.replace n ⟨p.arg, p.heard ++ [⟨c, (exec c w.store).1⟩], next (exec c w.store).1⟩
          (exec c w.store).2))
    {w : Pool σ ι Reply α} (hI : I w) (hw : Disciplined d w) {acts : List (Act ι)}
    (hacts : Along prog exec P w acts) :
    I (w.run prog exec acts) ∧ Disciplined d (w.run prog exec acts) := by
  induction acts generalizing w with
  | nil => exact ⟨hI, hw⟩
  | cons a acts ih =>
    obtain ⟨ha, hacts⟩ := hacts
    suffices hstep : I (w.step prog exec a) ∧ Disciplined d (w.step prog exec a) from
      ih hstep.1 hstep.2 hacts
    cases a with
    | start i => exact ⟨hstart w i hI hw ha, disciplined_start prog exec hprog hw i⟩
    | move n second =>
      cases hp : w.procs[n]? with
      | none =>
        rw [step_move_of_none prog exec second hp]
        exact ⟨hI, hw⟩
      | some p =>
        have hobeys := hw n p hp
        rw [step_move prog exec second hp, Proc.move]
        cases hleft : p.left with
        | done a =>
          simp only
          rw [replace_self hp]
          exact ⟨hI, hw⟩
        | call c next =>
          rw [hleft, Prog.obeys_call] at hobeys
          obtain ⟨hcan, hnext⟩ := hcall w n second p c next hI hp hleft ha hobeys.1
          exact ⟨hnext, hw.replace (hobeys.2 _ hcan)⟩
        | either q r =>
          rw [hleft, Prog.obeys_either] at hobeys
          refine ⟨hchoose w n p _ hI hp (by rw [hleft]; rfl), hw.replace ?_⟩
          cases second with
          | false => exact hobeys.1
          | true => exact hobeys.2

/-- **The invariant rule for pools**: every program keeps the discipline and, in a run whose steps
all satisfy `P`, what a new program, a choice and a permitted command preserve holds at the end,
provided that the invariant leaves only replies that the discipline counts on. -/
theorem run_invariant (hprog : ∀ i, (prog i).Obeys d i []) {I : Pool σ ι Reply α → Prop}
    {P : Pool σ ι Reply α → Act ι → Prop}
    (hstart : ∀ w i, I w → I (w.step prog exec (.start i)))
    (hchoose : ∀ w n p left, I w → w.procs[n]? = some p → p.left.isDone = false →
      I (w.replace n ⟨p.arg, p.heard, left⟩ w.store))
    (hcall : ∀ w n second p c next, I w → w.procs[n]? = some p → p.left = .call c next →
      P w (.move n second) → d.may p.arg p.heard c → d.can c (exec c w.store).1 ∧
        I (w.replace n ⟨p.arg, p.heard ++ [⟨c, (exec c w.store).1⟩], next (exec c w.store).1⟩
          (exec c w.store).2))
    {w : Pool σ ι Reply α} (hI : I w) (hw : Disciplined d w) {acts : List (Act ι)}
    (hacts : Along prog exec P w acts) :
    I (w.run prog exec acts) ∧ Disciplined d (w.run prog exec acts) := by
  exact run_invariant_of_starts prog exec hprog (fun w i hI _ _ => hstart w i hI) hchoose hcall hI hw hacts

end Pool

end Interleaving
