import Koul.Lib.Interleaving

set_option relaxedAutoImplicit false
set_option autoImplicit false

/-!
# What a program hears

A program alone, against answers from outside that may be anything: what it can have heard when
it ends, and with what. A program that throws is a program of `Except`, whose exceptions end it.

## Main definitions

* `Interleaving.Prog.Returns` — the program can hear these replies and end with this value.
* `Interleaving.Prog.Hears` — the program can have heard these replies so far.
* `Interleaving.Thrower` — programs that may throw.

## Main results

* `Interleaving.Prog.returns_bind` — what a sequence of programs hears.
* `Interleaving.Prog.Obeys.may_of_hears` — what a disciplined program sends.
* `Interleaving.Prog.obeys_bind` — the weakest discipline of a first program.
-/

namespace Interleaving

variable {Cmd : Type} {Reply : Cmd → Type} {ι ε α β : Type}

namespace Prog

lemma id_map (p : Prog Reply α) : id <$> p = p := by
  show p >>= (fun a => done a) = p
  induction p with
  | done a => rfl
  | call c next ih => exact congrArg (call c) (funext ih)
  | either p q ihp ihq => rw [either_bind, ihp, ihq]

instance : LawfulMonad (Prog Reply) :=
  LawfulMonad.mk' (Prog Reply) id_map (fun _ _ => rfl) bind_assoc

/-- The program can hear `h` and then end with `b`. -/
def Returns : Prog Reply α → Heard Reply → α → Prop
  | done a, h, b => h = [] ∧ a = b
  | call c next, h, b => ∃ r h', h = ⟨c, r⟩ :: h' ∧ Returns (next r) h' b
  | either p q, h, b => Returns p h b ∨ Returns q h b

@[simp] lemma returns_done {a b : α} {h : Heard Reply} :
    Returns (done a) h b ↔ h = [] ∧ a = b := Iff.rfl

lemma returns_call {c : Cmd} {next : Reply c → Prog Reply α} {h : Heard Reply} {b : α} :
    Returns (call c next) h b ↔ ∃ r h', h = ⟨c, r⟩ :: h' ∧ Returns (next r) h' b := Iff.rfl

lemma returns_either {p q : Prog Reply α} {h : Heard Reply} {b : α} :
    Returns (either p q) h b ↔ Returns p h b ∨ Returns q h b := Iff.rfl

/-- **Sequencing**: what is heard splits between the two programs. -/
theorem returns_bind {p : Prog Reply α} {f : α → Prog Reply β} {h : Heard Reply} {b : β} :
    Returns (p >>= f) h b ↔
      ∃ h₁ a h₂, h = h₁ ++ h₂ ∧ Returns p h₁ a ∧ Returns (f a) h₂ b := by
  induction p generalizing h with
  | done a =>
    rw [done_bind]
    constructor
    · intro hf
      exact ⟨[], a, h, rfl, ⟨rfl, rfl⟩, hf⟩
    · rintro ⟨h₁, a', h₂, rfl, ⟨rfl, rfl⟩, hf⟩
      exact hf
  | call c next ih =>
    rw [call_bind, returns_call]
    constructor
    · rintro ⟨r, h', rfl, hnext⟩
      obtain ⟨h₁, a, h₂, rfl, hp, hf⟩ := (ih r).mp hnext
      exact ⟨⟨c, r⟩ :: h₁, a, h₂, rfl, ⟨r, h₁, rfl, hp⟩, hf⟩
    · rintro ⟨h₁, a, h₂, rfl, ⟨r, h', rfl, hp⟩, hf⟩
      exact ⟨r, h' ++ h₂, rfl, (ih r).mpr ⟨h', a, h₂, rfl, hp, hf⟩⟩
  | either p q ihp ihq =>
    rw [either_bind, returns_either, ihp, ihq]
    constructor
    · rintro (⟨h₁, a, h₂, rfl, hp, hf⟩ | ⟨h₁, a, h₂, rfl, hq, hf⟩)
      · exact ⟨h₁, a, h₂, rfl, .inl hp, hf⟩
      · exact ⟨h₁, a, h₂, rfl, .inr hq, hf⟩
    · rintro ⟨h₁, a, h₂, rfl, hp | hq, hf⟩
      · exact .inl ⟨h₁, a, h₂, rfl, hp, hf⟩
      · exact .inr ⟨h₁, a, h₂, rfl, hq, hf⟩

lemma returns_call_cons {c : Cmd} {next : Reply c → Prog Reply α} {r : Reply c}
    {h : Heard Reply} {b : α} :
    Returns (call c next) (⟨c, r⟩ :: h) b ↔ Returns (next r) h b := by
  rw [returns_call]
  constructor
  · rintro ⟨r', h', heq, hnext⟩
    obtain ⟨hr, rfl⟩ := List.cons.inj heq
    obtain rfl := eq_of_heq (Sigma.mk.inj hr).2
    exact hnext
  · intro hnext
    exact ⟨r, h, rfl, hnext⟩

/-- The program can have heard `h` so far. -/
def Hears : Prog Reply α → Heard Reply → Prop
  | done _, h => h = []
  | call c next, h => h = [] ∨ ∃ r h', h = ⟨c, r⟩ :: h' ∧ Hears (next r) h'
  | either p q, h => Hears p h ∨ Hears q h

/-- What a program has heard when it ends, it can have heard. -/
lemma Returns.hears {p : Prog Reply α} {h : Heard Reply} {a : α} (hret : Returns p h a) :
    Hears p h := by
  induction p generalizing h with
  | done b => exact hret.1
  | call c next ih =>
    obtain ⟨r, h', rfl, hnext⟩ := hret
    exact .inr ⟨r, h', rfl, ih r hnext⟩
  | either p q ihp ihq => exact hret.imp ihp ihq

/-! ## Disciplines of programs that run alone -/

section Discipline

variable {d : Discipline ι Reply α} {i : ι} {h₀ h : Heard Reply}

/-- **The weakest discipline**: to keep a discipline with what comes after it, a program ends only
where what comes after it keeps the discipline. -/
theorem obeys_bind {d : Discipline ι Reply β} {p : Prog Reply α} {f : α → Prog Reply β} :
    Obeys d i h₀ (p >>= f) ↔
      Obeys ⟨d.may, fun i h a => Obeys d i h (f a), d.can⟩ i h₀ p := by
  induction p generalizing h₀ with
  | done a => exact Iff.rfl
  | call c next ih =>
    rw [call_bind, obeys_call, obeys_call]
    exact and_congr_right fun _ => forall_congr' fun r => imp_congr_right fun _ => ih r
  | either p q ihp ihq => rw [either_bind, obeys_either, obeys_either, ihp, ihq]

/-- **What a disciplined program sends**, after what it has heard. -/
theorem Obeys.may_of_hears {p : Prog Reply α} {h₁ h₂ : Heard Reply} {c : Cmd} {r : Reply c}
    (hp : Obeys d i h₀ p) (hh : Hears p (h₁ ++ ⟨c, r⟩ :: h₂))
    (hcan : ∀ m ∈ h₁, d.can m.1 m.2) : d.may i (h₀ ++ h₁) c := by
  induction p generalizing h₀ h₁ with
  | done b => simp [Hears] at hh
  | call c' next ih =>
    rcases hh with hnil | ⟨r', h', heq, hnext⟩
    · simp at hnil
    cases h₁ with
    | nil =>
      obtain ⟨hc, -⟩ := List.cons.inj heq
      rw [List.append_nil, (Sigma.mk.inj hc).1]
      exact hp.1
    | cons m h₁ =>
      obtain ⟨rfl, rfl⟩ := List.cons.inj heq
      obtain ⟨hr, hcan⟩ := List.forall_mem_cons.mp hcan
      have := ih r' (hp.2 r' hr) hnext hcan
      rw [List.append_assoc] at this
      exact this
  | either p q ihp ihq =>
    rcases hh with hh | hh
    · exact ihp hp.1 hh hcan
    · exact ihq hp.2 hh hcan

end Discipline

/-! ## The commands a program sends -/

/-- Every command the program can send satisfies `P`. -/
def Sends (P : Cmd → Prop) : Prog Reply α → Prop
  | done _ => True
  | call c next => P c ∧ ∀ r, Sends P (next r)
  | either p q => Sends P p ∧ Sends P q

lemma sends_bind {P : Cmd → Prop} {p : Prog Reply α} {f : α → Prog Reply β} (hp : Sends P p)
    (hf : ∀ a, Sends P (f a)) : Sends P (p >>= f) := by
  induction p with
  | done a => exact hf a
  | call c next ih => exact ⟨hp.1, fun r => ih r (hp.2 r)⟩
  | either p q ihp ihq => exact ⟨ihp hp.1, ihq hp.2⟩

lemma Sends.imp {P Q : Cmd → Prop} {p : Prog Reply α} (hp : Sends P p) (h : ∀ c, P c → Q c) :
    Sends Q p := by
  induction p with
  | done a => exact trivial
  | call c next ih => exact ⟨h c hp.1, fun r => ih r (hp.2 r)⟩
  | either p q ihp ihq => exact ⟨ihp hp.1, ihq hp.2⟩

/-- What a program is heard to send is what it can send. -/
lemma Sends.of_mem {P : Cmd → Prop} {p : Prog Reply α} {h : Heard Reply} {a : α} (hp : Sends P p)
    (hret : Returns p h a) : ∀ m ∈ h, P m.1 := by
  induction p generalizing h with
  | done b =>
    obtain ⟨rfl, -⟩ := hret
    simp
  | call c next ih =>
    obtain ⟨r, h', rfl, hnext⟩ := hret
    exact List.forall_mem_cons.mpr ⟨hp.1, ih r (hp.2 r) hnext⟩
  | either p q ihp ihq =>
    rcases hret with hret | hret
    · exact ihp hp.1 hret
    · exact ihq hp.2 hret

/-- A program keeps a discipline that allows what it can send, whatever it hears meanwhile. -/
lemma Sends.obeys {P : Cmd → Prop} {d : Discipline ι Reply α} {i : ι} {h₀ : Heard Reply}
    {p : Prog Reply α} (hp : Sends P p)
    (hmay : ∀ h, (∀ m ∈ h, P m.1) → ∀ c, P c → d.may i (h₀ ++ h) c)
    (hends : ∀ h, (∀ m ∈ h, P m.1) → ∀ a, d.ends i (h₀ ++ h) a) : Obeys d i h₀ p := by
  induction p generalizing h₀ with
  | done a =>
    rw [obeys_done]
    simpa using hends [] (by simp) a
  | call c next ih =>
    refine ⟨by simpa using hmay [] (by simp) c hp.1, fun r _ => ih r (hp.2 r) ?_ ?_⟩
    · intro h hh c' hc'
      have := hmay (⟨c, r⟩ :: h) (List.forall_mem_cons.mpr ⟨hp.1, hh⟩) c' hc'
      simpa using this
    · intro h hh a
      have := hends (⟨c, r⟩ :: h) (List.forall_mem_cons.mpr ⟨hp.1, hh⟩) a
      simpa using this
  | either p q ihp ihq => exact ⟨ihp hp.1 hmay hends, ihq hp.2 hmay hends⟩

end Prog

/-! ## Programs that throw -/

/-- A program that may throw an `ε`. -/
abbrev Thrower {Cmd : Type} (Reply : Cmd → Type) (ε α : Type) : Type :=
  ExceptT ε (Prog Reply) α

namespace Thrower

open Prog

variable {x : Thrower Reply ε α} {f : α → Thrower Reply ε β} {h h₀ : Heard Reply} {b : β} {e : ε}

/-- Sends one command; an error it answers is thrown. -/
def ask {Cmd : Type} {Reply : Cmd → Type} {ε α : Type} (c : Cmd)
    (read : Reply c → Except ε α) : Thrower Reply ε α :=
  ExceptT.mk (call c fun r => done (read r))

lemma run_bind : (x >>= f).run =
    x.run >>= fun r => match r with
      | .ok a => (f a).run
      | .error e => done (.error e) := by
  show x.run >>= ExceptT.bindCont f = _
  congr 1

/-- **Sequencing**: the first program throws, or both are heard. -/
lemma returns_bind_iff {r : Except ε β} : Returns (x >>= f).run h r ↔
    (∃ e, r = .error e ∧ Returns x.run h (.error e)) ∨
      ∃ h₁ a h₂, h = h₁ ++ h₂ ∧ Returns x.run h₁ (.ok a) ∧ Returns (f a).run h₂ r := by
  rw [run_bind, returns_bind]
  constructor
  · rintro ⟨h₁, r', h₂, rfl, hx, hf⟩
    cases r' with
    | ok a => exact .inr ⟨h₁, a, h₂, rfl, hx, hf⟩
    | error e =>
      obtain ⟨rfl, rfl⟩ := hf
      rw [List.append_nil]
      exact .inl ⟨e, rfl, hx⟩
  · rintro (⟨e, rfl, hx⟩ | ⟨h₁, a, h₂, rfl, hx, hf⟩)
    · exact ⟨h, .error e, [], by simp, hx, rfl, rfl⟩
    · exact ⟨h₁, .ok a, h₂, rfl, hx, hf⟩

/-- A sequence succeeds when both programs do. -/
lemma returns_bind_ok : Returns (x >>= f).run h (.ok b) ↔
    ∃ h₁ a h₂, h = h₁ ++ h₂ ∧ Returns x.run h₁ (.ok a) ∧ Returns (f a).run h₂ (.ok b) := by
  rw [returns_bind_iff]
  simp

@[simp] lemma returns_ask_iff {c : Cmd} {read : Reply c → Except ε α} {r : Except ε α} :
    Returns (ask c read).run h r ↔ ∃ a, h = [⟨c, a⟩] ∧ read a = r := by
  show Returns (call c _) h r ↔ _
  rw [returns_call]
  constructor
  · rintro ⟨a, h', rfl, rfl, rfl⟩
    exact ⟨a, rfl, rfl⟩
  · rintro ⟨a, rfl, rfl⟩
    exact ⟨a, [], rfl, rfl, rfl⟩

/-- Where each value is read from one answer, that answer is what was heard. -/
lemma returns_ask_ok {c : Cmd} {read : Reply c → Except ε α} {a : α} {r : Reply c}
    (hread : ∀ r', read r' = .ok a ↔ r' = r) :
    Returns (ask c read).run h (.ok a) ↔ h = [⟨c, r⟩] := by
  simp only [returns_ask_iff, hread]
  constructor
  · rintro ⟨_, rfl, rfl⟩
    rfl
  · rintro rfl
    exact ⟨r, rfl, rfl⟩

lemma run_tryCatch {y : Thrower Reply ε α} {g : ε → Thrower Reply ε α} :
    (tryCatch y g).run =
      y.run >>= fun r => match r with
        | .ok a => done (.ok a)
        | .error e => (g e).run := by
  show y.run >>= _ = _
  congr 1

/-- What a handler that answers every exception returns. -/
lemma returns_tryCatch {y : Thrower Reply ε α} {g : ε → Thrower Reply ε α} {r : Except ε α} :
    Returns (tryCatch y g).run h r ↔
      (∃ a, r = .ok a ∧ Returns y.run h (.ok a)) ∨
        ∃ h₁ e h₂, h = h₁ ++ h₂ ∧ Returns y.run h₁ (.error e) ∧ Returns (g e).run h₂ r := by
  rw [run_tryCatch, returns_bind]
  constructor
  · rintro ⟨h₁, r', h₂, rfl, hy, hg⟩
    cases r' with
    | ok a =>
      obtain ⟨rfl, rfl⟩ := hg
      rw [List.append_nil]
      exact .inl ⟨a, rfl, hy⟩
    | error e => exact .inr ⟨h₁, e, h₂, rfl, hy, hg⟩
  · rintro (⟨a, rfl, hy⟩ | ⟨h₁, e, h₂, rfl, hy, hg⟩)
    · exact ⟨h, .ok a, [], by simp, hy, rfl, rfl⟩
    · exact ⟨h₁, .error e, h₂, rfl, hy, hg⟩

section Sends

variable {P : Cmd → Prop}

lemma sends_bind (hx : Sends P x.run) (hf : ∀ a, Sends P (f a).run) : Sends P (x >>= f).run := by
  rw [run_bind]
  refine Prog.sends_bind hx fun r => ?_
  cases r with
  | ok a => exact hf a
  | error e => exact trivial

lemma sends_tryCatch {y : Thrower Reply ε α} {g : ε → Thrower Reply ε α} (hy : Sends P y.run)
    (hg : ∀ e, Sends P (g e).run) : Sends P (tryCatch y g).run := by
  rw [run_tryCatch]
  refine Prog.sends_bind hy fun r => ?_
  cases r with
  | ok a => exact trivial
  | error e => exact hg e

lemma sends_ask {c : Cmd} {read : Reply c → Except ε α} (hc : P c) : Sends P (ask c read).run :=
  ⟨hc, fun _ => trivial⟩

lemma sends_foldlM {g : β → α → Thrower Reply ε β} {as : List α}
    (hg : ∀ b, ∀ a ∈ as, Sends P (g b a).run) (b : β) : Sends P (as.foldlM g b).run := by
  induction as generalizing b with
  | nil => exact trivial
  | cons a as ih =>
    rw [List.foldlM_cons]
    exact sends_bind (hg b a List.mem_cons_self) fun b' =>
      ih (fun b a ha => hg b a (List.mem_cons_of_mem _ ha)) b'

lemma sends_mapM {g : α → Thrower Reply ε β} {as : List α} (hg : ∀ a ∈ as, Sends P (g a).run) :
    Sends P (as.mapM g).run := by
  induction as with
  | nil => exact trivial
  | cons a as ih =>
    rw [List.mapM_cons]
    exact sends_bind (hg a List.mem_cons_self) fun b =>
      sends_bind (ih fun a ha => hg a (List.mem_cons_of_mem _ ha)) fun bs => trivial

end Sends

section Raises

variable {P : ε → Prop}

end Raises

section Obeys

variable {d : Discipline ι Reply (Except ε β)} {i : ι}

/-- One command, then what comes after it: its errors end the sequence. -/
lemma obeys_ask_bind {c : Cmd} {read : Reply c → Except ε α}
    (hends : ∀ h e, d.ends i h (.error e)) (hmay : d.may i h₀ c)
    (hnext : ∀ r a, read r = .ok a → Obeys d i (h₀ ++ [⟨c, r⟩]) (f a).run) :
    Obeys d i h₀ (ask c read >>= f).run := by
  rw [run_bind, Prog.obeys_bind]
  refine ⟨hmay, fun r _ => ?_⟩
  dsimp only
  rw [obeys_done]
  cases hr : read r with
  | ok a => exact hnext r a hr
  | error e => exact hends _ e

/-- A part that sends only what is allowed, then what comes after it. -/
lemma obeys_sends_bind {P : Cmd → Prop} (hx : Sends P x.run)
    (hends : ∀ h e, d.ends i h (.error e))
    (hmay : ∀ h, (∀ m ∈ h, P m.1) → ∀ c, P c → d.may i (h₀ ++ h) c)
    (hnext : ∀ h, (∀ m ∈ h, P m.1) → ∀ a, Obeys d i (h₀ ++ h) (f a).run) :
    Obeys d i h₀ (x >>= f).run := by
  rw [run_bind, Prog.obeys_bind]
  refine hx.obeys hmay fun h hh r => ?_
  cases r with
  | ok a => exact hnext h hh a
  | error e => exact hends _ e

end Obeys

end Thrower

end Interleaving
