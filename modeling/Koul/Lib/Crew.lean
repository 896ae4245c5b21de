import Koul.Lib.Heard

set_option relaxedAutoImplicit false
set_option autoImplicit false

/-!
# Crews

Programs that a program starts together and waits for. The commands of a crew are those of its
programs, in any order that keeps the order of each; so a crew is again one program, and keeps a
discipline when each of its programs does and none of them spoils what another relies on.

## Main definitions

* `Interleaving.Prog.par`, `Interleaving.Prog.all` — two programs, or a list of them, side by side.
* `Interleaving.Undisturbed` — what may be done stays so when certain commands run meanwhile.
* `Interleaving.Replays` — what a program heard is what a store answers.

## Main results

* `Interleaving.Prog.obeys_par`, `Interleaving.Prog.obeys_all` — the crew keeps the discipline of its
  programs.
* `Interleaving.Prog.obeys_all_heard` — each program of a crew ends as what was heard has it.
* `Interleaving.Prog.Obeys.invariant` — what the permitted commands preserve holds as long as a
  program runs.
-/

namespace Interleaving

variable {Cmd : Type} {Reply : Cmd → Type} {σ ι κ α β : Type}

namespace Prog

/-! ## Side by side -/

/-- `c` runs first on the left, where `left` goes on with its reply, or a command on the right does. -/
def parCall (c : Cmd) (left : Reply c → Prog Reply β → Prog Reply (α × β)) :
    Prog Reply β → Prog Reply (α × β)
  | done b => call c fun r => left r (done b)
  | call c' next => either (call c fun r => left r (call c' next))
      (call c' fun r => parCall c left (next r))
  | either q q' => either (parCall c left q) (parCall c left q')

/-- Two programs side by side: their commands in any order that keeps the order of each. -/
def par : Prog Reply α → Prog Reply β → Prog Reply (α × β)
  | done a, q => q >>= fun b => done (a, b)
  | call c next, q => parCall c (fun r q => par (next r) q) q
  | either p p', q => either (par p q) (par p' q)

/-- A crew: the programs side by side, until all of them are done. -/
def all : List (Prog Reply α) → Prog Reply (List α)
  | [] => done []
  | p :: ps => par p (all ps) >>= fun as => done (as.1 :: as.2)

end Prog

/-! ## Disturbance -/

/-- What was heard with one more message between. -/
inductive Inserted (m : (c : Cmd) × Reply c) : Heard Reply → Heard Reply → Prop
  | here (h : Heard Reply) : Inserted m h (m :: h)
  | later (m' : (c : Cmd) × Reply c) {h h' : Heard Reply} (hins : Inserted m h h') :
      Inserted m (m' :: h) (m' :: h')

lemma Inserted.append {m : (c : Cmd) × Reply c} {h h' : Heard Reply} (hins : Inserted m h h')
    (k : Heard Reply) : Inserted m (h ++ k) (h' ++ k) := by
  induction hins with
  | here h => exact .here (h ++ k)
  | later m' _ ih => exact .later m' ih

lemma inserted_concat (m : (c : Cmd) × Reply c) (h : Heard Reply) : Inserted m h (h ++ [m]) := by
  induction h with
  | nil => exact .here []
  | cons m' h ih => exact .later m' ih

/-- `P` of what was heard stays true when commands of `R` are heard meanwhile. -/
def Undisturbed (R : Cmd → Prop) (P : Heard Reply → Prop) : Prop :=
  ∀ m h h', R m.1 → Inserted m h h' → P h → P h'

lemma Undisturbed.concat {R : Cmd → Prop} {P : Heard Reply → Prop} (hP : Undisturbed R P)
    {h : Heard Reply} (hh : P h) {c : Cmd} (hc : R c) (r : Reply c) : P (h ++ [⟨c, r⟩]) :=
  hP ⟨c, r⟩ h _ hc (inserted_concat _ h) hh

/-- The commands of `G` that a discipline permits, it permits whatever commands of `R` are heard
meanwhile. -/
def Discipline.Undisturbed (d : Discipline ι Reply α) (i : ι) (G R : Cmd → Prop) : Prop :=
  ∀ c, G c → Interleaving.Undisturbed R (d.may i · c)

/-- The discipline of a part, which ends as `E` has it. -/
def Discipline.ending (d : Discipline ι Reply α) (E : Heard Reply → β → Prop) :
    Discipline ι Reply β :=
  ⟨d.may, fun _ => E, d.can⟩

/-- The discipline of a part that sends only commands of `G`. -/
def Discipline.only (d : Discipline ι Reply α) (G : Cmd → Prop) : Discipline ι Reply α :=
  ⟨fun i h c => d.may i h c ∧ G c, d.ends, d.can⟩

namespace Prog

variable {γ : Type} {d : Discipline ι Reply γ} {i : ι} {h h' : Heard Reply} {G R : Cmd → Prop}
  {p : Prog Reply α} {q : Prog Reply β} {E : Heard Reply → α → Prop} {F : Heard Reply → β → Prop}

lemma Obeys.mono {E' : Heard Reply → α → Prop} (hp : Obeys (d.ending E) i h p)
    (hE : ∀ h a, E h a → E' h a) : Obeys (d.ending E') i h p := by
  induction p generalizing h with
  | done a => exact hE h a hp
  | call c next ih => exact ⟨hp.1, fun r hr => ih r (hp.2 r hr)⟩
  | either p q ihp ihq => exact ⟨ihp hp.1, ihq hp.2⟩

lemma Obeys.only_mono {P : Cmd → Prop} (hp : Obeys ((d.only G).ending E) i h p)
    (hG : ∀ c, G c → P c) : Obeys ((d.only P).ending E) i h p := by
  induction p generalizing h with
  | done a => exact hp
  | call c next ih => exact ⟨hp.1.imp_right (hG c), fun r hr => ih r (hp.2 r hr)⟩
  | either p q ihp ihq => exact ⟨ihp hp.1, ihq hp.2⟩

lemma Obeys.of_only (hp : Obeys ((d.only G).ending E) i h p) : Obeys (d.ending E) i h p := by
  induction p generalizing h with
  | done a => exact hp
  | call c next ih => exact ⟨hp.1.1, fun r hr => ih r (hp.2 r hr)⟩
  | either p q ihp ihq => exact ⟨ihp hp.1, ihq hp.2⟩

/-- **Sequencing**: what comes next keeps the discipline wherever the first part may end. -/
lemma Obeys.bind {f : α → Prog Reply β} (hp : Obeys (d.ending E) i h p)
    (hf : ∀ h a, E h a → Obeys (d.ending F) i h (f a)) : Obeys (d.ending F) i h (p >>= f) := by
  induction p generalizing h with
  | done a => exact hf h a hp
  | call c next ih => exact ⟨hp.1, fun r hr => ih r (hp.2 r hr)⟩
  | either p q ihp ihq => exact ⟨ihp hp.1, ihq hp.2⟩

lemma Obeys.inserted (hp : Obeys ((d.only G).ending E) i h p) (hd : d.Undisturbed i G R)
    (hE : ∀ a, Undisturbed R (E · a)) {m : (c : Cmd) × Reply c} (hm : R m.1)
    (hins : Inserted m h h') : Obeys ((d.only G).ending E) i h' p := by
  induction p generalizing h h' with
  | done a => exact hE a m h h' hm hins hp
  | call c next ih =>
    obtain ⟨⟨hmay, hG⟩, hnext⟩ := hp
    exact ⟨⟨hd c hG m h h' hm hins hmay, hG⟩, fun r hr => ih r (hnext r hr) (hins.append _)⟩
  | either p q ihp ihq => exact ⟨ihp hp.1 hins, ihq hp.2 hins⟩

/-- What a part leaves undisturbed still holds when it ends. -/
lemma Obeys.and_keeps {P : Heard Reply → Prop} (hp : Obeys ((d.only G).ending E) i h p)
    (hP : Undisturbed G P) (hh : P h) :
    Obeys ((d.only G).ending fun h a => E h a ∧ P h) i h p := by
  induction p generalizing h with
  | done a => exact ⟨hp, hh⟩
  | call c next ih =>
    refine ⟨hp.1, fun r hr => ih r (hp.2 r hr) ?_⟩
    exact hP ⟨c, r⟩ h _ hp.1.2 (inserted_concat _ h) hh
  | either p q ihp ihq => exact ⟨ihp hp.1 hh, ihq hp.2 hh⟩

/-- **Sequencing**, with something that the first part leaves undisturbed. -/
lemma Obeys.bind_keeping {f : α → Prog Reply β} {P : Heard Reply → Prop}
    (hp : Obeys ((d.only G).ending E) i h p) (hP : Undisturbed G P) (hh : P h)
    (hf : ∀ h a, E h a → P h → Obeys ((d.only G).ending F) i h (f a)) :
    Obeys ((d.only G).ending F) i h (p >>= f) :=
  (hp.and_keeps hP hh).bind fun h a ha => hf h a ha.1 ha.2

/-- A part that sends only what is always permitted. -/
lemma Sends.obeys_only {P : Cmd → Prop} (hp : Sends P p)
    (hP : ∀ h c, P c → d.may i h c ∧ G c) : Obeys ((d.only G).ending fun _ _ => True) i h p := by
  induction p generalizing h with
  | done a => exact trivial
  | call c next ih => exact ⟨hP h c hp.1, fun r _ => ih r (hp.2 r)⟩
  | either p q ihp ihq => exact ⟨ihp hp.1, ihq hp.2⟩

/-- **Side by side**: two programs that keep a discipline keep it together, when neither disturbs what
the other is permitted and how it ends. -/
theorem obeys_par (hp : Obeys ((d.only G).ending E) i h p) (hq : Obeys ((d.only R).ending F) i h q)
    (hGR : d.Undisturbed i G R) (hRG : d.Undisturbed i R G)
    (hE : ∀ a, Undisturbed R (E · a)) (hF : ∀ b, Undisturbed G (F · b)) :
    Obeys ((d.only fun c => G c ∨ R c).ending fun h ab => E h ab.1 ∧ F h ab.2) i h (par p q) := by
  induction p generalizing h q with
  | done a =>
    have hlast := (hq.and_keeps (hE a) hp).only_mono fun c hc => Or.inr (a := G c) hc
    exact hlast.bind fun h b hb => ⟨hb.2, hb.1⟩
  | call c next ih =>
    show Obeys _ i h (parCall c (fun r q => par (next r) q) q)
    have hc := hp.1.imp_right (Or.inl (b := R c))
    induction q generalizing h with
    | done b =>
      refine ⟨hc, fun r hr => ih r (hp.2 r hr) ?_⟩
      exact hF b ⟨c, r⟩ h _ hp.1.2 (inserted_concat _ h) hq
    | call c' next' ihq =>
      refine ⟨⟨hc, fun r hr => ih r (hp.2 r hr) ?_⟩, hq.1.imp_right Or.inr, fun r hr => ?_⟩
      · exact hq.inserted hRG hF hp.1.2 (inserted_concat _ h)
      · have hp' := hp.inserted hGR hE hq.1.2 (inserted_concat ⟨c', r⟩ h)
        exact ihq r hp' (hq.2 r hr) (hp'.1.imp_right Or.inl)
    | either q q' ihq ihq' => exact ⟨ihq hp hq.1 hc, ihq' hp hq.2 hc⟩
  | either p p' ihp ihp' => exact ⟨ihp hp.1 hq, ihp' hp.2 hq⟩

/-- **A crew**: it keeps the discipline that each of its programs keeps, when none of them disturbs
what another is permitted and how it ends. -/
theorem obeys_all {prog : κ → Prog Reply α} {G : κ → Cmd → Prop} {E : κ → Heard Reply → Prop}
    {ks : List κ} (hnodup : ks.Nodup)
    (hprog : ∀ k ∈ ks, Obeys ((d.only (G k)).ending fun h _ => E k h) i h (prog k))
    (hd : ∀ k ∈ ks, ∀ k' ∈ ks, k ≠ k' → d.Undisturbed i (G k) (G k'))
    (hE : ∀ k ∈ ks, ∀ k' ∈ ks, k ≠ k' → Undisturbed (G k') (E k)) :
    Obeys ((d.only fun c => ∃ k ∈ ks, G k c).ending fun h _ => ∀ k ∈ ks, E k h) i h
      (all (ks.map prog)) := by
  induction ks with
  | nil => exact fun k hk => by cases hk
  | cons k ks ih =>
    obtain ⟨hk, hnodup⟩ := List.nodup_cons.mp hnodup
    have hne : ∀ k' ∈ ks, k ≠ k' := fun k' hk' heq => hk (heq ▸ hk')
    have hmem : ∀ {k'}, k' ∈ ks → k' ∈ k :: ks := List.mem_cons_of_mem k
    have hself : k ∈ k :: ks := List.mem_cons_self
    have hrest := ih hnodup (fun k' hk' => hprog k' (hmem hk'))
      (fun k' hk' k'' hk'' => hd k' (hmem hk') k'' (hmem hk''))
      (fun k' hk' k'' hk'' => hE k' (hmem hk') k'' (hmem hk''))
    have hboth := obeys_par (hprog k hself) hrest
      (fun c hc m h h' hm => by
        obtain ⟨k', hk', hm⟩ := hm
        exact hd k hself k' (hmem hk') (hne k' hk') c hc m h h' hm)
      (fun c hc m h h' hm => by
        obtain ⟨k', hk', hc⟩ := hc
        exact hd k' (hmem hk') k hself (hne k' hk').symm c hc m h h' hm)
      (fun _ m h h' hm => by
        obtain ⟨k', hk', hm⟩ := hm
        exact hE k hself k' (hmem hk') (hne k' hk') m h h' hm)
      (fun _ m h h' hm hins hall k' hk' =>
        hE k' (hmem hk') k hself (hne k' hk').symm m h h' hm hins (hall k' hk'))
    have hwiden := hboth.only_mono (P := fun c => ∃ k' ∈ k :: ks, G k' c) fun c hc => by
      rcases hc with hc | ⟨k', hk', hc⟩
      · exact ⟨k, hself, hc⟩
      · exact ⟨k', hmem hk', hc⟩
    exact hwiden.bind fun h ab hab => List.forall_mem_cons.mpr hab

/-- A discipline that permits no more than some commands, where those are all. -/
lemma Obeys.only_all (hp : Obeys (d.ending E) i h p) :
    Obeys ((d.only fun _ => True).ending E) i h p := by
  induction p generalizing h with
  | done a => exact hp
  | call c next ih => exact ⟨⟨hp.1, trivial⟩, fun r hr => ih r (hp.2 r hr)⟩
  | either p q ihp ihq => exact ⟨ihp hp.1, ihq hp.2⟩

/-- **A crew**, each of whose programs ends as what was heard has it, whatever else was heard. -/
theorem obeys_all_heard {prog : κ → Prog Reply α} {E : κ → Heard Reply → α → Prop} {ks : List κ}
    (hprog : ∀ k ∈ ks, Obeys (d.ending (E k)) i h (prog k))
    (hd : d.Undisturbed i (fun _ => True) fun _ => True)
    (hE : ∀ k a, Undisturbed (fun _ => True) (E k · a)) :
    Obeys (d.ending fun h as => List.Forall₂ (fun k a => E k h a) ks as) i h (all (ks.map prog)) := by
  induction ks with
  | nil => exact List.Forall₂.nil
  | cons k ks ih =>
    obtain ⟨hk, hks⟩ := List.forall_mem_cons.mp hprog
    have hall : ∀ as, Undisturbed (fun _ => True) fun h => List.Forall₂ (fun k a => E k h a) ks as :=
      fun as m h h' hm hins hforall => hforall.imp fun k a => hE k a m h h' hm hins
    have hboth := obeys_par hk.only_all (ih hks).only_all hd hd (hE k) hall
    exact hboth.of_only.bind fun h as has => List.Forall₂.cons has.1 has.2

end Prog

namespace Thrower

open Prog

variable {γ ε : Type} {d : Discipline ι Reply γ} {i : ι} {h : Heard Reply} {x : Thrower Reply ε α}
  {f : α → Thrower Reply ε β} {E : Heard Reply → Except ε α → Prop}
  {F : Heard Reply → Except ε β → Prop}

/-- A part that does not throw, then what comes after it. -/
lemma run_lift_bind (p : Prog Reply α) :
    ((liftM p : Thrower Reply ε α) >>= f).run = p >>= fun a => (f a).run := by
  rw [run_bind]
  show p >>= (fun a => done (Except.ok a : Except ε α)) >>= _ = _
  rw [Prog.bind_assoc]
  rfl

/-- **Sequencing**, where an exception ends the sequence. -/
lemma obeys_bind (hx : Obeys (d.ending E) i h x.run)
    (hf : ∀ h a, E h (.ok a) → Obeys (d.ending F) i h (f a).run)
    (herror : ∀ h e, E h (.error e) → F h (.error e)) : Obeys (d.ending F) i h (x >>= f).run := by
  rw [run_bind]
  refine hx.bind fun h r hr => ?_
  cases r with
  | ok a => exact hf h a hr
  | error e => exact herror h e hr

/-- One command, then what comes after it. -/
lemma obeys_ask_then {c : Cmd} {read : Reply c → Except ε α} (hmay : d.may i h c)
    (hnext : ∀ r a, d.can c r → read r = .ok a →
      Obeys (d.ending F) i (h ++ [⟨c, r⟩]) (f a).run)
    (herror : ∀ r e, d.can c r → read r = .error e → F (h ++ [⟨c, r⟩]) (.error e)) :
    Obeys (d.ending F) i h (ask c read >>= f).run := by
  rw [run_bind]
  refine ⟨hmay, fun r hr => ?_⟩
  dsimp only
  cases hread : read r with
  | ok a => exact hnext r a hr hread
  | error e => exact herror r e hr hread

/-- How a part ends that began after `h₀`: where it does not throw, `Q` holds. -/
def EndsWith (h₀ : Heard Reply) (Q : Heard Reply → α → Prop) (h : Heard Reply) (r : Except ε α) :
    Prop :=
  h₀ <+: h ∧ ∀ a, r = .ok a → Q h a

section EndsWith

variable {h₀ : Heard Reply} {P : Heard Reply → α → Prop} {Q : Heard Reply → β → Prop}

lemma obeys_throw (e : ε) : Obeys (d.ending (EndsWith h₀ P)) i h₀ (throw e : Thrower Reply ε α).run :=
  ⟨List.prefix_rfl, nofun⟩

lemma obeys_pure {a : α} (ha : P h₀ a) :
    Obeys (d.ending (EndsWith h₀ P)) i h₀ (pure a : Thrower Reply ε α).run := by
  refine ⟨List.prefix_rfl, ?_⟩
  rintro _ ⟨⟩
  exact ha

/-- **Sequencing**: what comes next begins where the first part has ended. -/
lemma obeys_then (hx : Obeys (d.ending (EndsWith h₀ P)) i h₀ x.run)
    (hf : ∀ h a, h₀ <+: h → P h a → Obeys (d.ending (EndsWith h Q)) i h (f a).run) :
    Obeys (d.ending (EndsWith h₀ Q)) i h₀ (x >>= f).run := by
  refine obeys_bind hx (fun h₁ a hx => (hf h₁ a hx.1 (hx.2 a rfl)).mono ?_) fun _ _ hx =>
    ⟨hx.1, nofun⟩
  rintro h' r ⟨hpre, hr⟩
  exact ⟨hx.1.trans hpre, hr⟩

lemma obeys_ask {c : Cmd} {read : Reply c → Except ε α} (hmay : d.may i h₀ c) :
    Obeys (d.ending (EndsWith h₀ fun h a => ∃ r, h = h₀ ++ [⟨c, r⟩] ∧ read r = .ok a)) i h₀
      (ask c read).run :=
  ⟨hmay, fun r _ => ⟨List.prefix_append h₀ _, fun _ ha => ⟨r, rfl, ha⟩⟩⟩

/-- A part that sends only what is always permitted. -/
lemma obeys_of_sends {S : Cmd → Prop} (hx : Sends S x.run) (hmay : ∀ h c, S c → d.may i h c) :
    Obeys (d.ending (EndsWith h₀ fun _ _ => True)) i h₀ x.run :=
  hx.obeys (fun _ _ c hc => hmay _ c hc) fun h _ _ =>
    ⟨List.prefix_append h₀ h, fun _ _ => trivial⟩

end EndsWith

end Thrower

/-! ## What was heard since -/

/-- `m` was heard, and only commands of `Q` since then. -/
def Since (m : (c : Cmd) × Reply c) (Q : Cmd → Prop) (h : Heard Reply) : Prop :=
  ∃ h₁ h₂, h = h₁ ++ m :: h₂ ∧ ∀ m' ∈ h₂, Q m'.1

section Since

variable {m m' : (c : Cmd) × Reply c} {Q R : Cmd → Prop} {h h' : Heard Reply}

lemma since_concat (m : (c : Cmd) × Reply c) (Q : Cmd → Prop) (h : Heard Reply) :
    Since m Q (h ++ [m]) :=
  ⟨h, [], rfl, by simp⟩

lemma Since.mem (hs : Since m Q h) : m ∈ h := by
  obtain ⟨h₁, h₂, rfl, -⟩ := hs
  simp

lemma Since.append (hs : Since m Q h) {k : Heard Reply} (hk : ∀ m' ∈ k, Q m'.1) :
    Since m Q (h ++ k) := by
  obtain ⟨h₁, h₂, rfl, hQ⟩ := hs
  refine ⟨h₁, h₂ ++ k, by simp, fun m' hm' => ?_⟩
  rcases List.mem_append.mp hm' with hm' | hm'
  · exact hQ m' hm'
  · exact hk m' hm'

lemma Since.concat (hs : Since m Q h) {c : Cmd} (hc : Q c) (r : Reply c) :
    Since m Q (h ++ [⟨c, r⟩]) :=
  hs.append fun m' hm' => by
    obtain rfl := List.mem_singleton.mp hm'
    exact hc

/-- A message among those that were heard is the last one, or was heard before it. -/
lemma concat_eq_append_cons {a b : Heard Reply} (heq : h ++ [m'] = a ++ m :: b) :
    (a = h ∧ m = m' ∧ b = []) ∨ ∃ b', b = b' ++ [m'] ∧ h = a ++ m :: b' := by
  rcases List.eq_nil_or_concat' b with rfl | ⟨k, last, rfl⟩
  · obtain ⟨rfl, hlast⟩ := List.append_inj' heq rfl
    exact .inl ⟨rfl, (List.cons.inj hlast).1.symm, rfl⟩
  · rw [← List.cons_append, ← List.append_assoc] at heq
    obtain ⟨rfl, hlast⟩ := List.append_inj' heq rfl
    obtain rfl := (List.cons.inj hlast).1
    exact .inr ⟨k, rfl, rfl⟩

/-- What was heard since is the last message, or was heard before it. -/
lemma Since.of_concat {c : Cmd} {r : Reply c} (hs : Since m Q (h ++ [⟨c, r⟩])) :
    m = ⟨c, r⟩ ∨ Q c ∧ Since m Q h := by
  obtain ⟨h₁, h₂, heq, hQ⟩ := hs
  rcases concat_eq_append_cons heq with ⟨-, rfl, -⟩ | ⟨k, rfl, rfl⟩
  · exact .inl rfl
  · exact .inr ⟨hQ ⟨c, r⟩ (by simp), h₁, k, rfl, fun m' hm' => hQ m' (by simp [hm'])⟩

lemma mem_of_inserted (hins : Inserted m h h') {m' : (c : Cmd) × Reply c} (hm : m' ∈ h') :
    m' = m ∨ m' ∈ h := by
  induction hins with
  | here h => exact List.mem_cons.mp hm
  | later m₁ _ ih =>
    rcases List.mem_cons.mp hm with rfl | hm
    · exact .inr List.mem_cons_self
    · exact (ih hm).imp_right (List.mem_cons_of_mem m₁)

/-- What is heard since leaves commands of `Q` in between. -/
lemma undisturbed_since (hRQ : ∀ c, R c → Q c) : Undisturbed R (Since m Q) := by
  rintro m' _ h' hm' hins ⟨h₁, h₂, rfl, hQ⟩
  induction h₁ generalizing h' with
  | nil =>
    cases hins with
    | here => exact ⟨[m'], h₂, rfl, hQ⟩
    | later _ hins =>
      refine ⟨[], _, rfl, fun m₁ hm₁ => ?_⟩
      rcases mem_of_inserted hins hm₁ with rfl | hm₁
      · exact hRQ _ hm'
      · exact hQ m₁ hm₁
  | cons m₁ h₁ ih =>
    cases hins with
    | here => exact ⟨m' :: m₁ :: h₁, h₂, rfl, hQ⟩
    | later _ hins =>
      obtain ⟨k₁, k₂, rfl, hk⟩ := ih _ hins
      exact ⟨m₁ :: k₁, k₂, rfl, hk⟩

end Since

/-! ## On a store -/

/-- The store answers what was heard, one command after the other. -/
def Replays (exec : (c : Cmd) → σ → Reply c × σ) : σ → Heard Reply → σ → Prop
  | s, [], s' => s = s'
  | s, m :: h, s' => (exec m.1 s).1 = m.2 ∧ Replays exec (exec m.1 s).2 h s'

/-- The run of a program that takes the first of two programs each time. -/
def follow (exec : (c : Cmd) → σ → Reply c × σ) : Prog Reply α → σ → Heard Reply × σ
  | .done _, s => ([], s)
  | .call c next, s =>
    let answer := exec c s
    let rest := follow exec (next answer.1) answer.2
    (⟨c, answer.1⟩ :: rest.1, rest.2)
  | .either p _, s => follow exec p s

/-- It is a run. -/
lemma hears_follow (exec : (c : Cmd) → σ → Reply c × σ) (p : Prog Reply α) (s : σ) :
    p.Hears (follow exec p s).1 ∧ Replays exec s (follow exec p s).1 (follow exec p s).2 := by
  induction p generalizing s with
  | done a => exact ⟨rfl, rfl⟩
  | call c next ih =>
    obtain ⟨hears, hreplays⟩ := ih (exec c s).1 (exec c s).2
    exact ⟨.inr ⟨_, _, rfl, hears⟩, rfl, hreplays⟩
  | either p q ihp ihq => exact ⟨.inl (ihp s).1, (ihp s).2⟩

/-- **The invariant rule for one program on a store**: what every permitted command preserves, of the
store and of what was heard, holds however far the program has run. -/
theorem Prog.Obeys.invariant {d : Discipline ι Reply α} {i : ι} {p : Prog Reply α}
    {exec : (c : Cmd) → σ → Reply c × σ} {I : σ → Heard Reply → Prop}
    (hstep : ∀ s h c, I s h → d.may i h c →
      d.can c (exec c s).1 ∧ I (exec c s).2 (h ++ [⟨c, (exec c s).1⟩]))
    {s s' : σ} {h₀ h : Heard Reply} (hp : Obeys d i h₀ p) (hI : I s h₀) (hears : Hears p h)
    (hrep : Replays exec s h s') : I s' (h₀ ++ h) := by
  induction p generalizing s h₀ h with
  | done a =>
    obtain rfl := hears
    obtain rfl := hrep
    rwa [List.append_nil]
  | call c next ih =>
    rcases hears with rfl | ⟨r, h', rfl, hnext⟩
    · obtain rfl := hrep
      rwa [List.append_nil]
    · obtain ⟨hr, hrep⟩ := hrep
      dsimp only at hr hrep
      subst hr
      obtain ⟨hcan, hI⟩ := hstep s h₀ c hI hp.1
      have := ih _ (hp.2 _ hcan) hI hnext hrep
      rwa [List.append_assoc] at this
  | either p q ihp ihq =>
    rcases hears with hears | hears
    · exact ihp hp.1 hI hears hrep
    · exact ihq hp.2 hI hears hrep

end Interleaving
