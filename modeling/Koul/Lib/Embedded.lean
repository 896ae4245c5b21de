import Koul.Lib.Crew

set_option relaxedAutoImplicit false
set_option autoImplicit false

/-!
# Programs of some of the commands

A program whose commands are some of a larger set, as a program of that set: what it hears is part of
what the larger program hears, and a discipline on the large set is one on the part.

## Main definitions

* `Interleaving.Prog.embed` — the program with its commands sent as those of the larger set.
* `Interleaving.Discipline.part` — a discipline, as the part sees it after what was heard before.

## Main results

* `Interleaving.Prog.obeys_embed` — the embedded program keeps a discipline when the part does.
-/

namespace Interleaving

variable {Cmd Part : Type} {Reply : Cmd → Type} {ι α β : Type} (f : Part → Cmd)

/-- What the part has heard, as what the larger program has. -/
def embedHeard (h : Heard fun c => Reply (f c)) : Heard Reply := h.map fun m => ⟨f m.1, m.2⟩

/-- A discipline, as the part sees it that begins after `h₀`. -/
def Discipline.part (d : Discipline ι Reply α) (h₀ : Heard Reply) :
    Discipline ι (fun c => Reply (f c)) α where
  may i h c := d.may i (h₀ ++ embedHeard f h) (f c)
  ends i h a := d.ends i (h₀ ++ embedHeard f h) a
  can c r := d.can (f c) r

namespace Prog

/-- The program with its commands sent as those of the larger set. -/
def embed : Prog (fun c => Reply (f c)) α → Prog Reply α
  | done a => done a
  | call c next => call (f c) fun r => (next r).embed
  | either p q => either p.embed q.embed

variable {f} {d : Discipline ι Reply α} {i : ι} {h₀ : Heard Reply}

/-- **The part keeps the discipline**, and so does the embedded program. -/
theorem obeys_embed {p : Prog (fun c => Reply (f c)) α} {h : Heard fun c => Reply (f c)} :
    Obeys d i (h₀ ++ embedHeard f h) (p.embed f) ↔ Obeys (d.part f h₀) i h p := by
  induction p generalizing h with
  | done a => exact Iff.rfl
  | call c next ih =>
    refine and_congr_right fun _ => forall_congr' fun r => imp_congr_right fun _ => ?_
    rw [← ih r, embedHeard, embedHeard, List.map_append, List.append_assoc]
    rfl
  | either p q ihp ihq => exact and_congr ihp ihq

lemma obeys_embed_nil {p : Prog (fun c => Reply (f c)) α} :
    Obeys d i h₀ (p.embed f) ↔ Obeys (d.part f h₀) i [] p := by
  rw [← obeys_embed, embedHeard, List.map_nil, List.append_nil]

/-- An embedded program sends only commands of the part. -/
lemma sends_embed {P : Cmd → Prop} (hP : ∀ c, P (f c)) (p : Prog (fun c => Reply (f c)) α) :
    Sends P (p.embed f) := by
  induction p with
  | done a => exact trivial
  | call c next ih => exact ⟨hP c, ih⟩
  | either p q ihp ihq => exact ⟨ihp, ihq⟩

end Prog

namespace Prog

variable {f : Part → Cmd} {d : Discipline ι Reply β} {i : ι} {h₀ : Heard Reply}

/-- What an embedded program hears is what the part hears. -/
lemma returns_embed {p : Prog (fun c => Reply (f c)) α} {h : Heard Reply} {a : α}
    (hret : Returns (p.embed f) h a) : ∃ h', h = embedHeard f h' ∧ Returns p h' a := by
  induction p generalizing h with
  | done b => exact ⟨[], hret.1, rfl, hret.2⟩
  | call c next ih =>
    obtain ⟨r, h₁, rfl, hnext⟩ := hret
    obtain ⟨h', rfl, hret'⟩ := ih r hnext
    exact ⟨⟨c, r⟩ :: h', rfl, r, h', rfl, hret'⟩
  | either p q ihp ihq =>
    rcases hret with hret | hret
    · obtain ⟨h', heq, hret'⟩ := ihp hret
      exact ⟨h', heq, .inl hret'⟩
    · obtain ⟨h', heq, hret'⟩ := ihq hret
      exact ⟨h', heq, .inr hret'⟩

/-- A part that sends only what is always permitted ends as it may alone. -/
lemma Sends.obeys_returns {P : Cmd → Prop} {p : Prog Reply α} (hp : Sends P p)
    (hmay : ∀ h c, P c → d.may i h c) :
    Obeys (d.ending fun h a => ∃ h', h = h₀ ++ h' ∧ Returns p h' a) i h₀ p := by
  induction p generalizing h₀ with
  | done a => exact ⟨[], (List.append_nil h₀).symm, rfl, rfl⟩
  | call c next ih =>
    refine ⟨hmay h₀ c hp.1, fun r _ => (ih r (hp.2 r)).mono ?_⟩
    rintro h a ⟨h', rfl, hret⟩
    exact ⟨⟨c, r⟩ :: h', by rw [List.append_assoc]; rfl, r, h', rfl, hret⟩
  | either p q ihp ihq =>
    refine ⟨(ihp hp.1).mono ?_, (ihq hp.2).mono ?_⟩
    · rintro h a ⟨h', rfl, hret⟩
      exact ⟨h', rfl, .inl hret⟩
    · rintro h a ⟨h', rfl, hret⟩
      exact ⟨h', rfl, .inr hret⟩

end Prog

namespace Prog

/-- One discipline keeps to another. -/
lemma Obeys.imp {κ : Type} {d : Discipline ι Reply α} {d' : Discipline κ Reply α} {i : ι} {i' : κ}
    {h : Heard Reply} {p : Prog Reply α} (hp : Obeys d i h p) (hmay : ∀ h c, d.may i h c → d'.may i' h c)
    (hends : ∀ h a, d.ends i h a → d'.ends i' h a) (hcan : ∀ c r, d'.can c r → d.can c r) :
    Obeys d' i' h p := by
  induction p generalizing h with
  | done a => exact hends h a hp
  | call c next ih => exact ⟨hmay h c hp.1, fun r hr => ih r (hp.2 r (hcan c r hr))⟩
  | either p q ihp ihq => exact ⟨ihp hp.1, ihq hp.2⟩

end Prog

end Interleaving
