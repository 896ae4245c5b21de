import Koul.Competition.Entry

set_option relaxedAutoImplicit false
set_option autoImplicit false

/-!
# The entry cap under concurrency

Entries and confirmation links run at the same time on one store. A place is taken by one script,
so the set of entrants never passes the cap; the link's own `SADD` comes after it, for a wallet
that holds a place already.

## Main definitions

* `Koul.Competition.placing` — a program writes a record, or adds an entrant, only for a wallet it
  has heard to hold a place.

## Main results

* `Koul.Competition.cap_holds` — in every interleaving the entrants stay within the cap, every
  verified entry's wallet is among them, and so is the wallet of every entry that was confirmed.
-/

namespace Koul.Competition

open Interleaving Interleaving.Prog

/-- A request to one of the two routes. -/
inductive Request
  | confirm (entry : Entry)
  | link (now : ℕ) (token : String)
deriving DecidableEq

inductive Answer
  | entry (outcome : EntryOutcome)
  | page (page : Page)
deriving DecidableEq

/-- What a request runs. -/
def serve (tx : Texts) (cap : Option ℤ) : Request → EntryProg Answer
  | .confirm entry => do
    let outcome ← confirmEntry tx cap entry
    return .entry outcome
  | .link now token => do
    let page ← GET now token
    return .page page

/-- The program has heard that the wallet holds a place: the script said so, or the wallet's
record is verified. -/
def Placed (h : Heard Cmd.Reply) (wallet : String) : Prop :=
  (∃ max, ⟨.eval wallet max, 1⟩ ∈ h) ∨
    ∃ rec : EntrantRecord, rec.verified = true ∧ ⟨.getEntrant wallet, some rec⟩ ∈ h

lemma Placed.append {h : Heard Cmd.Reply} {wallet : String} (hp : Placed h wallet)
    (h' : Heard Cmd.Reply) : Placed (h ++ h') wallet := by
  rcases hp with ⟨max, hmem⟩ | ⟨rec, hrec, hmem⟩
  · exact .inl ⟨max, List.mem_append_left h' hmem⟩
  · exact .inr ⟨rec, hrec, List.mem_append_left h' hmem⟩

/-- A record is written, and an entrant added, only for a wallet that holds a place; places are
asked for with the cap. -/
def placing (cap : Option ℤ) : Discipline Request Cmd.Reply Answer where
  may _ h c := match c with
    | .setEntrant wallet _ | .sadd wallet => Placed h wallet
    | .eval _ max => max = cap.getD (-1)
    | _ => True
  ends i h a := match i, a with
    | .confirm entry, .entry (.ok _) => Placed h entry.wallet
    | _, _ => True
  can c := match c with
    | .getConfig => fun config => maxEntrantsOf config = cap
    | _ => fun _ => True

variable {tx : Texts} {cap : Option ℤ}

/-- After its record is written an entry only lets go of claims. -/
lemma releaseStale_obeys {existing : Option EntrantRecord} {entry : Entry} {h : Heard Cmd.Reply}
    (hp : Placed h entry.wallet) :
    (releaseStale tx existing entry >>= fun _ => pure (.ok entry.record)).Obeys
      ((placing cap).comap .entry) (.confirm entry) h := by
  cases existing with
  | none => exact hp
  | some existing =>
    unfold releaseStale
    rw [bind_assoc]
    apply obeys_together
    · intro h' c hc
      obtain ⟨key, -, rfl⟩ := List.mem_map.mp hc
      exact trivial
    · intro h' owners
      have hplaced := hp.append h'
      exact obeys_release (fun _ => hplaced) fun _ => ⟨trivial, hplaced.append _⟩

/-- An entry that is refused only lets go of its claims. -/
lemma refuse_obeys {claimed : List ClaimKey} {entry : Entry} {text : String}
    {h : Heard Cmd.Reply} :
    (release claimed >>= fun _ => pure (.error text)).Obeys
      ((placing cap).comap .entry) (.confirm entry) h :=
  obeys_release (fun _ => trivial) fun _ => ⟨trivial, trivial⟩

lemma confirmEntry_obeys (entry : Entry) :
    (confirmEntry tx cap entry).Obeys ((placing cap).comap .entry) (.confirm entry) [] := by
  unfold confirmEntry
  rw [obeys_redis]
  refine ⟨trivial, fun existing _ => ?_⟩
  split
  · exact trivial
  apply obeys_claim trivial trivial
  intro h₁ handleOk claimed _
  cases handleOk with
  | false => exact trivial
  | true =>
    apply obeys_claim trivial trivial
    intro h₂ emailOk claimed _
    cases emailOk with
    | false => exact refuse_obeys
    | true =>
      refine obeys_takePlace.mpr ⟨rfl, fun n _ => ?_⟩
      by_cases hn : n = 1
      · subst hn
        have hplaced : ∀ h : Heard Cmd.Reply,
            Placed (h ++ [⟨.eval entry.wallet (cap.getD (-1)), 1⟩]) entry.wallet :=
          fun h => .inl ⟨_, List.mem_append_right h List.mem_cons_self⟩
        refine ⟨hplaced _, fun _ _ => ?_⟩
        exact releaseStale_obeys ((hplaced _).append _)
      · rw [beq_false_of_ne hn]
        exact refuse_obeys

/-- The writes of a link are for a wallet that holds a place. -/
lemma markVerified_obeys {now : ℕ} {token wallet : String} {rec : EntrantRecord} {r : Request}
    {h : Heard Cmd.Reply} (hr : ∀ entry, r ≠ .confirm entry) (hp : Placed h wallet) :
    (markVerified now token wallet rec).Obeys ((placing cap).comap .page) r h := by
  unfold markVerified
  apply obeys_together
  · intro h' c hc
    rcases List.mem_cons.mp hc with rfl | hc
    · exact hp.append h'
    rcases List.mem_cons.mp hc with rfl | hc
    · exact hp.append h'
    · obtain rfl := List.mem_singleton.mp hc
      exact trivial
  · intro h' _
    cases r with
    | confirm entry => exact absurd rfl (hr entry)
    | link now token => exact trivial

/-- The link writes the record, and adds the entrant, once the wallet holds a place. -/
lemma GET_obeys (now : ℕ) (token : String) :
    (GET now token).Obeys ((placing cap).comap .page) (.link now token) [] := by
  unfold GET
  split
  · exact trivial
  rw [obeys_redis]
  refine ⟨trivial, fun wallet _ => ?_⟩
  cases wallet with
  | none => exact trivial
  | some wallet =>
    refine ⟨trivial, fun rec _ => ?_⟩
    cases rec with
    | none => exact trivial
    | some rec =>
      simp only [Prog.bind]
      split
      · next hrec =>
        refine markVerified_obeys (fun _ => Request.noConfusion) (.inr ⟨rec, hrec, ?_⟩)
        simp
      · refine ⟨trivial, fun config hconfig => obeys_takePlace.mpr ⟨?_, fun n _ => ?_⟩⟩
        · exact congrArg (·.getD (-1)) hconfig
        · by_cases hn : n = 1
          · subst hn
            refine markVerified_obeys (fun _ => Request.noConfusion) (.inl ⟨(maxEntrantsOf config).getD (-1), ?_⟩)
            simp
          · rw [beq_false_of_ne hn]
            exact trivial

lemma serve_obeys (r : Request) : (serve tx cap r).Obeys (placing cap) r [] := by
  cases r with
  | confirm entry => exact obeys_wrap.mpr (confirmEntry_obeys entry)
  | link now token => exact obeys_wrap.mpr (GET_obeys now token)

/-! ## The invariant -/

/-- What holds of the store and of what the programs have heard. -/
structure WithinCap (cap : Option ℤ) (w : Pool Store Request Cmd.Reply Answer) : Prop where
  config : maxEntrantsOf w.store.config = cap
  card : ∀ max, cap = some max → (w.store.entrants.card : ℤ) ≤ max
  verified : ∀ wallet rec, w.store.entrant wallet = some rec → rec.verified = true →
    wallet ∈ w.store.entrants
  placed : ∀ (n : ℕ) (p : Proc Request Cmd.Reply Answer) (wallet : String),
    w.procs[n]? = some p → Placed p.heard wallet → wallet ∈ w.store.entrants

/-- The script never drops an entrant. -/
lemma subset_PLACE_SCRIPT (entrants : Finset String) (wallet : String) (max : ℤ) :
    entrants ⊆ (PLACE_SCRIPT entrants wallet max).2 := by
  unfold PLACE_SCRIPT
  split_ifs
  · exact Finset.Subset.refl _
  · exact Finset.Subset.refl _
  · exact Finset.subset_insert _ _

/-- It answers 1 only when the wallet holds a place. -/
lemma mem_of_PLACE_SCRIPT {entrants : Finset String} {wallet : String} {max : ℤ}
    (h : (PLACE_SCRIPT entrants wallet max).1 = 1) :
    wallet ∈ (PLACE_SCRIPT entrants wallet max).2 := by
  unfold PLACE_SCRIPT at h ⊢
  split_ifs at h ⊢ with hmem
  · exact hmem
  · exact Finset.mem_insert_self _ _

/-- It never passes a cap. -/
lemma card_PLACE_SCRIPT_le {entrants : Finset String} {wallet : String} {max : ℤ}
    (h : (entrants.card : ℤ) ≤ max) : ((PLACE_SCRIPT entrants wallet max).2.card : ℤ) ≤ max := by
  unfold PLACE_SCRIPT
  split_ifs with hmem hfull
  · exact h
  · exact h
  · have hroom : (entrants.card : ℤ) < max := by omega
    have hcard := Finset.card_insert_le wallet entrants
    show ((insert wallet entrants).card : ℤ) ≤ max
    omega

/-- No command takes a place away. -/
lemma entrants_subset_exec (c : Cmd) (s : Store) : s.entrants ⊆ (c.exec s).2.entrants := by
  cases c with
  | eval wallet max => exact subset_PLACE_SCRIPT s.entrants wallet max
  | sadd wallet => exact Finset.subset_insert wallet s.entrants
  | _ => exact Finset.Subset.refl _

lemma config_exec (c : Cmd) (s : Store) : (c.exec s).2.config = s.config := by
  cases c <;> rfl

/-- A permitted command leaves the entrants within the cap. -/
lemma card_exec_le {c : Cmd} {s : Store} {r : Request} {h : Heard Cmd.Reply}
    (hmay : (placing cap).may r h c) (hplaced : ∀ wallet, Placed h wallet → wallet ∈ s.entrants)
    {max : ℤ} (hcap : cap = some max) (hcard : (s.entrants.card : ℤ) ≤ max) :
    ((c.exec s).2.entrants.card : ℤ) ≤ max := by
  cases c with
  | eval wallet max' =>
    obtain rfl : max' = max := by rw [hmay, hcap]; rfl
    exact card_PLACE_SCRIPT_le hcard
  | sadd wallet =>
    show ((insert wallet s.entrants).card : ℤ) ≤ max
    rw [Finset.insert_eq_of_mem (hplaced wallet hmay)]
    exact hcard
  | _ => exact hcard

/-- A reply that says that a wallet holds a place is right. -/
lemma mem_of_placed_exec {c : Cmd} {s : Store} {wallet : String}
    (hverified : ∀ wallet rec, s.entrant wallet = some rec → rec.verified = true →
      wallet ∈ s.entrants) (hp : Placed [⟨c, (c.exec s).1⟩] wallet) :
    wallet ∈ (c.exec s).2.entrants := by
  rcases hp with ⟨max, hmem⟩ | ⟨rec, hrec, hmem⟩
  · obtain ⟨rfl, heq⟩ := Sigma.mk.inj_iff.mp (List.mem_singleton.mp hmem)
    exact mem_of_PLACE_SCRIPT (eq_of_heq heq).symm
  · obtain ⟨rfl, heq⟩ := Sigma.mk.inj_iff.mp (List.mem_singleton.mp hmem)
    exact hverified wallet rec (eq_of_heq heq).symm hrec

/-- What a program has heard was said before or is the new reply. -/
lemma placed_concat {h : Heard Cmd.Reply} {c : Cmd} {r : c.Reply} {wallet : String}
    (hp : Placed (h ++ [⟨c, r⟩]) wallet) : Placed h wallet ∨ Placed [⟨c, r⟩] wallet := by
  rcases hp with ⟨max, hmem⟩ | ⟨rec, hrec, hmem⟩
  · rcases List.mem_append.mp hmem with hmem | hmem
    · exact .inl (.inl ⟨max, hmem⟩)
    · exact .inr (.inl ⟨max, hmem⟩)
  · rcases List.mem_append.mp hmem with hmem | hmem
    · exact .inl (.inr ⟨rec, hrec, hmem⟩)
    · exact .inr (.inr ⟨rec, hrec, hmem⟩)

/-- **A permitted command keeps the invariant.** -/
lemma WithinCap.exec {w : Pool Store Request Cmd.Reply Answer} (hw : WithinCap cap w) {n : ℕ}
    {p : Proc Request Cmd.Reply Answer} {c : Cmd} {left : EntryProg Answer}
    (hp : w.procs[n]? = some p) (hmay : (placing cap).may p.arg p.heard c) :
    WithinCap cap (w.replace n ⟨p.arg, p.heard ++ [⟨c, (c.exec w.store).1⟩], left⟩
      (c.exec w.store).2) := by
  have hgrow := entrants_subset_exec c w.store
  refine ⟨?_, ?_, ?_, ?_⟩
  · exact (congrArg maxEntrantsOf (config_exec c w.store)).trans hw.config
  · intro max hcap
    exact card_exec_le hmay (fun wallet => hw.placed n p wallet hp) hcap (hw.card max hcap)
  · intro wallet rec hrec hv
    rcases entrant_exec hrec with hold | rfl
    · exact hgrow (hw.verified wallet rec hold hv)
    · exact hgrow (hw.placed n p wallet hp hmay)
  · intro m q wallet hq hpl
    rcases Pool.getElem?_replace hq with ⟨-, rfl⟩ | ⟨-, hold⟩
    · rcases placed_concat hpl with hpl | hpl
      · exact hgrow (hw.placed n p wallet hp hpl)
      · exact mem_of_placed_exec hw.verified hpl
    · exact hgrow (hw.placed m q wallet hold hpl)

lemma WithinCap.start {w : Pool Store Request Cmd.Reply Answer} (hw : WithinCap cap w)
    (r : Request) : WithinCap cap (w.step (serve tx cap) Cmd.exec (.start r)) := by
  refine ⟨hw.config, hw.card, hw.verified, ?_⟩
  intro n p wallet hp hpl
  rcases Pool.getElem?_start _ _ hp with hold | rfl
  · exact hw.placed n p wallet hold hpl
  · rcases hpl with ⟨max, hmem⟩ | ⟨rec, -, hmem⟩
    · cases hmem
    · cases hmem

lemma WithinCap.choose {w : Pool Store Request Cmd.Reply Answer} (hw : WithinCap cap w) {n : ℕ}
    {p : Proc Request Cmd.Reply Answer} (left : EntryProg Answer) (hp : w.procs[n]? = some p) :
    WithinCap cap (w.replace n ⟨p.arg, p.heard, left⟩ w.store) := by
  refine ⟨hw.config, hw.card, hw.verified, ?_⟩
  intro m q wallet hq hpl
  rcases Pool.getElem?_replace hq with ⟨-, rfl⟩ | ⟨-, hold⟩
  · exact hw.placed n p wallet hp hpl
  · exact hw.placed m q wallet hold hpl

/-- **The entry cap holds under concurrency**: whatever the interleaving of entries and
confirmation links, the entrants stay within the cap, every verified entry's wallet is among them,
and so is the wallet of every entry that was confirmed.

**Proof sketch.** A program writes a record, and adds an entrant, only after it has heard that the
wallet holds a place (`serve_obeys`). The script gives a place only under the cap and nothing takes
one away, so a place once heard of is still held. -/
theorem cap_holds (tx : Texts) (cap : Option ℤ) (s : Store)
    (hconfig : maxEntrantsOf s.config = cap)
    (hcard : ∀ max, cap = some max → (s.entrants.card : ℤ) ≤ max)
    (hverified : ∀ wallet rec, s.entrant wallet = some rec → rec.verified = true →
      wallet ∈ s.entrants) (acts : List (Act Request)) :
    let w := Pool.run (serve tx cap) Cmd.exec ⟨s, []⟩ acts
    (∀ max, cap = some max → (w.store.entrants.card : ℤ) ≤ max) ∧
    (∀ wallet rec, w.store.entrant wallet = some rec → rec.verified = true →
      wallet ∈ w.store.entrants) ∧
    (∀ p ∈ w.procs, ∀ entry record, p.arg = .confirm entry →
      p.left = .done (.entry (.ok record)) → entry.wallet ∈ w.store.entrants) := by
  intro w
  have hinit : WithinCap cap ⟨s, []⟩ := ⟨hconfig, hcard, hverified, by simp⟩
  have hobeys : Pool.Disciplined (placing cap)
      (⟨s, []⟩ : Pool Store Request Cmd.Reply Answer) := by simp [Pool.Disciplined]
  have hcall : ∀ (w : Pool Store Request Cmd.Reply Answer) n (second : Bool) p c next,
      WithinCap cap w → w.procs[n]? = some p → p.left = .call c next → True →
      (placing cap).may p.arg p.heard c → (placing cap).can c (c.exec w.store).1 ∧
        WithinCap cap (w.replace n ⟨p.arg, p.heard ++ [⟨c, (c.exec w.store).1⟩],
          next (c.exec w.store).1⟩ (c.exec w.store).2) := by
    intro w n second p c next hw hp _ _ hmay
    refine ⟨?_, hw.exec hp hmay⟩
    cases c with
    | getConfig => exact hw.config
    | _ => exact trivial
  obtain ⟨hw, hdone⟩ := Pool.run_invariant (serve tx cap) Cmd.exec serve_obeys
    (fun w r hw => hw.start r) (fun w n p left hw hp _ => hw.choose left hp) hcall hinit hobeys
    (Pool.along_of_forall _ _ (fun _ _ => trivial) _ acts)
  refine ⟨hw.card, hw.verified, ?_⟩
  intro p hp entry record harg hleft
  obtain ⟨n, hn⟩ := List.getElem?_of_mem hp
  have hends := hdone n p hn
  rw [hleft, harg] at hends
  exact hw.placed n p entry.wallet hn hends

/-- Two places, one of them taken; the second entrant waits with a confirmation link. -/
def onePlaceLeft : Store where
  config := some ⟨1, none, 100, none, some (5 / 2), false, []⟩
  entrants := {"CAAA1"}
  entrant wallet :=
    if wallet = "CAAA1" then
      some ⟨"CAAA1", "trader1", "t1@example.com", 1, some 1, none, none⟩
    else if wallet = "CAAA2" then
      some ⟨"CAAA2", "trader2", "t2@example.com", 1, none, none, none⟩
    else none
  claims _ := none
  pending token := if token = "aaaaaaaaaaaaaaaaaaaa" then some "CAAA2" else none

/-- The link and a new entry race for the last place, and the entry is first to ask for it. -/
def race : List (Act Request) :=
  [.start (.link 5 "aaaaaaaaaaaaaaaaaaaa"),
    .start (.confirm ⟨"CAAA3", "trader3", "t3@example.com", 7, by decide⟩)] ++
  List.replicate 3 (.move 0 false) ++ List.replicate 4 (.move 1 false) ++
  List.replicate 4 (.move 0 false) ++ List.replicate 1 (.move 1 false)

theorem cap_holds_race :
    let w := Pool.run (serve exampleTexts (some 2)) Cmd.exec ⟨onePlaceLeft, []⟩ race
    (w.procs.map fun p => p.left.isDone) = [true, true] ∧ w.store.entrants = {"CAAA1", "CAAA3"} ∧
    (∀ max, some 2 = some max → (w.store.entrants.card : ℤ) ≤ max) ∧
    (∀ wallet rec, w.store.entrant wallet = some rec → rec.verified = true →
      wallet ∈ w.store.entrants) ∧
    (∀ p ∈ w.procs, ∀ entry record, p.arg = .confirm entry →
      p.left = .done (.entry (.ok record)) → entry.wallet ∈ w.store.entrants) := by
  intro w
  have hverified : ∀ wallet rec, onePlaceLeft.entrant wallet = some rec → rec.verified = true →
      wallet ∈ onePlaceLeft.entrants := by
    intro wallet rec hrec hv
    by_cases h1 : wallet = "CAAA1"
    · subst h1
      decide
    · rw [onePlaceLeft] at hrec
      simp only [if_neg h1] at hrec
      split_ifs at hrec
      obtain rfl := Option.some.inj hrec
      cases hv
  refine ⟨by decide +kernel, by decide +kernel, ?_⟩
  exact cap_holds exampleTexts (some 2) onePlaceLeft (by decide +kernel)
    (fun max hmax => by cases hmax; decide) hverified race

end Koul.Competition
