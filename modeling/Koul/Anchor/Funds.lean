import Koul.Anchor.Locked

set_option relaxedAutoImplicit false
set_option autoImplicit false

/-!
# Fund transfers

A deposit or a withdrawal is a record that each status poll carries on: it asks the anchor for the
transfer's status, reads the landing account's balance, and submits the plan's forward and cleanup,
saving the record as it goes. A poll can end anywhere: a call can throw, and the process can die.

## Main definitions

* `Koul.Anchor.advance` — one poll.
* `Koul.Anchor.Polls` — what any sequence of polls can have heard.
* `Koul.Anchor.savedAfter` — the record that the store has kept.
* `Koul.Anchor.May` — what a poll may ask, after all that was heard before it.

## Main results

* `Koul.Anchor.advance_obeys` — a poll asks for nothing else.
* `Koul.Anchor.funds_advance_safely` — what that means for the stages, the forward and the cleanup.
-/

namespace Koul.Anchor

open Stellar (Envelope)
open Interleaving Interleaving.Prog

/-! ## A poll -/

/-- What a poll answers: the record it ended with, and the anchor's word. -/
structure Published where
  record : FundsRecord
  anchorStatus : Option String
deriving DecidableEq, Repr

/-- The statuses of a transfer that will not happen. -/
def isFailure (status : String) : Bool :=
  includes status "error" || includes status "expired" || includes status "refunded"

/-- The landing account's USDC, `none` when it cannot be read. -/
def balance (sponsor contractId address : Address) : Server (Option ℤ) := do
  let _ ← getAccount sponsor
  Thrower.ask (.simulateBalance contractId address) rethrow

def put (record : FundsRecord) : Server Unit :=
  Thrower.ask (.put record) fun r => r.mapError fun _ => .thrown "the store failed"

def isTerminal : FundsStage → Bool
  | .completed => true
  | .failed => true
  | _ => false

/-- The landing account holds the planned amount. -/
def holds (landing : Option ℤ) (amount : ℤ) : Bool := landing.any (amount ≤ ·)

def submitForward (record : FundsRecord) : Server FundsRecord :=
  match record.forwardHash with
  | some _ => return record
  | none => do
    let forward ← submitPreauthorized record.plan.forwardTxXdr
    let forwarded := { record with forwardHash := some forward.hash, stage := .awaitingAnchor }
    put forwarded
    return forwarded

def submitCleanup (record : FundsRecord) : Server FundsRecord :=
  match record.cleanupHash with
  | some _ => return record
  | none => do
    let cleanup ← submitPreauthorized record.plan.cleanupTxXdr
    let cleaned := { record with cleanupHash := some cleanup.hash }
    put cleaned
    return cleaned

/-- The record in a terminal stage, saved. -/
def close (record : FundsRecord) (stage : FundsStage) (error : Option String) (status : String) :
    Server Published := do
  let closed := { record with stage := stage, error := error }
  put closed
  return ⟨closed, some status⟩

def settle (record : FundsRecord) (status : String) : Server Published :=
  if record.kind = .deposit ∨ status = "completed" then
    close record .completed record.error status
  else return ⟨record, some status⟩

/-- Once the landing account has been funded. -/
def carryOut (record : FundsRecord) (status : String) : Server Published := do
  let forwarded ← submitForward record
  let cleaned ← submitCleanup forwarded
  settle cleaned status

/-- What a poll does about the anchor's status and the landing balance. -/
def carryOn (record : FundsRecord) (status : String) (landing : Option ℤ) : Server Published :=
  if landing = none ∧ (record.forwardHash ≠ none ∨ status = "completed") then
    -- the landing account is gone, which is the last thing a finished transfer does to itself
    close record .completed record.error status
  else if record.kind = .deposit then
    if status ≠ "completed" then return ⟨record, some status⟩
    else if ¬ holds landing record.plan.amountStroops then return ⟨record, some status⟩
    else carryOut record status
  else if record.stage = .awaitingPasskey then
    if ¬ holds landing record.plan.amountStroops then return ⟨record, some status⟩
    else do
      let forwarding := { record with stage := .forwarding }
      put forwarding
      carryOut forwarding status
  else carryOut record status

/-- One status poll of a saved record. -/
def advance (sponsor : Address) (record : FundsRecord) : Server Published :=
  if isTerminal record.stage then return ⟨record, none⟩
  else do
    let usdc ← Thrower.ask (.discoverAnchor record.anchorHomeDomain) rethrow
    let status ← Thrower.ask
      (.sep6Transaction record.anchorHomeDomain record.sepToken record.sep6Id) rethrow
    if isFailure status.status then
      close record .failed (some (status.message.getD status.status)) status.status
    else
      let landing ← balance sponsor usdc record.plan.publicKey
      carryOn record status.status landing

/-! ## Sequences of polls -/

/-- The record kept so far, after one more answer. A failing store may have kept it or not. -/
def keep (saved : FundsRecord) : ((c : Cmd) × c.Reply) → FundsRecord
  | ⟨.put record, .ok ()⟩ => record
  | ⟨.put record, .error kept⟩ => if kept then record else saved
  | _ => saved

/-- The record that the store has kept. -/
def savedAfter (start : FundsRecord) (h : Heard Cmd.Reply) : FundsRecord := h.foldl keep start

/-- The anchor's last word, after one more answer. -/
def hearStatus (last : Option String) : ((c : Cmd) × c.Reply) → Option String
  | ⟨.sep6Transaction _ _ _, .ok t⟩ => some t.status
  | _ => last

def lastStatus (h : Heard Cmd.Reply) : Option String := h.foldl hearStatus none

/-- Some poll has read a landing balance of at least the planned amount. -/
def Funded (plan : LandingPlan) (h : Heard Cmd.Reply) : Prop :=
  ∃ usdc balance, ⟨.simulateBalance usdc plan.publicKey, .ok (some balance)⟩ ∈ h ∧
    plan.amountStroops ≤ balance

/-- What a sequence of polls can have heard: each poll starts from the record the store has kept,
and ends anywhere. -/
inductive Polls (sponsor : Address) (start : FundsRecord) : Heard Cmd.Reply → Prop
  | start : Polls sponsor start []
  | poll {h h' : Heard Cmd.Reply} : Polls sponsor start h →
      Hears (advance sponsor (savedAfter start h)).run h' → Polls sponsor start (h ++ h')

/-- How far a transfer has come. -/
def rank : FundsStage → ℕ
  | .awaitingBank => 0
  | .awaitingPasskey => 0
  | .forwarding => 1
  | .awaitingAnchor => 2
  | .completed => 3
  | .failed => 4

/-- A stage does not go back, and ends where it is terminal. -/
def Onward (s t : FundsStage) : Prop := s = t ∨ isTerminal s = false ∧ rank s ≤ rank t

/-- A record goes on: the same transfer, with every hash it had. -/
structure GoesOn (r r' : FundsRecord) : Prop where
  plan : r'.plan = r.plan
  kind : r'.kind = r.kind
  stage : Onward r.stage r'.stage
  forwardHash : r.forwardHash ≠ none → r'.forwardHash = r.forwardHash
  cleanupHash : r.cleanupHash ≠ none → r'.cleanupHash = r.cleanupHash

/-- A withdrawal that is past the passkey has been funded. -/
def FundedPast (r : FundsRecord) (h : Heard Cmd.Reply) : Prop :=
  r.kind = .withdraw → r.stage = .awaitingPasskey ∨ isTerminal r.stage = true ∨ Funded r.plan h

/-- What may be submitted, after all that was heard. -/
structure MaySubmit (start : FundsRecord) (h : Heard Cmd.Reply) (env : Envelope) : Prop where
  forward : env = start.plan.forwardTxXdr → (savedAfter start h).forwardHash = none ∧
    Funded start.plan h ∧ (start.kind = .deposit → lastStatus h = some "completed")
  cleanup : env = start.plan.cleanupTxXdr →
    (savedAfter start h).forwardHash ≠ none ∧ (savedAfter start h).cleanupHash = none

/-- What a poll may ask, after all that was heard. -/
def May (start : FundsRecord) (h : Heard Cmd.Reply) : Cmd → Prop
  | .put record => GoesOn (savedAfter start h) record ∧ FundedPast record h
  | .sendXdr env => MaySubmit start h env
  | .sendTransaction env => MaySubmit start h env
  | _ => True

/-! ## Histories -/

section Histories

variable {start r r' r'' : FundsRecord} {h h' : Heard Cmd.Reply} {plan : LandingPlan}

lemma Onward.trans {s t u : FundsStage} (h₁ : Onward s t) (h₂ : Onward t u) : Onward s u := by
  rcases h₁ with rfl | ⟨hs, hle⟩
  · exact h₂
  · rcases h₂ with rfl | ⟨-, hle'⟩
    · exact .inr ⟨hs, hle⟩
    · exact .inr ⟨hs, hle.trans hle'⟩

lemma GoesOn.refl (r : FundsRecord) : GoesOn r r :=
  ⟨rfl, rfl, .inl rfl, fun _ => rfl, fun _ => rfl⟩

lemma GoesOn.trans (h₁ : GoesOn r r') (h₂ : GoesOn r' r'') : GoesOn r r'' where
  plan := h₂.plan.trans h₁.plan
  kind := h₂.kind.trans h₁.kind
  stage := h₁.stage.trans h₂.stage
  forwardHash hset := by
    have hsame := h₁.forwardHash hset
    exact (h₂.forwardHash (by rwa [hsame])).trans hsame
  cleanupHash hset := by
    have hsame := h₁.cleanupHash hset
    exact (h₂.cleanupHash (by rwa [hsame])).trans hsame

lemma savedAfter_append : savedAfter start (h ++ h') = savedAfter (savedAfter start h) h' :=
  List.foldl_append

@[simp] lemma savedAfter_snoc {m : (c : Cmd) × c.Reply} :
    savedAfter start (h ++ [m]) = keep (savedAfter start h) m := by
  rw [savedAfter_append]
  rfl

@[simp] lemma lastStatus_snoc {m : (c : Cmd) × c.Reply} :
    lastStatus (h ++ [m]) = hearStatus (lastStatus h) m := by
  unfold lastStatus
  rw [List.foldl_append]
  rfl

lemma Funded.append (hf : Funded plan h) : Funded plan (h ++ h') := by
  obtain ⟨usdc, b, hm, hle⟩ := hf
  exact ⟨usdc, b, List.mem_append_left _ hm, hle⟩

lemma FundedPast.append (hf : FundedPast r h) : FundedPast r (h ++ h') := by
  intro hk
  rcases hf hk with hstage | hterm | hfunded
  · exact .inl hstage
  · exact .inr (.inl hterm)
  · exact .inr (.inr hfunded.append)

/-- What every history keeps: the record is still the transfer it was, and is past the passkey only
when funded. -/
def FundsInv (start : FundsRecord) (h : Heard Cmd.Reply) : Prop :=
  GoesOn start (savedAfter start h) ∧ FundedPast (savedAfter start h) h

/-- What may be asked keeps it, whatever is answered. -/
lemma FundsInv.snoc {c : Cmd} {a : c.Reply} (hi : FundsInv start h) (hmay : May start h c) :
    GoesOn (savedAfter start h) (savedAfter start (h ++ [⟨c, a⟩])) ∧
      FundsInv start (h ++ [⟨c, a⟩]) := by
  obtain ⟨hgoes, hpast⟩ := hi
  unfold FundsInv
  rw [savedAfter_snoc]
  cases c with
  | put record =>
    obtain ⟨hon, hfunded⟩ := hmay
    cases a with
    | ok u => exact ⟨hon, hgoes.trans hon, hfunded.append⟩
    | error kept =>
      cases kept with
      | true => exact ⟨hon, hgoes.trans hon, hfunded.append⟩
      | false => exact ⟨GoesOn.refl _, hgoes, hpast.append⟩
  | _ => exact ⟨GoesOn.refl _, hgoes, hpast.append⟩

end Histories

/-! ## A poll asks for nothing else -/

section Obeys

variable {start record : FundsRecord} {h : Heard Cmd.Reply} {env : Envelope}

/-- What a poll may ask; it may end in any way. -/
def fundsDiscipline (start : FundsRecord) (α : Type) :
    Discipline Unit Cmd.Reply (Except Failure α) :=
  ⟨fun _ h c => May start h c, fun _ _ _ => True, fun _ _ => True⟩

/-- The commands of a submission. -/
def SubmitsOnly (env : Envelope) : Cmd → Prop
  | .sendXdr e => e = env
  | .sendTransaction e => e = env
  | .pollTransaction _ _ => True
  | _ => False

/-- A submission saves nothing and asks the anchor for nothing. -/
lemma savedAfter_quiet {h' : Heard Cmd.Reply} (hh : ∀ m ∈ h', SubmitsOnly env m.1) :
    savedAfter start (h ++ h') = savedAfter start h := by
  induction h' using List.reverseRecOn with
  | nil => simp
  | append_singleton h' m ih =>
    have hm := hh m (by simp)
    rw [← List.append_assoc, savedAfter_snoc, ih fun m' hm' => hh m' (List.mem_append_left _ hm')]
    obtain ⟨c, a⟩ := m
    cases c <;> first | exact hm.elim | rfl

lemma lastStatus_quiet {h' : Heard Cmd.Reply} (hh : ∀ m ∈ h', SubmitsOnly env m.1) :
    lastStatus (h ++ h') = lastStatus h := by
  induction h' using List.reverseRecOn with
  | nil => simp
  | append_singleton h' m ih =>
    have hm := hh m (by simp)
    rw [← List.append_assoc, lastStatus_snoc, ih fun m' hm' => hh m' (List.mem_append_left _ hm')]
    obtain ⟨c, a⟩ := m
    cases c <;> first | exact hm.elim | rfl

lemma MaySubmit.append {h' : Heard Cmd.Reply} (hm : MaySubmit start h env)
    (hh : ∀ m ∈ h', SubmitsOnly env m.1) : MaySubmit start (h ++ h') env := by
  refine ⟨fun he => ?_, fun he => ?_⟩
  · rw [savedAfter_quiet hh, lastStatus_quiet hh]
    obtain ⟨hnone, hfunded, hdeposit⟩ := hm.forward he
    exact ⟨hnone, hfunded.append, hdeposit⟩
  · rw [savedAfter_quiet hh]
    exact hm.cleanup he

/-- A submission that may be made, and what comes after it. -/
lemma obeys_submitPreauthorized_bind {α : Type} {f : PreauthResult → Server α}
    (hmay : MaySubmit start h env)
    (hnext : ∀ h', (∀ m ∈ h', SubmitsOnly env m.1) → ∀ a,
      Obeys (fundsDiscipline start α) () (h ++ h') (f a).run) :
    Obeys (fundsDiscipline start α) () h (submitPreauthorized env >>= f).run := by
  have hsends : Sends (SubmitsOnly env) (submitPreauthorized env).run :=
    sends_submitPreauthorized rfl rfl fun _ _ => trivial
  refine Thrower.obeys_sends_bind hsends (fun _ _ => trivial) ?_ hnext
  intro h' hh c hc
  cases c with
  | sendXdr e =>
    obtain rfl : e = env := hc
    exact hmay.append hh
  | sendTransaction e =>
    obtain rfl : e = env := hc
    exact hmay.append hh
  | pollTransaction hash n => exact trivial
  | _ => exact hc.elim

/-- A record that may be saved, and what comes after it. -/
lemma obeys_put_bind {α : Type} {f : Unit → Server α} (hon : GoesOn (savedAfter start h) record)
    (hfunded : FundedPast record h)
    (hnext : savedAfter start (h ++ [⟨.put record, .ok ()⟩]) = record →
      Obeys (fundsDiscipline start α) () (h ++ [⟨.put record, .ok ()⟩]) (f ()).run) :
    Obeys (fundsDiscipline start α) () h (put record >>= f).run := by
  refine Thrower.obeys_ask_bind (fun _ _ => trivial) ⟨hon, hfunded⟩ ?_
  intro r a hr
  cases r with
  | ok u => exact hnext (by simp [keep])
  | error kept => cases hr

lemma FundsInv.quiet {h' : Heard Cmd.Reply} (hi : FundsInv start h)
    (hh : ∀ m ∈ h', SubmitsOnly env m.1) : FundsInv start (h ++ h') := by
  unfold FundsInv
  rw [savedAfter_quiet hh]
  exact ⟨hi.1, hi.2.append⟩

lemma Onward.of_le {s t : FundsStage} (hlive : isTerminal s = false) (hle : rank s ≤ rank t) :
    Onward s t := .inr ⟨hlive, hle⟩

lemma rank_le_two {s : FundsStage} (hlive : isTerminal s = false) : rank s ≤ 2 := by
  cases s <;> simp_all [rank, isTerminal]

/-- A record where the store has it, and whose transfer is not over. -/
structure Live (start : FundsRecord) (h : Heard Cmd.Reply) (record : FundsRecord) : Prop where
  saved : savedAfter start h = record
  inv : FundsInv start h
  live : isTerminal record.stage = false

/-- Closing a live record. -/
lemma obeys_close (hl : Live start h record) {stage : FundsStage} {error : Option String}
    {status : String} (hterm : isTerminal stage = true) :
    Obeys (fundsDiscipline start Published) () h (close record stage error status).run := by
  refine obeys_put_bind ?_ (fun _ => .inr (.inl hterm)) fun _ => trivial
  rw [hl.saved]
  refine ⟨rfl, rfl, .of_le hl.live ?_, fun _ => rfl, fun _ => rfl⟩
  refine (rank_le_two hl.live).trans ?_
  cases stage <;> simp_all [rank, isTerminal]

lemma obeys_settle (hl : Live start h record) {status : String} :
    Obeys (fundsDiscipline start Published) () h (settle record status).run := by
  unfold settle
  split_ifs
  · exact obeys_close hl rfl
  · exact trivial

lemma Live.quiet {h' : Heard Cmd.Reply} (hl : Live start h record)
    (hh : ∀ m ∈ h', SubmitsOnly env m.1) : Live start (h ++ h') record :=
  ⟨(savedAfter_quiet hh).trans hl.saved, hl.inv.quiet hh, hl.live⟩

/-- A live record that goes on is saved, and what comes after it. -/
lemma obeys_put_live {r : FundsRecord} {f : Unit → Server Published} (hl : Live start h record)
    (hon : GoesOn record r) (hfunded : FundedPast r h) (hlive : isTerminal r.stage = false)
    (hnext : Live start (h ++ [⟨.put r, .ok ()⟩]) r →
      Obeys (fundsDiscipline start Published) () (h ++ [⟨.put r, .ok ()⟩]) (f ()).run) :
    Obeys (fundsDiscipline start Published) () h (put r >>= f).run := by
  have hmay : GoesOn (savedAfter start h) r ∧ FundedPast r h := ⟨hl.saved ▸ hon, hfunded⟩
  refine obeys_put_bind hmay.1 hmay.2 fun hsaved => ?_
  exact hnext ⟨hsaved, (hl.inv.snoc (c := .put r) hmay).2, hlive⟩

/-- The cleanup, once the forward's hash is saved. -/
lemma obeys_submitCleanup_bind {f : FundsRecord → Server Published}
    (hne : start.plan.forwardTxXdr ≠ start.plan.cleanupTxXdr) (hl : Live start h record)
    (hforward : record.forwardHash ≠ none)
    (hnext : ∀ h' r, Live start h' r → Obeys (fundsDiscipline start Published) () h' (f r).run) :
    Obeys (fundsDiscipline start Published) () h (submitCleanup record >>= f).run := by
  have hplan : record.plan = start.plan := hl.saved ▸ hl.inv.1.plan
  unfold submitCleanup
  cases hcleanup : record.cleanupHash with
  | some hash => exact hnext h record hl
  | none =>
    dsimp only
    rw [LawfulMonad.bind_assoc]
    apply obeys_submitPreauthorized_bind
    · refine ⟨fun he => absurd (he.symm.trans (by rw [hplan])) hne, fun _ => ?_⟩
      rw [hl.saved]
      exact ⟨hforward, hcleanup⟩
    · intro h' hh cleanup
      have hl' := hl.quiet hh
      rw [LawfulMonad.bind_assoc]
      refine obeys_put_live hl' ?_ ?_ hl.live fun hl'' => hnext _ _ hl''
      · exact ⟨rfl, rfl, .inl rfl, fun _ => rfl, fun hset => absurd hcleanup hset⟩
      · have hpast := hl'.inv.2
        rw [hl'.saved] at hpast
        exact hpast

/-- The forward, once the landing account is funded. -/
lemma obeys_submitForward_bind {f : FundsRecord → Server Published}
    (hne : start.plan.forwardTxXdr ≠ start.plan.cleanupTxXdr) (hl : Live start h record)
    (hfunded : Funded start.plan h)
    (hdeposit : start.kind = .deposit → lastStatus h = some "completed")
    (hnext : ∀ h' r, Live start h' r → r.forwardHash ≠ none →
      Obeys (fundsDiscipline start Published) () h' (f r).run) :
    Obeys (fundsDiscipline start Published) () h (submitForward record >>= f).run := by
  have hplan : record.plan = start.plan := hl.saved ▸ hl.inv.1.plan
  unfold submitForward
  cases hforward : record.forwardHash with
  | some hash => exact hnext h record hl (by rw [hforward]; simp)
  | none =>
    dsimp only
    rw [LawfulMonad.bind_assoc]
    apply obeys_submitPreauthorized_bind
    · refine ⟨fun _ => ?_, fun he => absurd (he.symm.trans (by rw [hplan])).symm hne⟩
      rw [hl.saved]
      exact ⟨hforward, hfunded, hdeposit⟩
    · intro h' hh forward
      have hl' := hl.quiet hh
      rw [LawfulMonad.bind_assoc]
      refine obeys_put_live hl' ?_ ?_ rfl fun hl'' => hnext _ _ hl'' (by simp)
      · exact ⟨rfl, rfl, .of_le hl.live (rank_le_two hl.live), fun hset => absurd hforward hset,
          fun _ => rfl⟩
      · intro _
        rw [hplan]
        exact .inr (.inr hfunded.append)

lemma obeys_carryOut (hne : start.plan.forwardTxXdr ≠ start.plan.cleanupTxXdr)
    (hl : Live start h record) {status : String} (hfunded : Funded start.plan h)
    (hdeposit : start.kind = .deposit → lastStatus h = some "completed") :
    Obeys (fundsDiscipline start Published) () h (carryOut record status).run := by
  unfold carryOut
  refine obeys_submitForward_bind hne hl hfunded hdeposit fun h₁ r₁ hl₁ hforward => ?_
  exact obeys_submitCleanup_bind hne hl₁ hforward fun h₂ r₂ hl₂ => obeys_settle hl₂

/-- What is asked of the world outside leaves the record where it is. -/
lemma Live.ask (hl : Live start h record) {c : Cmd} {a : c.Reply} (hmay : May start h c)
    (hkeep : keep record ⟨c, a⟩ = record) : Live start (h ++ [⟨c, a⟩]) record := by
  refine ⟨?_, (hl.inv.snoc hmay).2, hl.live⟩
  rw [savedAfter_snoc, hl.saved]
  exact hkeep

/-- Once the balance is read. -/
lemma obeys_carryOn (hne : start.plan.forwardTxXdr ≠ start.plan.cleanupTxXdr)
    (hl : Live start h record) {usdc : Address} {landing : Option ℤ} {status : String}
    (hread : ⟨.simulateBalance usdc record.plan.publicKey, .ok landing⟩ ∈ h)
    (hstatus : lastStatus h = some status) :
    Obeys (fundsDiscipline start Published) () h (carryOn record status landing).run := by
  have hplan : record.plan = start.plan := hl.saved ▸ hl.inv.1.plan
  have hkind : record.kind = start.kind := hl.saved ▸ hl.inv.1.kind
  have hfunded : holds landing record.plan.amountStroops = true → Funded start.plan h := by
    intro hholds
    cases landing with
    | none => cases hholds
    | some b =>
      rw [hplan] at hread hholds
      exact ⟨usdc, b, hread, by simpa [holds] using hholds⟩
  unfold carryOn
  split_ifs with hgone hdeposit hcompleted hholds hpasskey hholds
  · exact obeys_close hl rfl
  · exact trivial
  · refine obeys_carryOut hne hl (hfunded hholds) fun _ => ?_
    rw [hstatus]
    simpa using hcompleted
  · exact trivial
  · have hf := hfunded hholds
    have hforward : rank record.stage ≤ rank .forwarding := by
      rw [hpasskey]
      decide
    refine obeys_put_live hl ?_ (fun _ => .inr (.inr ?_)) rfl fun hl' => ?_
    · exact ⟨rfl, rfl, .of_le hl.live hforward, fun _ => rfl, fun _ => rfl⟩
    · exact hplan ▸ hf
    · refine obeys_carryOut hne hl' hf.append fun hk => ?_
      exact absurd (hkind.trans hk) hdeposit
  · exact trivial
  · have hf : Funded start.plan h := by
      have hpast := hl.inv.2
      rw [hl.saved] at hpast
      have hwithdraw : record.kind = .withdraw := by
        cases hk : record.kind with
        | deposit => exact absurd hk hdeposit
        | withdraw => rfl
      rcases hpast hwithdraw with hstage | hterm | hf
      · exact absurd hstage hpasskey
      · rw [hl.live] at hterm
        cases hterm
      · exact hplan ▸ hf
    refine obeys_carryOut hne hl hf fun hk => ?_
    exact absurd (hkind.trans hk) hdeposit

/-- **A poll asks for nothing else**, whatever it is answered. -/
theorem advance_obeys (sponsor : Address)
    (hne : start.plan.forwardTxXdr ≠ start.plan.cleanupTxXdr) (hi : FundsInv start h) :
    Obeys (fundsDiscipline start Published) () h (advance sponsor (savedAfter start h)).run := by
  unfold advance
  split_ifs with hterm
  · exact trivial
  have hl : Live start h (savedAfter start h) := ⟨rfl, hi, by simpa using hterm⟩
  generalize savedAfter start h = record at hl
  refine Thrower.obeys_ask_bind (fun _ _ => trivial) trivial fun usdcReply usdc _ => ?_
  have hl₁ := hl.ask (c := .discoverAnchor record.anchorHomeDomain) (a := usdcReply) trivial rfl
  refine Thrower.obeys_ask_bind (fun _ _ => trivial) trivial fun statusReply status hstatus => ?_
  obtain rfl := rethrow_eq_ok_iff.mp hstatus
  have hl₂ := hl₁.ask (c := .sep6Transaction record.anchorHomeDomain record.sepToken record.sep6Id)
    (a := .ok status) trivial rfl
  split_ifs with hfailure
  · exact obeys_close hl₂ rfl
  unfold balance
  rw [LawfulMonad.bind_assoc]
  refine Thrower.obeys_ask_bind (fun _ _ => trivial) trivial fun sponsorReply _ _ => ?_
  have hl₃ := hl₂.ask (c := .getAccount sponsor) (a := sponsorReply) trivial rfl
  refine Thrower.obeys_ask_bind (fun _ _ => trivial) trivial fun balanceReply landing hread => ?_
  obtain rfl := rethrow_eq_ok_iff.mp hread
  have hl₄ := hl₃.ask (c := .simulateBalance usdc record.plan.publicKey) (a := .ok landing)
    trivial rfl
  refine obeys_carryOn hne hl₄ (List.mem_append_right _ List.mem_cons_self) ?_
  rw [lastStatus_snoc, lastStatus_snoc, lastStatus_snoc]
  rfl

end Obeys

/-! ## What any sequence of polls does -/

section Polls

variable {sponsor : Address} {start : FundsRecord} {h h₁ h₂ : Heard Cmd.Reply}

/-- A plan that some creation of a landing account has returned. -/
def LandingPlan.Returned (plan : LandingPlan) : Prop :=
  ∃ hash sponsor landing input heard,
    Returns (createLandingAccount hash sponsor landing input).run heard (.ok plan)

lemma LandingPlan.Returned.forward_ne_cleanup {plan : LandingPlan} (hplan : plan.Returned) :
    plan.forwardTxXdr ≠ plan.cleanupTxXdr := by
  obtain ⟨hash, sponsor, landing, input, heard, hret⟩ := hplan
  obtain ⟨kind, seq, forward, abort, hc⟩ := created hret
  exact hc.forward_ne_cleanup

/-- A transfer as `createDeposit` or `createWithdrawal` saves it. -/
structure New (record : FundsRecord) : Prop where
  stage : record.stage = match record.kind with
    | .deposit => .awaitingBank
    | .withdraw => .awaitingPasskey
  forwardHash : record.forwardHash = none
  cleanupHash : record.cleanupHash = none
  plan : record.plan.Returned

lemma New.inv (hnew : New start) : FundsInv start [] := by
  refine ⟨GoesOn.refl start, fun hk => .inl ?_⟩
  have hstage := hnew.stage
  rw [show start.kind = .withdraw from hk] at hstage
  exact hstage

/-- Along a history that asks only what it may, the record goes on. -/
lemma goesOn_of_may (hi : FundsInv start h₁)
    (hmay : ∀ h₃ c a h₄, h₂ = h₃ ++ ⟨c, a⟩ :: h₄ → May start (h₁ ++ h₃) c) :
    GoesOn (savedAfter start h₁) (savedAfter start (h₁ ++ h₂)) ∧ FundsInv start (h₁ ++ h₂) := by
  induction h₂ generalizing h₁ with
  | nil =>
    rw [List.append_nil]
    exact ⟨GoesOn.refl _, hi⟩
  | cons m h₂ ih =>
    obtain ⟨c, a⟩ := m
    have hc : May start h₁ c := by simpa using hmay [] c a h₂ rfl
    obtain ⟨hon, hi'⟩ := hi.snoc (a := a) hc
    have hrest := ih hi' fun h₃ c' a' h₄ heq => by
      have := hmay (⟨c, a⟩ :: h₃) c' a' h₄ (by rw [heq]; rfl)
      simpa using this
    rw [List.append_assoc, List.singleton_append] at hrest
    exact ⟨hon.trans hrest.1, hrest.2⟩

/-- From the start on. -/
lemma inv_of_may (hnew : New start)
    (hmay : ∀ h₁ c a h₂, h = h₁ ++ ⟨c, a⟩ :: h₂ → May start h₁ c) : FundsInv start h := by
  have hmay' : ∀ h₃ c a h₄, h = h₃ ++ ⟨c, a⟩ :: h₄ → May start ([] ++ h₃) c := by
    simpa using hmay
  exact (goesOn_of_may hnew.inv hmay').2

/-- **Every sequence of polls** asks only what it may. -/
theorem may_of_polls (hnew : New start) (hp : Polls sponsor start h) :
    ∀ h₁ c a h₂, h = h₁ ++ ⟨c, a⟩ :: h₂ → May start h₁ c := by
  induction hp with
  | start => simp
  | poll hp hears ih =>
    rename_i h h'
    have hi := inv_of_may hnew ih
    have hobeys := advance_obeys sponsor hnew.plan.forward_ne_cleanup hi
    -- what the last poll asks
    have hlast : ∀ k c a h₂, h' = k ++ ⟨c, a⟩ :: h₂ → May start (h ++ k) c := by
      rintro k c a h₂ rfl
      exact hobeys.may_of_hears hears fun _ _ => trivial
    intro h₁ c a h₂ heq
    rcases List.append_eq_append_iff.mp heq with ⟨k, rfl, hrest⟩ | ⟨k, rfl, hrest⟩
    · exact hlast k c a h₂ hrest
    · cases k with
      | nil =>
        have := hlast [] c a h₂ hrest.symm
        simpa using this
      | cons m k =>
        obtain ⟨rfl, -⟩ := List.cons.inj hrest
        exact ih h₁ c a k rfl

/-- The envelope is handed to the relay or to the node. -/
def Submits (env : Envelope) (c : Cmd) : Prop := c = .sendXdr env ∨ c = .sendTransaction env

lemma maySubmit_of_submits {c : Cmd} {env : Envelope} (hmay : May start h c)
    (hs : Submits env c) : MaySubmit start h env := by
  rcases hs with rfl | rfl <;> exact hmay

end Polls

/-- The withdrawal of two USDC, before the passkey. -/
def twoUsdcRecord : FundsRecord where
  id := "0f8fad5b-d9cb-469f-a165-70867728950e"
  kind := .withdraw
  stage := .awaitingPasskey
  anchorHomeDomain := "anchor"
  sepToken := "token"
  sep6Id := "1"
  plan := twoUsdcPlan
  forwardHash := none
  cleanupHash := none
  error := none

lemma new_twoUsdcRecord : New twoUsdcRecord := by
  obtain ⟨h, hret⟩ := returns_twoUsdcPlan
  exact ⟨rfl, rfl, rfl, twoUsdcNet.hash, "GSPONSOR", "GLANDING", twoUsdc, h, hret⟩

/-- A poll that finds the withdrawal funded: the relay takes the forward and the cleanup. -/
lemma polls_twoUsdcRecord : ∃ h, Polls "GSPONSOR" twoUsdcRecord h ∧
    ⟨.sendXdr twoUsdcPlan.cleanupTxXdr, .ok ⟨true, some "c1", none, none⟩⟩ ∈ h := by
  let forwarding : FundsRecord := { twoUsdcRecord with stage := .forwarding }
  let forwarded : FundsRecord :=
    { forwarding with forwardHash := some ⟨"f1", by decide⟩, stage := .awaitingAnchor }
  let cleaned : FundsRecord := { forwarded with cleanupHash := some ⟨"c1", by decide⟩ }
  refine ⟨[] ++ [⟨.discoverAnchor "anchor", .ok "CUSDC"⟩,
    ⟨.sep6Transaction "anchor" "token" "1", .ok ⟨"pending_user_transfer_start", none⟩⟩,
    ⟨.getAccount "GSPONSOR", .ok 50⟩, ⟨.simulateBalance "CUSDC" "GLANDING", .ok (some 20000000)⟩,
    ⟨.put forwarding, .ok ()⟩,
    ⟨.sendXdr twoUsdcPlan.forwardTxXdr, .ok ⟨true, some "f1", none, none⟩⟩,
    ⟨.pollTransaction ⟨"f1", by decide⟩ 40, .ok ⟨.success, 60⟩⟩, ⟨.put forwarded, .ok ()⟩,
    ⟨.sendXdr twoUsdcPlan.cleanupTxXdr, .ok ⟨true, some "c1", none, none⟩⟩,
    ⟨.pollTransaction ⟨"c1", by decide⟩ 40, .ok ⟨.success, 61⟩⟩, ⟨.put cleaned, .ok ()⟩],
    Polls.start.poll ?_, by simp⟩
  refine Returns.hears (a := .ok ⟨cleaned, some "pending_user_transfer_start"⟩) ?_
  iterate 11 refine returns_call_cons.mpr ?_
  exact returns_done.mpr ⟨rfl, rfl⟩

section Polls

variable {sponsor : Address} {start : FundsRecord} {h : Heard Cmd.Reply}

/-- **Fund transfers advance safely.** In every sequence of polls of a new transfer, whatever the
world outside answers and wherever a poll ends: the saved stage does not go back, and ends where it
is terminal; the forward is submitted only when the landing account was read to hold the planned
amount, for a deposit when the anchor's word is `completed`, and never once its hash was saved; the
cleanup is submitted only with the forward's hash saved, and never once its own was.

**Proof sketch.** Every poll asks only what it may (`may_of_polls`); along such a history the saved
record goes on (`goesOn_of_may`), so a hash that was saved once is there when an envelope is
submitted. -/
theorem funds_advance_safely (hnew : New start) (hp : Polls sponsor start h) :
    (∀ h₁ h₂, h = h₁ ++ h₂ → Onward (savedAfter start h₁).stage (savedAfter start h).stage) ∧
    ∀ h₁ c a h₂, h = h₁ ++ ⟨c, a⟩ :: h₂ →
      (Submits start.plan.forwardTxXdr c →
        Funded start.plan h₁ ∧ (start.kind = .deposit → lastStatus h₁ = some "completed") ∧
        ∀ h₀, h₀ <+: h₁ → (savedAfter start h₀).forwardHash = none) ∧
      (Submits start.plan.cleanupTxXdr c →
        (savedAfter start h₁).forwardHash ≠ none ∧
        ∀ h₀, h₀ <+: h₁ → (savedAfter start h₀).cleanupHash = none) := by
  have hmay := may_of_polls hnew hp
  -- the saved record goes on between any two points of the history
  have hon : ∀ h₀ h₁ h₂, h = h₀ ++ h₁ ++ h₂ →
      GoesOn (savedAfter start h₀) (savedAfter start (h₀ ++ h₁)) := by
    rintro h₀ h₁ h₂ heq
    have hi : FundsInv start h₀ := inv_of_may hnew fun h₃ c a h₄ heq' =>
      hmay h₃ c a (h₄ ++ h₁ ++ h₂) (by rw [heq, heq']; simp)
    refine (goesOn_of_may hi fun h₃ c a h₄ heq' => ?_).1
    exact hmay (h₀ ++ h₃) c a (h₄ ++ h₂) (by rw [heq, heq']; simp)
  refine ⟨?_, ?_⟩
  · rintro h₁ h₂ rfl
    exact (hon h₁ h₂ [] (by simp)).stage
  · rintro h₁ c a h₂ rfl
    have hc := hmay h₁ c a h₂ rfl
    refine ⟨fun hs => ?_, fun hs => ?_⟩
    · obtain ⟨hnone, hfunded, hdeposit⟩ := (maySubmit_of_submits hc hs).forward rfl
      refine ⟨hfunded, hdeposit, ?_⟩
      rintro h₀ ⟨k, rfl⟩
      by_contra hset
      exact hset (((hon h₀ k (⟨c, a⟩ :: h₂) (by simp)).forwardHash hset).symm.trans hnone)
    · obtain ⟨hforward, hnone⟩ := (maySubmit_of_submits hc hs).cleanup rfl
      refine ⟨hforward, ?_⟩
      rintro h₀ ⟨k, rfl⟩
      by_contra hset
      exact hset (((hon h₀ k (⟨c, a⟩ :: h₂) (by simp)).cleanupHash hset).symm.trans hnone)

theorem funds_advance_safely_twoUsdc : ∃ h, Polls "GSPONSOR" twoUsdcRecord h ∧
    (∀ h₁ h₂, h = h₁ ++ h₂ →
      Onward (savedAfter twoUsdcRecord h₁).stage (savedAfter twoUsdcRecord h).stage) ∧
    ∀ h₁ c a h₂, h = h₁ ++ ⟨c, a⟩ :: h₂ →
      (Submits twoUsdcPlan.forwardTxXdr c →
        Funded twoUsdcPlan h₁ ∧
        (twoUsdcRecord.kind = .deposit → lastStatus h₁ = some "completed") ∧
        ∀ h₀, h₀ <+: h₁ → (savedAfter twoUsdcRecord h₀).forwardHash = none) ∧
      (Submits twoUsdcPlan.cleanupTxXdr c →
        (savedAfter twoUsdcRecord h₁).forwardHash ≠ none ∧
        ∀ h₀, h₀ <+: h₁ → (savedAfter twoUsdcRecord h₀).cleanupHash = none) := by
  obtain ⟨h, hp, -⟩ := polls_twoUsdcRecord
  exact ⟨h, hp, funds_advance_safely new_twoUsdcRecord hp⟩

end Polls

end Koul.Anchor
