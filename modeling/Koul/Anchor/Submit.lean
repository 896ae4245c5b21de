import Koul.Anchor.Types

set_option relaxedAutoImplicit false
set_option autoImplicit false

/-!
# Submitting transactions

How the server sends a transaction and waits for it: `submit` polls the node, broadcasts once more
when the node has lost sight of it, and can look at the world instead of the node's index.
`submitSponsored` rebuilds a transaction of the sponsor's when its sequence number collided;
`submitPreauthorized` asks the relay first.

## Main definitions

* `Koul.Anchor.submit`, `submitSponsored`, `submitPreauthorized`.

## Main results

* `Koul.Anchor.confirmed_of_submit` — a submission without a look at the world succeeds only on
  the node's word that the transaction landed.
-/

namespace Koul.Anchor

open Stellar (Tx Envelope)
open Interleaving Interleaving.Prog

structure Submitted where
  hash : TxHash
  ledger : ℕ
deriving DecidableEq, Repr

def submitFailed (message : String) : Failure := .landing .submitFailed message

/-- The `landed` check, when the caller hands one over. -/
def isLanded (landed : Option (Server Bool)) : Server Bool :=
  match landed with
  | none => pure false
  | some check => tryCatch check fun _ => pure false

/-- What follows when the node does not find the transaction after the first poll. -/
def rebroadcast (env : Envelope) (sent : Sent) (landed : Option (Server Bool)) :
    Server Submitted := do
  if ← isLanded landed then return ⟨sent.hash, 0⟩
  else
    let again ← sendTransaction env
    if again.status = .error then
      throw (submitFailed s!"transaction {sent.hash.hex} {TxStatus.notFound.text}")
    else
      let second ← pollTransaction sent.hash 20
      if second.status = .success then return ⟨sent.hash, second.ledger⟩
      else if ← isLanded landed then return ⟨sent.hash, 0⟩
      else
        throw (submitFailed
          s!"transaction {sent.hash.hex} {second.status.text} after a re-broadcast")

/-- Submit and wait for inclusion. -/
def submit (env : Envelope) (landed : Option (Server Bool)) : Server Submitted := do
  let sent ← sendTransaction env
  if sent.status = .error then
    throw (submitFailed s!"transaction rejected: {sent.code} ({sent.errorXdr})")
  else
    let polled ← pollTransaction sent.hash 20
    match polled.status with
    | .success => return ⟨sent.hash, polled.ledger⟩
    | .notFound => rebroadcast env sent landed
    | .failed => throw (submitFailed s!"transaction {sent.hash.hex} {polled.status.text}")

/-- A rejection for a sequence number that collided. -/
def badSeq : Failure → Bool
  | .landing _ message => includes message "txBadSeq"
  | .thrown _ => false

structure Sponsored where
  hash : TxHash
  ledger : ℕ
  fee : ℕ
deriving DecidableEq, Repr

/-- One attempt at a sponsor-sourced transaction, built against the sponsor's current sequence and
signed by the sponsor and the landing key. -/
def attemptSponsored (sponsor landing : Address) (build : ℕ → ℕ → Tx)
    (landed : Option (Server Bool)) : Server (ℕ × Except Failure Submitted) := do
  let sequence ← getAccount sponsor
  let now ← tell .clock
  let tx := build now sequence
  tell (.sign tx)
  let out ← tryCatch (do return .ok (← submit ⟨tx, [sponsor, landing]⟩ landed))
    fun e => return .error e
  return (tx.fee, out)

/-- A sponsor-sourced transaction, tried again with a fresh sequence when the network rejects it as
a bad one. -/
def submitSponsored (sponsor landing : Address) (build : ℕ → ℕ → Tx)
    (landed : Option (Server Bool)) : ℕ → Server Sponsored
  | 0 => throw (.thrown "undefined")
  | attempts + 1 => do
    let (fee, out) ← attemptSponsored sponsor landing build landed
    match out with
    | .ok s => return ⟨s.hash, s.ledger, fee⟩
    | .error e =>
      if !badSeq e || attempts = 0 then throw e
      else
        tell .sleep
        submitSponsored sponsor landing build landed attempts

inductive Via
  | relay | direct
deriving DecidableEq, Repr

structure PreauthResult where
  hash : TxHash
  ledger : ℕ
  via : Via
  relayError : Option String
deriving DecidableEq, Repr

/-- Submit a pre-authorized envelope: relay first, direct as last resort. -/
def submitPreauthorized (env : Envelope) : Server PreauthResult := do
  let relayed ← Thrower.ask (.sendXdr env) rethrow
  match relayed.success, TxHash.ofText relayed.hash with
  | true, some hash =>
    let polled ← pollTransaction hash 40
    if polled.status = .success then return ⟨hash, polled.ledger, .relay, none⟩
    else
      throw (submitFailed
        s!"relayed pre-authorized transaction {hash.hex} ended {polled.status.text}")
  | _, _ =>
    let direct ← submit env none
    return ⟨direct.hash, direct.ledger, .direct, relayed.error⟩

/-! ## What a submission sends -/

section Sends

variable {P : Cmd → Prop} {env : Envelope} {landed : Option (Server Bool)}

lemma sends_isLanded (hlanded : ∀ check, landed = some check → Sends P check.run) :
    Sends P (isLanded landed).run := by
  cases landed with
  | none => exact trivial
  | some check => exact Thrower.sends_tryCatch (hlanded check rfl) fun _ => trivial

lemma sends_rebroadcast {sent : Sent} (hsend : P (.sendTransaction env))
    (hpoll : ∀ hash n, P (.pollTransaction hash n))
    (hlanded : ∀ check, landed = some check → Sends P check.run) :
    Sends P (rebroadcast env sent landed).run := by
  unfold rebroadcast
  apply Thrower.sends_bind (sends_isLanded hlanded)
  intro seen
  split_ifs
  · exact trivial
  apply Thrower.sends_bind (Thrower.sends_ask hsend)
  intro again
  split_ifs
  · exact trivial
  apply Thrower.sends_bind (Thrower.sends_ask (hpoll _ _))
  intro second
  split_ifs
  · exact trivial
  apply Thrower.sends_bind (sends_isLanded hlanded)
  intro seen
  split_ifs <;> exact trivial

/-- A submission sends its envelope and asks for its hash. -/
lemma sends_submit (hsend : P (.sendTransaction env))
    (hpoll : ∀ hash n, P (.pollTransaction hash n))
    (hlanded : ∀ check, landed = some check → Sends P check.run) :
    Sends P (submit env landed).run := by
  unfold submit
  apply Thrower.sends_bind (Thrower.sends_ask hsend)
  intro sent
  split_ifs
  · exact trivial
  apply Thrower.sends_bind (Thrower.sends_ask (hpoll _ _))
  intro polled
  split
  · exact trivial
  · exact sends_rebroadcast hsend hpoll hlanded
  · exact trivial

/-- A preauthorized envelope goes to the relay, and to the node. -/
lemma sends_submitPreauthorized (hrelay : P (.sendXdr env)) (hsend : P (.sendTransaction env))
    (hpoll : ∀ hash n, P (.pollTransaction hash n)) : Sends P (submitPreauthorized env).run := by
  unfold submitPreauthorized
  apply Thrower.sends_bind (Thrower.sends_ask hrelay)
  intro relayed
  split
  · apply Thrower.sends_bind (Thrower.sends_ask (hpoll _ _))
    intro polled
    split_ifs <;> exact trivial
  · apply Thrower.sends_bind (sends_submit hsend hpoll (by simp))
    exact fun _ => trivial

end Sends

/-! ## What a submission hears -/

/-- The node has said that the transaction landed: it answered the transaction with a hash, and
the hash with a success. -/
def Confirmed (h : Heard Cmd.Reply) (env : Envelope) (hash : TxHash) : Prop :=
  ∃ sent n polled, ⟨.sendTransaction env, .ok sent⟩ ∈ h ∧ sent.hash = hash ∧
    ⟨.pollTransaction hash n, .ok polled⟩ ∈ h ∧ polled.status = .success

lemma Confirmed.mono {h h' : Heard Cmd.Reply} {env : Envelope} {hash : TxHash}
    (hc : Confirmed h env hash) (hsub : ∀ m ∈ h, m ∈ h') : Confirmed h' env hash := by
  obtain ⟨sent, n, polled, hsent, hhash, hpolled, hok⟩ := hc
  exact ⟨sent, n, polled, hsub _ hsent, hhash, hsub _ hpolled, hok⟩

section Returns

variable {h : Heard Cmd.Reply} {env : Envelope} {s : Submitted}

lemma rethrow_eq_ok_iff {α : Type} {r : Except String α} {a : α} :
    rethrow r = .ok a ↔ r = .ok a := by
  cases r <;> simp [rethrow, Except.mapError]

lemma returns_sendTransaction {sent : Sent} :
    Returns (sendTransaction env).run h (.ok sent) ↔ h = [⟨.sendTransaction env, .ok sent⟩] :=
  Thrower.returns_ask_ok fun _ => rethrow_eq_ok_iff

lemma returns_pollTransaction {hash : TxHash} {n : ℕ} {polled : Polled} :
    Returns (pollTransaction hash n).run h (.ok polled) ↔
      h = [⟨.pollTransaction hash n, .ok polled⟩] :=
  Thrower.returns_ask_ok fun _ => rethrow_eq_ok_iff

lemma returns_getAccount {address : Address} {n : ℕ} :
    Returns (getAccount address).run h (.ok n) ↔ h = [⟨.getAccount address, .ok n⟩] :=
  Thrower.returns_ask_ok fun _ => rethrow_eq_ok_iff

lemma returns_tell {c : Cmd} {r : c.Reply} :
    Returns (tell c).run h (.ok r) ↔ h = [⟨c, r⟩] := by
  apply Thrower.returns_ask_ok
  simp

/-- A re-broadcast without a look at the world succeeds only on a second poll. -/
lemma returns_rebroadcast {sent : Sent} (hret : Returns (rebroadcast env sent none).run h (.ok s)) :
    s.hash = sent.hash ∧ ∃ again second,
      h = [⟨.sendTransaction env, .ok again⟩, ⟨.pollTransaction sent.hash 20, .ok second⟩] ∧
        second.status = .success := by
  unfold rebroadcast at hret
  obtain ⟨h₁, seen, h₂, rfl, hseen, hnext⟩ := Thrower.returns_bind_ok.mp hret
  obtain ⟨rfl, hfalse⟩ := hseen
  obtain rfl := Except.ok.inj hfalse
  rw [if_neg (by simp)] at hnext
  obtain ⟨h₃, again, h₄, rfl, hagain, hthen⟩ := Thrower.returns_bind_ok.mp hnext
  rw [returns_sendTransaction] at hagain
  subst hagain
  split_ifs at hthen with herr
  · simp at hthen
  obtain ⟨h₅, second, h₆, rfl, hsecond, hend⟩ := Thrower.returns_bind_ok.mp hthen
  rw [returns_pollTransaction] at hsecond
  subst hsecond
  split_ifs at hend with hok
  · obtain ⟨rfl, hs⟩ := hend
    obtain rfl := Except.ok.inj hs
    exact ⟨rfl, again, second, rfl, hok⟩
  · obtain ⟨h₇, seen', h₈, rfl, hseen', hlast⟩ := Thrower.returns_bind_ok.mp hend
    obtain ⟨rfl, hfalse'⟩ := hseen'
    obtain rfl := Except.ok.inj hfalse'
    rw [if_neg (by simp)] at hlast
    simp at hlast

/-- **A confirmed submission**: without a look at the world, `submit` succeeds only on the node's
word. -/
lemma confirmed_of_submit (hret : Returns (submit env none).run h (.ok s)) :
    Confirmed h env s.hash := by
  unfold submit at hret
  obtain ⟨h₁, sent, h₂, rfl, hsend, hnext⟩ := Thrower.returns_bind_ok.mp hret
  rw [returns_sendTransaction] at hsend
  subst hsend
  split_ifs at hnext with herr
  · simp at hnext
  obtain ⟨h₃, polled, h₄, rfl, hpoll, hthen⟩ := Thrower.returns_bind_ok.mp hnext
  rw [returns_pollTransaction] at hpoll
  subst hpoll
  cases hstatus : polled.status with
  | success =>
    rw [hstatus] at hthen
    obtain ⟨rfl, hs⟩ := hthen
    obtain rfl := Except.ok.inj hs
    exact ⟨sent, 20, polled, by simp, rfl, by simp, hstatus⟩
  | notFound =>
    rw [hstatus] at hthen
    obtain ⟨hhash, again, second, rfl, hok⟩ := returns_rebroadcast hthen
    exact ⟨sent, 20, second, by simp, hhash.symm, by simp [hhash], hok⟩
  | failed =>
    rw [hstatus] at hthen
    simp at hthen

end Returns

end Koul.Anchor
