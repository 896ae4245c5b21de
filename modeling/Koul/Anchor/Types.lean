import Mathlib.Data.List.Infix
import Koul.Lib.Heard
import Koul.Lib.Stellar
import Koul.Soroban

set_option relaxedAutoImplicit false
set_option autoImplicit false

/-!
# Landing accounts and fund transfers

The data of a transfer between a bank and a contract wallet, and what the server asks of the
world outside: the Stellar node, the relay, the anchor, its own store, and the landing key.

## Main definitions

* `Koul.Anchor.LandingPlan`, `FundsRecord` — what the server keeps.
* `Koul.Anchor.Cmd` — what it asks, and `Cmd.Reply` what it can be answered.

## Design

An envelope stands for its XDR text. A call that can throw is answered with `Except`. Each use of
the landing key is a command of its own, so that everything the key ever signs is heard; wiping
the key is one too. A hash that is set is a text that is not empty, as the source tests it.
-/

namespace Koul.Anchor

open Stellar (Tx Envelope Asset SorobanData)
open Interleaving

/-- A transaction hash as a node or the relay prints it. -/
structure TxHash where
  hex : String
  hex_ne : hex ≠ ""
deriving DecidableEq, Repr

/-- An optional text that counts as set. -/
def TxHash.ofText (text : Option String) : Option TxHash :=
  match text with
  | none => none
  | some hex => if h : hex ≠ "" then some ⟨hex, h⟩ else none

inductive LandingType
  | onramp | offramp
deriving DecidableEq, Repr

inductive LandingKind
  | onramp (destinationContract : Address) (amountStroops : ℤ)
  | offramp (treasury : Address) (memoId : String) (amountStroops : ℤ)
deriving DecidableEq, Repr

namespace LandingKind

/-- Where the forward pays to. -/
def destination : LandingKind → Address
  | onramp destinationContract _ => destinationContract
  | offramp treasury _ _ => treasury

def type : LandingKind → LandingType
  | onramp _ _ => .onramp
  | offramp _ _ _ => .offramp

def amountStroops : LandingKind → ℤ
  | onramp _ amount => amount
  | offramp _ _ amount => amount

end LandingKind

/-- Everything a caller needs later. -/
structure LandingPlan where
  publicKey : Address
  kind : LandingType
  amountStroops : ℤ
  createTxHash : TxHash
  lockTxHash : TxHash
  forwardTxXdr : Envelope
  forwardTxHash : ℕ
  cleanupTxXdr : Envelope
  cleanupTxHash : ℕ
  sponsorFeesStroops : ℕ
  challengesSigned : ℕ
  abortTxXdr : Option Envelope
  abortTxHash : Option ℕ
deriving DecidableEq, Repr

inductive FundsKind
  | deposit | withdraw
deriving DecidableEq, Repr

inductive FundsStage
  | awaitingBank | awaitingPasskey | awaitingAnchor | forwarding | completed | failed
deriving DecidableEq, Repr

structure FundsRecord where
  id : String
  kind : FundsKind
  stage : FundsStage
  anchorHomeDomain : String
  sepToken : String
  sep6Id : String
  plan : LandingPlan
  forwardHash : Option TxHash
  cleanupHash : Option TxHash
  error : Option String
deriving DecidableEq, Repr

inductive SendStatus
  | pending | duplicate | tryAgainLater | error
deriving DecidableEq, Repr

/-- What the node answers to a transaction it is sent. -/
structure Sent where
  status : SendStatus
  hash : TxHash
  /-- The name of the rejection, `unknown` when the node gives none. -/
  code : String
  errorXdr : String
deriving DecidableEq, Repr

inductive TxStatus
  | success | failed | notFound
deriving DecidableEq, Repr

def TxStatus.text : TxStatus → String
  | success => "SUCCESS"
  | failed => "FAILED"
  | notFound => "NOT_FOUND"

structure Polled where
  status : TxStatus
  ledger : ℕ
deriving DecidableEq, Repr

structure Simulated where
  transactionData : SorobanData
  minResourceFee : ℕ
deriving DecidableEq, Repr

structure RelayAnswer where
  success : Bool
  hash : Option String
  error : Option String
  errorCode : Option String
deriving DecidableEq, Repr

inductive LandingCode
  | simulationFailed | submitFailed | sponsorUnderfunded
deriving DecidableEq, Repr

/-- What a call throws: a `LandingError`, or any other error. -/
inductive Failure
  | landing (code : LandingCode) (message : String)
  | thrown (message : String)
deriving DecidableEq, Repr

/-- What the caller's hook does with the landing key: the transactions it asks to sign, in order,
and its end. -/
structure Hook where
  asked : List Tx
  outcome : Except Failure LandingKind

structure Sep6Transaction where
  status : String
  message : Option String
deriving DecidableEq, Repr

/-- What the server asks. -/
inductive Cmd
  | clock
  | getAccount (address : Address)
  | sendTransaction (env : Envelope)
  | pollTransaction (hash : TxHash) (attempts : ℕ)
  | simulateTransaction (tx : Tx)
  | sendXdr (env : Envelope)
  | beforeLock (publicKey : Address)
  /-- The landing key signs. -/
  | sign (tx : Tx)
  | wipe
  | sleep
  | discoverAnchor (domain : String)
  | sep6Transaction (domain token id : String)
  /-- The simulated USDC balance of an account. -/
  | simulateBalance (contract address : Address)
  | put (record : FundsRecord)

/-- What it can be answered. -/
@[reducible] def Cmd.Reply : Cmd → Type
  | .clock => ℕ
  | .getAccount _ => Except String ℕ
  | .sendTransaction _ => Except String Sent
  | .pollTransaction _ _ => Except String Polled
  -- what the simulation found, or its own error
  | .simulateTransaction _ => Except String (Except String Simulated)
  | .sendXdr _ => Except String RelayAnswer
  | .beforeLock _ => Hook
  | .sign _ => Unit
  | .wipe => Unit
  | .sleep => Unit
  -- the USDC contract of the anchor
  | .discoverAnchor _ => Except String Address
  | .sep6Transaction _ _ _ => Except String Sep6Transaction
  -- `none` when the simulation does not succeed
  | .simulateBalance _ _ => Except String (Option ℤ)
  -- an error may come before or after the record is kept
  | .put _ => Except Bool Unit

/-- The text has the part in it. -/
def includes (text part : String) : Bool := decide (part.toList <:+: text.toList)

/-- A program of the server. -/
abbrev Server (α : Type) : Type := Thrower Cmd.Reply Failure α

/-- Sends a command whose answer is never an error. -/
def tell (c : Cmd) : Server (Cmd.Reply c) := Thrower.ask c .ok

/-- An error that the caller does not handle. -/
def rethrow {α : Type} (r : Except String α) : Except Failure α := r.mapError .thrown

def getAccount (address : Address) : Server ℕ := Thrower.ask (.getAccount address) rethrow

def sendTransaction (env : Envelope) : Server Sent := Thrower.ask (.sendTransaction env) rethrow

def pollTransaction (hash : TxHash) (attempts : ℕ) : Server Polled :=
  Thrower.ask (.pollTransaction hash attempts) rethrow

end Koul.Anchor
