import Mathlib.Data.Finset.Insert
import Koul.Anchor.Types

set_option relaxedAutoImplicit false
set_option autoImplicit false

/-!
# The fee relay

The relay of `web/lib/relay-server.ts` and its route: it pays for deploys of Koul's account build and
for calls into Koul's own contracts, from a pool of channel accounts, and passes every other request
to SDF's relay.

## Main definitions

* `Koul.Relay.Cmd` — what the relay asks the world outside, and its own memory of wallets.
* `Koul.Relay.submitSponsored` — submits a host function, up to eight times.
* `Koul.Relay.POST` — the route.

## Design

`lockChannel` waits for a channel as long as the clock says, so it is given a number of rounds: a run
that ends has used finitely many. The order in which free channels are tried is random, and comes from
outside as some permutation. A request stands for its decoded body.
-/

namespace Koul.Relay

open Interleaving Interleaving.Prog
open Anchor (SendStatus TxStatus TxHash)

/-! ## Data -/

/-- The build of the account contract that every Koul wallet uses. -/
def ACCOUNT_WASM : String := "1b5f4534a76322da2ad7c745f6900857a6802b0ca79850c35a03561df997785a"

/-- What a contract runs. -/
inductive Executable
  | wasm (hash : String)
  | stellarAsset
deriving DecidableEq, Repr

inductive HostFunction
  | invokeContract (contractAddress : Address) (functionName : String) (args : List String)
  | createContract (executable : Executable)
  | createContractV2 (executable : Executable)
  | uploadContractWasm
deriving DecidableEq, Repr

/-- A signed authorization, by its text. -/
abbrev AuthEntry := String

/-- A host function that deploys Koul's account build. -/
def isAccountDeploy : HostFunction → Bool
  | .createContract executable | .createContractV2 executable => executable == .wasm ACCOUNT_WASM
  | _ => false

/-- The accounts that pay. -/
inductive Source
  | keeper
  | channel (i : ℕ)
deriving DecidableEq, Repr

/-- A transaction of the relay. -/
structure SponsoredTx where
  source : Source
  sequence : ℕ
  func : HostFunction
  auth : List AuthEntry
deriving DecidableEq, Repr

/-- What the node answers to a transaction it is sent; the result code is there on some rejections. -/
structure Sent where
  status : SendStatus
  hash : String
  errorResult : Option String
deriving DecidableEq, Repr

def statusText : SendStatus → String
  | .pending => "PENDING"
  | .duplicate => "DUPLICATE"
  | .tryAgainLater => "TRY_AGAIN_LATER"
  | .error => "ERROR"

/-- The node has taken the transaction. -/
def Sent.accepted (sent : Sent) : Bool := sent.status == .pending || sent.status == .duplicate

/-- What SDF's relay answers. -/
structure Forwarded where
  status : ℕ
  /-- The answer matches `/not allowlisted/i`. -/
  notAllowlisted : Bool
  answer : String
deriving DecidableEq, Repr

/-- A request's body. A text that is no function or no authorization decodes to `none`. -/
inductive Body
  | invalid
  | null
  | other
  | call (func : Option HostFunction) (auth : List (Option AuthEntry))
deriving DecidableEq, Repr

inductive Failure
  | rejected (code : String)
  | accountMissing
  | thrown (message : String)
deriving DecidableEq, Repr

def Failure.message : Failure → String
  | rejected code => s!"The transaction was rejected: {code}"
  | accountMissing => "The relay account is missing"
  | thrown message => message

inductive Response
  | success (hash : String)
  | failure (status : ℕ) (error : Failure)
  | forwarded (status : ℕ) (answer : String)
deriving DecidableEq, Repr

/-- What the relay runs with. -/
structure Config where
  /-- The Redis store is set up. -/
  hasStore : Bool
  RELAY_CHANNELS : ℕ
  /-- `KEEPER_SECRET` is set. -/
  hasSecret : Bool
  KOUL_TARGETS : List Address
deriving DecidableEq, Repr

/-! ## Commands -/

inductive Cmd
  | now
  | sleep (ms : ℕ)
  | shuffle (order : List ℕ)
  /-- `SET koul:relay:channel:i NX EX 12`. -/
  | setLock (channel : ℕ)
  | getAccount (source : Source)
  | prepareTransaction (tx : SponsoredTx)
  | sendTransaction (tx : SponsoredTx)
  | pollTransaction (hash : String)
  /-- `walletContracts.has` and `walletContracts.add`. -/
  | hasWallet (contract : Address)
  | addWallet (contract : Address)
  /-- What the instance entry of a contract says that it runs. -/
  | getLedgerEntries (contract : Address)
  | forward (body : Body)
  | recordRelayFailure (what error : String)
deriving DecidableEq, Repr

@[reducible] def Cmd.Reply : Cmd → Type
  | .now => ℕ
  | .sleep _ => Unit
  | .shuffle order => { order' : List ℕ // order'.Perm order }
  | .setLock _ => Except String Bool
  | .getAccount _ => Except String ℕ
  | .prepareTransaction _ => Except String Unit
  | .sendTransaction _ => Except String Sent
  | .pollTransaction _ => Except String TxStatus
  | .hasWallet _ => Bool
  | .addWallet _ => Unit
  | .getLedgerEntries _ => Except String (Option Executable)
  | .forward _ => Except String Forwarded
  | .recordRelayFailure _ _ => Unit

abbrev RelayProg (α : Type) : Type := Thrower Cmd.Reply Failure α

/-- Sends a command whose answer is never an error. -/
def tell (c : Cmd) : RelayProg c.Reply := Thrower.ask c .ok

def rethrow {α : Type} (r : Except String α) : Except Failure α := r.mapError .thrown

/-! ## Channels -/

/-- Tries to lock one channel after another. -/
def lockFirst : List ℕ → RelayProg (Option ℕ)
  | [] => return none
  | i :: order => do
    if ← Thrower.ask (.setLock i) rethrow then return some i
    else lockFirst order

def WAIT_MS : ℕ := 12000

/-- Waits for a free channel until the clock says `stop`. -/
def waitChannel (channels : ℕ) (skip : Finset ℕ) (stop : ℕ) : ℕ → RelayProg (Option ℕ)
  | 0 => return none
  | rounds + 1 => do
    let now : ℕ ← tell .now
    if stop ≤ now then return none
    else
      let order ← tell (.shuffle ((List.range channels).filter fun i => i ∉ skip))
      if order.1 = [] then return none
      else
        match ← lockFirst order.1 with
        | some i => return some i
        | none =>
          tell (.sleep 400)
          waitChannel channels skip stop rounds

/-- Locks a channel for a transaction; `none` stands for the keeper's own account. -/
def lockChannel (cfg : Config) (rounds : ℕ) (skip : Finset ℕ) : RelayProg (Option ℕ) := do
  if !cfg.hasStore || cfg.RELAY_CHANNELS == 0 then return none
  else
    let now : ℕ ← tell .now
    waitChannel cfg.RELAY_CHANNELS skip (now + WAIT_MS) rounds

/-! ## Submitting -/

/-- What one try leaves to the next. -/
structure Tries where
  skip : Finset ℕ
  lastCode : String
  onChainFailures : ℕ

/-- How a try ends. -/
inductive Next
  | again (st : Tries)
  | stop (st : Tries)
  | sent (hash : String)

/-- The node took the transaction: wait for its result. -/
def awaitResult (st : Tries) (hash : String) : RelayProg Next := do
  let done ← Thrower.ask (.pollTransaction hash) rethrow
  if done ≠ .failed then return .sent hash
  else
    let st := { st with lastCode := "failed on-chain", onChainFailures := st.onChainFailures + 1 }
    if st.onChainFailures ≥ 3 then return .stop st
    else return .again st

/-- The node refused the transaction. -/
def refused (st : Tries) (channel : Option ℕ) (sent : Sent) : RelayProg Next := do
  let lastCode := sent.errorResult.getD (statusText sent.status)
  let st := { st with lastCode }
  if lastCode ≠ "txBadSeq" ∧ sent.status ≠ .tryAgainLater ∧ lastCode ≠ "txInsufficientBalance" then
    return .stop st
  else
    match channel with
    | some index =>
      if lastCode = "txInsufficientBalance" then
        return .again { st with skip := insert index st.skip }
      else return .again st
    | none =>
      tell (.sleep 2500)
      return .again st

/-- Who pays: the locked channel, or the keeper. -/
def sourceOf : Option ℕ → Source
  | some i => .channel i
  | none => .keeper

/-- Builds, signs and sends the transaction. -/
def sendFrom (st : Tries) (channel : Option ℕ) (tx : SponsoredTx) : RelayProg Next := do
  Thrower.ask (.prepareTransaction tx) rethrow
  let sent ← Thrower.ask (.sendTransaction tx) rethrow
  if sent.accepted then awaitResult st sent.hash
  else refused st channel sent

/-- One try. A channel that was never funded is left out of the next ones. -/
def attempt (cfg : Config) (rounds : ℕ) (func : HostFunction) (auth : List AuthEntry) (st : Tries) :
    RelayProg Next := do
  let channel ← lockChannel cfg rounds st.skip
  let account : Except String ℕ ← tell (.getAccount (sourceOf channel))
  match account, channel with
  | .error _, some index => return .again { st with skip := insert index st.skip }
  | .error _, none => throw .accountMissing
  | .ok sequence, _ => sendFrom st channel ⟨sourceOf channel, sequence, func, auth⟩

/-- The tries that are left. -/
def tries (cfg : Config) (rounds : ℕ) (func : HostFunction) (auth : List AuthEntry) :
    ℕ → Tries → RelayProg String
  | 0, st => throw (.rejected st.lastCode)
  | n + 1, st => do
    match ← attempt cfg rounds func auth st with
    | .again st => tries cfg rounds func auth n st
    | .stop st => throw (.rejected st.lastCode)
    | .sent hash => return hash

/-- Submits the host function with the signed authorization, and returns the hash of the transaction
that landed. -/
def submitSponsored (cfg : Config) (rounds : ℕ) (func : HostFunction) (auth : List AuthEntry) :
    RelayProg String :=
  tries cfg rounds func auth 8 ⟨∅, "no channel", 0⟩

/-! ## The route -/

/-- Whether the contract runs Koul's account build; an error counts as no. -/
def isKoulWallet (contract : Address) : RelayProg Bool := do
  if ← tell (.hasWallet contract) then return true
  else
    let entry : Except String (Option Executable) ← tell (.getLedgerEntries contract)
    match entry with
    | .error _ => return false
    | .ok exec =>
      if exec = some (.wasm ACCOUNT_WASM) then
        tell (.addWallet contract)
        return true
      else return false

/-- A host function that calls one of Koul's own contracts or a Koul wallet. -/
def isKoulCall (cfg : Config) : HostFunction → RelayProg Bool
  | .invokeContract target _ _ =>
    if target ∈ cfg.KOUL_TARGETS then return true
    else isKoulWallet target
  | _ => return false

/-- Reads the authorizations and submits. -/
def submitRaw (cfg : Config) (rounds : ℕ) (func : HostFunction) (rawAuth : List (Option AuthEntry)) :
    RelayProg String :=
  match rawAuth.mapM id with
  | none => throw (.thrown "XDR Read Error")
  | some auth => submitSponsored cfg rounds func auth

/-- Pays for it, answering in the relay's wire format. -/
def sponsor (cfg : Config) (rounds : ℕ) (func : HostFunction) (rawAuth : List (Option AuthEntry))
    (what : String) : RelayProg Response := do
  if !cfg.hasSecret then
    return .failure 503 (.thrown "Fee sponsoring is not configured on this server")
  else
    tryCatch (do return .success (← submitRaw cfg rounds func rawAuth)) fun e => do
      tell (.recordRelayFailure what e.message)
      return .failure 502 e

/-- Answers with what SDF's relay answered. -/
def answerForwarded (forwarded : Forwarded) : RelayProg Response :=
  if forwarded.status ≥ 500 then do
    tell (.recordRelayFailure "SDF relayer" s!"{forwarded.status} {forwarded.answer}")
    return .forwarded forwarded.status forwarded.answer
  else return .forwarded forwarded.status forwarded.answer

/-- Passes the request to SDF's relay; a call it refuses as not allowlisted is paid here when it is
Koul's. -/
def passOn (cfg : Config) (rounds : ℕ) (body : Body) : RelayProg Response := do
  let forwarded ← Thrower.ask (.forward body) rethrow
  match body with
  | .call (some func) auth =>
    if forwarded.status = 403 ∧ forwarded.notAllowlisted then
      if ← isKoulCall cfg func then sponsor cfg rounds func auth "Koul contract call"
      else answerForwarded forwarded
    else answerForwarded forwarded
  | _ => answerForwarded forwarded

/-- The route of the relay. -/
def POST (cfg : Config) (rounds : ℕ) (body : Body) : RelayProg Response := do
  match body with
  | .invalid => return .failure 400 (.thrown "Invalid JSON")
  | .null => throw (.thrown "Cannot read properties of null (reading 'func')")
  | .call (some func) auth =>
    if isAccountDeploy func then sponsor cfg rounds func auth "account deploy"
    else if ← isKoulCall cfg func then sponsor cfg rounds func auth "Koul contract call"
    else passOn cfg rounds body
  | _ => passOn cfg rounds body

end Koul.Relay
