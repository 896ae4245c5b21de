import Koul.Anchor.Types
import Koul.Lib.Utf16
import Koul.Router.Types

set_option relaxedAutoImplicit false
set_option autoImplicit false

/-!
# The keeper's data

What the keeper of `keeper/src/keeper.ts` keeps between its passes, and what it asks the world.

## Main definitions

* `Koul.Keeper.Grant` — what a wallet's grant looks like.
* `Koul.Keeper.Memory` — what the keeper keeps in memory.
* `Koul.Keeper.Cmd` — what a pass does, to its memory and to the world.
* `Koul.Keeper.Cmd.exec` — the command on a keeper.

## Design

The code between two `await`s runs at once, so what it does to the memory is one command, with the
reading of the clock where there is one. A submission is two commands: it is started, and its result is
awaited. Log lines are left out, and an exception is its message.
-/

namespace Koul.Keeper

open Interleaving
open Router (Planned)

/-! ## Settings -/

structure Config where
  CHANNELS : ℤ
  KEEPER_READS : ℤ
  POLICY : Option Address
  ORACLE : Option Address
  ed25519VerifierAddress : Address
  quiet : Bool
  once : Bool
  /-- In seconds. -/
  interval : ℕ
deriving DecidableEq, Repr

namespace Config

variable (cfg : Config)

def PARALLEL : ℕ := (max 1 cfg.CHANNELS).toNat

def READS : ℕ := (max 1 cfg.KEEPER_READS).toNat

/-- The worker that submits for a wallet. -/
def shard (user : Address) : ℕ :=
  user.toList.foldl (fun h c => (h * 31 + ((Utf16.ofChar c).headD 0).toNat) % 2 ^ 32) 7 % cfg.PARALLEL

end Config

/-- The accounts that pay. -/
inductive Payer
  | keeper
  | channel (i : ℕ)
deriving DecidableEq, Repr

/-- The account of a worker. -/
def Config.account (cfg : Config) (worker : ℕ) : Payer :=
  if cfg.CHANNELS > 0 then .channel worker else .keeper

def Config.payer (cfg : Config) (user : Address) : Payer := cfg.account (cfg.shard user)

/-! ## Grants -/

/-- A kit: it is connected to a wallet, and a payer pays for what it submits. -/
structure Kit where
  wallet : Address
  payer : Payer
deriving DecidableEq, Repr

inductive SignerTag
  | delegated
  | external
deriving DecidableEq, Repr

/-- A signer of a context rule: its tag, and the first of its values. -/
structure RuleSigner where
  tag : SignerTag
  value : Address
deriving DecidableEq, Repr

structure ContextRule where
  id : ℕ
  signers : List RuleSigner
  policies : List Address
  valid_until : Option ℕ
deriving DecidableEq, Repr

/-- The expiry of a rule; 0 is none. -/
def ContextRule.validUntil (r : ContextRule) : Option ℕ := r.valid_until.filter (· ≠ 0)

inductive SignerType
  | passkey
  | wallet
  | ed25519
deriving DecidableEq, Repr

structure Grant where
  count : ℕ
  checkedAt : ℕ
  agentRuleId : Option ℕ
  validUntil : Option ℕ
  kit : Kit
  signs : Bool
  selected : List SignerType
deriving DecidableEq, Repr

/-- An autopilot with a rule due, with the route when that rule is a swap. -/
structure Due where
  user : Address
  id : ℕ
  route : Option String
deriving DecidableEq, Repr

/-- What a pass is about to submit for a wallet. -/
structure UserPlan where
  grant : Grant
  due : List Due
deriving DecidableEq, Repr

/-! ## Submissions -/

/-- The calls that a signature authorizes. -/
inductive Invocation
  | call (subInvocations : List Invocation)

/-- One context for the call itself, and those of the calls below it. -/
def countContexts : Invocation → ℕ
  | .call subs => 1 + go subs
where
  go : List Invocation → ℕ
    | [] => 0
    | sub :: subs => countContexts sub + go subs

inductive Simulation
  | missing
  | error (error : String)
  | success

/-- A `tick` after its simulation. -/
structure AssembledTick where
  simulation : Simulation
  /-- Whether the router returned an action; reading it may throw. -/
  result : Except String Bool
  /-- What each authorization entry is asked for. -/
  entries : List Invocation

/-- A `tick` that is signed and submitted. -/
structure Submission where
  due : Due
  kit : Kit
  selected : List SignerType
  /-- The context rule of each context, for each authorization entry. -/
  contextRuleIds : List (List ℕ)
deriving DecidableEq, Repr

inductive Submitted
  | success (hash : String)
  /-- The last simulation's error, and the result's. -/
  | failure (lastSim message : String)
deriving DecidableEq, Repr

/-! ## Errors -/

/-- The blanks of a regular expression. -/
def isSpace (c : Char) : Bool :=
  c ∈ ['\t', '\n', '\x0b', '\x0c', '\r', ' ', '\u00a0', '\u1680', '\u2028', '\u2029', '\u202f',
    '\u205f', '\u3000', '\ufeff'] || ('\u2000' ≤ c && c ≤ '\u200a')

/-- Runs of blanks as one blank. -/
def squeeze (text : String) : String :=
  String.ofList (go false text.toList)
where
  go (inSpace : Bool) : List Char → List Char
    | [] => []
    | c :: cs =>
      if isSpace c then
        if inSpace then go true cs else ' ' :: go true cs
      else c :: go false cs

/-- The contract error that a text begins with. -/
def codeAt (text : List Char) : Option String := do
  let rest ← text.dropPrefix? "Error(Contract, #".toList
  let digits := rest.takeWhile Char.isDigit
  if digits ≠ [] ∧ (rest.drop digits.length).head? = some ')' then
    return "Error(Contract, #" ++ String.ofList digits ++ ")"
  else none

/-- The contract errors of a message, each once. -/
def codes (message : String) : String :=
  String.intercalate "," (message.toList.tails.filterMap codeAt).eraseDups

/-- The policy refused the tick for its rate limit. -/
def rateLimited (message : String) : Bool := Anchor.includes (codes message) "#7106"

/-! ## Memory -/

/-- Counts since the last heartbeat (autopilots: this pass only). -/
structure Pass where
  autopilots : ℕ
  submitted : ℕ
  failed : ℕ
  skipped : ℕ
  backedOff : ℕ
  errors : List String
deriving DecidableEq, Repr

def Pass.note (pass : Pass) (reason : String) : Pass :=
  if pass.errors.length < 5 then { pass with errors := pass.errors ++ [(reason.take 120).toString] }
  else pass

/-- The ids of a wallet's autopilots, and when they were read. -/
structure KnownIds where
  ids : List ℕ
  at_ : ℕ
deriving DecidableEq, Repr

structure Memory where
  /-- By tag; 0 where there is none. -/
  backoffUntil : String → ℕ
  grants : Address → Option Grant
  autopilotIds : Address → Option KnownIds
  swapDeploymentChecked : Bool
  pass : Pass
  lastBeatAt : ℕ
  /-- The wallets that no worker has taken yet in this pass. -/
  queue : List Address
  /-- What is planned in this pass, in the order of the first entries. -/
  planned : List (Address × UserPlan)

structure Heartbeat where
  at_ : ℕ
  passMs : ℕ
  intervalSec : ℕ
  wallets : ℕ
  pass : Pass
  ledger : ℕ
deriving DecidableEq, Repr

/-- The price that the oracle shows, and when it was set. -/
structure LastPrice where
  price : ℤ
  timestamp : ℕ
deriving DecidableEq, Repr

def tag (user : Address) (id : ℕ) : String := s!"{(user.take 8).toString}#{id}"

/-- What the keeper starts with. -/
def Memory.init : Memory :=
  ⟨fun _ => 0, fun _ => none, fun _ => none, false, ⟨0, 0, 0, 0, 0, []⟩, 0, [], []⟩

/-- Sets an entry of `planned`; one that is there keeps its place. -/
def setPlanned (user : Address) (plan : UserPlan) (planned : List (Address × UserPlan)) :
    List (Address × UserPlan) :=
  if planned.any (·.1 == user) then
    planned.map fun entry => if entry.1 == user then (user, plan) else entry
  else planned ++ [(user, plan)]

/-! ## Commands -/

def RATE_LIMIT_BACKOFF_MS : ℕ := 15 * 60000

def RECHECK_MS : ℕ := 60000

def BEAT_EVERY_MS : ℕ := 60000

inductive Cmd
  | now
  | sleep (ms : ℕ)
  | shuffle (users : List Address)
  /-- The mock oracle, and a price that is republished there. -/
  | lastprice
  | set_price (price : ℤ)
  | list_users
  | getLatestLedger
  | list_ids (user : Address)
  | next_action (user : Address) (id : ℕ)
  | check (user : Address) (id : ℕ)
  | checkSwapDeployment
  | quoteSwap (planned : Planned)
  | connect (kit : Kit)
  | count (kit : Kit)
  | list (kit : Kit)
  | getAvailableSigners (kit : Kit)
  | tick (due : Due)
  | submit (s : Submission)
  | result (s : Submission)
  | getTransaction (kit : Kit) (hash : String)
  | writeHeartbeat (beat : Heartbeat)
  /-- The pass begins. -/
  | begin
  | setQueue (users : List Address)
  | next
  | ids (user : Address)
  | setIds (user : Address) (ids : List ℕ)
  | autopilots (n : ℕ)
  | grant (user : Address)
  | setChecked (user : Address)
  | setGrant (user : Address) (grant : Grant)
  | forgetGrant (user : Address)
  | backoff (user : Address) (id : ℕ)
  | deploymentChecked
  | setDeploymentChecked
  | setPlanned (user : Address) (plan : UserPlan)
  | planned
  | skipped (reason : String)
  | refused (user : Address) (id : ℕ) (message reason : String)
  | submitted
  | caught
  | failures
  | failed (user : Address) (reason : String)
  | beatDue
  | pass
  | beaten

@[reducible] def Cmd.Reply : Cmd → Type
  | .now => ℕ
  | .sleep _ => Unit
  | .shuffle users => { users' : List Address // users'.Perm users }
  | .lastprice => Except String (Option LastPrice)
  | .set_price _ => Except String Unit
  | .list_users => Except String (List Address)
  | .getLatestLedger => Except String ℕ
  | .list_ids _ => Except String (List ℕ)
  | .next_action _ _ => Except String (Option Planned)
  | .check _ _ => Except String Unit
  | .checkSwapDeployment => Except String Unit
  | .quoteSwap _ => Except String (ℤ × String)
  | .connect _ => Except String Unit
  | .count _ => Except String ℕ
  | .list _ => Except String (List ContextRule)
  | .getAvailableSigners _ => Except String (List SignerType)
  | .tick _ => Except String AssembledTick
  | .submit _ => Unit
  | .result _ => Except String Submitted
  | .getTransaction _ _ => Except String Unit
  | .writeHeartbeat _ => Unit
  | .begin => ℕ
  | .setQueue _ => Unit
  | .next => Option Address
  | .ids _ => Option KnownIds × ℕ
  | .setIds _ _ => Unit
  | .autopilots _ => Unit
  | .grant _ => Option Grant × ℕ
  | .setChecked _ => ℕ
  | .setGrant _ _ => Grant
  | .forgetGrant _ => Unit
  | .backoff _ _ => ℕ × ℕ
  | .deploymentChecked => Bool
  | .setDeploymentChecked => Unit
  | .setPlanned _ _ => Unit
  | .planned => List (Address × UserPlan)
  | .skipped _ => Unit
  | .refused _ _ _ _ => ℕ
  | .submitted => Unit
  | .caught => Unit
  | .failures => ℕ
  | .failed _ _ => Unit
  | .beatDue => Bool
  | .pass => Pass × ℕ
  | .beaten => Unit

/-- A keeper: its memory, and the world outside. -/
structure Machine (W : Type) where
  memory : Memory
  world : W

namespace Memory

variable (m : Memory)

def forget (user : Address) : Memory :=
  { m with
    grants := Function.update m.grants user none
    autopilotIds := Function.update m.autopilotIds user none }

/-- A failure is counted, with its reason. -/
def fail (reason : String) : Memory :=
  { m with pass := { m.pass with failed := m.pass.failed + 1 }.note reason }

/-- A wallet is left alone for a while after a refusal for its rate limit. -/
def backOff (user : Address) (id : ℕ) (message : String) (now : ℕ) : Memory :=
  if rateLimited message then
    { m with
      backoffUntil := Function.update m.backoffUntil (tag user id) (now + RATE_LIMIT_BACKOFF_MS) }
  else m

end Memory

section Exec

variable {W R : Type} (answer : (c : Cmd) → W → c.Reply × W)

/-- What a command does to the memory, given the time. -/
def timed (s : Machine W) (f : ℕ → Memory → R × Memory) : R × Machine W :=
  let now := answer .now s.world
  let r := f now.1 s.memory
  (r.1, ⟨r.2, now.2⟩)

/-- What a command does to the memory. -/
def kept (s : Machine W) (f : Memory → R × Memory) : R × Machine W :=
  let r := f s.memory
  (r.1, ⟨r.2, s.world⟩)

def Cmd.exec : (c : Cmd) → Machine W → c.Reply × Machine W
  | .begin, s => timed answer s fun now m =>
    (now, { m with pass := { m.pass with autopilots := 0 }, planned := [] })
  | .setQueue users, s => kept s fun m => ((), { m with queue := users })
  | .next, s => kept s fun m => (m.queue.head?, { m with queue := m.queue.tail })
  | .ids user, s => timed answer s fun now m => ((m.autopilotIds user, now), m)
  | .setIds user read, s => timed answer s fun now m =>
    ((), { m with autopilotIds := Function.update m.autopilotIds user (some ⟨read, now⟩) })
  | .autopilots n, s => kept s fun m =>
    ((), { m with pass := { m.pass with autopilots := m.pass.autopilots + n } })
  | .grant user, s => timed answer s fun now m => ((m.grants user, now), m)
  | .setChecked user, s => timed answer s fun now m =>
    (now, { m with
      grants := Function.update m.grants user
        ((m.grants user).map fun g => { g with checkedAt := now }) })
  | .setGrant user g, s => timed answer s fun now m =>
    ({ g with checkedAt := now },
      { m with grants := Function.update m.grants user (some { g with checkedAt := now }) })
  | .forgetGrant user, s => kept s fun m => ((), m.forget user)
  | .backoff user id, s => timed answer s fun now m =>
    ((m.backoffUntil (tag user id), now),
      if m.backoffUntil (tag user id) > now then
        { m with pass := { m.pass with backedOff := m.pass.backedOff + 1 } }
      else m)
  | .deploymentChecked, s => kept s fun m => (m.swapDeploymentChecked, m)
  | .setDeploymentChecked, s => kept s fun m => ((), { m with swapDeploymentChecked := true })
  | .setPlanned user plan, s => kept s fun m =>
    ((), { m with planned := Keeper.setPlanned user plan m.planned })
  | .planned, s => kept s fun m => (m.planned, m)
  | .skipped reason, s => kept s fun m =>
    ((), { m with pass := { m.pass with skipped := m.pass.skipped + 1 }.note reason })
  | .refused user id message reason, s => timed answer s fun now m =>
    (now, (m.backOff user id message now).fail reason)
  | .submitted, s => kept s fun m =>
    ((), { m with pass := { m.pass with submitted := m.pass.submitted + 1 } })
  | .caught, s => kept s fun m => ((), { m with pass := { m.pass with failed := m.pass.failed + 1 } })
  | .failures, s => kept s fun m => (m.pass.failed + m.pass.skipped, m)
  | .failed user reason, s => kept s fun m => ((), (m.forget user).fail reason)
  | .beatDue, s => timed answer s fun now m => (decide (now - m.lastBeatAt ≥ BEAT_EVERY_MS), m)
  | .pass, s => timed answer s fun now m => ((m.pass, now), m)
  | .beaten, s => timed answer s fun now m =>
    ((), { m with lastBeatAt := now, pass := ⟨m.pass.autopilots, 0, 0, 0, 0, []⟩ })
  | c, s => ((answer c s.world).1, ⟨s.memory, (answer c s.world).2⟩)

end Exec

end Koul.Keeper
