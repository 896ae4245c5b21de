import Mathlib.Data.List.Sort
import Koul.Keeper.Types
import Koul.Lib.Crew

set_option relaxedAutoImplicit false
set_option autoImplicit false

/-!
# A pass of the keeper

What the keeper does every interval: it reads what every wallet has due, many wallets at a time, and
then submits what is due, one worker for each payer.

## Main definitions

* `Koul.Keeper.planUser` — a wallet's reads for one pass.
* `Koul.Keeper.submitUser` — a wallet's submissions.
* `Koul.Keeper.keeper` — one pass after another.
-/

namespace Koul.Keeper

open Interleaving Interleaving.Prog
open Router (Planned)

/-- A part of a pass. -/
abbrev KeeperProg (α : Type) : Type := Prog Cmd.Reply α

/-- A part that may throw. -/
abbrev Throwing (α : Type) : Type := Thrower Cmd.Reply String α

/-- A command whose answer is never an error. -/
def tell (c : Cmd) : Throwing c.Reply := Thrower.ask c .ok

def perform (c : Cmd) : KeeperProg c.Reply := Prog.ask c

/-- The part, with its exceptions handled. -/
def handle {α : Type} (x : Throwing α) (f : String → KeeperProg α) : KeeperProg α := do
  match ← x.run with
  | .ok a => return a
  | .error e => f e

/-! ## The read half -/

def FEED_MAX_AGE : ℕ := 600

/-- Republishes the oracle's last price when it is old. -/
def refreshMockOracle (cfg : Config) : Throwing Unit :=
  match cfg.ORACLE with
  | none => return ()
  | some _ => do
    match ← Thrower.ask .lastprice id with
    | none => return ()
    | some v =>
      let now : ℕ ← tell .now
      if now / 1000 < v.timestamp + FEED_MAX_AGE then return ()
      else Thrower.ask (.set_price v.price) id

/-- Nothing is due; a keeper that is not quiet looks at the rules for its log. -/
def logNone (cfg : Config) (user : Address) (id : ℕ) : Throwing Unit :=
  if cfg.quiet then return ()
  else do
    let _ ← tell (.check user id)
    return ()

/-- The quote server's deployment is checked once. -/
def checkDeployment : Throwing Unit := do
  if ← tell .deploymentChecked then return ()
  else
    Thrower.ask .checkSwapDeployment id
    tell .setDeploymentChecked

/-- The route of a swap, when the best one pays the router's floor. -/
def route (planned : Planned) : Throwing (Option String) := do
  checkDeployment
  let q ← Thrower.ask (.quoteSwap planned) id
  if q.1 < planned.minOut then return none
  else return some q.2

/-- Is anything due, and for a swap, which route. -/
def plan (cfg : Config) (user : Address) (id : ℕ) : Throwing (Option Due) := do
  match ← Thrower.ask (.next_action user id) (fun r => r) with
  | none =>
    logNone cfg user id
    return none
  | some planned =>
    if planned.needsRoute then
      match ← route planned with
      | none => return none
      | some route => return some ⟨user, id, some route⟩
    else return some ⟨user, id, none⟩

def planOne (cfg : Config) (user : Address) (id : ℕ) : KeeperProg (Option Due) := do
  let backoff : ℕ × ℕ ← perform (.backoff user id)
  if backoff.1 > backoff.2 then return none
  else handle (plan cfg user id) fun _ => return none

/-- A grant that has not run out at the ledger. -/
def live (validUntil : Option ℕ) (latest : ℕ) : Bool := validUntil.all (· > latest)

/-- The newest live grant under the current policy. -/
def newestLive (cfg : Config) (latest : ℕ) (rules : List ContextRule) : Option ContextRule :=
  let agentRules := rules.filter fun r =>
    r.signers.any (fun x => x.tag == .external && x.value == cfg.ed25519VerifierAddress) &&
      cfg.POLICY.all (· ∈ r.policies) && live r.validUntil latest
  (agentRules.insertionSort fun x y => x.id ≤ y.id).getLast?

/-- A kit for the wallet. -/
def fresh (cfg : Config) (user : Address) : Throwing Kit := do
  let kit : Kit := ⟨user, cfg.payer user⟩
  Thrower.ask (.connect kit) id
  return kit

/-- Lists the wallet's rules, and keeps what they say. -/
def relist (cfg : Config) (user : Address) (latest count : ℕ) (kit : Kit) : Throwing Grant := do
  let rules ← Thrower.ask (.list kit) id
  match newestLive cfg latest rules with
  | none => tell (.setGrant user ⟨count, 0, none, none, kit, false, []⟩)
  | some rule =>
    let signers ← Thrower.ask (.getAvailableSigners kit) id
    let selected := signers.filter (· == .ed25519)
    tell (.setGrant user
      ⟨count, 0, some rule.id, rule.validUntil, kit, selected.length == 1, selected⟩)

/-- What a wallet's grant looks like: the one that is known, while it is fresh or its counter has not
moved. -/
def grantFor (cfg : Config) (user : Address) (latest : ℕ) : Throwing Grant := do
  let seen : Option Grant × ℕ ← tell (.grant user)
  match seen.1 with
  | none =>
    let kit ← fresh cfg user
    let count ← Thrower.ask (.count kit) id
    relist cfg user latest count kit
  | some known =>
    if seen.2 - known.checkedAt < RECHECK_MS ∧ live known.validUntil latest then return known
    else
      let count ← Thrower.ask (.count known.kit) id
      if known.count = count ∧ live known.validUntil latest then
        let now ← tell (.setChecked user)
        return { known with checkedAt := now }
      else
        let kit ← fresh cfg user
        relist cfg user latest count kit

/-- The ids of a wallet's autopilots, read again after a while. -/
def idsOf (user : Address) : Throwing (List ℕ) := do
  let cached : Option KnownIds × ℕ ← tell (.ids user)
  match cached.1.filter fun known => cached.2 - known.at_ < RECHECK_MS with
  | some known => return known.ids
  | none =>
    let ids ← Thrower.ask (.list_ids user) id
    tell (.setIds user ids)
    return ids

/-- What of these autopilots is due. -/
def dueOf (cfg : Config) (user : Address) : List ℕ → KeeperProg (List Due)
  | [] => return []
  | id :: ids => do
    let due ← planOne cfg user id
    let rest ← dueOf cfg user ids
    return due.toList ++ rest

/-- A wallet's reads for one pass: its autopilots, its grant, and what each autopilot has due. -/
def planUser (cfg : Config) (user : Address) (latest : ℕ) : Throwing (Option UserPlan) := do
  let ids ← idsOf user
  if ids = [] then return none
  else
    tell (.autopilots ids.length)
    let grant ← grantFor cfg user latest
    if grant.agentRuleId = none ∨ grant.signs = false then return none
    else
      let due ← dueOf cfg user ids
      if due = [] then return none
      else return some ⟨grant, due⟩

/-- Plans a wallet, whatever goes wrong. -/
def planWallet (cfg : Config) (latest : ℕ) (user : Address) : KeeperProg Unit := do
  match ← (planUser cfg user latest).run with
  | .ok none => return ()
  | .ok (some plan) => perform (.setPlanned user plan)
  | .error e => perform (.failed user ("wallet " ++ e))

/-- A worker of the read half: it takes one wallet after another, until none is left. -/
def reader (cfg : Config) (latest : ℕ) : ℕ → KeeperProg Unit
  | 0 => return ()
  | n + 1 => do
    match ← perform .next with
    | none => return ()
    | some user =>
      planWallet cfg latest user
      reader cfg latest n

/-! ## The write half -/

/-- Why a simulation was no good. -/
def simReason (error : String) : String :=
  "sim " ++ if codes error = "" then "error" else codes error

def submitReason (message : String) : String :=
  "submit " ++ if codes message = "" then ((squeeze message).trimAscii.toString.take 80).toString
    else codes message

/-- Signs and submits the tick. -/
def send (s : Submission) : Throwing Unit := do
  tell (.submit s)
  match ← Thrower.ask (.result s) id with
  | .failure lastSim message =>
    let message := lastSim ++ " " ++ message
    let _ ← tell (.refused s.due.user s.due.id message (submitReason message))
  | .success hash =>
    tell .submitted
    Thrower.ask (.getTransaction s.kit hash) id

/-- The tick as it is signed: each context takes the grant's rule. -/
def submission (due : Due) (grant : Grant) (agentRuleId : ℕ) (entries : List Invocation) :
    Submission :=
  ⟨due, grant.kit, grant.selected,
    entries.map fun entry => List.replicate (countContexts entry) agentRuleId⟩

/-- What the router makes of the simulated tick. -/
def submitTick (cfg : Config) (due : Due) (grant : Grant) (agentRuleId : ℕ) (tx : AssembledTick) :
    Throwing Unit :=
  match tx.simulation with
  | .missing => tell (.skipped (simReason ""))
  | .error e => tell (.skipped (simReason e))
  | .success =>
    match tx.result with
    | .error e => throw e
    | .ok false => logNone cfg due.user due.id
    | .ok true =>
      if tx.entries = [] then return ()
      else send (submission due grant agentRuleId tx.entries)

/-- Simulates `tick` with the planned route and, when the router returns an action, signs and
submits. -/
def submitOne (cfg : Config) (due : Due) (grant : Grant) (agentRuleId : ℕ) : Throwing Unit := do
  match ← tell (.tick due) with
  | .error e => tell (.skipped ("sim " ++ ((squeeze e).take 80).toString))
  | .ok tx => submitTick cfg due grant agentRuleId tx

/-- One submission of a wallet; a failure drops what is kept of the wallet. -/
def submitDue (cfg : Config) (user : Address) (grant : Grant) (agentRuleId : ℕ) (due : Due) :
    KeeperProg Unit := do
  let before : ℕ ← perform .failures
  handle (submitOne cfg due grant agentRuleId) fun _ => perform .caught
  let after : ℕ ← perform .failures
  if after > before then perform (.forgetGrant user)
  else return ()

def submitUser (cfg : Config) (user : Address) (grant : Grant) (agentRuleId : ℕ) :
    List Due → KeeperProg Unit
  | [] => return ()
  | due :: rest => do
    submitDue cfg user grant agentRuleId due
    submitUser cfg user grant agentRuleId rest

/-- The submissions of a wallet, when it is the worker's own. -/
def submitEntry (cfg : Config) (worker : ℕ) (user : Address) (plan : UserPlan) : KeeperProg Unit :=
  match plan.grant.agentRuleId with
  | none => return ()
  | some agentRuleId =>
    if cfg.shard user = worker then submitUser cfg user plan.grant agentRuleId plan.due
    else return ()

def submitOwn (cfg : Config) (worker : ℕ) : List (Address × UserPlan) → KeeperProg Unit
  | [] => return ()
  | (user, plan) :: rest => do
    submitEntry cfg worker user plan
    submitOwn cfg worker rest

/-- A worker of the write half. -/
def submitter (cfg : Config) (worker : ℕ) : KeeperProg Unit := do
  let planned : List (Address × UserPlan) ← perform .planned
  submitOwn cfg worker planned

/-! ## Passes -/

/-- The heartbeat, at most once a minute. -/
def beat (cfg : Config) (started wallets : ℕ) : KeeperProg Unit := do
  let due : Bool ← perform .beatDue
  if cfg.once || due then
    let now : ℕ ← perform .now
    let ledger ← perform .getLatestLedger
    let pass : Pass × ℕ ← perform .pass
    perform (.writeHeartbeat
      ⟨pass.2, now - started, cfg.interval, wallets, pass.1, ledger.toOption.getD 0⟩)
    perform .beaten
  else return ()

def pass (cfg : Config) : KeeperProg Unit := do
  let started : ℕ ← perform .begin
  handle (refreshMockOracle cfg) fun _ => return ()
  let users ← perform .list_users
  let latest ← perform .getLatestLedger
  let order ← perform (.shuffle (users.toOption.getD []))
  perform (.setQueue order.1)
  let latest := latest.toOption.getD 0
  let _ ← all ((List.range (min cfg.READS order.1.length)).map fun _ =>
    reader cfg latest (order.1.length + 1))
  let _ ← all ((List.range cfg.PARALLEL).map (submitter cfg))
  beat cfg started order.1.length
  if cfg.once then return ()
  else perform (.sleep (cfg.interval * 1000))

/-- The keeper for a number of passes. -/
def keeper (cfg : Config) : ℕ → KeeperProg Unit
  | 0 => return ()
  | n + 1 => do
    pass cfg
    if cfg.once then return ()
    else keeper cfg n

end Koul.Keeper
