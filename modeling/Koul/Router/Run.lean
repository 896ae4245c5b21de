import Koul.Lib.Transactional
import Koul.Router.Reads

set_option relaxedAutoImplicit false
set_option autoImplicit false

/-!
# Running a plan

`Reads::run` of `koul_router`: the calls a plan makes on the controller and the aggregator, and
what it reports. A panic fails the whole call, so `run` returns a new world or an error.

## Main definitions

* `Koul.Router.run` — run a plan; a swap checks its route and its own floor.
* `Koul.Router.Plan.planned` — how `next_action` reports a plan.
* `Koul.Router.Plan.calls` — the calls a plan makes, given what a withdrawal returned.

## Main results

* `Koul.Router.run_ok` — what every successful run leaves alone, reports and calls.
* `Koul.Router.run_amount` — the amount reported is the planned one when the controller returns
  what it was asked for.
* `Koul.Router.run_routeRequired_iff` — exactly the swaps need a route.
-/

namespace Koul.Router

open Transactional

/-! ## The kinds of action, as `Fired` names them -/

def kindMoveSupply : Symbol := ⟨"move_supply", by decide, by decide⟩
def kindSupply : Symbol := .supply
def kindRepayWallet : Symbol := ⟨"repay_wallet", by decide, by decide⟩
def kindRepayCollateral : Symbol := ⟨"repay_collateral", by decide, by decide⟩
def kindWithdraw : Symbol := .withdraw
def kindSwap : Symbol := ⟨"swap", by decide, by decide⟩
def kindWithdrawSwap : Symbol := ⟨"withdraw_swap", by decide, by decide⟩

/-- How `next_action` reports a plan. -/
def Plan.planned (cfg : Config) (ruleIndex : ℕ) : Plan → Planned
  | .move _ _ amount => ⟨ruleIndex, kindMoveSupply, amount, false, cfg.usdc, cfg.usdc, 0⟩
  | .supply _ amount => ⟨ruleIndex, kindSupply, amount, false, cfg.usdc, cfg.usdc, 0⟩
  | .repayWallet _ amount => ⟨ruleIndex, kindRepayWallet, amount, false, cfg.usdc, cfg.usdc, 0⟩
  | .repayCollateral _ _ amount =>
    ⟨ruleIndex, kindRepayCollateral, amount, false, cfg.usdc, cfg.usdc, 0⟩
  | .withdraw _ amount => ⟨ruleIndex, kindWithdraw, amount, false, cfg.usdc, cfg.usdc, 0⟩
  | .swap tin tout amount minOut withdrawHub =>
    ⟨ruleIndex, if withdrawHub.isSome then kindWithdrawSwap else kindSwap, amount, true, tin, tout,
      minOut⟩

@[simp] lemma Plan.planned_ruleIndex (cfg : Config) (ruleIndex : ℕ) (p : Plan) :
    (p.planned cfg ruleIndex).ruleIndex = ruleIndex := by
  cases p <;> rfl

@[simp] lemma Plan.planned_amount (cfg : Config) (ruleIndex : ℕ) (p : Plan) :
    (p.planned cfg ruleIndex).amount = p.amount := by
  cases p <;> rfl

/-- The asset a route's operation byte `i` names. -/
def StrategyPayload.asset (p : StrategyPayload) (i : ℕ) : Option Address :=
  p.ops[i]? >>= fun ix => p.assets[ix.toNat]?

variable {σ : Type} (x : Contracts σ)

namespace World

def reads (w : World σ) : Reads := ⟨x.answers w.ext, w.store.config, w.store.feed, w.ledger⟩

def publish (w : World σ) (ev : Event) : World σ := { w with events := w.events ++ [ev] }

/-- The world after a call left the other contracts in state `s`. -/
def called (w : World σ) (c : Call) (s : σ) : World σ :=
  { w with ext := s, calls := w.calls ++ [c] }

end World

/-- A call of another contract, which fails the router's call when it traps. -/
def invoke {α : Type} : Option α → Except Err α
  | some a => .ok a
  | none => .error .trap

/-- Withdraw to the wallet; the amount received is snapped down again. -/
def withdraw (user : Address) (accountId hub : ℕ) (amount : ℤ) (w : World σ) :
    Except Err (ℤ × World σ) := do
  let cfg := w.store.config
  let ws := [(key cfg hub, amount)]
  let (got, s) ← invoke (x.withdraw cfg.controller user accountId ws (some user) w.ext)
  .ok (floorGrain ((got[0]?.map Prod.snd).getD 0),
    w.called (.withdraw cfg.controller user accountId ws (some user)) s)

def supply (user : Address) (accountId hub : ℕ) (amount : ℤ) (w : World σ) :
    Except Err (World σ) := do
  let cfg := w.store.config
  let s := [(key cfg hub, amount)]
  let (_, t) ← invoke (x.supply cfg.controller user accountId cfg.spokeId s w.ext)
  .ok (w.called (.supply cfg.controller user accountId cfg.spokeId s) t)

def repay (user : Address) (accountId hub : ℕ) (amount : ℤ) (w : World σ) :
    Except Err (World σ) := do
  let cfg := w.store.config
  let p := [(key cfg hub, amount)]
  let t ← invoke (x.repay cfg.controller user accountId p w.ext)
  .ok (w.called (.repay cfg.controller user accountId p) t)

/-- The withdrawal of a `WithdrawAndSwap`: the route was quoted for exactly `amount`. -/
def withdrawExactly (user : Address) (accountId : ℕ) (withdrawHub : Option ℕ) (amount : ℤ)
    (w : World σ) : Except Err (World σ) :=
  match withdrawHub with
  | none => .ok w
  | some hub => do
    let (received, w') ← withdraw x user accountId hub amount w
    if received ≠ amount then .error (.router .nothingMoved) else .ok w'

/-- The route of a swap, decoded and checked against the rule's token pair. -/
def checkRoute (tin tout : Address) (route : Option Bytes) : Except Err Bytes :=
  match route with
  | none => .error (.router .routeRequired)
  | some bytes =>
    match x.fromXdr bytes with
    | none => .error .trap
    | some none => .error (.router .routeMismatch)
    | some (some payload) =>
      if payload.asset 1 ≠ some tin ∨ payload.asset 2 ≠ some tout then
        .error (.router .routeMismatch)
      else .ok bytes

/-- Execute the route through the aggregator and measure what the wallet received. -/
def swap (user : Address) (id ruleIndex : ℕ) (tin tout : Address) (amount minOut : ℤ)
    (route : Bytes) (w : World σ) : Except Err (World σ) :=
  match w.store.aggregator with
  | none => .error (.router .notConfigured)
  | some aggregator => do
    let before := (x.answers w.ext).balance tout user
    let (_, s) ← invoke (x.executeStrategy aggregator user amount route w.ext)
    let got := (x.answers s).balance tout user - before
    if got < minOut then .error (.router .belowFloor)
    else .ok ((w.called (.executeStrategy aggregator user amount route) s).publish
      (.swapped user id ruleIndex tin tout amount got minOut))

/-- Run a plan. Swaps need the keeper's route; everything about it except the venues is checked
here. -/
def run (user : Address) (accountId id ruleIndex : ℕ) (p : Plan) (route : Option Bytes)
    (w : World σ) : Except Err (Executed × World σ) :=
  match p with
  | .move fromHub toHub amount => do
    let (received, w) ← withdraw x user accountId fromHub amount w
    if received < MIN_MOVE then .error (.router .nothingMoved)
    else do
      let w ← supply x user accountId toHub received w
      .ok (⟨ruleIndex, kindMoveSupply, received, fromHub, toHub⟩, w)
  | .supply hub amount => do
    let w ← supply x user accountId hub amount w
    .ok (⟨ruleIndex, kindSupply, amount, hub, hub⟩, w)
  | .repayWallet hub amount => do
    let w ← repay x user accountId hub amount w
    .ok (⟨ruleIndex, kindRepayWallet, amount, hub, hub⟩, w)
  | .repayCollateral fromHub hub amount => do
    let (received, w) ← withdraw x user accountId fromHub amount w
    if received ≤ 0 then .error (.router .nothingMoved)
    else do
      let w ← repay x user accountId hub received w
      .ok (⟨ruleIndex, kindRepayCollateral, received, fromHub, hub⟩, w)
  | .withdraw hub amount => do
    let (received, w) ← withdraw x user accountId hub amount w
    if received ≤ 0 then .error (.router .nothingMoved)
    else .ok (⟨ruleIndex, kindWithdraw, received, hub, hub⟩, w)
  | .swap tin tout amount minOut withdrawHub => do
    let bytes ← checkRoute x tin tout route
    let w ← withdrawExactly x user accountId withdrawHub amount w
    let w ← swap x user id ruleIndex tin tout amount minOut bytes w
    match withdrawHub with
    | some hub => .ok (⟨ruleIndex, kindWithdrawSwap, amount, hub, 0⟩, w)
    | none => .ok (⟨ruleIndex, kindSwap, amount, 0, 0⟩, w)

/-! ## What each call of the router's does -/

/-- The call of a withdrawal to the wallet. -/
def withdrawCall (cfg : Config) (user : Address) (accountId hub : ℕ) (amount : ℤ) : Call :=
  .withdraw cfg.controller user accountId [(key cfg hub, amount)] (some user)

def supplyCall (cfg : Config) (user : Address) (accountId hub : ℕ) (amount : ℤ) : Call :=
  .supply cfg.controller user accountId cfg.spokeId [(key cfg hub, amount)]

def repayCall (cfg : Config) (user : Address) (accountId hub : ℕ) (amount : ℤ) : Call :=
  .repay cfg.controller user accountId [(key cfg hub, amount)]

/-- The calls of a plan, in order: `received` is what its withdrawal returned, `aggregator` the
stored one and `route` the keeper's. -/
def Plan.calls (cfg : Config) (aggregator user : Address) (accountId : ℕ) (route : Bytes)
    (received : ℤ) : Plan → List Call
  | .move fromHub toHub amount =>
    [withdrawCall cfg user accountId fromHub amount, supplyCall cfg user accountId toHub received]
  | .supply hub amount => [supplyCall cfg user accountId hub amount]
  | .repayWallet hub amount => [repayCall cfg user accountId hub amount]
  | .repayCollateral fromHub hub amount =>
    [withdrawCall cfg user accountId fromHub amount, repayCall cfg user accountId hub received]
  | .withdraw hub amount => [withdrawCall cfg user accountId hub amount]
  | .swap _ _ amount _ none => [.executeStrategy aggregator user amount route]
  | .swap _ _ amount _ (some hub) =>
    [withdrawCall cfg user accountId hub amount, .executeStrategy aggregator user amount route]

variable {x} {user : Address} {accountId id ruleIndex : ℕ} {w w' : World σ}

/-- A call of another contract succeeds with its answer. -/
lemma invoke_eq_ok_iff {α : Type} {o : Option α} {a : α} : invoke o = .ok a ↔ o = some a := by
  cases o with
  | none => simp [invoke]
  | some b => simp [invoke]

/-- A withdrawal is one call of the controller, whose answer is snapped down. -/
lemma withdraw_ok {hub : ℕ} {amount received : ℤ}
    (h : withdraw x user accountId hub amount w = .ok (received, w')) :
    ∃ got s, x.withdraw w.store.config.controller user accountId
        [(key w.store.config hub, amount)] (some user) w.ext = some (got, s) ∧
      received = floorGrain ((got[0]?.map Prod.snd).getD 0) ∧
      w' = w.called (withdrawCall w.store.config user accountId hub amount) s := by
  simp only [withdraw, bind_eq_ok_iff, invoke_eq_ok_iff, Prod.exists] at h
  obtain ⟨got, s, hcall, h⟩ := h
  cases h
  exact ⟨got, s, hcall, rfl, rfl⟩

lemma supply_ok {hub : ℕ} {amount : ℤ} (h : supply x user accountId hub amount w = .ok w') :
    ∃ s, w' = w.called (supplyCall w.store.config user accountId hub amount) s := by
  simp only [supply, bind_eq_ok_iff, Prod.exists] at h
  obtain ⟨_, s, -, h⟩ := h
  cases h
  exact ⟨s, rfl⟩

lemma repay_ok {hub : ℕ} {amount : ℤ} (h : repay x user accountId hub amount w = .ok w') :
    ∃ s, w' = w.called (repayCall w.store.config user accountId hub amount) s := by
  simp only [repay, bind_eq_ok_iff] at h
  obtain ⟨s, -, h⟩ := h
  cases h
  exact ⟨s, rfl⟩

/-- An accepted route is the keeper's, and its operations name the rule's pair. -/
lemma checkRoute_ok {tin tout : Address} {route : Option Bytes} {bytes : Bytes}
    (h : checkRoute x tin tout route = .ok bytes) :
    route = some bytes ∧ ∃ payload, x.fromXdr bytes = some (some payload) ∧
      payload.asset 1 = some tin ∧ payload.asset 2 = some tout := by
  unfold checkRoute at h
  split at h
  · cases h
  · split at h
    · cases h
    · cases h
    · next payload hxdr =>
      split_ifs at h with hpair
      cases h
      push Not at hpair
      exact ⟨rfl, payload, hxdr, hpair⟩

/-- A swap is one call of the stored aggregator, and what the wallet gained over that call is
at least the floor. -/
lemma swap_measures {tin tout : Address} {amount minOut : ℤ} {route : Bytes}
    (h : swap x user id ruleIndex tin tout amount minOut route w = .ok w') :
    ∃ aggregator out s got, w.store.aggregator = some aggregator ∧
      x.executeStrategy aggregator user amount route w.ext = some (out, s) ∧
      (x.answers s).balance tout user = (x.answers w.ext).balance tout user + got ∧
      minOut ≤ got ∧
      w' = (w.called (.executeStrategy aggregator user amount route) s).publish
        (.swapped user id ruleIndex tin tout amount got minOut) := by
  unfold swap at h
  split at h
  · cases h
  · next aggregator hagg =>
    simp only [bind_eq_ok_iff, invoke_eq_ok_iff, Prod.exists] at h
    obtain ⟨out, s, hcall, h⟩ := h
    split_ifs at h with hgot
    cases h
    refine ⟨aggregator, out, s, _, hagg, hcall, ?_, not_lt.mp hgot, rfl⟩
    omega

/-- It publishes `Swapped`. -/
lemma swap_ok {tin tout : Address} {amount minOut : ℤ} {route : Bytes}
    (h : swap x user id ruleIndex tin tout amount minOut route w = .ok w') :
    ∃ aggregator s got, w.store.aggregator = some aggregator ∧ minOut ≤ got ∧
      w' = (w.called (.executeStrategy aggregator user amount route) s).publish
        (.swapped user id ruleIndex tin tout amount got minOut) := by
  obtain ⟨aggregator, -, s, got, hagg, -, -, hgot, hw'⟩ := swap_measures h
  exact ⟨aggregator, s, got, hagg, hgot, hw'⟩

/-! ## What a run does -/

/-- What every successful run of a plan does: it leaves the router's own storage and the ledger
alone, reports the plan's rule and kind, publishes no swap but its own, and makes the plan's calls. -/
structure RunOk (user : Address) (accountId id ruleIndex : ℕ) (p : Plan) (route : Option Bytes)
    (w : World σ) (ex : Executed) (w' : World σ) : Prop where
  store : w'.store = w.store
  ledger : w'.ledger = w.ledger
  index : ex.ruleIndex = ruleIndex
  kind : ex.kind = (p.planned w.store.config ruleIndex).kind
  events : ∃ evs, w'.events = w.events ++ evs ∧ ∀ ev ∈ evs, ∃ tin tout amount got minOut,
    ev = .swapped user id ruleIndex tin tout amount got minOut
  calls : ∃ aggregator bytes received,
    (∀ tin tout amount minOut hub, p = .swap tin tout amount minOut hub →
      w.store.aggregator = some aggregator ∧ route = some bytes) ∧
    w'.calls = w.calls ++ p.calls w.store.config aggregator user accountId bytes received

variable {p : Plan} {route : Option Bytes} {ex : Executed}

/-- A run that publishes nothing publishes no other rule's swap. -/
lemma no_events {evs : List Event} : ∃ new, evs = evs ++ new ∧ ∀ ev ∈ new,
    ∃ tin tout amount got minOut, ev = .swapped user id ruleIndex tin tout amount got minOut :=
  ⟨[], by simp, fun _ h => nomatch h⟩

/-- A swap publishes its own swap. -/
lemma swapped_events {evs : List Event} {tin tout : Address} {amount minOut : ℤ} (got : ℤ) :
    ∃ new, evs ++ [.swapped user id ruleIndex tin tout amount got minOut] = evs ++ new ∧
      ∀ ev ∈ new, ∃ tin tout amount got minOut,
        ev = .swapped user id ruleIndex tin tout amount got minOut :=
  ⟨_, rfl, fun _ h => ⟨tin, tout, amount, got, minOut, List.mem_singleton.mp h⟩⟩

/-- A run of a plan that is no swap needs neither an aggregator nor a route. -/
lemma calls_of_not_swap {cs : List Call} (received : ℤ)
    (hp : ∀ tin tout amount minOut hub, p ≠ .swap tin tout amount minOut hub)
    (hcs : cs = w.calls ++ p.calls w.store.config "" user accountId [] received) :
    ∃ aggregator bytes received,
      (∀ tin tout amount minOut hub, p = .swap tin tout amount minOut hub →
        w.store.aggregator = some aggregator ∧ route = some bytes) ∧
      cs = w.calls ++ p.calls w.store.config aggregator user accountId bytes received :=
  ⟨"", [], received, fun _ _ _ _ _ h => absurd h (hp _ _ _ _ _), hcs⟩

/-- **A successful run** leaves the router's storage alone, reports the plan's rule and kind,
and makes exactly the plan's calls. -/
theorem run_ok (h : run x user accountId id ruleIndex p route w = .ok (ex, w')) :
    RunOk user accountId id ruleIndex p route w ex w' := by
  cases p with
  | move fromHub toHub amount =>
    simp only [run, bind_eq_ok_iff, Prod.exists] at h
    obtain ⟨received, w₁, hw, h⟩ := h
    split_ifs at h
    obtain ⟨got, s, -, -, rfl⟩ := withdraw_ok hw
    obtain ⟨w₂, hs, h⟩ := bind_eq_ok_iff.mp h
    obtain ⟨t, rfl⟩ := supply_ok hs
    cases h
    refine ⟨rfl, rfl, rfl, rfl, no_events, calls_of_not_swap received (by simp) ?_⟩
    simp [World.called, Plan.calls]
  | supply hub amount =>
    simp only [run, bind_eq_ok_iff] at h
    obtain ⟨w₁, hs, h⟩ := h
    obtain ⟨t, rfl⟩ := supply_ok hs
    cases h
    exact ⟨rfl, rfl, rfl, rfl, no_events, calls_of_not_swap 0 (by simp) rfl⟩
  | repayWallet hub amount =>
    simp only [run, bind_eq_ok_iff] at h
    obtain ⟨w₁, hr, h⟩ := h
    obtain ⟨t, rfl⟩ := repay_ok hr
    cases h
    exact ⟨rfl, rfl, rfl, rfl, no_events, calls_of_not_swap 0 (by simp) rfl⟩
  | repayCollateral fromHub hub amount =>
    simp only [run, bind_eq_ok_iff, Prod.exists] at h
    obtain ⟨received, w₁, hw, h⟩ := h
    split_ifs at h
    obtain ⟨got, s, -, -, rfl⟩ := withdraw_ok hw
    obtain ⟨w₂, hr, h⟩ := bind_eq_ok_iff.mp h
    obtain ⟨t, rfl⟩ := repay_ok hr
    cases h
    refine ⟨rfl, rfl, rfl, rfl, no_events, calls_of_not_swap received (by simp) ?_⟩
    simp [World.called, Plan.calls]
  | withdraw hub amount =>
    simp only [run, bind_eq_ok_iff, Prod.exists] at h
    obtain ⟨received, w₁, hw, h⟩ := h
    split_ifs at h
    obtain ⟨got, s, -, -, rfl⟩ := withdraw_ok hw
    cases h
    exact ⟨rfl, rfl, rfl, rfl, no_events, calls_of_not_swap 0 (by simp) rfl⟩
  | swap tin tout amount minOut withdrawHub =>
    simp only [run, bind_eq_ok_iff] at h
    obtain ⟨bytes, hroute, w₁, hw, w₂, hswap, h⟩ := h
    obtain ⟨aggregator, s, got, hagg, -, rfl⟩ := swap_ok hswap
    have hbytes := (checkRoute_ok hroute).1
    cases withdrawHub with
    | none =>
      cases hw
      cases h
      exact ⟨rfl, rfl, rfl, rfl, swapped_events got, aggregator, bytes, 0,
        fun _ _ _ _ _ _ => ⟨hagg, hbytes⟩, rfl⟩
    | some hub =>
      simp only [withdrawExactly, bind_eq_ok_iff, Prod.exists] at hw
      obtain ⟨received, w₃, hwd, hw⟩ := hw
      split_ifs at hw
      cases hw
      obtain ⟨got', s', -, -, rfl⟩ := withdraw_ok hwd
      cases h
      refine ⟨rfl, rfl, rfl, rfl, swapped_events got, aggregator, bytes, received,
        fun _ _ _ _ _ _ => ⟨hagg, hbytes⟩, ?_⟩
      simp [World.called, World.publish, Plan.calls]

/-! ## The amount reported -/

/-- The hub that a plan's funds leave, when they leave one. -/
def Plan.source : Plan → Option ℕ
  | .move fromHub _ _ => some fromHub
  | .repayCollateral fromHub _ _ => some fromHub
  | .withdraw hub _ => some hub
  | .swap _ _ _ _ withdrawHub => withdrawHub
  | _ => none

/-- In state `w`, whatever the controller lets the account withdraw, it returns the amount
asked for. -/
def WithdrawsExactly (x : Contracts σ) (user : Address) (accountId : ℕ) (w : World σ) : Prop :=
  ∀ hub amount got s, x.withdraw w.store.config.controller user accountId
    [(key w.store.config hub, amount)] (some user) w.ext = some (got, s) →
      got[0]?.map Prod.snd = some amount

/-- An exact withdrawal of a snapped amount reports that amount. -/
lemma withdraw_exact {hub : ℕ} {amount received : ℤ} (hx : WithdrawsExactly x user accountId w)
    (hsnap : floorGrain amount = amount)
    (h : withdraw x user accountId hub amount w = .ok (received, w')) : received = amount := by
  obtain ⟨got, s, hcall, hreceived, -⟩ := withdraw_ok h
  rw [hreceived, hx hub amount got s hcall, Option.getD_some, hsnap]

/-- **The amount reported** is the planned one when the controller returns what it is asked
for, and what it is asked for is snapped. -/
theorem run_amount (hx : WithdrawsExactly x user accountId w)
    (hsnap : p.source.isSome → floorGrain p.amount = p.amount)
    (h : run x user accountId id ruleIndex p route w = .ok (ex, w')) : ex.amount = p.amount := by
  cases p with
  | move fromHub toHub amount =>
    simp only [run, bind_eq_ok_iff, Prod.exists] at h
    obtain ⟨received, w₁, hw, h⟩ := h
    split_ifs at h
    obtain ⟨w₂, -, h⟩ := bind_eq_ok_iff.mp h
    cases h
    exact withdraw_exact hx (hsnap rfl) hw
  | supply hub amount =>
    simp only [run, bind_eq_ok_iff] at h
    obtain ⟨w₁, -, h⟩ := h
    cases h
    rfl
  | repayWallet hub amount =>
    simp only [run, bind_eq_ok_iff] at h
    obtain ⟨w₁, -, h⟩ := h
    cases h
    rfl
  | repayCollateral fromHub hub amount =>
    simp only [run, bind_eq_ok_iff, Prod.exists] at h
    obtain ⟨received, w₁, hw, h⟩ := h
    split_ifs at h
    obtain ⟨w₂, -, h⟩ := bind_eq_ok_iff.mp h
    cases h
    exact withdraw_exact hx (hsnap rfl) hw
  | withdraw hub amount =>
    simp only [run, bind_eq_ok_iff, Prod.exists] at h
    obtain ⟨received, w₁, hw, h⟩ := h
    split_ifs at h
    cases h
    exact withdraw_exact hx (hsnap rfl) hw
  | swap tin tout amount minOut withdrawHub =>
    simp only [run, bind_eq_ok_iff] at h
    obtain ⟨bytes, -, w₁, -, w₂, -, h⟩ := h
    cases withdrawHub <;> cases h <;> rfl

/-! ## Which plans need a route -/

lemma invoke_eq_error {α : Type} {o : Option α} {e : Err} (h : invoke o = .error e) :
    e = .trap := by
  cases o with
  | none => cases h; rfl
  | some a => cases h

/-- A withdrawal fails only when the controller traps. -/
lemma withdraw_error {hub : ℕ} {amount : ℤ} {e : Err}
    (h : withdraw x user accountId hub amount w = .error e) : e = .trap := by
  simp only [withdraw, bind_eq_error_iff] at h
  rcases h with h | ⟨_, -, h⟩
  · exact invoke_eq_error h
  · cases h

lemma supply_error {hub : ℕ} {amount : ℤ} {e : Err}
    (h : supply x user accountId hub amount w = .error e) : e = .trap := by
  simp only [supply, bind_eq_error_iff] at h
  rcases h with h | ⟨_, -, h⟩
  · exact invoke_eq_error h
  · cases h

lemma repay_error {hub : ℕ} {amount : ℤ} {e : Err}
    (h : repay x user accountId hub amount w = .error e) : e = .trap := by
  simp only [repay, bind_eq_error_iff] at h
  rcases h with h | ⟨_, -, h⟩
  · exact invoke_eq_error h
  · cases h

/-- A call that traps does not fail for want of a route. -/
lemma ne_routeRequired_of_trap {α : Type} {m : Except Err α}
    (h : ∀ e, m = .error e → e = .trap) : m ≠ .error (.router .routeRequired) := by
  intro hm
  cases h _ hm

/-- A chain of calls fails for want of a route only when one of them does. -/
lemma bind_ne_routeRequired {α β : Type} {m : Except Err α} {f : α → Except Err β}
    (hm : ∀ e, m = .error e → e = .trap) (hf : ∀ a, f a ≠ .error (.router .routeRequired)) :
    (m >>= f) ≠ .error (.router .routeRequired) := by
  intro h
  rcases bind_eq_error_iff.mp h with h | ⟨a, -, h⟩
  · exact ne_routeRequired_of_trap hm h
  · exact hf a h

/-- A plan that is no swap does not look at the route. -/
lemma run_ne_routeRequired {route : Option Bytes}
    (hp : (p.planned w.store.config ruleIndex).needsRoute = false) :
    run x user accountId id ruleIndex p route w ≠ .error (.router .routeRequired) := by
  cases p with
  | move fromHub toHub amount =>
    apply bind_ne_routeRequired fun e => withdraw_error
    rintro ⟨received, w₁⟩
    dsimp only
    split_ifs
    · intro h
      cases h
    · apply bind_ne_routeRequired fun e => supply_error
      intro w₂ h
      cases h
  | supply hub amount =>
    apply bind_ne_routeRequired fun e => supply_error
    intro w₁ h
    cases h
  | repayWallet hub amount =>
    apply bind_ne_routeRequired fun e => repay_error
    intro w₁ h
    cases h
  | repayCollateral fromHub hub amount =>
    apply bind_ne_routeRequired fun e => withdraw_error
    rintro ⟨received, w₁⟩
    dsimp only
    split_ifs
    · intro h
      cases h
    · apply bind_ne_routeRequired fun e => repay_error
      intro w₂ h
      cases h
  | withdraw hub amount =>
    apply bind_ne_routeRequired fun e => withdraw_error
    rintro ⟨received, w₁⟩ h
    dsimp only at h
    split_ifs at h
    cases h
  | swap tin tout amount minOut withdrawHub => cases hp

/-- **Routes**: run without a route, a plan fails for want of one exactly when it is a swap. -/
theorem run_routeRequired_iff :
    run x user accountId id ruleIndex p none w = .error (.router .routeRequired) ↔
      (p.planned w.store.config ruleIndex).needsRoute = true := by
  constructor
  · intro h
    by_contra hno
    exact run_ne_routeRequired (Bool.eq_false_iff.mpr hno) h
  · intro h
    cases p with
    | swap tin tout amount minOut withdrawHub => rfl
    | move | supply | repayWallet | repayCollateral | withdraw => cases h

end Koul.Router
