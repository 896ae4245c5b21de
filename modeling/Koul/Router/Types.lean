import Koul.Soroban

set_option relaxedAutoImplicit false
set_option autoImplicit false

/-!
# The router's data

The types of `koul_router`: what an autopilot is, what the router reads from the contracts
around it, what it stores, and what it publishes.

## Main definitions

* `Koul.Router.Autopilot`, `Rule`, `Condition`, `Action`, `Amount` — the stored program.
* `Koul.Router.Answers` — every answer the router reads from other contracts.
* `Koul.Router.Contracts` — the contracts the router calls, over their joint state `σ`.
* `Koul.Router.Storage`, `Koul.Router.World` — the router's storage, and all a call runs in.

## Design

Other contracts are parameters: `Contracts.answers` gives what they answer in a state of
theirs, and each call is a partial function on that state, `none` when the callee traps. The
list `World.calls` records the calls the router made, in order; no code reads it.
-/

namespace Koul.Router

/-- A market of one asset on one hub. -/
structure HubAssetKey where
  asset : Address
  hubId : ℕ
deriving DecidableEq, Repr

/-- The market parameter the router reads. -/
structure MarketParamsRaw where
  maxUtilization : ℤ
deriving DecidableEq, Repr

/-- The pool state the router reads. -/
structure PoolStateRaw where
  cash : ℤ
deriving DecidableEq, Repr

/-- The answer of the pool's `get_sync_data`. -/
structure PoolSyncData where
  params : MarketParamsRaw
  state : PoolStateRaw
deriving DecidableEq, Repr

/-- What an oracle is asked about. -/
inductive OracleAsset
  | stellar (a : Address)
  | other (s : Symbol)
deriving DecidableEq, Repr

/-- An oracle's answer: USD with 14 decimals and the time it was set. -/
structure PriceData where
  price : ℤ
  timestamp : ℕ
deriving DecidableEq, Repr

/-- The part of the aggregator's route the router reads: `ops[1]` and `ops[2]` index `assets`. -/
structure StrategyPayload where
  assets : List Address
  ops : Bytes
deriving DecidableEq, Repr

/-- Where a token's USD price comes from. -/
inductive PriceSource
  | oracle (oracle : Address) (asset : OracleAsset) (maxAge : ℕ)
  | fixed (p : ℤ)
deriving DecidableEq, Repr

/-- A token the router may swap or price. -/
structure Feed where
  source : PriceSource
  decimals : ℕ
deriving DecidableEq, Repr

/-- The addresses the router was constructed with. -/
structure Config where
  controller : Address
  pool : Address
  usdc : Address
  oracle : Address
  spokeId : ℕ
deriving DecidableEq, Repr

/-- `below` is `value < level`, `atOrAbove` is `value ≥ level`. -/
inductive Cmp
  | below
  | atOrAbove
deriving DecidableEq, Repr

/-- How much of its base an action uses. -/
inductive Amount
  | all
  | percent (bps : ℕ)
  | fixed (x : ℤ)
deriving DecidableEq, Repr

inductive Condition
  | healthFactor (cmp : Cmp) (level : ℤ)
  | supplyRateGap (overHub underHub minBps : ℕ)
  | supplyRate (hub : ℕ) (cmp : Cmp) (bps : ℕ)
  | fxPrice (asset : Symbol) (cmp : Cmp) (level : ℤ) (maxAgeSecs : ℕ)
  | idleBalance (cmp : Cmp) (amount : ℤ)
  | tokenPrice (token : Address) (cmp : Cmp) (level : ℤ)
  | tokenBalance (token : Address) (cmp : Cmp) (amount : ℤ)
deriving DecidableEq, Repr

inductive Action
  | moveSupply (fromHub toHub : ℕ) (amount : Amount)
  | supplyFromWallet (hub : ℕ) (amount : Amount)
  | repayFromWallet (hub : ℕ) (amount : Amount)
  | repayWithCollateral (withdrawHub repayHub : ℕ) (amount : Amount)
  | withdrawToWallet (hub : ℕ) (amount : Amount)
  | swapFromWallet (tokenIn tokenOut : Address) (amount : Amount) (maxSlippageBps : ℕ)
  | withdrawAndSwap (hub : ℕ) (tokenOut : Address) (amount : Amount) (maxSlippageBps : ℕ)
deriving DecidableEq, Repr

structure Rule where
  conditions : List Condition
  matchAll : Bool
  action : Action
  cooldownLedgers : ℕ
deriving DecidableEq, Repr

structure Autopilot where
  accountId : ℕ
  rules : List Rule
deriving DecidableEq, Repr

/-- What `tick` did. -/
structure Executed where
  ruleIndex : ℕ
  kind : Symbol
  amount : ℤ
  fromHub : ℕ
  toHub : ℕ
deriving DecidableEq, Repr

/-- What the next tick would run. -/
structure Planned where
  ruleIndex : ℕ
  kind : Symbol
  amount : ℤ
  needsRoute : Bool
  tokenIn : Address
  tokenOut : Address
  minOut : ℤ
deriving DecidableEq, Repr

/-- A resolved action: what `run` will move, decided from reads only. -/
inductive Plan
  | move (fromHub toHub : ℕ) (amount : ℤ)
  | supply (hub : ℕ) (amount : ℤ)
  | repayWallet (hub : ℕ) (amount : ℤ)
  | repayCollateral (fromHub hub : ℕ) (amount : ℤ)
  | withdraw (hub : ℕ) (amount : ℤ)
  | swap (tin tout : Address) (amount minOut : ℤ) (withdrawHub : Option ℕ)
deriving DecidableEq, Repr

/-- Live state of one condition. -/
structure ConditionState where
  holds : Bool
  observed : ℤ
deriving DecidableEq, Repr

/-- Live state of one rule, for the `check` view. -/
structure RuleState where
  ready : Bool
  holds : Bool
  conditions : List ConditionState
  lastFired : ℕ
deriving DecidableEq, Repr

inductive RouterError
  | noAutopilot
  | badAutopilot
  | nothingMoved
  | unknownToken
  | routeRequired
  | routeMismatch
  | belowFloor
  | notConfigured
deriving DecidableEq, Repr

/-- How a call of the router fails. -/
inductive Err
  /-- The router panicked with one of its own errors. -/
  | router (e : RouterError)
  /-- A `require_auth` found no authorization. -/
  | auth
  /-- A called contract or host function trapped. -/
  | trap
deriving DecidableEq, Repr

/-- The contract events the router publishes. -/
inductive Event
  | fired (user : Address) (autopilotId ruleIndex : ℕ) (kind : Symbol) (amount : ℤ)
      (fromHub toHub : ℕ) (observed : List ℤ)
  | swapped (user : Address) (autopilotId ruleIndex : ℕ) (tokenIn tokenOut : Address)
      (amountIn amountOut minOut : ℤ)
  | autopilotSet (user : Address) (autopilotId accountId rules : ℕ)
  | autopilotCleared (user : Address) (autopilotId : ℕ)
deriving DecidableEq, Repr

/-- A state-changing call the router makes to another contract, with its arguments. -/
inductive Call
  | withdraw (controller caller : Address) (accountId : ℕ)
      (withdrawals : List (HubAssetKey × ℤ)) (toAddr : Option Address)
  | supply (controller caller : Address) (accountId spokeId : ℕ)
      (assets : List (HubAssetKey × ℤ))
  | repay (controller caller : Address) (accountId : ℕ) (payments : List (HubAssetKey × ℤ))
  | executeStrategy (aggregator sender : Address) (totalIn : ℤ) (swapXdr : Bytes)
  | endSession (policy smartAccount : Address)
deriving DecidableEq, Repr

/-- Every answer the router reads: of the controller, the pool, an oracle, a token. The first
address is the contract asked. -/
structure Answers where
  getHealthFactor : Address → ℕ → ℤ
  getCollateralAmount : Address → ℕ → HubAssetKey → ℤ
  getBorrowAmount : Address → ℕ → HubAssetKey → ℤ
  getDepositRate : Address → HubAssetKey → ℤ
  getSyncData : Address → HubAssetKey → PoolSyncData
  getSuppliedAmount : Address → HubAssetKey → ℤ
  getBorrowedAmount : Address → HubAssetKey → ℤ
  lastprice : Address → OracleAsset → Option PriceData
  balance : Address → Address → ℤ

/-- The contracts around the router, over their joint state `σ`. -/
structure Contracts (σ : Type) where
  answers : σ → Answers
  withdraw : Address → Address → ℕ → List (HubAssetKey × ℤ) → Option Address → σ →
    Option (List (HubAssetKey × ℤ) × σ)
  supply : Address → Address → ℕ → ℕ → List (HubAssetKey × ℤ) → σ → Option (ℕ × σ)
  repay : Address → Address → ℕ → List (HubAssetKey × ℤ) → σ → Option σ
  executeStrategy : Address → Address → ℤ → Bytes → σ → Option (ℤ × σ)
  endSession : Address → Address → σ → Option σ
  /-- The host's XDR decoder: `none` traps, `some none` is not a `StrategyPayload`. -/
  fromXdr : Bytes → Option (Option StrategyPayload)

/-- The router's storage, one field for each kind of key. -/
structure Storage where
  config : Config
  admin : Address
  users : Option (List Address)
  ids : Address → Option (List ℕ)
  autopilot : Address → ℕ → Option Autopilot
  lastFired : Address → ℕ → ℕ → Option ℕ
  feed : Address → Option Feed
  aggregator : Option Address
  policy : Option Address

/-- What a call of the router runs in. -/
structure World (σ : Type) where
  store : Storage
  ledger : Ledger
  ext : σ
  events : List Event
  calls : List Call

end Koul.Router
