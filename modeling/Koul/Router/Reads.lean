import Koul.Router.Validation

set_option relaxedAutoImplicit false
set_option autoImplicit false

/-!
# Reading the world

What the router decides from reads alone: whether a rule's conditions hold, and what its action
resolves to.

## Main definitions

* `Koul.Router.Reads` — the router's configuration and feeds with the answers it reads.
* `Koul.Router.Reads.evaluateRule` — the live state of a rule's conditions.
* `Koul.Router.Reads.plan` — what an action would move; `none` when there is nothing to do.
* `Koul.Router.Reads.due` — what a rule that is off cooldown and holds resolves to.
-/

namespace Koul.Router

/-- All that a decision of the router reads. -/
structure Reads where
  e : Answers
  cfg : Config
  feed : Address → Option Feed
  ledger : Ledger

def key (cfg : Config) (hub : ℕ) : HubAssetKey := ⟨cfg.usdc, hub⟩

namespace Reads

variable (rd : Reads)

/-- The pool's deposit rate of the router's asset on a hub. -/
def depositRate (hub : ℕ) : ℤ := rd.e.getDepositRate rd.cfg.pool (key rd.cfg hub)

def balance (token user : Address) : ℤ := rd.e.balance token user

/-- A registered token's USD price and decimals, or `none` when it has no feed or the oracle's
price is missing, stale or not positive. -/
def price (token : Address) : Option (ℤ × ℕ) := do
  let f ← rd.feed token
  let p ← match f.source with
    | .fixed p => some p
    | .oracle oracle asset maxAge => do
      let pd ← rd.e.lastprice oracle asset
      if isStale rd.ledger.timestamp pd.timestamp maxAge then none else some pd.price
  if p > 0 then some (p, f.decimals) else none

def evaluate (user : Address) (accountId : ℕ) : Condition → ConditionState
  | .healthFactor cmp level =>
    let hf := rd.e.getHealthFactor rd.cfg.controller accountId
    ⟨holds cmp hf level, hf⟩
  | .supplyRateGap overHub underHub minBps =>
    let gap := rd.depositRate overHub - rd.depositRate underHub
    ⟨gap ≥ (minBps : ℤ) * BPS_RAY, gap.tdiv BPS_RAY⟩
  | .supplyRate hub cmp bps =>
    let rateBps := (rd.depositRate hub).tdiv BPS_RAY
    ⟨holds cmp rateBps bps, rateBps⟩
  | .fxPrice asset cmp level maxAge =>
    match rd.e.lastprice rd.cfg.oracle (.other asset) with
    | some p =>
      if isStale rd.ledger.timestamp p.timestamp maxAge then ⟨false, p.price⟩
      else ⟨holds cmp p.price level, p.price⟩
    | none => ⟨false, 0⟩
  | .idleBalance cmp amount =>
    let idle := rd.balance rd.cfg.usdc user
    ⟨holds cmp idle amount, idle⟩
  | .tokenPrice t cmp level =>
    match rd.price t with
    | some (p, _) => ⟨holds cmp p level, p⟩
    | none => ⟨false, 0⟩
  | .tokenBalance t cmp amount =>
    let b := rd.balance t user
    ⟨holds cmp b amount, b⟩

/-- Every condition is evaluated, whether or not the rule is decided already. -/
def evaluateRule (user : Address) (accountId : ℕ) (r : Rule) : Bool × List ConditionState :=
  let states := r.conditions.map (rd.evaluate user accountId)
  (if r.matchAll then states.all (·.holds) else states.any (·.holds), states)

def hubWithdrawable (k : HubAssetKey) (collateral : ℤ) : ℤ :=
  if collateral ≤ 0 then 0
  else
    let sd := rd.e.getSyncData rd.cfg.pool k
    withdrawable collateral sd.state.cash (rd.e.getSuppliedAmount rd.cfg.pool k)
      (rd.e.getBorrowedAmount rd.cfg.pool k) sd.params.maxUtilization

def withdrawableIn (accountId hub : ℕ) : ℤ :=
  let k := key rd.cfg hub
  rd.hubWithdrawable k (rd.e.getCollateralAmount rd.cfg.controller accountId k)

/-- Debt base for repayments: debt accrues every ledger, so round up and add a grain. -/
def debtBase (accountId hub : ℕ) : ℤ :=
  let debt := rd.e.getBorrowAmount rd.cfg.controller accountId (key rd.cfg hub)
  if debt ≤ 0 then 0 else ceilGrain (debt + GRAIN)

/-- The swap half of a plan: worth at least 1 USD, with the router's floor. -/
def planSwap (tin tout : Address) (amount : ℤ) (slip : ℕ) (withdrawHub : Option ℕ) :
    Option Plan := do
  let (pin, din) ← rd.price tin
  let (pout, dout) ← rd.price tout
  if amount ≤ 0 ∨ usdValue amount din pin < PRICE_ONE then none
  else
    let minOut := swapFloor amount din pin dout pout slip
    if minOut ≤ 0 then none else some (.swap tin tout amount minOut withdrawHub)

/-- Resolve an action against live reads without moving anything. `none` means it has nothing
worth doing; `tick` then goes on to the next rule. -/
def plan (user : Address) (accountId : ℕ) : Action → Option Plan
  | .moveSupply fromHub toHub amt =>
    let w := resolve amt (rd.withdrawableIn accountId fromHub)
    if w < MIN_MOVE then none else some (.move fromHub toHub w)
  | .supplyFromWallet hub amt =>
    let put := resolve amt (floorGrain (rd.balance rd.cfg.usdc user))
    if put < MIN_MOVE then none else some (.supply hub put)
  | .repayFromWallet hub amt =>
    let want := resolve amt (rd.debtBase accountId hub)
    let idle := floorGrain (rd.balance rd.cfg.usdc user)
    let pay := if want < idle then want else idle
    if pay ≤ 0 then none else some (.repayWallet hub pay)
  | .repayWithCollateral fromHub hub amt =>
    let want := resolve amt (rd.debtBase accountId hub)
    let avail := rd.withdrawableIn accountId fromHub
    let w := if want < avail then want else avail
    if w < MIN_MOVE then none else some (.repayCollateral fromHub hub w)
  | .withdrawToWallet hub amt =>
    let w := resolve amt (rd.withdrawableIn accountId hub)
    if w < MIN_MOVE then none else some (.withdraw hub w)
  | .swapFromWallet tin tout amt slip =>
    rd.planSwap tin tout (want amt (rd.balance tin user)) slip none
  | .withdrawAndSwap hub tout amt slip =>
    let w := resolve amt (rd.withdrawableIn accountId hub)
    if w < MIN_MOVE then none else rd.planSwap rd.cfg.usdc tout w slip (some hub)

/-- A rule that joins its conditions with all holds when every one does, any other when some one
does. -/
lemma evaluateRule_iff (user : Address) (accountId : ℕ) (r : Rule) :
    (rd.evaluateRule user accountId r).1 = true ↔
      if r.matchAll then ∀ c ∈ r.conditions, (rd.evaluate user accountId c).holds = true
      else ∃ c ∈ r.conditions, (rd.evaluate user accountId c).holds = true := by
  unfold evaluateRule
  split_ifs
  · simp only [List.all_map, List.all_eq_true, Function.comp_apply]
  · simp only [List.any_map, List.any_eq_true, Function.comp_apply]

/-- A token's price is positive. -/
lemma price_pos {token : Address} {p : ℤ} {decimals : ℕ}
    (h : rd.price token = some (p, decimals)) : 0 < p := by
  simp only [price, Option.bind_eq_bind] at h
  obtain ⟨f, -, h⟩ := Option.bind_eq_some_iff.mp h
  have hguard : ∀ q : ℤ, (if q > 0 then some (q, f.decimals) else none) = some (p, decimals) →
      0 < p := by
    intro q hq
    split_ifs at hq with hpos
    cases hq
    exact hpos
  split at h
  · exact hguard _ h
  · obtain ⟨pd, -, h⟩ := Option.bind_eq_some_iff.mp h
    split_ifs at h
    · cases h
    · exact hguard _ h

/-- What a rule resolves to in this state: a plan when it is off cooldown, its conditions hold
and its action has something to do. -/
def due (user : Address) (accountId lastFired : ℕ) (r : Rule) : Option Plan :=
  if ready lastFired rd.ledger.sequence r.cooldownLedgers &&
      (rd.evaluateRule user accountId r).1 then
    rd.plan user accountId r.action
  else none

/-- A rule is due exactly when it is off cooldown, its conditions hold and its action has
something to do. -/
lemma due_isSome_iff (user : Address) (accountId lastFired : ℕ) (r : Rule) :
    (rd.due user accountId lastFired r).isSome ↔
      ready lastFired rd.ledger.sequence r.cooldownLedgers = true ∧
        (rd.evaluateRule user accountId r).1 = true ∧
        (rd.plan user accountId r.action).isSome := by
  rw [due]
  split_ifs with h
  · rw [Bool.and_eq_true] at h
    simp [h.1, h.2]
  · rw [Bool.and_eq_true, not_and] at h
    simp only [Option.isSome_none, Bool.false_eq_true, false_iff]
    rintro ⟨hready, hholds, -⟩
    exact h hready hholds

end Reads

/-- The amount a plan moves. -/
def Plan.amount : Plan → ℤ
  | .move _ _ a => a
  | .supply _ a => a
  | .repayWallet _ a => a
  | .repayCollateral _ _ a => a
  | .withdraw _ a => a
  | .swap _ _ a _ _ => a

end Koul.Router
