import Koul.Router.Amounts

set_option relaxedAutoImplicit false
set_option autoImplicit false

/-!
# What the router accepts

The limits `set_autopilot` checks before it stores an autopilot: the shape and ranges of
`autopilot_ok`, and that every token a rule names has a feed.

## Main definitions

* `Koul.Router.autopilotOk` — shape and limits.
* `Koul.Router.tokensKnown` — every named token has a feed, and swaps have an aggregator.

## Main results

* `Koul.Router.autopilotOk_iff` — the limits as bounds on the rule list and on each rule.
-/

namespace Koul.Router

def amountOk : Amount → Bool
  | .all => true
  | .percent bps => bps ≥ 1 && bps ≤ 10000
  | .fixed x => x ≥ MIN_MOVE

/-- A wallet swap's fixed amount is in its own token's units, so any positive one will do. -/
def swapAmountOk : Amount → Bool
  | .fixed x => x > 0
  | a => amountOk a

def conditionOk : Condition → Bool
  | .healthFactor _ level => level > 0
  | .supplyRateGap overHub underHub minBps => overHub != underHub && minBps > 0
  | .supplyRate _ _ bps => bps > 0
  | .fxPrice _ _ level maxAge => level > 0 && maxAge > 0
  | .idleBalance _ amount => amount ≥ 0
  | .tokenPrice _ _ level => level > 0
  | .tokenBalance _ _ amount => amount ≥ 0

def actionOk : Action → Bool
  | .moveSupply fromHub toHub amt => fromHub != toHub && amountOk amt
  | .supplyFromWallet _ amt => amountOk amt
  | .repayFromWallet _ amt => amountOk amt
  | .repayWithCollateral _ _ amt => amountOk amt
  | .withdrawToWallet _ amt => amountOk amt
  | .swapFromWallet tin tout amt slip =>
    tin != tout && swapAmountOk amt && slip ≥ 1 && slip ≤ MAX_SLIPPAGE_BPS
  | .withdrawAndSwap _ _ amt slip => amountOk amt && slip ≥ 1 && slip ≤ MAX_SLIPPAGE_BPS

def ruleOk (r : Rule) : Bool :=
  !r.conditions.isEmpty && r.conditions.length ≤ MAX_CONDITIONS && r.cooldownLedgers > 0 &&
    r.conditions.all conditionOk && actionOk r.action

def autopilotOk (ap : Autopilot) : Bool :=
  if ap.rules.isEmpty || ap.rules.length > MAX_RULES then false else ap.rules.all ruleOk

/-- The tokens a rule's swap trades, when its action is one. -/
def swapTokens (cfg : Config) : Action → Option (Address × Address)
  | .swapFromWallet tin tout _ _ => some (tin, tout)
  | .withdrawAndSwap _ tout _ _ => some (cfg.usdc, tout)
  | _ => none

/-- A `TokenPrice` condition whose token has no feed. -/
def unpriced (feed : Address → Option Feed) : Condition → Bool
  | .tokenPrice t _ _ => (feed t).isNone
  | _ => false

/-- The checks `tokens_known` makes on one rule. -/
def ruleTokensKnown (st : Storage) (r : Rule) : Except RouterError Unit :=
  if r.conditions.any (unpriced st.feed) then .error .unknownToken
  else
    match swapTokens st.config r.action with
    | none => .ok ()
    | some (tin, tout) =>
      if tin = tout ∨ (st.feed tin).isNone ∨ (st.feed tout).isNone then .error .unknownToken
      else if st.aggregator.isNone then .error .notConfigured
      else .ok ()

/-- Every token a rule names must have a feed, and a swap needs the aggregator. -/
def tokensKnown (st : Storage) (ap : Autopilot) : Except RouterError Unit :=
  ap.rules.forM (ruleTokensKnown st)

/-- Every accepted amount asks for at most its base. -/
lemma atMostAll_of_amountOk {a : Amount} (h : amountOk a = true) : a.AtMostAll := by
  cases a with
  | all => trivial
  | percent bps =>
    simp only [amountOk, Bool.and_eq_true, decide_eq_true_eq] at h
    exact h.2
  | fixed x => trivial

/-- So does every accepted wallet swap's. -/
lemma atMostAll_of_swapAmountOk {a : Amount} (h : swapAmountOk a = true) : a.AtMostAll := by
  cases a with
  | fixed x => trivial
  | all => trivial
  | percent bps => exact atMostAll_of_amountOk h

/-- The limits as bounds on the list and on each rule. -/
lemma autopilotOk_iff (ap : Autopilot) : autopilotOk ap = true ↔
    ap.rules ≠ [] ∧ ap.rules.length ≤ MAX_RULES ∧ ∀ r ∈ ap.rules, ruleOk r = true := by
  simp [autopilotOk, and_assoc]

end Koul.Router
