import Koul.Router.Types

set_option relaxedAutoImplicit false
set_option autoImplicit false

/-!
# The contract's values in their machine types

The router's types have `u32`, `u64` and `i128` fields, which the model keeps as integers. Here
is what it takes for an autopilot to fit those types, and which tokens and FX assets it names.

## Main definitions

* `Koul.Router.Autopilot.Fits` — every integer fits its machine type.
* `Koul.Router.Autopilot.tokens`, `Autopilot.assets` — the tokens and the FX assets named.
-/

namespace Koul.Router

def FitsU32 (n : ℕ) : Prop := n ≤ 0xffffffff

def FitsU64 (n : ℕ) : Prop := n ≤ 0xffffffffffffffff

def FitsI128 (z : ℤ) : Prop :=
  -0x80000000000000000000000000000000 ≤ z ∧ z ≤ 0x7fffffffffffffffffffffffffffffff

instance (n : ℕ) : Decidable (FitsU32 n) := inferInstanceAs (Decidable (n ≤ 0xffffffff))

instance (n : ℕ) : Decidable (FitsU64 n) := inferInstanceAs (Decidable (n ≤ 0xffffffffffffffff))

instance (z : ℤ) : Decidable (FitsI128 z) := inferInstanceAs (Decidable (_ ∧ _))

def Amount.Fits : Amount → Prop
  | .all => True
  | .percent bps => FitsU32 bps
  | .fixed x => FitsI128 x

def Condition.Fits : Condition → Prop
  | .healthFactor _ level => FitsI128 level
  | .supplyRateGap overHub underHub minBps => FitsU32 overHub ∧ FitsU32 underHub ∧ FitsU32 minBps
  | .supplyRate hub _ bps => FitsU32 hub ∧ FitsU32 bps
  | .fxPrice _ _ level maxAgeSecs => FitsI128 level ∧ FitsU64 maxAgeSecs
  | .idleBalance _ amount => FitsI128 amount
  | .tokenPrice _ _ level => FitsI128 level
  | .tokenBalance _ _ amount => FitsI128 amount

def Action.Fits : Action → Prop
  | .moveSupply fromHub toHub amount => FitsU32 fromHub ∧ FitsU32 toHub ∧ amount.Fits
  | .supplyFromWallet hub amount => FitsU32 hub ∧ amount.Fits
  | .repayFromWallet hub amount => FitsU32 hub ∧ amount.Fits
  | .repayWithCollateral withdrawHub repayHub amount =>
    FitsU32 withdrawHub ∧ FitsU32 repayHub ∧ amount.Fits
  | .withdrawToWallet hub amount => FitsU32 hub ∧ amount.Fits
  | .swapFromWallet _ _ amount maxSlippageBps => amount.Fits ∧ FitsU32 maxSlippageBps
  | .withdrawAndSwap hub _ amount maxSlippageBps =>
    FitsU32 hub ∧ amount.Fits ∧ FitsU32 maxSlippageBps

structure Rule.Fits (r : Rule) : Prop where
  conditions : ∀ c ∈ r.conditions, c.Fits
  action : r.action.Fits
  cooldown : FitsU32 r.cooldownLedgers

structure Autopilot.Fits (ap : Autopilot) : Prop where
  accountId : FitsU64 ap.accountId
  rules : ∀ r ∈ ap.rules, r.Fits

/-! ## Tokens and assets -/

def Condition.tokens : Condition → List Address
  | .tokenPrice token _ _ => [token]
  | .tokenBalance token _ _ => [token]
  | _ => []

def Action.tokens : Action → List Address
  | .swapFromWallet tokenIn tokenOut _ _ => [tokenIn, tokenOut]
  | .withdrawAndSwap _ tokenOut _ _ => [tokenOut]
  | _ => []

def Rule.tokens (r : Rule) : List Address := r.conditions.flatMap (·.tokens) ++ r.action.tokens

/-- The tokens that the rules name. -/
def Autopilot.tokens (ap : Autopilot) : List Address := ap.rules.flatMap (·.tokens)

def Condition.assets : Condition → List Symbol
  | .fxPrice asset _ _ _ => [asset]
  | _ => []

/-- The assets of the FX conditions. -/
def Autopilot.assets (ap : Autopilot) : List Symbol :=
  ap.rules.flatMap fun r => r.conditions.flatMap (·.assets)

end Koul.Router
