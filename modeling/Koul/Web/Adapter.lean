import Koul.Core.Codec
import Koul.Web.Rules

set_option relaxedAutoImplicit false
set_option autoImplicit false

/-!
# From cards to the router's autopilot

`toCoreAutopilot`: the cards as the rules of `@koul/core`. A card reads as people say it and the
router keeps rules per hub, so a card can become two rules, one for each hub or direction.

## Main definitions

* `Koul.Web.toCoreConditions` — a condition, in one variant for each direction it can be read in.
* `Koul.Web.coreRulesOf` — the rules of a card; `none` when the router cannot express it.
* `Koul.Web.toCoreAutopilot` — the autopilot, and the cards left out.

## Main results

* `Koul.Web.mem_toCoreAutopilot_iff` — the rules of the autopilot, card by card.
-/

namespace Koul.Web

/-! ## Levels and amounts -/

def LEDGER_SECONDS : ℚ := 5

def MAX_PRICE_AGE_SECS : ℕ := 900

def SWAP_SLIPPAGE_BPS : ℕ := 100

variable (d : Doubles)

/-- The cooldown in ledgers. Where JavaScript has `NaN` or `Infinity` this is 0: the validator
refuses them all. -/
def toLedgers (sec : Number) : ℕ :=
  match sec with
  | .fin q => (max 1 (mathRound (d.fl (q / LEDGER_SECONDS)))).toNat
  | .inf true => 1
  | _ => 0

/-- Prices are USD with 14 decimals. -/
def toPrice (usd : ℚ) : String := toString (d.scale usd 100000000) ++ "000000"

/-- Whole units to base units. -/
def toUnits (value : ℚ) (decimals : ℕ) : String :=
  toString (d.scale value 10000000 * 10 ^ (decimals - 7) / 10 ^ (7 - decimals))

/-- A share in basis points. Where JavaScript has `NaN` this is 0, which the validator refuses
as well. -/
def shareBps (percent : Number) : ℕ :=
  match percent with
  | .fin q => (max 1 (min 10000 (mathRound (d.fl (q * 100))))).toNat
  | .inf negative => if negative then 1 else 10000
  | .nan => 0

def toAmount (a : ActionAmount) (decimals : ℕ) : Core.Amount :=
  match a with
  | .all => .all
  | .fixed value => .fixed (toUnits d value.toRat decimals)
  | .share percent => .percent (shareBps d percent)

/-- The pool returns a simple annual rate; a card has it compounded. -/
def apyToApr (apy : ℚ) : ℚ := d.fl (d.log1p (d.fl (apy / 100)) * 100)

/-- `Math.max(1, Math.round(percent * 100))`. -/
def toBps (percent : ℚ) : ℕ := (max 1 (mathRound (d.fl (percent * 100)))).toNat

def tryPerUsdToUsdPerTry (tryPerUsd : ℚ) : ℕ :=
  (mathRound (d.fl (100000000000000 / tryPerUsd))).toNat

/-! ## Conditions -/

/-- A condition's variants, and whether the router cannot express it. -/
structure Mapped where
  variants : List (List Core.Condition)
  unsupported : Bool
deriving DecidableEq, Repr

/-- A condition that reads the same in both directions. -/
def oneVariant (c : Core.Condition) : Mapped := ⟨[[c]], false⟩

/-- The contract's comparison of a card's. -/
def Comparator.cmp : Comparator → Core.Cmp
  | .gte => .atOrAbove
  | .lte => .below

/-- The same for a reading that falls as the card's rises. -/
def Comparator.flipped : Comparator → Core.Cmp
  | .gte => .below
  | .lte => .atOrAbove

/-- A card's condition as contract conditions. A rate gap has no direction on a card, so it has
one variant for each: first that hub 2 pays more, then that hub 1 does. -/
def toCoreConditions (c : Condition) : Mapped :=
  let value := c.value.toRat
  let token := tokenBySymbol (tokenOf c.token)
  match c.kind with
  | .healthFactor =>
    oneVariant (.healthFactor c.comparator.cmp
      (toString (d.scale value 1000000) ++ "000000000000"))
  | .fxPrice =>
    -- the oracle quotes USD per TRY, the card TRY per USD
    oneVariant (.fxPrice "TRY" c.comparator.flipped (toString (tryPerUsdToUsdPerTry d value))
      (toString MAX_PRICE_AGE_SECS))
  | .idleUsdc => oneVariant (.idleBalance c.comparator.cmp (toUnits d value 7))
  | .rateGap =>
    if c.comparator ≠ .gte then ⟨[], true⟩
    else
      let bps := toBps d value
      ⟨[[.supplyRateGap PoolId.B.hub PoolId.A.hub bps],
        [.supplyRateGap PoolId.A.hub PoolId.B.hub bps]], false⟩
  | .poolRate =>
    oneVariant (.supplyRate (c.pool.getD .B).hub c.comparator.cmp (toBps d (apyToApr d value)))
  | .tokenPrice => oneVariant (.tokenPrice token.id c.comparator.cmp (toPrice d value))
  | .tokenBalance =>
    oneVariant (.tokenBalance token.id c.comparator.cmp (toUnits d value token.decimals))

/-! ## Cards -/

/-- A level or amount being typed has no contract form yet: the card waits. -/
def waits (r : Rule) : Bool :=
  (match r.action.amount with
    | .fixed value => !(value.isFinite && value.gt 0)
    | _ => false) ||
  r.conditions.any fun c => !c.value.isFinite || c.value.le 0

/-- The index of a card's first rate gap. -/
def gapIndex (r : Rule) : Option ℕ := r.conditions.findIdx? (·.kind == .rateGap)

/-- The conditions of a card for one direction: its first rate gap in that direction's variant,
the others in their first. -/
def conditionsFor (r : Rule) (direction : ℕ) : List Core.Condition :=
  ((r.conditions.map (toCoreConditions d)).mapIdx fun i m =>
    ((if some i = gapIndex r then m.variants[direction]? else m.variants[0]?).getD [])).flatten

/-- A contract rule of a card. -/
def coreRule (r : Rule) (direction : ℕ) (action : Core.Action) : Core.Rule :=
  ⟨conditionsFor d r direction, r.matching == .all, action, toLedgers d r.cooldownSec⟩

/-- A card's contract rules, when the router can express it. -/
def coreRulesOf (r : Rule) : Option (List Core.Rule) :=
  let mapped := r.conditions.map (toCoreConditions d)
  let amount := toAmount d r.action.amount 7
  let token := tokenBySymbol (tokenOf r.action.token)
  let hubs := [PoolId.A.hub, PoolId.B.hub]
  if waits r then none
  else if mapped.any (·.unsupported) || mapped.isEmpty then none
  else if r.action.kind == .moveToBestPool then
    if (gapIndex r).isNone then none
    else
      -- in direction 0 hub 2 pays more, in direction 1 hub 1 does
      some [coreRule d r 0 (.moveSupply PoolId.A.hub PoolId.B.hub amount),
        coreRule d r 1 (.moveSupply PoolId.B.hub PoolId.A.hub amount)]
  else if (gapIndex r).isSome then none
  else
    match r.action.kind with
    | .moveToBestPool => none
    | .repayFromWallet => some (hubs.map fun hub => coreRule d r 0 (.repayFromWallet hub amount))
    | .withdrawToWallet => some (hubs.map fun hub => coreRule d r 0 (.withdrawToWallet hub amount))
    | .supplyFromWallet =>
      some [coreRule d r 0 (.supplyFromWallet (r.action.pool.getD .B).hub amount)]
    | .sellToken =>
      some [coreRule d r 0 (.swapFromWallet token.id usdc
        (toAmount d r.action.amount token.decimals) SWAP_SLIPPAGE_BPS)]
    | .buyToken => some [coreRule d r 0 (.swapFromWallet usdc token.id amount SWAP_SLIPPAGE_BPS)]
    | .withdrawToToken =>
      some (hubs.map fun hub =>
        coreRule d r 0 (.withdrawAndSwap hub token.id amount SWAP_SLIPPAGE_BPS))

/-- The contract's autopilot, the cards left out, and the card of each contract rule. -/
structure CoreMapping where
  autopilot : Core.Autopilot
  unsupported : List Rule
  ruleIds : List String
deriving DecidableEq, Repr

/-- One card of the loop. -/
def addRule (m : CoreMapping) (r : Rule) : CoreMapping :=
  if !r.enabled then m
  else
    match coreRulesOf d r with
    | none => { m with unsupported := m.unsupported ++ [r] }
    | some rules =>
      { m with
        autopilot := { m.autopilot with rules := m.autopilot.rules ++ rules }
        ruleIds := m.ruleIds ++ rules.map fun _ => r.id }

/-- The cards as the router's autopilot. -/
def toCoreAutopilot (rules : List Rule) (accountId : ℕ) : CoreMapping :=
  rules.foldl (addRule d) ⟨⟨toString accountId, []⟩, [], []⟩

/-! ## The rules, card by card -/

variable {d}

/-- The rules so far and those of the remaining cards. -/
lemma rules_foldl (rules : List Rule) (m : CoreMapping) :
    (rules.foldl (addRule d) m).autopilot.rules =
      m.autopilot.rules ++
        rules.flatMap fun r => if r.enabled then (coreRulesOf d r).getD [] else [] := by
  induction rules generalizing m with
  | nil => simp
  | cons r rules ih =>
    rw [List.foldl_cons, ih, List.flatMap_cons, ← List.append_assoc]
    congr 1
    rw [addRule]
    cases r.enabled with
    | false => simp
    | true =>
      cases coreRulesOf d r with
      | none => simp
      | some cs => simp

/-- **The rules of the autopilot** are those of its enabled cards. -/
theorem mem_toCoreAutopilot_iff {rules : List Rule} {accountId : ℕ} {cr : Core.Rule} :
    cr ∈ (toCoreAutopilot d rules accountId).autopilot.rules ↔
      ∃ r ∈ rules, r.enabled = true ∧ ∃ cs, coreRulesOf d r = some cs ∧ cr ∈ cs := by
  rw [toCoreAutopilot, rules_foldl, List.nil_append, List.mem_flatMap]
  constructor
  · rintro ⟨r, hr, hcr⟩
    split_ifs at hcr with henabled
    · cases hcs : coreRulesOf d r with
      | none =>
        rw [hcs] at hcr
        cases hcr
      | some cs =>
        rw [hcs] at hcr
        exact ⟨r, hr, henabled, cs, hcs, hcr⟩
    · cases hcr
  · rintro ⟨r, hr, henabled, cs, hcs, hcr⟩
    refine ⟨r, hr, ?_⟩
    rw [if_pos henabled, hcs]
    exact hcr

end Koul.Web
