import Koul.Core.Validate

set_option relaxedAutoImplicit false
set_option autoImplicit false

/-!
# What an agent is granted

`permissionsFor` of `@koul/core`: the calls and transfer recipients that the rules of an
autopilot need, as two flat lists.

## Main definitions

* `Koul.Core.PermissionContracts` — the deployed contracts.
* `Koul.Core.permissionsFor` — the grant of an autopilot, or why there is none.
* `Koul.Core.needsWithdraw`, `needsSupply`, `needsRepay`, `swapInputs` — what its rules need.

## Main results

* `Koul.Core.permissionsFor_eq_ok_iff` — when there is a grant.
* `Koul.Core.mem_allowedCalls_iff`, `Koul.Core.mem_transferRecipients_iff` — its two lists.
* `Koul.Core.exists_call_of_permissionsFor` — every grant allows more than ticks.
-/

namespace Koul.Core

/-- The contracts a grant names. -/
structure PermissionContracts where
  router : Address
  controller : Address
  pool : Address
  usdc : Address
  aggregator : Option Address
deriving DecidableEq, Repr

structure AgentPermissions where
  allowedCalls : List (Address × Symbol)
  transferRecipients : List Address
  descriptions : List String
deriving DecidableEq, Repr

/-- Why there is no grant. -/
inductive PermissionError
  | invalid (errors : List ValidationError)
  | needsAggregator
deriving DecidableEq, Repr

/-- The tags of the actions. -/
inductive ActionType
  | moveSupply
  | supplyFromWallet
  | repayFromWallet
  | repayWithCollateral
  | withdrawToWallet
  | swapFromWallet
  | withdrawAndSwap
deriving DecidableEq, Repr

def Action.type : Action → ActionType
  | .moveSupply .. => .moveSupply
  | .supplyFromWallet .. => .supplyFromWallet
  | .repayFromWallet .. => .repayFromWallet
  | .repayWithCollateral .. => .repayWithCollateral
  | .withdrawToWallet .. => .withdrawToWallet
  | .swapFromWallet .. => .swapFromWallet
  | .withdrawAndSwap .. => .withdrawAndSwap

/-- Some rule's action has this tag. -/
def Autopilot.hasKind (ap : Autopilot) (t : ActionType) : Bool :=
  ap.rules.any fun r => r.action.type == t

def needsWithdraw (ap : Autopilot) : Bool :=
  ap.hasKind .moveSupply || ap.hasKind .repayWithCollateral || ap.hasKind .withdrawToWallet ||
    ap.hasKind .withdrawAndSwap

def needsSupply (ap : Autopilot) : Bool := ap.hasKind .moveSupply || ap.hasKind .supplyFromWallet

def needsRepay (ap : Autopilot) : Bool :=
  ap.hasKind .repayFromWallet || ap.hasKind .repayWithCollateral

/-- The token that an action swaps, when it does. -/
def Action.swapInput (contracts : PermissionContracts) : Action → List Address
  | .swapFromWallet tokenIn _ _ _ => [tokenIn]
  | .withdrawAndSwap .. => [contracts.usdc]
  | _ => []

/-- The tokens that the rules swap, each once. -/
def swapInputs (ap : Autopilot) (contracts : PermissionContracts) : List Address :=
  (ap.rules.flatMap fun r => r.action.swapInput contracts).eraseDups

/-- The tokens that leave the wallet, each once. -/
def transferTokens (ap : Autopilot) (contracts : PermissionContracts) : List Address :=
  ((if needsSupply ap || needsRepay ap then [contracts.usdc] else []) ++
    swapInputs ap contracts).eraseDups

def descriptions (ap : Autopilot) (contracts : PermissionContracts) : List String :=
  ["Check and run the first eligible autopilot rule"] ++
    (if needsWithdraw ap then ["Withdraw USDC from your own XOXNO position to your wallet"]
      else []) ++
    (if needsSupply ap then
      [if ap.hasKind .supplyFromWallet then
        "Put idle USDC from your wallet into your own XOXNO position"
      else "Supply wallet USDC to your own XOXNO position"] else []) ++
    (if needsRepay ap then ["Repay debt on your own XOXNO position"] else []) ++
    (if swapInputs ap contracts ≠ [] then
      ["Swap tokens in your wallet through the XOXNO aggregator, paid back to your wallet, " ++
        "never below the oracle price less your slippage"] else []) ++
    (if needsSupply ap || needsRepay ap then
      ["Transfer USDC from your wallet to the XOXNO pool"] else []) ++
    (if swapInputs ap contracts ≠ [] then ["Hand a swap's input to the aggregator"] else [])

/-- The permissions that the rules add up to. Without a swap the aggregator is not used. -/
def unionOf (ap : Autopilot) (contracts : PermissionContracts) : AgentPermissions :=
  { allowedCalls :=
      [(contracts.router, .tick)] ++
        (if needsWithdraw ap then [(contracts.controller, .withdraw)] else []) ++
        (if needsSupply ap then [(contracts.controller, .supply)] else []) ++
        (if needsRepay ap then [(contracts.controller, .repay)] else []) ++
        (if swapInputs ap contracts ≠ [] then
          contracts.aggregator.toList.map fun a => (a, .executeStrategy) else []) ++
        (transferTokens ap contracts).map fun token => (token, .transfer)
    transferRecipients :=
      (if needsSupply ap || needsRepay ap then [contracts.pool] else []) ++
        (if swapInputs ap contracts ≠ [] then contracts.aggregator.toList else [])
    descriptions := descriptions ap contracts }

/-- No aggregator is configured. An empty text counts as none. -/
def PermissionContracts.noAggregator (contracts : PermissionContracts) : Bool :=
  contracts.aggregator.getD "" == ""

/-- The union of the calls that the autopilot can make. -/
def permissionsFor (ap : Autopilot) (contracts : PermissionContracts) :
    Except PermissionError AgentPermissions :=
  let errors := validateAutopilot ap
  if errors ≠ [] then .error (.invalid errors)
  else if swapInputs ap contracts ≠ [] ∧ contracts.noAggregator then .error .needsAggregator
  else .ok (unionOf ap contracts)

/-! ## What a grant lists -/

variable {ap : Autopilot} {contracts : PermissionContracts} {perms : AgentPermissions}

/-- Only a valid autopilot has a grant, and swaps need the aggregator. -/
lemma permissionsFor_eq_ok_iff : permissionsFor ap contracts = .ok perms ↔
    validateAutopilot ap = [] ∧ (swapInputs ap contracts ≠ [] → ¬ contracts.noAggregator) ∧
      perms = unionOf ap contracts := by
  simp only [permissionsFor]
  split_ifs with herrors haggregator
  · constructor
    · intro h
      cases h
    · rintro ⟨hvalid, -, -⟩
      exact absurd hvalid herrors
  · constructor
    · intro h
      cases h
    · rintro ⟨-, hagg, -⟩
      exact absurd haggregator.2 (hagg haggregator.1)
  · constructor
    · intro h
      obtain rfl := Except.ok.inj h
      refine ⟨not_not.mp herrors, ?_, rfl⟩
      intro hswap hnone
      exact haggregator ⟨hswap, hnone⟩
    · rintro ⟨-, -, rfl⟩
      rfl

/-- A configuration with an aggregator names it. -/
lemma PermissionContracts.exists_aggregator (h : ¬ contracts.noAggregator) :
    ∃ a, contracts.aggregator = some a := by
  rw [noAggregator] at h
  cases hagg : contracts.aggregator with
  | none => exact absurd (by rw [hagg]; rfl) h
  | some a => exact ⟨a, rfl⟩

/-- The calls of a grant. -/
lemma mem_allowedCalls_iff {c : Address} {f : Symbol} :
    (c, f) ∈ (unionOf ap contracts).allowedCalls ↔
      c = contracts.router ∧ f = .tick ∨
      needsWithdraw ap = true ∧ c = contracts.controller ∧ f = .withdraw ∨
      needsSupply ap = true ∧ c = contracts.controller ∧ f = .supply ∨
      needsRepay ap = true ∧ c = contracts.controller ∧ f = .repay ∨
      swapInputs ap contracts ≠ [] ∧ contracts.aggregator = some c ∧ f = .executeStrategy ∨
      c ∈ transferTokens ap contracts ∧ f = .transfer := by
  simp only [unionOf, List.mem_append, List.mem_ite_nil_right, List.mem_cons, List.not_mem_nil,
    or_false, Prod.mk.injEq, List.mem_map, Option.mem_toList]
  constructor
  · rintro (((((h | h) | h) | h) | ⟨hswap, a, ha, rfl, rfl⟩) | ⟨t, ht, rfl, rfl⟩)
    · exact .inl h
    · exact .inr (.inl h)
    · exact .inr (.inr (.inl h))
    · exact .inr (.inr (.inr (.inl h)))
    · exact .inr (.inr (.inr (.inr (.inl ⟨hswap, ha, rfl⟩))))
    · exact .inr (.inr (.inr (.inr (.inr ⟨ht, rfl⟩))))
  · rintro (h | h | h | h | ⟨hswap, ha, rfl⟩ | ⟨ht, rfl⟩)
    · exact .inl (.inl (.inl (.inl (.inl h))))
    · exact .inl (.inl (.inl (.inl (.inr h))))
    · exact .inl (.inl (.inl (.inr h)))
    · exact .inl (.inl (.inr h))
    · exact .inl (.inr ⟨hswap, c, ha, rfl, rfl⟩)
    · exact .inr ⟨c, ht, rfl, rfl⟩

/-- The recipients of a grant. -/
lemma mem_transferRecipients_iff {r : Address} :
    r ∈ (unionOf ap contracts).transferRecipients ↔
      (needsSupply ap || needsRepay ap) = true ∧ r = contracts.pool ∨
        swapInputs ap contracts ≠ [] ∧ contracts.aggregator = some r := by
  simp only [unionOf, List.mem_append, List.mem_ite_nil_right, List.mem_cons, List.not_mem_nil,
    or_false, Option.mem_toList]

/-- The tokens that leave the wallet. -/
lemma mem_transferTokens_iff {t : Address} : t ∈ transferTokens ap contracts ↔
    (needsSupply ap || needsRepay ap) = true ∧ t = contracts.usdc ∨
      t ∈ swapInputs ap contracts := by
  simp only [transferTokens, List.mem_eraseDups, List.mem_append, List.mem_ite_nil_right,
    List.mem_cons, List.not_mem_nil, or_false]

/-- The tokens that are swapped are the rules' inputs. -/
lemma mem_swapInputs_iff {t : Address} : t ∈ swapInputs ap contracts ↔
    ∃ r ∈ ap.rules, t ∈ r.action.swapInput contracts := by
  simp only [swapInputs, List.mem_eraseDups, List.mem_flatMap]

/-- An autopilot has the tags of its rules. -/
lemma hasKind_iff {t : ActionType} : ap.hasKind t = true ↔ ∃ r ∈ ap.rules, r.action.type = t := by
  simp only [Autopilot.hasKind, List.any_eq_true, beq_iff_eq]

lemma hasKind_of_mem {r : Rule} (hr : r ∈ ap.rules) : ap.hasKind r.action.type = true :=
  hasKind_iff.mpr ⟨r, hr, rfl⟩

/-- The actions that send USDC to the pool: a move, a supply or a repayment. -/
def ActionType.paysPool : ActionType → Bool
  | .moveSupply => true
  | .supplyFromWallet => true
  | .repayFromWallet => true
  | .repayWithCollateral => true
  | .withdrawToWallet => false
  | .swapFromWallet => false
  | .withdrawAndSwap => false

/-- A grant has the pool exactly when some rule sends USDC there. -/
lemma needsPool_iff : (needsSupply ap || needsRepay ap) = true ↔
    ∃ r ∈ ap.rules, r.action.type.paysPool = true := by
  simp only [needsSupply, needsRepay, Bool.or_eq_true, hasKind_iff]
  constructor
  · rintro ((⟨r, hr, ht⟩ | ⟨r, hr, ht⟩) | ⟨r, hr, ht⟩ | ⟨r, hr, ht⟩) <;>
      exact ⟨r, hr, by rw [ht]; rfl⟩
  · rintro ⟨r, hr, hpool⟩
    cases ht : r.action.type with
    | moveSupply => exact .inl (.inl ⟨r, hr, ht⟩)
    | supplyFromWallet => exact .inl (.inr ⟨r, hr, ht⟩)
    | repayFromWallet => exact .inr (.inl ⟨r, hr, ht⟩)
    | repayWithCollateral => exact .inr (.inr ⟨r, hr, ht⟩)
    | withdrawToWallet | swapFromWallet | withdrawAndSwap =>
      rw [ht] at hpool
      cases hpool

/-- **A grant is for more than ticks**: whatever its rules do, it allows another call, and that is
no transfer. -/
theorem exists_call_of_permissionsFor (h : permissionsFor ap contracts = .ok perms) :
    ∃ c f, (c, f) ∈ perms.allowedCalls ∧ f ≠ Symbol.tick ∧ f ≠ Symbol.transfer := by
  obtain ⟨hvalid, haggregator, rfl⟩ := permissionsFor_eq_ok_iff.mp h
  obtain ⟨r, hr⟩ := List.exists_mem_of_ne_nil _ (rules_ne_nil hvalid)
  have hwithdraw : needsWithdraw ap = true →
      ∃ c f, (c, f) ∈ (unionOf ap contracts).allowedCalls ∧ f ≠ Symbol.tick ∧
        f ≠ Symbol.transfer := by
    intro hneeds
    refine ⟨contracts.controller, .withdraw, ?_, by decide, by decide⟩
    exact mem_allowedCalls_iff.mpr (.inr (.inl ⟨hneeds, rfl, rfl⟩))
  have hkind := hasKind_of_mem hr
  cases hact : r.action with
  | moveSupply | repayWithCollateral | withdrawToWallet | withdrawAndSwap =>
    rw [hact, Action.type] at hkind
    apply hwithdraw
    simp [needsWithdraw, hkind]
  | supplyFromWallet hub amt =>
    rw [hact, Action.type] at hkind
    refine ⟨contracts.controller, .supply, ?_, by decide, by decide⟩
    exact mem_allowedCalls_iff.mpr (.inr (.inr (.inl ⟨by simp [needsSupply, hkind], rfl, rfl⟩)))
  | repayFromWallet hub amt =>
    rw [hact, Action.type] at hkind
    refine ⟨contracts.controller, .repay, ?_, by decide, by decide⟩
    exact mem_allowedCalls_iff.mpr
      (.inr (.inr (.inr (.inl ⟨by simp [needsRepay, hkind], rfl, rfl⟩))))
  | swapFromWallet tin tout amt slip =>
    have hinput : tin ∈ swapInputs ap contracts := by
      refine mem_swapInputs_iff.mpr ⟨r, hr, ?_⟩
      rw [hact]
      exact List.mem_singleton.mpr rfl
    have hswap : swapInputs ap contracts ≠ [] := List.ne_nil_of_mem hinput
    obtain ⟨aggregator, hagg⟩ := PermissionContracts.exists_aggregator (haggregator hswap)
    refine ⟨aggregator, .executeStrategy, ?_, by decide, by decide⟩
    exact mem_allowedCalls_iff.mpr (.inr (.inr (.inr (.inr (.inl ⟨hswap, hagg, rfl⟩)))))

end Koul.Core
