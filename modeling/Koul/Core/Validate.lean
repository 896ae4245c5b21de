import Koul.Core.Schema

set_option relaxedAutoImplicit false
set_option autoImplicit false

/-!
# The validator

`validateAutopilot` of `@koul/core`: the schema first and, when it finds nothing, the router's
limits.

## Main definitions

* `Koul.Core.limitErrors` — the limits, with the texts of the errors.
* `Koul.Core.validateAutopilot` — everything wrong with an autopilot, in order.
-/

namespace Koul.Core

def I128_MAX : ℕ := 0x7fffffffffffffffffffffffffffffff

def U64_MAX : ℕ := 0xffffffffffffffff

def MIN_MOVE : ℕ := 10000000

/-- An error of the validator: an issue of the schema, or a limit's text. -/
inductive ValidationError
  | schema (issue : Issue)
  | limit (text : String)
deriving DecidableEq, Repr

/-- One limit, with its error. -/
def errorIf (bad : Bool) (text : String) : List String := if bad then [text] else []

/-- The values of a condition that are `i128` on the contract's side. -/
def Condition.values : Condition → List String
  | .healthFactor _ levelWad => [levelWad]
  | .fxPrice _ _ level _ => [level]
  | .tokenPrice _ _ level => [level]
  | .idleBalance _ amount => [amount]
  | .tokenBalance _ _ amount => [amount]
  | _ => []

def conditionErrors (p : String) (c : Condition) : List String :=
  (match c with
    | .supplyRateGap hubOver hubUnder minBps =>
      errorIf (hubOver == hubUnder) s!"{p}: hubs must differ" ++
        errorIf (minBps == 0) s!"{p}.min_bps must be positive"
    | .supplyRate _ _ bps => errorIf (bps == 0) s!"{p}.bps must be positive"
    | .fxPrice _ _ _ maxAgeSecs =>
      errorIf (bigInt maxAgeSecs == 0) s!"{p}.max_age_secs must be positive"
    | _ => []) ++
  c.values.flatMap (fun value => errorIf (bigInt value > I128_MAX) s!"{p}: value exceeds i128") ++
  (match c with
    | .fxPrice _ _ _ maxAgeSecs =>
      errorIf (bigInt maxAgeSecs > U64_MAX) s!"{p}.max_age_secs exceeds u64"
    | _ => [])

def Action.isSwapFromWallet : Action → Bool
  | .swapFromWallet .. => true
  | _ => false

def actionErrors (path : String) (a : Action) : List String :=
  (match a with
    | .moveSupply fromHub toHub _ =>
      errorIf (fromHub == toHub) s!"{path}.action: hubs must differ"
    | _ => []) ++
  (match a.amount with
    | .percent bps =>
      errorIf (bps < 1 || bps > 10000) s!"{path}.action.amount.bps must be 1..10000"
    | _ => []) ++
  (match a with
    | .swapFromWallet tokenIn tokenOut _ _ =>
      errorIf (tokenIn == tokenOut) s!"{path}.action: tokens must differ"
    | _ => []) ++
  (match a.amount with
    | .fixed value =>
      -- a wallet swap's fixed amount is in its own token's units
      errorIf (!a.isSwapFromWallet && bigInt value < MIN_MOVE)
          s!"{path}.action.amount.value must be at least 1 USDC (10000000 units)" ++
        errorIf (bigInt value > I128_MAX) s!"{path}.action.amount.value exceeds i128"
    | _ => [])

def ruleErrors (i : ℕ) (r : Rule) : List String :=
  let path := s!"rules.{i}"
  errorIf (r.cooldownLedgers == 0) s!"{path}.cooldown_ledgers must be positive" ++
    (r.conditions.zipIdx.flatMap fun (c, j) => conditionErrors s!"{path}.conditions.{j}" c) ++
    actionErrors path r.action

def limitErrors (ap : Autopilot) : List String :=
  errorIf (bigInt ap.accountId > U64_MAX) "account_id exceeds u64" ++
    ap.rules.zipIdx.flatMap fun (r, i) => ruleErrors i r

/-- Errors for the user; none when the router accepts the shape and limits. -/
def validateAutopilot (ap : Autopilot) : List ValidationError :=
  if (schemaIssues ap).isEmpty then (limitErrors ap).map .limit
  else (schemaIssues ap).map .schema

/-- A valid autopilot passes the schema and the limits. -/
lemma validateAutopilot_eq_nil_iff {ap : Autopilot} :
    validateAutopilot ap = [] ↔ schemaIssues ap = [] ∧ limitErrors ap = [] := by
  rw [validateAutopilot]
  cases hissues : schemaIssues ap with
  | nil => simp
  | cons i is => simp

/-- The account id of a valid autopilot is a printed number. -/
lemma isDecimal_accountId {ap : Autopilot} (h : validateAutopilot ap = []) :
    isDecimal ap.accountId = true := by
  have hschema := (validateAutopilot_eq_nil_iff.mp h).1
  rw [schemaIssues, List.append_assoc, List.append_assoc, List.append_eq_nil_iff] at hschema
  exact issueUnless_eq_nil_iff.mp hschema.1

/-- A valid autopilot has a rule. -/
lemma rules_ne_nil {ap : Autopilot} (h : validateAutopilot ap = []) : ap.rules ≠ [] := by
  have hschema := (validateAutopilot_eq_nil_iff.mp h).1
  simp only [schemaIssues, List.append_eq_nil_iff] at hschema
  obtain ⟨⟨-, hsmall⟩, -⟩ := hschema
  have hlength := of_decide_eq_true (issueUnless_eq_nil_iff.mp hsmall)
  exact List.length_pos_iff.mp hlength

end Koul.Core
