import Koul.Core.Validate
import Koul.Router.Amounts

set_option relaxedAutoImplicit false
set_option autoImplicit false

/-!
# Encoding for the contract

`encodeAutopilot` of `@koul/core`, as the contract value that the encoded bytes stand for: decimal
strings become integers, and an FX asset becomes a symbol when it is one.

## Main definitions

* `Koul.Core.encodeAction`, `encodeCondition`, `encodeRule` — one function for each type.
* `Koul.Core.encodeAutopilot` — the contract's autopilot, or why there is none.

## Main results

* `Koul.Core.encodeRule_eq_some`, `encodeAutopilot_eq_ok` — what an encoded value keeps.
-/

namespace Koul.Core

/-- The symbol with this text, when it is one. -/
def toSymbol? (s : String) : Option Symbol :=
  if h : s.length ≤ 32 ∧ s.toList.all isSymbolChar = true then some ⟨s, h.1, h.2⟩ else none

def encodeCmp : Cmp → Router.Cmp
  | .below => .below
  | .atOrAbove => .atOrAbove

def encodeAmount : Amount → Router.Amount
  | .all => .all
  | .percent bps => .percent bps
  | .fixed value => .fixed (bigInt value)

def encodeCondition : Condition → Option Router.Condition
  | .healthFactor cmp levelWad => some (.healthFactor (encodeCmp cmp) (bigInt levelWad))
  | .supplyRateGap hubOver hubUnder minBps => some (.supplyRateGap hubOver hubUnder minBps)
  | .supplyRate hub cmp bps => some (.supplyRate hub (encodeCmp cmp) bps)
  | .fxPrice asset cmp level maxAgeSecs => do
    let asset ← toSymbol? asset
    some (.fxPrice asset (encodeCmp cmp) (bigInt level) (bigInt maxAgeSecs))
  | .idleBalance cmp amount => some (.idleBalance (encodeCmp cmp) (bigInt amount))
  | .tokenPrice token cmp level => some (.tokenPrice token (encodeCmp cmp) (bigInt level))
  | .tokenBalance token cmp amount => some (.tokenBalance token (encodeCmp cmp) (bigInt amount))

def encodeAction : Action → Router.Action
  | .moveSupply fromHub toHub amount => .moveSupply fromHub toHub (encodeAmount amount)
  | .supplyFromWallet hub amount => .supplyFromWallet hub (encodeAmount amount)
  | .repayFromWallet hub amount => .repayFromWallet hub (encodeAmount amount)
  | .repayWithCollateral withdrawHub repayHub amount =>
    .repayWithCollateral withdrawHub repayHub (encodeAmount amount)
  | .withdrawToWallet hub amount => .withdrawToWallet hub (encodeAmount amount)
  | .swapFromWallet tokenIn tokenOut amount maxSlippageBps =>
    .swapFromWallet tokenIn tokenOut (encodeAmount amount) maxSlippageBps
  | .withdrawAndSwap hub tokenOut amount maxSlippageBps =>
    .withdrawAndSwap hub tokenOut (encodeAmount amount) maxSlippageBps

def encodeRule (r : Rule) : Option Router.Rule := do
  let conditions ← r.conditions.mapM encodeCondition
  some ⟨conditions, r.matchAll, encodeAction r.action, r.cooldownLedgers⟩

/-- Why an autopilot is not encoded. The encoder writes any text as a symbol; the contract is
given no value when it is none. -/
inductive EncodeError
  | invalid (errors : List ValidationError)
  | notSymbol
deriving DecidableEq, Repr

def encodeAutopilot (ap : Autopilot) : Except EncodeError Router.Autopilot :=
  let errors := validateAutopilot ap
  if errors ≠ [] then .error (.invalid errors)
  else
    match ap.rules.mapM encodeRule with
    | none => .error .notSymbol
    | some rules => .ok ⟨bigInt ap.accountId, rules⟩

/-! ## What an encoded autopilot keeps -/

/-- A fallible map succeeds when every item does. -/
lemma mapM_eq_some_iff {α β : Type} {f : α → Option β} {l : List α} {l' : List β} :
    l.mapM f = some l' ↔ l.map f = l'.map some := by
  induction l generalizing l' with
  | nil =>
    cases l' with
    | nil => exact ⟨fun _ => rfl, fun _ => rfl⟩
    | cons b bs => exact ⟨(fun h => nomatch h), fun h => nomatch h⟩
  | cons a as ih =>
    rw [List.mapM_cons, List.map_cons]
    constructor
    · intro h
      obtain ⟨b, hb, h⟩ := Option.bind_eq_some_iff.mp h
      obtain ⟨bs, hbs, h⟩ := Option.bind_eq_some_iff.mp h
      obtain rfl : b :: bs = l' := Option.some.inj h
      rw [hb, ih.mp hbs, List.map_cons]
    · intro h
      cases l' with
      | nil => cases h
      | cons b bs =>
        rw [List.map_cons] at h
        injection h with hb hbs
        rw [hb, ih.mpr hbs]
        rfl

/-- An encoded rule has its rule's conditions, encoded, and its encoded action. -/
lemma encodeRule_eq_some {r : Rule} {r' : Router.Rule} (h : encodeRule r = some r') :
    r.conditions.map encodeCondition = r'.conditions.map some ∧ r'.matchAll = r.matchAll ∧
      r'.action = encodeAction r.action := by
  rw [encodeRule] at h
  obtain ⟨conditions, hconditions, h⟩ := Option.bind_eq_some_iff.mp h
  cases h
  exact ⟨mapM_eq_some_iff.mp hconditions, rfl, rfl⟩

/-- The conditions of an encoded rule are its rule's, encoded. -/
lemma mem_conditions_iff {r : Rule} {r' : Router.Rule} (h : encodeRule r = some r')
    {c' : Router.Condition} :
    c' ∈ r'.conditions ↔ ∃ c ∈ r.conditions, encodeCondition c = some c' := by
  have hconditions := (encodeRule_eq_some h).1
  have hmem : some c' ∈ r'.conditions.map some ↔ c' ∈ r'.conditions :=
    List.mem_map_of_injective (Option.some_injective _)
  rw [← hmem, ← hconditions, List.mem_map]

/-- A rule is encoded when its conditions are. -/
lemma exists_encodeRule {r : Rule}
    (h : ∀ c ∈ r.conditions, ∃ c', encodeCondition c = some c') : ∃ r', encodeRule r = some r' := by
  have hall : ∀ l : List Condition, (∀ c ∈ l, ∃ c', encodeCondition c = some c') →
      ∃ l', l.mapM encodeCondition = some l' := by
    intro l hl
    induction l with
    | nil => exact ⟨[], rfl⟩
    | cons c cs ih =>
      obtain ⟨⟨c', hc'⟩, hcs⟩ := List.forall_mem_cons.mp hl
      obtain ⟨l', hl'⟩ := ih hcs
      exact ⟨c' :: l', by rw [List.mapM_cons, hc', hl']; rfl⟩
  obtain ⟨conditions, hconditions⟩ := hall r.conditions h
  exact ⟨⟨conditions, r.matchAll, encodeAction r.action, r.cooldownLedgers⟩, by
    rw [encodeRule, hconditions]; rfl⟩

/-- An encoded autopilot is valid; it keeps the account and encodes the rules in order. -/
lemma encodeAutopilot_eq_ok {ap : Autopilot} {ap' : Router.Autopilot}
    (h : encodeAutopilot ap = .ok ap') :
    validateAutopilot ap = [] ∧ ap'.accountId = bigInt ap.accountId ∧
      ap.rules.map encodeRule = ap'.rules.map some := by
  simp only [encodeAutopilot] at h
  split_ifs at h with herrors
  split at h
  · cases h
  · next rules hrules =>
    cases h
    exact ⟨not_not.mp herrors, rfl, mapM_eq_some_iff.mp hrules⟩

end Koul.Core
