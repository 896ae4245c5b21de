import Koul.Lib.Stutter
import Koul.Web.Adapter

set_option relaxedAutoImplicit false
set_option autoImplicit false

/-!
# From the router's autopilot to cards

`foldCoreRules`: the contract rules read back as cards. The contract rules of one card read the
same, so a rule that reads as the one before it belongs to that one's card.

## Main definitions

* `Koul.Web.fromCoreCondition`, `actionOf`, `fromAmount` — the parts of a contract rule, read.
* `Koul.Web.Shape` — all that a contract rule reads as.
* `Koul.Web.foldCoreRules` — the cards, and the card of each contract rule.

## Main results

* `Koul.Web.foldCoreRules_spec` — the cards are the shapes without repetitions, and the map is
  that of the runs.
-/

namespace Koul.Web

open Koul.Core (bigInt)

/-- The engine's arithmetic, with `Math.expm1` for reading rates back. -/
structure ReadDoubles extends Doubles where
  expm1 : ℚ → ℚ

variable (d : ReadDoubles)

/-- `Number` of a decimal text. -/
def number (text : String) : ℚ := d.fl (bigInt text)

/-- `Number(x.toFixed(digits))` of a number that is not negative, where `scale` is
`10 ** digits`. -/
def toFixed (x scale : ℚ) : ℚ := d.fl (mathRound (x * scale) / scale)

def aprToApy (apr : ℚ) : ℚ := d.fl (d.expm1 (d.fl (apr / 100)) * 100)

def usdPerTryToTryPerUsd (price : ℕ) : ℚ :=
  if price = 0 then 0 else d.fl (100000000000000 / d.fl price)

def poolByHub (hub : ℕ) : PoolId := if hub = 2 then .B else .A

/-- The tokens, in the order of the list that is searched. -/
def tokenSymbols : List TokenSymbol := [.XLM, .ETH, .SOL, .XRP, .wBTC, .BTC, .USDT, .EURC]

def tokenById (id : Address) : Option TokenSymbol :=
  tokenSymbols.find? fun t => (tokenBySymbol t).id == id

/-- The card's comparison of a contract's. -/
def ofCmp : Core.Cmp → Comparator
  | .below => .lte
  | .atOrAbove => .gte

/-- The same for a reading that falls as the card's rises. -/
def ofFlipped : Core.Cmp → Comparator
  | .below => .gte
  | .atOrAbove => .lte

def fromCoreCondition : Core.Condition → Condition
  | .healthFactor cmp levelWad =>
    ⟨.healthFactor, ofCmp cmp,
      .fin (toFixed d (d.fl (number d levelWad / 1000000000000000000)) 100), none, none⟩
  | .fxPrice _ cmp level _ =>
    ⟨.fxPrice, ofFlipped cmp, .fin (toFixed d (usdPerTryToTryPerUsd d (bigInt level)) 100), none,
      none⟩
  | .idleBalance cmp amount =>
    ⟨.idleUsdc, ofCmp cmp, .fin (d.fl (number d amount / 10000000)), none, none⟩
  | .supplyRateGap _ _ minBps => ⟨.rateGap, .gte, .fin (d.fl (minBps / 100)), none, none⟩
  | .supplyRate hub cmp bps =>
    ⟨.poolRate, ofCmp cmp, .fin (toFixed d (aprToApy d (d.fl (bps / 100))) 100),
      some (poolByHub hub), none⟩
  | .tokenPrice token cmp level =>
    ⟨.tokenPrice, ofCmp cmp, .fin (toFixed d (d.fl (number d level / 100000000000000)) 10000),
      none, some ((tokenById token).getD .XLM)⟩
  | .tokenBalance token cmp amount =>
    let decimals := (tokenById token).elim 7 fun t => (tokenBySymbol t).decimals
    ⟨.tokenBalance, ofCmp cmp, .fin (d.fl (number d amount / (10 ^ decimals : ℕ))), none,
      some ((tokenById token).getD .XLM)⟩

/-- What a contract action reads as: its kind, the token it trades, and the decimals of its
amount. -/
structure ReadAction where
  kind : ActionKind
  token : Option TokenSymbol
  decimals : ℕ
deriving DecidableEq, Repr

def actionOf : Core.Action → ReadAction
  | .moveSupply .. => ⟨.moveToBestPool, none, 7⟩
  | .withdrawToWallet .. => ⟨.withdrawToWallet, none, 7⟩
  | .supplyFromWallet .. => ⟨.supplyFromWallet, none, 7⟩
  | .repayFromWallet .. => ⟨.repayFromWallet, none, 7⟩
  | .repayWithCollateral .. => ⟨.repayFromWallet, none, 7⟩
  | .swapFromWallet tokenIn tokenOut _ _ =>
    if tokenIn = usdc then ⟨.buyToken, some ((tokenById tokenOut).getD .XLM), 7⟩
    else
      ⟨.sellToken, some ((tokenById tokenIn).getD .XLM),
        (tokenById tokenIn).elim 7 fun t => (tokenBySymbol t).decimals⟩
  | .withdrawAndSwap _ tokenOut _ _ =>
    ⟨.withdrawToToken, some ((tokenById tokenOut).getD .XLM), 7⟩

def fromAmount (a : Core.Amount) (decimals : ℕ) : ActionAmount :=
  match a with
  | .all => .all
  | .fixed value => .fixed (.fin (d.fl (number d value / (10 ^ decimals : ℕ))))
  | .percent bps =>
    if bps ≥ 10000 then .all else .share (.fin (max 1 (mathRound (d.fl (bps / 100)))))

/-- The pool that a contract action reads as: only a supply's. -/
def poolOf : Core.Action → Option PoolId
  | .supplyFromWallet hub _ => some (poolByHub hub)
  | _ => none

/-- All that a contract rule reads as. Its JSON text is compared in the source; the numbers in it
are finite, so two rules have one text when they have one shape. -/
structure Shape where
  kind : ActionKind
  conditions : List Condition
  amount : ActionAmount
  matchAll : Bool
  cooldownLedgers : ℕ
  pool : Option PoolId
  token : Option TokenSymbol
deriving DecidableEq, Repr

def shapeOf (r : Core.Rule) : Shape :=
  let a := actionOf r.action
  ⟨a.kind, r.conditions.map (fromCoreCondition d), fromAmount d r.action.amount a.decimals,
    r.matchAll, r.cooldownLedgers, poolOf r.action, a.token⟩

/-- A card with the fields that the adapter does not read. -/
structure NamedRule extends Rule where
  name : String
  inferred : List String
deriving DecidableEq, Repr

/-- The names of the cards read back; `fxOn` is whether USD/TRY is on offer. -/
def ruleName (fxOn : Bool) (kind : ActionKind) (token : TokenSymbol) : String :=
  match kind with
  | .supplyFromWallet => "Put it to work"
  | .moveToBestPool => "Best rate"
  | .repayFromWallet => "Stay safe"
  | .withdrawToWallet => if fxOn then "Lira exit" else "Withdraw"
  | .sellToken => s!"Sell {token.name}"
  | .buyToken => s!"Buy {token.name}"
  | .withdrawToToken => s!"Into {token.name}"

/-- The card of a shape. -/
def cardOf (id : String) (s : Shape) : Rule :=
  ⟨id, s.conditions, if s.matchAll then .all else .any, ⟨s.kind, s.amount, s.pool, s.token⟩,
    .fin (d.fl (s.cooldownLedgers * LEDGER_SECONDS)), true⟩

/-- The cards so far, the card of each contract rule so far, and the shapes of the cards. -/
structure Folding where
  rules : List NamedRule
  contractToUi : List ℕ
  shapes : List Shape

/-- One contract rule of the loop. -/
def foldCoreRule (fxOn : Bool) (f : Folding) (r : Core.Rule × ℕ) : Folding :=
  let shape := shapeOf d r.1
  if f.shapes.getLast? = some shape then
    { f with contractToUi := f.contractToUi ++ [f.rules.length - 1] }
  else
    ⟨f.rules ++ [{ toRule := cardOf d s!"chain_{r.2}" shape
                   name := ruleName fxOn shape.kind (tokenOf shape.token)
                   inferred := [] }],
      f.contractToUi ++ [f.rules.length], f.shapes ++ [shape]⟩

/-- The contract rules as cards, and the card of each. -/
def foldCoreRules (fxOn : Bool) (core : Core.Autopilot) : Folding :=
  core.rules.zipIdx.foldl (foldCoreRule d fxOn) ⟨[], [], []⟩

/-! ## The fold of the shapes -/

/-- A card without its id. -/
def Rule.unnamed (r : Rule) : Rule := { r with id := "" }

variable {d}

/-- The loop folds the shapes: it keeps the first of each run, with its card, and maps each rule
to its run. -/
lemma foldl_foldCoreRule (fxOn : Bool) (rs : List Core.Rule) (i : ℕ) (f : Folding)
    (hrules : f.rules.map (·.toRule.unnamed) = f.shapes.map (cardOf d "")) :
    let f' := (rs.zipIdx i).foldl (foldCoreRule d fxOn) f
    let g := (rs.map (shapeOf d)).foldl Stutter.push ⟨f.shapes, f.contractToUi⟩
    f'.shapes = g.heads ∧ f'.contractToUi = g.runOf ∧
      f'.rules.map (·.toRule.unnamed) = g.heads.map (cardOf d "") := by
  induction rs generalizing i f with
  | nil => exact ⟨rfl, rfl, hrules⟩
  | cons r rs ih =>
    have hlength : f.rules.length = f.shapes.length := by
      rw [← List.length_map (f := fun r : NamedRule => r.toRule.unnamed), hrules,
        List.length_map]
    have hpush : Stutter.push ⟨f.shapes, f.contractToUi⟩ (shapeOf d r) =
        ⟨(foldCoreRule d fxOn f (r, i)).shapes, (foldCoreRule d fxOn f (r, i)).contractToUi⟩ := by
      simp only [Stutter.push, foldCoreRule, hlength]
      split_ifs <;> rfl
    have hcards : (foldCoreRule d fxOn f (r, i)).rules.map (·.toRule.unnamed) =
        (foldCoreRule d fxOn f (r, i)).shapes.map (cardOf d "") := by
      simp only [foldCoreRule]
      split_ifs
      · exact hrules
      · rw [List.map_append, List.map_append, hrules]
        rfl
    intro f' g
    have h := ih (i + 1) (foldCoreRule d fxOn f (r, i)) hcards
    rw [← hpush] at h
    exact h

/-- **The fold**: the cards are those of the shapes without repetitions, and every contract rule
has the card of its run. -/
theorem foldCoreRules_spec (fxOn : Bool) (core : Core.Autopilot) :
    let f := foldCoreRules d fxOn core
    let g := Stutter.fold (core.rules.map (shapeOf d))
    f.contractToUi = g.runOf ∧ f.rules.map (·.toRule.unnamed) = g.heads.map (cardOf d "") :=
  (foldl_foldCoreRule fxOn core.rules 0 ⟨[], [], []⟩ rfl).2

end Koul.Web
