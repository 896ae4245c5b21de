import Koul.Soroban
import Mathlib.Algebra.Order.Field.Rat
import Mathlib.Data.Rat.Floor

set_option relaxedAutoImplicit false
set_option autoImplicit false

/-!
# The rules of the app

The rule cards as the app keeps them, the tokens that it trades, and `pairingProblem`, which says
why the router cannot run a card.

## Main definitions

* `Koul.Web.Number` — a JavaScript number, and `Koul.Web.Doubles`, arithmetic on such numbers.
* `Koul.Web.Rule`, `Condition`, `Action` — a rule card.
* `Koul.Web.pairingProblem` — why a card cannot be saved.

## Design

A card's numbers are what the user typed: an empty field is `NaN`. A finite number is the rational
that it stands for. Sums, products and quotients of doubles are rounded; `Doubles.fl` rounds a
product or a quotient, and every statement holds whatever it is. No number here leaves the range
of a double.
-/

namespace Koul.Web

/-! ## Numbers -/

/-- A JavaScript number. -/
inductive Number
  | fin (q : ℚ)
  | inf (negative : Bool)
  | nan
deriving DecidableEq, Repr

namespace Number

/-- `Number.isFinite`. -/
def isFinite : Number → Bool
  | fin _ => true
  | _ => false

/-- `x > b`. -/
def gt (x : Number) (b : ℚ) : Bool :=
  match x with
  | fin q => b < q
  | inf negative => !negative
  | nan => false

/-- `x >= b`. -/
def ge (x : Number) (b : ℚ) : Bool :=
  match x with
  | fin q => b ≤ q
  | inf negative => !negative
  | nan => false

/-- `x <= b`. -/
def le (x : Number) (b : ℚ) : Bool :=
  match x with
  | fin q => q ≤ b
  | inf negative => negative
  | nan => false

/-- `Number.isInteger`. -/
def isInteger : Number → Bool
  | fin q => q.den == 1
  | _ => false

/-- The value of a finite number; nothing reads the value of another. -/
def toRat : Number → ℚ
  | fin q => q
  | _ => 0

end Number

/-- The engine's arithmetic: `fl` rounds a product or a quotient to a double, `log1p` is
`Math.log1p`. -/
structure Doubles where
  fl : ℚ → ℚ
  log1p : ℚ → ℚ

/-- `Math.round`: to the nearest integer, halves up. -/
def mathRound (x : ℚ) : ℤ := ⌊x + 1 / 2⌋

/-- `Math.round(value * factor)` of a positive value. -/
def Doubles.scale (d : Doubles) (value factor : ℚ) : ℕ := (mathRound (d.fl (value * factor))).toNat

/-! ## Tokens and pools -/

inductive PoolId
  | A
  | B
deriving DecidableEq, Repr

/-- The hub of a pool. -/
def PoolId.hub : PoolId → ℕ
  | .A => 1
  | .B => 2

/-- The symbols of the tokens that a rule can price, hold and swap against USDC. -/
inductive TokenSymbol
  | XLM
  | ETH
  | SOL
  | XRP
  | wBTC
  | BTC
  | USDT
  | EURC
deriving DecidableEq, Repr

def TokenSymbol.name : TokenSymbol → String
  | .XLM => "XLM"
  | .ETH => "ETH"
  | .SOL => "SOL"
  | .XRP => "XRP"
  | .wBTC => "wBTC"
  | .BTC => "BTC"
  | .USDT => "USDT"
  | .EURC => "EURC"

/-- What the adapter and the editor read of a token. -/
structure SwapToken where
  id : Address
  decimals : ℕ
  buys : Bool
deriving DecidableEq, Repr

def tokenBySymbol : TokenSymbol → SwapToken
  | .XLM => ⟨"CDLZFC3SYJYDZT7K67VZ75HPJVIEUVNIXF47ZG2FB2RMQQVU2HHGCYSC", 7, true⟩
  | .ETH => ⟨"CAEXCVZUCB6FGYKU6YAEUJMVCLS74SPSQ2TTEOLJ27A3C6C627OQON47", 7, true⟩
  | .SOL => ⟨"CBVJ6GYJJ55ALTHN32OJEFGUZWWTMDFGIBCM42SPYQ4GWLKX2XARAP2N", 7, true⟩
  | .XRP => ⟨"CBSUHSWWZS5MEAGET6ES7UWI5A4QEVABXP6XJXB4XIUMRKMBIN7MJZ5D", 7, true⟩
  | .wBTC => ⟨"CBWPLT4YJFXFNDCZFUMCZZQ7UBM2FDIAXQNCM24NZODJDSJNUNMQ63PF", 8, true⟩
  | .BTC => ⟨"CAOWDS3FQ4RKAY3LP7EBRAN7QO2ZFPNXH2ITT47FSTEXPDZRNQHEQFS2", 7, false⟩
  | .USDT => ⟨"CDWFJXIZZFJ2CVGSAPZ5GWVEYCGDYE65XD2R7S4PWEDP2NFDWKNL4SWD", 7, false⟩
  | .EURC => ⟨"CCIMRLN4JLJTGU62FG7IQUP4X5IIAFPBTJQ5AHBM7QQJDVXBJGN632PZ", 7, false⟩

/-- The router's asset, `XOXNO.usdc`. -/
def usdc : Address := "CBIELTK6YBZJU5UP2WWQEUCYKLPU6AUNZ2BQ4WWFEIE3USCIHMXQDAMA"

/-! ## Rule cards -/

inductive ConditionKind
  | rateGap
  | poolRate
  | healthFactor
  | fxPrice
  | idleUsdc
  | tokenPrice
  | tokenBalance
deriving DecidableEq, Repr

inductive Comparator
  | gte
  | lte
deriving DecidableEq, Repr

structure Condition where
  kind : ConditionKind
  comparator : Comparator
  value : Number
  pool : Option PoolId
  token : Option TokenSymbol
deriving DecidableEq, Repr

inductive ActionKind
  | supplyFromWallet
  | moveToBestPool
  | repayFromWallet
  | withdrawToWallet
  | sellToken
  | buyToken
  | withdrawToToken
deriving DecidableEq, Repr

/-- All, a fixed amount, or a share of what the action could move. -/
inductive ActionAmount
  | all
  | fixed (value : Number)
  | share (percent : Number)
deriving DecidableEq, Repr

structure Action where
  kind : ActionKind
  amount : ActionAmount
  pool : Option PoolId
  token : Option TokenSymbol
deriving DecidableEq, Repr

inductive Match
  | all
  | any
deriving DecidableEq, Repr

/-- A rule card, with the fields that the adapter reads. -/
structure Rule where
  id : String
  conditions : List Condition
  matching : Match
  action : Action
  cooldownSec : Number
  enabled : Bool
deriving DecidableEq, Repr

/-- The token that a condition or an action names. -/
def tokenOf (token : Option TokenSymbol) : TokenSymbol := token.getD .XLM

/-! ## Pairing -/

/-- The router ignores moves under 1 USDC, so a fixed amount starts there. -/
def MIN_AMOUNT_USDC : ℚ := 1

/-- A fixed amount that fails a test. -/
def ActionAmount.fixedFails (a : ActionAmount) (test : Number → Bool) : Bool :=
  match a with
  | .fixed value => !test value
  | _ => false

/-- A share that is no whole percent between 1 and 100. -/
def ActionAmount.badShare : ActionAmount → Bool
  | .share percent => !(percent.isInteger && percent.ge 1 && percent.le 100)
  | _ => false

def ActionKind.buys (k : ActionKind) : Bool := k == .buyToken || k == .withdrawToToken

/-- Why the router cannot pair a card's action with its conditions, when it cannot. -/
def pairingProblem (r : Rule) : Option String :=
  let hasGap := r.conditions.any (·.kind == .rateGap)
  let moves := r.action.kind == .moveToBestPool
  let token := tokenOf r.action.token
  if moves && !hasGap then some "Moving to the better hub needs the rate gap as its condition"
  else if !moves && hasGap then some "The rate gap can only move USDC to the better hub"
  else if r.conditions.any fun c => c.kind == .rateGap && c.comparator != .gte then
    some "The rate gap only works as \"more than\""
  else if r.conditions.any fun c => !c.value.gt 0 then some "Every level must be above zero"
  -- the router's floor would refuse every fill, so the rule could never run
  else if r.action.kind.buys && !(tokenBySymbol token).buys then
    some (s!"On testnet every route pays under the oracle for {token.name}, so the router " ++
      "refuses buying it. Selling it works.")
  -- a sale is counted in the token sold, so any positive amount
  else if r.action.kind == .sellToken && r.action.amount.fixedFails (·.gt 0) then
    some "An amount must be above zero"
  else if r.action.kind != .sellToken && r.action.amount.fixedFails (·.ge MIN_AMOUNT_USDC) then
    some "An amount must be at least 1 USDC"
  else if r.action.amount.badShare then some "A share is a whole percent between 1 and 100"
  else none

/-! ## What a card without a pairing problem has -/

/-- **An accepted card** has a rate gap exactly when it moves, reads every gap as "more than", and
has positive levels. -/
structure Accepted (r : Rule) : Prop where
  gap : r.conditions.any (·.kind == .rateGap) = (r.action.kind == .moveToBestPool)
  gte : ∀ c ∈ r.conditions, c.kind = .rateGap → c.comparator = .gte
  positive : ∀ c ∈ r.conditions, c.value.gt 0 = true

lemma accepted_of_pairingProblem {r : Rule} (h : pairingProblem r = none) : Accepted r := by
  simp only [pairingProblem] at h
  split_ifs at h with hmoves hother hgte hpositive
  constructor
  · cases hgap : r.conditions.any (·.kind == .rateGap) <;>
      cases hkind : r.action.kind == .moveToBestPool <;> simp_all
  · intro c hc hgap
    by_contra hne
    exact hgte (List.any_eq_true.mpr ⟨c, hc, by simp [hgap, hne]⟩)
  · intro c hc
    by_contra hne
    exact hpositive (List.any_eq_true.mpr ⟨c, hc, by simp [hne]⟩)

end Koul.Web
