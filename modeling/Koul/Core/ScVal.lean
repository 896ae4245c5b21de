import Koul.Core.Agreement

set_option relaxedAutoImplicit false
set_option autoImplicit false

/-!
# The codec on contract values

`codec.ts` of `@koul/core` on the values that it builds and reads: an encoder that validates and
then writes every field in place, and a decoder that converts to JavaScript, rebuilds each object
and parses it with the schema. The Stellar SDK's functions are parameters.

## Main definitions

* `Koul.Core.ScVal` — a contract value.
* `Koul.Core.StellarSdk` — what the codec uses of the SDK, with `StellarSdk.Documented`.
* `Koul.Core.StellarSdk.encodeAutopilot`, `StellarSdk.decodeAutopilot` — the codec.
* `Koul.Router.Autopilot.toScVal` — the contract's own conversion of its type.

## Main results

* `Koul.Core.StellarSdk.decodeAutopilot_toScVal` — the decoder parses the printed autopilot.
* `Koul.Core.StellarSdk.encodeAutopilot_print` — the encoder writes the contract's own value.
-/

namespace Koul.Core

/-- A contract value. The keys of a map are symbols, as those of a struct are. -/
inductive ScVal
  | scvBool (b : Bool)
  | scvU32 (n : ℕ)
  | scvU64 (n : ℕ)
  | scvI128 (z : ℤ)
  | scvSymbol (s : String)
  | scvAddress (a : Address)
  | scvVec (vs : List ScVal)
  | scvMap (entries : List (String × ScVal))
deriving Repr

/-- What the codec uses of the Stellar SDK; a function that throws gives nothing. -/
structure StellarSdk where
  /-- `nativeToScVal(n, { type: "u64" })`. -/
  nativeToU64 : ℤ → Option ScVal
  /-- `nativeToScVal(n, { type: "i128" })`. -/
  nativeToI128 : ℤ → Option ScVal
  /-- `new Address(s).toScVal()`, which throws unless `s` is a strkey with its checksum. -/
  addressToScVal : String → Option ScVal
  scValToNative : ScVal → Js

/-- What the SDK documents of these functions. -/
structure StellarSdk.Documented (sdk : StellarSdk) : Prop where
  u64 : ∀ n : ℕ, Router.FitsU64 n → sdk.nativeToU64 n = some (.scvU64 n)
  i128 : ∀ z, Router.FitsI128 z → sdk.nativeToI128 z = some (.scvI128 z)
  address : ∀ s v, sdk.addressToScVal s = some v → v = .scvAddress s
  nativeBool : ∀ b, sdk.scValToNative (.scvBool b) = .bool b
  nativeU32 : ∀ n : ℕ, sdk.scValToNative (.scvU32 n) = .number n
  nativeU64 : ∀ n : ℕ, sdk.scValToNative (.scvU64 n) = .bigint n
  nativeI128 : ∀ z, sdk.scValToNative (.scvI128 z) = .bigint z
  nativeSymbol : ∀ s, sdk.scValToNative (.scvSymbol s) = .string s
  nativeAddress : ∀ a, sdk.scValToNative (.scvAddress a) = .string a
  nativeVec : ∀ vs, sdk.scValToNative (.scvVec vs) = .array (vs.map sdk.scValToNative)
  nativeMap : ∀ entries : List (String × ScVal), (entries.map Prod.fst).Nodup →
    sdk.scValToNative (.scvMap entries) =
      .object (entries.map fun e => (e.1, sdk.scValToNative e.2))

/-- What the codec throws. -/
inductive Thrown
  | message (text : String)
  | invalid (errors : List InputError)
  | zod (issues : List Zod.Issue)
  | typeError
  /-- Thrown by the SDK, by `BigInt`, or not spelled out. -/
  | other
deriving DecidableEq, Repr

def orThrow {α : Type} (thrown : Thrown) : Option α → Except Thrown α
  | some a => .ok a
  | none => .error thrown

/-! ## Encoding -/

def vec (values : List ScVal) : ScVal := .scvVec values

def variantVal (tag : String) (values : List ScVal) : ScVal := vec (.scvSymbol tag :: values)

/-- The entries in the order of their keys. On the keys here `localeCompare` orders as the
characters' codes do. -/
def mapVal (entries : List (String × ScVal)) : ScVal :=
  .scvMap (entries.insertionSort fun a b => a.1 ≤ b.1)

def Cmp.toVal (value : Cmp) : ScVal := variantVal value.text []

namespace StellarSdk

section Encode

variable (sdk : StellarSdk)

def u64 (n : String) : Option ScVal := (Js.toBigInt n).bind sdk.nativeToU64

def i128 (n : String) : Option ScVal := (Js.toBigInt n).bind sdk.nativeToI128

def encodeAmount : Amount → Option ScVal
  | .all => some (variantVal "All" [])
  | .percent bps => some (variantVal "Percent" [.scvU32 bps])
  | .fixed value => do return variantVal "Fixed" [← sdk.i128 value]

def encodeCondition : Condition → Option ScVal
  | .healthFactor cmp levelWad => do
    return variantVal "HealthFactor" [cmp.toVal, ← sdk.i128 levelWad]
  | .supplyRateGap hubOver hubUnder minBps =>
    some (variantVal "SupplyRateGap" [.scvU32 hubOver, .scvU32 hubUnder, .scvU32 minBps])
  | .supplyRate hub cmp bps =>
    some (variantVal "SupplyRate" [.scvU32 hub, cmp.toVal, .scvU32 bps])
  | .fxPrice asset cmp level maxAgeSecs => do
    return variantVal "FxPrice"
      [.scvSymbol asset, cmp.toVal, ← sdk.i128 level, ← sdk.u64 maxAgeSecs]
  | .idleBalance cmp amount => do
    return variantVal "IdleBalance" [cmp.toVal, ← sdk.i128 amount]
  | .tokenPrice token cmp level => do
    return variantVal "TokenPrice"
      [← sdk.addressToScVal token, cmp.toVal, ← sdk.i128 level]
  | .tokenBalance token cmp amount => do
    return variantVal "TokenBalance"
      [← sdk.addressToScVal token, cmp.toVal, ← sdk.i128 amount]

def encodeAction : Action → Option ScVal
  | .moveSupply fromHub toHub amount => do
    return variantVal "MoveSupply" [.scvU32 fromHub, .scvU32 toHub, ← sdk.encodeAmount amount]
  | .supplyFromWallet hub amount => do
    return variantVal "SupplyFromWallet" [.scvU32 hub, ← sdk.encodeAmount amount]
  | .repayFromWallet hub amount => do
    return variantVal "RepayFromWallet" [.scvU32 hub, ← sdk.encodeAmount amount]
  | .repayWithCollateral withdrawHub repayHub amount => do
    return variantVal "RepayWithCollateral"
      [.scvU32 withdrawHub, .scvU32 repayHub, ← sdk.encodeAmount amount]
  | .withdrawToWallet hub amount => do
    return variantVal "WithdrawToWallet" [.scvU32 hub, ← sdk.encodeAmount amount]
  | .swapFromWallet tokenIn tokenOut amount maxSlippageBps => do
    return variantVal "SwapFromWallet" [← sdk.addressToScVal tokenIn,
      ← sdk.addressToScVal tokenOut, ← sdk.encodeAmount amount, .scvU32 maxSlippageBps]
  | .withdrawAndSwap hub tokenOut amount maxSlippageBps => do
    return variantVal "WithdrawAndSwap" [.scvU32 hub, ← sdk.addressToScVal tokenOut,
      ← sdk.encodeAmount amount, .scvU32 maxSlippageBps]

def encodeRule (r : Rule) : Option ScVal := do
  return mapVal [
    ("action", ← sdk.encodeAction r.action),
    ("conditions", vec (← r.conditions.mapM sdk.encodeCondition)),
    ("cooldown_ledgers", .scvU32 r.cooldownLedgers),
    ("match_all", .scvBool r.matchAll)]

/-- What the encoder returns for a parsed autopilot. -/
def encodeParsed (ap : Autopilot) : Option ScVal := do
  return mapVal [
    ("account_id", ← sdk.u64 ap.accountId),
    ("rules", vec (← ap.rules.mapM sdk.encodeRule))]

/-- `encodeAutopilot` of an unknown value. -/
def encodeAutopilot (input : Js) : Except Thrown ScVal :=
  match validate input with
  | none => .error .other
  | some [] =>
    match (autopilotSchema [] input).value with
    | none => .error .other
    | some ap => orThrow .other (sdk.encodeParsed ap)
  | some errors => .error (.invalid errors)

end Encode

end StellarSdk

/-! ## Decoding -/

/-- An enum's tag and values. -/
def rawVariant : Js → Except Thrown (String × List Js)
  | .array (.string tag :: values) => .ok (tag, values)
  | _ => .error (.message "Invalid contract enum")

/-- An item of an array; a missing one is `undefined`. -/
def item (a : List Js) (i : ℕ) : Js := a[i]?.getD .undefined

def asString (value : Js) : Except Thrown Js := do
  return .string (← orThrow .other value.toText)

def asNumber (value : Js) : Except Thrown Js := orThrow .other value.toNumber

def decodeCmp (value : Js) : Except Thrown Js := do return .string (← rawVariant value).1

def decodeAmount (value : Js) : Except Thrown Js := do
  let (tag, a) ← rawVariant value
  match tag with
  | "All" => return variantJs tag []
  | "Percent" => return variantJs tag [("bps", ← asNumber (item a 0))]
  | "Fixed" => return variantJs tag [("value", ← asString (item a 0))]
  | _ => throw (.message s!"Unknown amount {tag}")

def decodeCondition (value : Js) : Except Thrown Js := do
  let (tag, a) ← rawVariant value
  match tag with
  | "HealthFactor" =>
    return variantJs tag
      [("cmp", ← decodeCmp (item a 0)), ("level_wad", ← asString (item a 1))]
  | "SupplyRateGap" =>
    return variantJs tag [("hub_over", ← asNumber (item a 0)),
      ("hub_under", ← asNumber (item a 1)), ("min_bps", ← asNumber (item a 2))]
  | "SupplyRate" =>
    return variantJs tag [("hub", ← asNumber (item a 0)), ("cmp", ← decodeCmp (item a 1)),
      ("bps", ← asNumber (item a 2))]
  | "FxPrice" =>
    return variantJs tag [("asset", ← asString (item a 0)), ("cmp", ← decodeCmp (item a 1)),
      ("level", ← asString (item a 2)), ("max_age_secs", ← asString (item a 3))]
  | "IdleBalance" =>
    return variantJs tag [("cmp", ← decodeCmp (item a 0)), ("amount", ← asString (item a 1))]
  | "TokenPrice" =>
    return variantJs tag [("token", ← asString (item a 0)), ("cmp", ← decodeCmp (item a 1)),
      ("level", ← asString (item a 2))]
  | "TokenBalance" =>
    return variantJs tag [("token", ← asString (item a 0)), ("cmp", ← decodeCmp (item a 1)),
      ("amount", ← asString (item a 2))]
  | _ => throw (.message s!"Unknown condition {tag}")

def decodeAction (value : Js) : Except Thrown Js := do
  let (tag, a) ← rawVariant value
  match tag with
  | "MoveSupply" =>
    return variantJs tag [("from_hub", ← asNumber (item a 0)), ("to_hub", ← asNumber (item a 1)),
      ("amount", ← decodeAmount (item a 2))]
  | "SupplyFromWallet" =>
    return variantJs tag [("hub", ← asNumber (item a 0)), ("amount", ← decodeAmount (item a 1))]
  | "RepayFromWallet" =>
    return variantJs tag [("hub", ← asNumber (item a 0)), ("amount", ← decodeAmount (item a 1))]
  | "RepayWithCollateral" =>
    return variantJs tag [("withdraw_hub", ← asNumber (item a 0)),
      ("repay_hub", ← asNumber (item a 1)), ("amount", ← decodeAmount (item a 2))]
  | "WithdrawToWallet" =>
    return variantJs tag [("hub", ← asNumber (item a 0)), ("amount", ← decodeAmount (item a 1))]
  | "SwapFromWallet" =>
    return variantJs tag [("token_in", ← asString (item a 0)),
      ("token_out", ← asString (item a 1)), ("amount", ← decodeAmount (item a 2)),
      ("max_slippage_bps", ← asNumber (item a 3))]
  | "WithdrawAndSwap" =>
    return variantJs tag [("hub", ← asNumber (item a 0)), ("token_out", ← asString (item a 1)),
      ("amount", ← decodeAmount (item a 2)), ("max_slippage_bps", ← asNumber (item a 3))]
  | _ => throw (.message s!"Unknown action {tag}")

/-- `value.map(f)`. -/
def mapItems (f : Js → Except Thrown Js) : Js → Except Thrown Js
  | .array items => do return .array (← items.mapM f)
  | _ => .error .typeError

def decodeRule (rule : Js) : Except Thrown Js := do
  let conditions ← mapItems decodeCondition (← orThrow .typeError (rule.prop? "conditions"))
  let matchAll ← orThrow .typeError (rule.prop? "match_all")
  let action ← decodeAction (← orThrow .typeError (rule.prop? "action"))
  let cooldownLedgers ← orThrow .typeError (rule.prop? "cooldown_ledgers")
  return .object [("conditions", conditions), ("match_all", matchAll), ("action", action),
    ("cooldown_ledgers", cooldownLedgers)]

/-- What the decoder hands to the schema. -/
def decodeRaw (raw : Js) : Except Thrown Js := do
  let accountId ← asString (← orThrow .typeError (raw.prop? "account_id"))
  let rules ← mapItems decodeRule (← orThrow .typeError (raw.prop? "rules"))
  return .object [("account_id", accountId), ("rules", rules)]

/-- `autopilotSchema.parse`. -/
def parseAutopilot (v : Js) : Except Thrown Autopilot :=
  let parsed := autopilotSchema [] v
  if parsed.thrown then .error .other
  else
    match parsed.value, parsed.issues with
    | some ap, [] => .ok ap
    | _, issues => .error (.zod issues)

namespace StellarSdk

def decodeAutopilot (sdk : StellarSdk) (value : ScVal) : Except Thrown Autopilot := do
  parseAutopilot (← decodeRaw (sdk.scValToNative value))

end StellarSdk

end Koul.Core

/-! ## The contract's own conversion -/

namespace Koul.Router

open Koul.Core

def Cmp.toScVal : Cmp → ScVal
  | .below => .scvVec [.scvSymbol "Below"]
  | .atOrAbove => .scvVec [.scvSymbol "AtOrAbove"]

def Amount.toScVal : Amount → ScVal
  | .all => .scvVec [.scvSymbol "All"]
  | .percent bps => .scvVec [.scvSymbol "Percent", .scvU32 bps]
  | .fixed x => .scvVec [.scvSymbol "Fixed", .scvI128 x]

def Condition.toScVal : Condition → ScVal
  | .healthFactor cmp level => .scvVec [.scvSymbol "HealthFactor", cmp.toScVal, .scvI128 level]
  | .supplyRateGap overHub underHub minBps =>
    .scvVec [.scvSymbol "SupplyRateGap", .scvU32 overHub, .scvU32 underHub, .scvU32 minBps]
  | .supplyRate hub cmp bps =>
    .scvVec [.scvSymbol "SupplyRate", .scvU32 hub, cmp.toScVal, .scvU32 bps]
  | .fxPrice asset cmp level maxAgeSecs =>
    .scvVec [.scvSymbol "FxPrice", .scvSymbol asset.name, cmp.toScVal, .scvI128 level,
      .scvU64 maxAgeSecs]
  | .idleBalance cmp amount => .scvVec [.scvSymbol "IdleBalance", cmp.toScVal, .scvI128 amount]
  | .tokenPrice token cmp level =>
    .scvVec [.scvSymbol "TokenPrice", .scvAddress token, cmp.toScVal, .scvI128 level]
  | .tokenBalance token cmp amount =>
    .scvVec [.scvSymbol "TokenBalance", .scvAddress token, cmp.toScVal, .scvI128 amount]

def Action.toScVal : Action → ScVal
  | .moveSupply fromHub toHub amount =>
    .scvVec [.scvSymbol "MoveSupply", .scvU32 fromHub, .scvU32 toHub, amount.toScVal]
  | .supplyFromWallet hub amount =>
    .scvVec [.scvSymbol "SupplyFromWallet", .scvU32 hub, amount.toScVal]
  | .repayFromWallet hub amount =>
    .scvVec [.scvSymbol "RepayFromWallet", .scvU32 hub, amount.toScVal]
  | .repayWithCollateral withdrawHub repayHub amount =>
    .scvVec [.scvSymbol "RepayWithCollateral", .scvU32 withdrawHub, .scvU32 repayHub,
      amount.toScVal]
  | .withdrawToWallet hub amount =>
    .scvVec [.scvSymbol "WithdrawToWallet", .scvU32 hub, amount.toScVal]
  | .swapFromWallet tokenIn tokenOut amount maxSlippageBps =>
    .scvVec [.scvSymbol "SwapFromWallet", .scvAddress tokenIn, .scvAddress tokenOut,
      amount.toScVal, .scvU32 maxSlippageBps]
  | .withdrawAndSwap hub tokenOut amount maxSlippageBps =>
    .scvVec [.scvSymbol "WithdrawAndSwap", .scvU32 hub, .scvAddress tokenOut, amount.toScVal,
      .scvU32 maxSlippageBps]

/-- A struct is the map of its fields, in the order of their names. -/
def Rule.toScVal (r : Rule) : ScVal :=
  .scvMap [("action", r.action.toScVal), ("conditions", .scvVec (r.conditions.map (·.toScVal))),
    ("cooldown_ledgers", .scvU32 r.cooldownLedgers), ("match_all", .scvBool r.matchAll)]

/-- The contract value of an autopilot, as `contracttype` converts it. -/
def Autopilot.toScVal (ap : Autopilot) : ScVal :=
  .scvMap [("account_id", .scvU64 ap.accountId), ("rules", .scvVec (ap.rules.map (·.toScVal)))]

end Koul.Router

namespace Koul.Core

open Zod.Outcome

/-! ## The encoder writes the contract's value -/

/-- `BigInt` reads a printed number. -/
lemma toBigInt_toString (n : ℕ) : Js.toBigInt (toString n) = some (n : ℤ) := by
  rw [toBigInt_of_isDecimal (isDecimal_toString n), bigInt_repr]

@[simp] lemma toVal_printCmp (cmp : Router.Cmp) : (printCmp cmp).toVal = cmp.toScVal := by
  cases cmp <;> rfl

/-- Entries whose keys are in order stay as they are. -/
lemma mapVal_of_sorted {entries : List (String × ScVal)}
    (h : (entries.map Prod.fst).Pairwise (· ≤ ·)) : mapVal entries = .scvMap entries := by
  rw [mapVal, (List.pairwise_map.mp h).insertionSort_eq]

namespace StellarSdk

variable {sdk : StellarSdk}

lemma u64_toString (h : sdk.Documented) {n : ℕ} (hn : Router.FitsU64 n) :
    sdk.u64 (toString n) = some (.scvU64 n) := by
  rw [u64, toBigInt_toString, Option.bind_some, h.u64 n hn]

lemma i128_toString (h : sdk.Documented) {z : ℤ} (hz : 0 ≤ z) (hfits : Router.FitsI128 z) :
    sdk.i128 (toString z) = some (.scvI128 z) := by
  obtain ⟨n, rfl⟩ := Int.eq_ofNat_of_zero_le hz
  rw [i128, toString_natCast, toBigInt_toString, Option.bind_some, h.i128 _ hfits]

lemma encodeAmount_print (h : sdk.Documented) {a : Router.Amount} (hfits : a.Fits)
    (hok : Router.amountOk a = true ∨ Router.swapAmountOk a = true) :
    sdk.encodeAmount (printAmount a) = some a.toScVal := by
  cases a with
  | all => rfl
  | percent bps => rfl
  | fixed x =>
    have hx : 0 ≤ x := by
      rcases hok with hok | hok
      · exact le_trans (by decide) (of_decide_eq_true hok : x ≥ Router.MIN_MOVE)
      · exact le_of_lt (of_decide_eq_true hok : x > 0)
    rw [printAmount, encodeAmount, i128_toString h hx hfits]
    rfl

/-- The encoder writes a condition that the router accepts as the contract does. -/
lemma encodeCondition_print (h : sdk.Documented) {c : Router.Condition} (hfits : c.Fits)
    (hok : Router.conditionOk c = true)
    (htokens : ∀ t ∈ c.tokens, sdk.addressToScVal t = some (.scvAddress t)) :
    sdk.encodeCondition (printCondition c) = some c.toScVal := by
  cases c with
  | healthFactor cmp level =>
    have hlevel : 0 < level := of_decide_eq_true hok
    rw [printCondition, encodeCondition, i128_toString h hlevel.le hfits]
    simp [variantVal, vec, Router.Condition.toScVal]
  | supplyRateGap overHub underHub minBps => rfl
  | supplyRate hub cmp bps =>
    simp [printCondition, encodeCondition, variantVal, vec, Router.Condition.toScVal]
  | fxPrice asset cmp level maxAgeSecs =>
    simp only [Router.conditionOk, Bool.and_eq_true, decide_eq_true_eq] at hok
    rw [printCondition, encodeCondition, i128_toString h hok.1.le hfits.1,
      u64_toString h hfits.2]
    simp [variantVal, vec, Router.Condition.toScVal]
  | idleBalance cmp amount =>
    have hamount : 0 ≤ amount := of_decide_eq_true hok
    rw [printCondition, encodeCondition, i128_toString h hamount hfits]
    simp [variantVal, vec, Router.Condition.toScVal]
  | tokenPrice token cmp level =>
    have hlevel : 0 < level := of_decide_eq_true hok
    rw [printCondition, encodeCondition, i128_toString h hlevel.le hfits,
      htokens token (List.mem_singleton_self token)]
    simp [variantVal, vec, Router.Condition.toScVal]
  | tokenBalance token cmp amount =>
    have hamount : 0 ≤ amount := of_decide_eq_true hok
    rw [printCondition, encodeCondition, i128_toString h hamount hfits,
      htokens token (List.mem_singleton_self token)]
    simp [variantVal, vec, Router.Condition.toScVal]

lemma encodeAction_print (h : sdk.Documented) {a : Router.Action} (hfits : a.Fits)
    (hok : Router.actionOk a = true)
    (htokens : ∀ t ∈ a.tokens, sdk.addressToScVal t = some (.scvAddress t)) :
    sdk.encodeAction (printAction a) = some a.toScVal := by
  cases a with
  | moveSupply fromHub toHub amount =>
    simp only [Router.actionOk, Bool.and_eq_true] at hok
    rw [printAction, encodeAction, encodeAmount_print h hfits.2.2 (.inl hok.2)]
    rfl
  | supplyFromWallet hub amount =>
    rw [printAction, encodeAction, encodeAmount_print h hfits.2 (.inl hok)]
    rfl
  | repayFromWallet hub amount =>
    rw [printAction, encodeAction, encodeAmount_print h hfits.2 (.inl hok)]
    rfl
  | repayWithCollateral withdrawHub repayHub amount =>
    rw [printAction, encodeAction, encodeAmount_print h hfits.2.2 (.inl hok)]
    rfl
  | withdrawToWallet hub amount =>
    rw [printAction, encodeAction, encodeAmount_print h hfits.2 (.inl hok)]
    rfl
  | swapFromWallet tokenIn tokenOut amount maxSlippageBps =>
    simp only [Router.actionOk, Bool.and_eq_true] at hok
    simp only [Router.Action.tokens, List.forall_mem_cons] at htokens
    rw [printAction, encodeAction, encodeAmount_print h hfits.1 (.inr hok.1.1.2), htokens.1,
      htokens.2.1]
    rfl
  | withdrawAndSwap hub tokenOut amount maxSlippageBps =>
    simp only [Router.actionOk, Bool.and_eq_true] at hok
    rw [printAction, encodeAction, encodeAmount_print h hfits.2.1 (.inl hok.1.1),
      htokens tokenOut (List.mem_singleton_self tokenOut)]
    rfl

/-- What encodes each item of a printed list encodes the list. -/
lemma mapM_print {α β : Type} {print : α → β} {encode : β → Option ScVal} {toScVal : α → ScVal}
    {l : List α} (h : ∀ x ∈ l, encode (print x) = some (toScVal x)) :
    (l.map print).mapM encode = some (l.map toScVal) := by
  rw [mapM_eq_some_iff, List.map_map, List.map_map]
  exact List.map_congr_left h

lemma encodeRule_print (h : sdk.Documented) {r : Router.Rule} (hfits : r.Fits)
    (hok : Router.ruleOk r = true)
    (htokens : ∀ t ∈ r.tokens, sdk.addressToScVal t = some (.scvAddress t)) :
    sdk.encodeRule (printRule r) = some r.toScVal := by
  simp only [Router.ruleOk, Bool.and_eq_true, List.all_eq_true] at hok
  simp only [Router.Rule.tokens, List.mem_append, List.mem_flatMap] at htokens
  have hconditions : (r.conditions.map printCondition).mapM sdk.encodeCondition =
      some (r.conditions.map (·.toScVal)) := mapM_print fun c hc =>
    encodeCondition_print h (hfits.conditions c hc) (hok.1.2 c hc)
      fun t ht => htokens t (.inl ⟨c, hc, ht⟩)
  have haction := encodeAction_print h hfits.action hok.2 fun t ht => htokens t (.inr ht)
  have hsorted : ["action", "conditions", "cooldown_ledgers", "match_all"].Pairwise (· ≤ ·) := by
    decide +kernel
  simp only [encodeRule, printRule, haction, hconditions]
  exact congrArg some (mapVal_of_sorted hsorted)

/-- **The encoder writes the contract's own value** of the autopilot that it is given printed,
when the validator passes it. -/
theorem encodeAutopilot_print (h : sdk.Documented) {ap : Router.Autopilot} (hfits : ap.Fits)
    (hok : Router.autopilotOk ap = true)
    (htokens : ∀ t ∈ ap.tokens, sdk.addressToScVal t = some (.scvAddress t)) {v : Js}
    (hsame : Js.Same (printAutopilot ap).toJs v) (hvalid : validate v = some []) :
    sdk.encodeAutopilot v = .ok ap.toScVal := by
  obtain ⟨ap', hsame', hschema, -⟩ := validate_eq_nil_iff.mp hvalid
  obtain rfl := Autopilot.eq_of_same hsame hsame'
  have hparsed : autopilotSchema [] v = valid (printAutopilot ap) :=
    autopilotSchema_eq_valid_iff.mpr ⟨hsame, hschema⟩
  have hrules : (ap.rules.map printRule).mapM sdk.encodeRule =
      some (ap.rules.map (·.toScVal)) := mapM_print fun r hr =>
    encodeRule_print h (hfits.rules r hr) (((Router.autopilotOk_iff ap).mp hok).2.2 r hr)
      fun t ht => htokens t (List.mem_flatMap.mpr ⟨r, hr, ht⟩)
  have hencoded : sdk.encodeParsed (printAutopilot ap) = some ap.toScVal := by
    have hsorted : ["account_id", "rules"].Pairwise (· ≤ ·) := by decide +kernel
    simp only [encodeParsed, printAutopilot, hrules, u64_toString h hfits.accountId]
    exact congrArg some (mapVal_of_sorted hsorted)
  simp only [encodeAutopilot, hvalid, hparsed, valid, hencoded]
  rfl

/-! ## The decoder reads it printed -/

@[simp] lemma ok_bind {α β : Type} (a : α) (f : α → Except Thrown β) :
    (Except.ok a >>= f) = f a := rfl

@[simp] lemma ok_map {α β : Type} (a : α) (f : α → β) :
    f <$> (Except.ok a : Except Thrown α) = .ok (f a) := rfl

@[simp] lemma asString_string (s : String) : asString (.string s) = .ok (.string s) := rfl

@[simp] lemma asString_bigint (z : ℤ) : asString (.bigint z) = .ok (.string (toString z)) := rfl

@[simp] lemma asNumber_number (q : ℚ) : asNumber (.number q) = .ok (.number q) := rfl

lemma decodeCmp_toScVal (h : sdk.Documented) (cmp : Router.Cmp) :
    decodeCmp (sdk.scValToNative cmp.toScVal) = .ok (printCmp cmp).toJs := by
  cases cmp <;> simp only [Router.Cmp.toScVal, h.nativeVec, h.nativeSymbol, List.map_cons] <;> rfl

lemma decodeAmount_toScVal (h : sdk.Documented) (a : Router.Amount) :
    decodeAmount (sdk.scValToNative a.toScVal) = .ok (printAmount a).toJs := by
  cases a
  all_goals
    simp only [Router.Amount.toScVal, h.nativeVec, h.nativeSymbol, h.nativeU32, h.nativeI128,
      List.map_cons]
    rfl

/-- The decoder rebuilds a condition as its printed JSON form. -/
lemma decodeCondition_toScVal (h : sdk.Documented) (c : Router.Condition) :
    decodeCondition (sdk.scValToNative c.toScVal) = .ok (printCondition c).toJs := by
  cases c
  all_goals
    simp only [Router.Condition.toScVal, h.nativeVec, h.nativeSymbol, h.nativeU32, h.nativeU64,
      h.nativeI128, h.nativeAddress, List.map_cons, decodeCondition, rawVariant, item, ok_bind]
    simp [decodeCmp_toScVal h, printCondition, Condition.toJs]
    try rfl

lemma decodeAction_toScVal (h : sdk.Documented) (a : Router.Action) :
    decodeAction (sdk.scValToNative a.toScVal) = .ok (printAction a).toJs := by
  cases a
  all_goals
    simp only [Router.Action.toScVal, h.nativeVec, h.nativeSymbol, h.nativeU32, h.nativeAddress,
      List.map_cons, decodeAction, rawVariant, item, ok_bind]
    simp [decodeAmount_toScVal h, printAction, Action.toJs]
    try rfl

/-- What decodes each item decodes the array. -/
lemma mapItems_toScVal (h : sdk.Documented) {α : Type} {f : Js → Except Thrown Js}
    {toScVal : α → ScVal} {toJs : α → Js} (hf : ∀ a, f (sdk.scValToNative (toScVal a)) = .ok (toJs a))
    (l : List α) : mapItems f (sdk.scValToNative (.scvVec (l.map toScVal))) =
      .ok (.array (l.map toJs)) := by
  have hitems : ((l.map toScVal).map sdk.scValToNative).mapM f = .ok (l.map toJs) := by
    induction l with
    | nil => rfl
    | cons a l ih =>
      rw [List.map_cons, List.map_cons, List.mapM_cons, hf, ih]
      rfl
  rw [h.nativeVec, mapItems, hitems]
  rfl

lemma decodeRule_toScVal (h : sdk.Documented) (r : Router.Rule) :
    decodeRule (sdk.scValToNative r.toScVal) = .ok (printRule r).toJs := by
  have hconditions : mapItems decodeCondition
      (sdk.scValToNative (.scvVec (r.conditions.map (·.toScVal)))) =
        .ok (.array (r.conditions.map fun c => (printCondition c).toJs)) :=
    mapItems_toScVal h (decodeCondition_toScVal h) r.conditions
  have haction := decodeAction_toScVal h r.action
  rw [Router.Rule.toScVal, h.nativeMap _ (by simp)]
  simp [decodeRule, Js.prop?, Js.field, List.lookup, orThrow, hconditions, haction, h.nativeU32,
    h.nativeBool, printRule, Rule.toJs, Function.comp_def]

/-- **The decoder** parses the printed form of the autopilot that a contract value is. -/
theorem decodeAutopilot_toScVal (h : sdk.Documented) (ap : Router.Autopilot) :
    sdk.decodeAutopilot ap.toScVal = parseAutopilot (printAutopilot ap).toJs := by
  have hrules : mapItems decodeRule (sdk.scValToNative (.scvVec (ap.rules.map (·.toScVal)))) =
      .ok (.array (ap.rules.map fun r => (printRule r).toJs)) :=
    mapItems_toScVal h (decodeRule_toScVal h) ap.rules
  rw [decodeAutopilot, Router.Autopilot.toScVal, h.nativeMap _ (by simp)]
  simp [decodeRaw, Js.prop?, Js.field, List.lookup, orThrow, hrules, h.nativeU64, printAutopilot,
    Autopilot.toJs, Function.comp_def]
  rfl

end StellarSdk

/-- Parsing answers what the schema accepts without an issue. -/
lemma parseAutopilot_eq_ok {v : Js} {ap : Autopilot} :
    parseAutopilot v = .ok ap ↔ autopilotSchema [] v = valid ap := by
  unfold parseAutopilot
  obtain ⟨value, issues, thrown⟩ := autopilotSchema [] v
  cases thrown with
  | true => simp [valid]
  | false => cases value <;> cases issues <;> simp [valid]

end Koul.Core
