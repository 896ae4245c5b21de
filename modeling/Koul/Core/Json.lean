import Koul.Core.Validate
import Koul.Lib.Zod
import Mathlib.Algebra.Order.Ring.Rat
import Mathlib.Data.Nat.Cast.Order.Ring
import Mathlib.Data.Rat.Lemmas
import Mathlib.Tactic.MkIffOfInductiveProp

set_option relaxedAutoImplicit false
set_option autoImplicit false

/-!
# The schema on any value

`schema.ts` of `@koul/core` as it reads an unknown value: each schema under its own name, the
JSON form of each type, and the validator from the unknown value on.

## Main definitions

* `Koul.Core.Autopilot.toJs` — the JSON form of an autopilot.
* `Koul.Core.autopilotSchema` — the schema, as `schema.ts` composes it.
* `Koul.Core.validate` — `validateAutopilot` on an unknown value.

## Main results

* `Koul.Core.autopilotSchema_eq_valid_iff` — the schema accepts exactly the JSON forms of the
  autopilots it finds no issue with.
* `Koul.Core.validate_eq_nil_iff` — so does the validator, with its limits.
-/

namespace Koul.Core

open Zod Zod.Outcome

/-! ## JSON forms -/

def Cmp.text : Cmp → String
  | .below => "Below"
  | .atOrAbove => "AtOrAbove"

def Cmp.toJs (cmp : Cmp) : Js := .string cmp.text

@[simp] lemma Cmp.toJs_ne_undefined (cmp : Cmp) : cmp.toJs ≠ .undefined := by simp [toJs]

@[simp] lemma Cmp.toJs_inj {a b : Cmp} : a.toJs = b.toJs ↔ a = b := by
  cases a <;> cases b <;> simp [toJs, text]

@[simp] lemma Cmp.same_toJs_iff {cmp : Cmp} {v : Js} : Js.Same cmp.toJs v ↔ v = cmp.toJs :=
  Js.same_string_iff

/-- The JSON form of a variant: its tag and its fields. -/
def variantJs (tag : String) (fields : List (String × Js)) : Js :=
  .object (("type", .string tag) :: fields)

def Amount.toJs : Amount → Js
  | .all => variantJs "All" []
  | .percent bps => variantJs "Percent" [("bps", .number bps)]
  | .fixed value => variantJs "Fixed" [("value", .string value)]

def Condition.toJs : Condition → Js
  | .healthFactor cmp levelWad =>
    variantJs "HealthFactor" [("cmp", cmp.toJs), ("level_wad", .string levelWad)]
  | .supplyRateGap hubOver hubUnder minBps =>
    variantJs "SupplyRateGap"
      [("hub_over", .number hubOver), ("hub_under", .number hubUnder), ("min_bps", .number minBps)]
  | .supplyRate hub cmp bps =>
    variantJs "SupplyRate" [("hub", .number hub), ("cmp", cmp.toJs), ("bps", .number bps)]
  | .fxPrice asset cmp level maxAgeSecs =>
    variantJs "FxPrice" [("asset", .string asset), ("cmp", cmp.toJs), ("level", .string level),
      ("max_age_secs", .string maxAgeSecs)]
  | .idleBalance cmp amount =>
    variantJs "IdleBalance" [("cmp", cmp.toJs), ("amount", .string amount)]
  | .tokenPrice token cmp level =>
    variantJs "TokenPrice" [("token", .string token), ("cmp", cmp.toJs), ("level", .string level)]
  | .tokenBalance token cmp amount =>
    variantJs "TokenBalance"
      [("token", .string token), ("cmp", cmp.toJs), ("amount", .string amount)]

def Action.toJs : Action → Js
  | .moveSupply fromHub toHub amount =>
    variantJs "MoveSupply"
      [("from_hub", .number fromHub), ("to_hub", .number toHub), ("amount", amount.toJs)]
  | .supplyFromWallet hub amount =>
    variantJs "SupplyFromWallet" [("hub", .number hub), ("amount", amount.toJs)]
  | .repayFromWallet hub amount =>
    variantJs "RepayFromWallet" [("hub", .number hub), ("amount", amount.toJs)]
  | .repayWithCollateral withdrawHub repayHub amount =>
    variantJs "RepayWithCollateral" [("withdraw_hub", .number withdrawHub),
      ("repay_hub", .number repayHub), ("amount", amount.toJs)]
  | .withdrawToWallet hub amount =>
    variantJs "WithdrawToWallet" [("hub", .number hub), ("amount", amount.toJs)]
  | .swapFromWallet tokenIn tokenOut amount maxSlippageBps =>
    variantJs "SwapFromWallet" [("token_in", .string tokenIn), ("token_out", .string tokenOut),
      ("amount", amount.toJs), ("max_slippage_bps", .number maxSlippageBps)]
  | .withdrawAndSwap hub tokenOut amount maxSlippageBps =>
    variantJs "WithdrawAndSwap" [("hub", .number hub), ("token_out", .string tokenOut),
      ("amount", amount.toJs), ("max_slippage_bps", .number maxSlippageBps)]

def Rule.toJs (r : Rule) : Js :=
  .object [("conditions", .array (r.conditions.map Condition.toJs)),
    ("match_all", .bool r.matchAll), ("action", r.action.toJs),
    ("cooldown_ledgers", .number r.cooldownLedgers)]

def Autopilot.toJs (ap : Autopilot) : Js :=
  .object [("account_id", .string ap.accountId), ("rules", .array (ap.rules.map Rule.toJs))]

/-! ## The schemas -/

/-- `z.number().int().min(lo).max(hi)`. -/
def natural (lo hi : ℕ) : Schema ℕ :=
  Zod.map (fun q => q.num.toNat)
    (check (check (check number (fun q => q.den = 1) .invalidType)
      (fun q => (lo : ℚ) ≤ q) .tooSmall) (fun q => q ≤ (hi : ℚ)) .tooBig)

def uint : Schema ℕ := natural 0 0xffffffff

/-- Decimal strings keep i128/u64 values exact in JSON and structured model output. -/
def decimal : Schema String := check string isDecimal .invalidString

def positive : Schema String :=
  refine decimal (fun v => (Js.toBigInt v).map fun n => decide (n > 0)) "Must be positive"

def contractId : Schema String :=
  check string isContractId (.custom "Must be a contract address (C...)")

/-- Swap slippage against the router's oracle price, in basis points. -/
def slippage : Schema ℕ := natural 1 2000

def cmpSchema : Schema Cmp := enum [("Below", .below), ("AtOrAbove", .atOrAbove)]

/-- `z.object({ type: z.literal(tag), ... }).strict()`, as an option of a union on `type`. -/
def variant {α : Type} (tag : String) (keys : List String) (read : Fields → Outcome α) :
    String × Schema α :=
  (tag, strictObject ("type" :: keys) read)

def amountSchema : Schema Amount := discriminatedUnion "type" [
  variant "All" [] fun _ => pure .all,
  variant "Percent" ["bps"] fun o => .percent <$> o.get "bps" uint,
  variant "Fixed" ["value"] fun o => .fixed <$> o.get "value" positive]

def conditionSchema : Schema Condition := discriminatedUnion "type" [
  variant "HealthFactor" ["cmp", "level_wad"] fun o =>
    .healthFactor <$> o.get "cmp" cmpSchema <*> o.get "level_wad" positive,
  variant "SupplyRateGap" ["hub_over", "hub_under", "min_bps"] fun o =>
    .supplyRateGap <$> o.get "hub_over" uint <*> o.get "hub_under" uint <*> o.get "min_bps" uint,
  variant "SupplyRate" ["hub", "cmp", "bps"] fun o =>
    .supplyRate <$> o.get "hub" uint <*> o.get "cmp" cmpSchema <*> o.get "bps" uint,
  variant "FxPrice" ["asset", "cmp", "level", "max_age_secs"] fun o =>
    .fxPrice <$> o.get "asset" (check (check string (fun s => jsLength s ≥ 1) .tooSmall)
      (fun s => jsLength s ≤ 32) .tooBig) <*> o.get "cmp" cmpSchema <*>
      o.get "level" positive <*> o.get "max_age_secs" decimal,
  variant "IdleBalance" ["cmp", "amount"] fun o =>
    .idleBalance <$> o.get "cmp" cmpSchema <*> o.get "amount" decimal,
  -- USD price of a token the router has a feed for, 14 decimals
  variant "TokenPrice" ["token", "cmp", "level"] fun o =>
    .tokenPrice <$> o.get "token" contractId <*> o.get "cmp" cmpSchema <*> o.get "level" positive,
  -- the wallet's balance of any token, in its base units
  variant "TokenBalance" ["token", "cmp", "amount"] fun o =>
    .tokenBalance <$> o.get "token" contractId <*> o.get "cmp" cmpSchema <*>
      o.get "amount" decimal]

def actionSchema : Schema Action := discriminatedUnion "type" [
  variant "MoveSupply" ["from_hub", "to_hub", "amount"] fun o =>
    .moveSupply <$> o.get "from_hub" uint <*> o.get "to_hub" uint <*> o.get "amount" amountSchema,
  variant "SupplyFromWallet" ["hub", "amount"] fun o =>
    .supplyFromWallet <$> o.get "hub" uint <*> o.get "amount" amountSchema,
  variant "RepayFromWallet" ["hub", "amount"] fun o =>
    .repayFromWallet <$> o.get "hub" uint <*> o.get "amount" amountSchema,
  variant "RepayWithCollateral" ["withdraw_hub", "repay_hub", "amount"] fun o =>
    .repayWithCollateral <$> o.get "withdraw_hub" uint <*> o.get "repay_hub" uint <*>
      o.get "amount" amountSchema,
  variant "WithdrawToWallet" ["hub", "amount"] fun o =>
    .withdrawToWallet <$> o.get "hub" uint <*> o.get "amount" amountSchema,
  variant "SwapFromWallet" ["token_in", "token_out", "amount", "max_slippage_bps"] fun o =>
    .swapFromWallet <$> o.get "token_in" contractId <*> o.get "token_out" contractId <*>
      o.get "amount" amountSchema <*> o.get "max_slippage_bps" slippage,
  variant "WithdrawAndSwap" ["hub", "token_out", "amount", "max_slippage_bps"] fun o =>
    .withdrawAndSwap <$> o.get "hub" uint <*> o.get "token_out" contractId <*>
      o.get "amount" amountSchema <*> o.get "max_slippage_bps" slippage]

def ruleSchema : Schema Rule :=
  strictObject ["conditions", "match_all", "action", "cooldown_ledgers"] fun o =>
    Rule.mk <$> o.get "conditions" (array conditionSchema 1 3) <*> o.get "match_all" boolean <*>
      o.get "action" actionSchema <*> o.get "cooldown_ledgers" uint

def autopilotSchema : Schema Autopilot :=
  strictObject ["account_id", "rules"] fun o =>
    Autopilot.mk <$> o.get "account_id" decimal <*> o.get "rules" (array ruleSchema 1 32)

/-! ## The validator -/

/-- An error of the validator: an issue of the schema, or a limit's text. -/
inductive InputError
  | schema (issue : Zod.Issue)
  | limit (text : String)
deriving DecidableEq, Repr

/-- `validateAutopilot` of an unknown value; `none` when the schema throws, as it does when it
fails without an issue. -/
def validate (input : Js) : Option (List InputError) :=
  let parsed := autopilotSchema [] input
  if parsed.thrown then none
  else
    match parsed.value, parsed.issues with
    | some ap, [] => some ((limitErrors ap).map .limit)
    | none, [] => none
    | _, issues => some (issues.map .schema)

/-! ## What the schemas of plain values accept -/

section Schemas

variable {path : List String} {v : Js}

@[simp] lemma natural_eq_valid_iff {lo hi n : ℕ} :
    natural lo hi path v = valid n ↔ v = .number n ∧ lo ≤ n ∧ n ≤ hi := by
  simp only [natural, map_apply, map_eq_valid_iff, check_eq_valid_iff, number_eq_valid_iff,
    decide_eq_true_eq]
  constructor
  · rintro ⟨q, ⟨⟨⟨rfl, hden⟩, hlo⟩, hhi⟩, rfl⟩
    have hnonneg : 0 ≤ q := le_trans (Nat.cast_nonneg lo) hlo
    have hq : q = (q.num.toNat : ℚ) := by
      calc q = (q.num : ℚ) := ((Rat.den_eq_one_iff q).mp hden).symm
        _ = ((q.num.toNat : ℤ) : ℚ) := by rw [Int.toNat_of_nonneg (Rat.num_nonneg.mpr hnonneg)]
        _ = (q.num.toNat : ℚ) := rfl
    rw [hq] at hlo hhi
    exact ⟨congrArg Js.number hq, by exact_mod_cast hlo, by exact_mod_cast hhi⟩
  · rintro ⟨rfl, hlo, hhi⟩
    exact ⟨n, ⟨⟨⟨rfl, Rat.den_natCast n⟩, by exact_mod_cast hlo⟩, by exact_mod_cast hhi⟩,
      by simp⟩

/-- A decimal string is made of digits. -/
lemma isDigit_of_isDecimal {s : String} (h : isDecimal s = true) :
    s.toList ≠ [] ∧ ∀ c ∈ s.toList, c.isDigit = true := by
  rw [isDecimal] at h
  split at h
  · cases h
  · next hs =>
    rw [hs]
    simp
  · next c cs _ hs =>
    simp only [Bool.and_eq_true, List.all_eq_true] at h
    rw [hs]
    exact ⟨List.cons_ne_nil c cs, List.forall_mem_cons.mpr ⟨h.1.1, h.2⟩⟩

/-- `BigInt` reads a decimal string. -/
lemma toBigInt_of_isDecimal {s : String} (h : isDecimal s = true) :
    Js.toBigInt s = some (bigInt s : ℤ) := by
  obtain ⟨hne, hdigits⟩ := isDigit_of_isDecimal h
  exact Js.toBigInt_of_isDigit hne hdigits

@[simp] lemma decimal_eq_valid_iff {s : String} :
    decimal path v = valid s ↔ v = .string s ∧ isDecimal s = true := by
  simp [decimal]

/-- A positive amount: a decimal string of a positive number. -/
def IsPositive (s : String) : Prop := isDecimal s = true ∧ 0 < bigInt s

@[simp] lemma positive_eq_valid_iff {s : String} :
    positive path v = valid s ↔ v = .string s ∧ IsPositive s := by
  simp only [positive, refine_eq_valid_iff, decimal_eq_valid_iff, and_assoc, IsPositive]
  refine and_congr_right fun _ => and_congr_right fun h => ?_
  rw [toBigInt_of_isDecimal h]
  simp

@[simp] lemma contractId_eq_valid_iff {s : String} :
    contractId path v = valid s ↔ v = .string s ∧ isContractId s = true := by
  simp [contractId]

@[simp] lemma cmpSchema_eq_valid_iff {cmp : Cmp} :
    cmpSchema path v = valid cmp ↔ v = cmp.toJs := by
  rw [cmpSchema, enum_eq_valid_iff (by decide)]
  cases cmp <;> simp [Cmp.toJs, Cmp.text]

/-! ## What the schemas of the types accept -/

@[simp] lemma variant_fst {α : Type} (tag : String) (keys : List String)
    (read : Fields → Outcome α) : (variant tag keys read).1 = tag := rfl

@[simp] lemma get_mk {α : Type} (entries : List (String × Js)) (key : String) (s : Schema α) :
    (Fields.mk path entries).get key s = s (path ++ [key]) (Js.field entries key) := rfl

@[simp] lemma variant_eq_valid_iff {α : Type} {tag : String} {keys : List String}
    {read : Fields → Outcome α} {entries : List (String × Js)} {a : α} :
    (variant tag keys read).2 path (.object entries) = valid a ↔
      (∀ k ∈ entries.map Prod.fst, k ∈ "type" :: keys) ∧ read ⟨path, entries⟩ = valid a := by
  simp [variant, strictObject_eq_valid_iff]

/-- A union on `type` accepts what the option of its tag does. -/
lemma union_eq_valid_iff {α : Type} {options : List (String × Schema α)}
    (h : (options.map Prod.fst).Nodup) {a : α} :
    discriminatedUnion "type" options path v = valid a ↔ ∃ entries, v = .object entries ∧
      ∃ o ∈ options, Js.field entries "type" = .string o.1 ∧
        o.2 path (.object entries) = valid a := by
  rw [discriminatedUnion_eq_valid_iff h]
  constructor
  · rintro ⟨entries, rfl, h⟩
    exact ⟨entries, rfl, h⟩
  · rintro ⟨entries, rfl, h⟩
    exact ⟨entries, rfl, h⟩

/-- The JSON form of a variant is an object with its tag and its fields. -/
lemma same_variantJs_iff {tag : String} {fields : List (String × Js)}
    (hfields : ∀ f ∈ fields, f.2 ≠ .undefined) :
    Js.Same (variantJs tag fields) v ↔ ∃ entries, v = .object entries ∧
      Js.field entries "type" = .string tag ∧
      (∀ k ∈ entries.map Prod.fst, k ∈ "type" :: fields.map Prod.fst) ∧
      ∀ f ∈ fields, Js.Same f.2 (Js.field entries f.1) := by
  rw [variantJs, Js.same_object_iff_field (List.forall_mem_cons.mpr ⟨by simp, hfields⟩)]
  refine exists_congr fun entries => and_congr_right fun _ => ?_
  simp only [List.forall_mem_cons, Js.same_string_iff, List.map_cons]
  tauto

/-- The values of an amount that the schema accepts. -/
def Amount.SchemaOk : Amount → Prop
  | .all => True
  | .percent bps => bps ≤ 0xffffffff
  | .fixed value => IsPositive value

def Condition.SchemaOk : Condition → Prop
  | .healthFactor _ levelWad => IsPositive levelWad
  | .supplyRateGap hubOver hubUnder minBps =>
    hubOver ≤ 0xffffffff ∧ hubUnder ≤ 0xffffffff ∧ minBps ≤ 0xffffffff
  | .supplyRate hub _ bps => hub ≤ 0xffffffff ∧ bps ≤ 0xffffffff
  | .fxPrice asset _ level maxAgeSecs =>
    (1 ≤ jsLength asset ∧ jsLength asset ≤ 32) ∧ IsPositive level ∧ isDecimal maxAgeSecs = true
  | .idleBalance _ amount => isDecimal amount = true
  | .tokenPrice token _ level => isContractId token = true ∧ IsPositive level
  | .tokenBalance token _ amount => isContractId token = true ∧ isDecimal amount = true

def Action.SchemaOk : Action → Prop
  | .moveSupply fromHub toHub amount =>
    fromHub ≤ 0xffffffff ∧ toHub ≤ 0xffffffff ∧ amount.SchemaOk
  | .supplyFromWallet hub amount => hub ≤ 0xffffffff ∧ amount.SchemaOk
  | .repayFromWallet hub amount => hub ≤ 0xffffffff ∧ amount.SchemaOk
  | .repayWithCollateral withdrawHub repayHub amount =>
    withdrawHub ≤ 0xffffffff ∧ repayHub ≤ 0xffffffff ∧ amount.SchemaOk
  | .withdrawToWallet hub amount => hub ≤ 0xffffffff ∧ amount.SchemaOk
  | .swapFromWallet tokenIn tokenOut amount maxSlippageBps =>
    isContractId tokenIn = true ∧ isContractId tokenOut = true ∧ amount.SchemaOk ∧
      1 ≤ maxSlippageBps ∧ maxSlippageBps ≤ 2000
  | .withdrawAndSwap hub tokenOut amount maxSlippageBps =>
    hub ≤ 0xffffffff ∧ isContractId tokenOut = true ∧ amount.SchemaOk ∧
      1 ≤ maxSlippageBps ∧ maxSlippageBps ≤ 2000

@[mk_iff schemaOk_iff]
structure Rule.SchemaOk (r : Rule) : Prop where
  conditions : ∀ c ∈ r.conditions, c.SchemaOk
  atLeastOne : 1 ≤ r.conditions.length
  atMostThree : r.conditions.length ≤ 3
  action : r.action.SchemaOk
  cooldown : r.cooldownLedgers ≤ 0xffffffff

@[mk_iff schemaOk_iff]
structure Autopilot.SchemaOk (ap : Autopilot) : Prop where
  accountId : isDecimal ap.accountId = true
  rules : ∀ r ∈ ap.rules, r.SchemaOk
  atLeastOne : 1 ≤ ap.rules.length
  atMost : ap.rules.length ≤ 32

theorem amountSchema_eq_valid_iff {a : Amount} :
    amountSchema path v = valid a ↔ Js.Same a.toJs v ∧ a.SchemaOk := by
  rw [amountSchema, union_eq_valid_iff (by simp)]
  cases a <;> rw [Amount.toJs, same_variantJs_iff (by simp)]
  all_goals
    simp only [← exists_and_right]
    apply exists_congr
    intro entries
    simp [uint, Amount.SchemaOk]
    try tauto

theorem conditionSchema_eq_valid_iff {c : Condition} :
    conditionSchema path v = valid c ↔ Js.Same c.toJs v ∧ c.SchemaOk := by
  rw [conditionSchema, union_eq_valid_iff (by simp)]
  cases c <;> rw [Condition.toJs, same_variantJs_iff (by simp)]
  all_goals
    simp only [← exists_and_right]
    apply exists_congr
    intro entries
    simp only [uint, List.mem_cons, List.not_mem_nil, or_false, exists_eq_or_imp,
      variant_fst, variant_eq_valid_iff, get_mk, seq_eq_valid_iff, map_eq_valid_iff,
      natural_eq_valid_iff, Nat.zero_le, true_and, cmpSchema_eq_valid_iff, decimal_eq_valid_iff,
      positive_eq_valid_iff, contractId_eq_valid_iff, check_eq_valid_iff, string_eq_valid_iff,
      decide_eq_true_eq, ge_iff_le, Condition.healthFactor.injEq, Condition.supplyRateGap.injEq,
      Condition.supplyRate.injEq, Condition.fxPrice.injEq, Condition.idleBalance.injEq,
      Condition.tokenPrice.injEq, Condition.tokenBalance.injEq, exists_exists_and_eq_and,
      exists_exists_and_exists_and_eq_and, ↓existsAndEq, and_true, reduceCtorEq, and_false,
      exists_false, or_self, false_or, exists_and_left, List.map_cons, List.map_nil,
      forall_eq_or_imp, Cmp.same_toJs_iff, Js.same_number_iff, Js.same_string_iff, forall_eq,
      Condition.SchemaOk]
    try tauto

theorem actionSchema_eq_valid_iff {a : Action} :
    actionSchema path v = valid a ↔ Js.Same a.toJs v ∧ a.SchemaOk := by
  have hamount : ∀ a : Amount, a.toJs ≠ .undefined := by
    intro a
    cases a <;> simp [Amount.toJs, variantJs]
  rw [actionSchema, union_eq_valid_iff (by simp)]
  cases a <;> rw [Action.toJs, same_variantJs_iff (by simp [hamount])]
  all_goals
    simp only [← exists_and_right]
    apply exists_congr
    intro entries
    simp only [uint, slippage, List.mem_cons, List.not_mem_nil, or_false, exists_eq_or_imp,
      variant_fst, variant_eq_valid_iff, get_mk, seq_eq_valid_iff, map_eq_valid_iff,
      natural_eq_valid_iff, Nat.zero_le, true_and, amountSchema_eq_valid_iff,
      contractId_eq_valid_iff, Action.moveSupply.injEq, Action.supplyFromWallet.injEq,
      Action.repayFromWallet.injEq, Action.repayWithCollateral.injEq,
      Action.withdrawToWallet.injEq, Action.swapFromWallet.injEq, Action.withdrawAndSwap.injEq,
      exists_exists_and_eq_and, exists_exists_and_exists_and_eq_and, ↓existsAndEq, and_true,
      reduceCtorEq, and_false, exists_false, or_self, false_or, exists_and_left, List.map_cons,
      List.map_nil, forall_eq_or_imp, Js.same_number_iff, Js.same_string_iff, forall_eq,
      Action.SchemaOk]
    try tauto

/-- The JSON forms of the items of an array. -/
lemma forall₂_same_iff {α : Type} {toJs : α → Js} {P : α → Prop} {as : List α} {vs : List Js} :
    List.Forall₂ (fun a v => Js.Same (toJs a) v ∧ P a) as vs ↔
      List.Forall₂ Js.Same (as.map toJs) vs ∧ ∀ a ∈ as, P a := by
  induction as generalizing vs with
  | nil => simp
  | cons a as ih =>
    cases vs with
    | nil => simp
    | cons v vs =>
      simp only [List.forall₂_cons, ih, List.map_cons, List.forall_mem_cons]
      tauto

/-- An array whose items a schema accepts as JSON forms is one. -/
lemma array_eq_valid_iff_same {α : Type} {schema : Schema α} {toJs : α → Js} {P : α → Prop}
    (hschema : ∀ path v a, schema path v = valid a ↔ Js.Same (toJs a) v ∧ P a) {lo hi : ℕ}
    {as : List α} : array schema lo hi path v = valid as ↔
      Js.Same (.array (as.map toJs)) v ∧ (∀ a ∈ as, P a) ∧ lo ≤ as.length ∧ as.length ≤ hi := by
  rw [array_eq_valid_iff hschema, Js.same_array_iff, ← exists_and_right]
  simp only [forall₂_same_iff, and_assoc]

theorem ruleSchema_eq_valid_iff {r : Rule} :
    ruleSchema path v = valid r ↔ Js.Same r.toJs v ∧ r.SchemaOk := by
  have haction : r.action.toJs ≠ .undefined := by
    cases r.action <;> simp [Action.toJs, variantJs]
  rw [ruleSchema, strictObject_eq_valid_iff, Rule.toJs,
    Js.same_object_iff_field (by simp [haction]), Rule.schemaOk_iff]
  simp only [← exists_and_right]
  apply exists_congr
  intro entries
  obtain ⟨conditions, matchAll, action, cooldownLedgers⟩ := r
  simp [-Bool.exists_bool, uint, actionSchema_eq_valid_iff,
    array_eq_valid_iff_same fun _ _ _ => conditionSchema_eq_valid_iff]
  tauto

/-- **The schema** accepts exactly the JSON forms of the autopilots in its bounds. -/
theorem autopilotSchema_eq_valid_iff {ap : Autopilot} :
    autopilotSchema path v = valid ap ↔ Js.Same ap.toJs v ∧ ap.SchemaOk := by
  rw [autopilotSchema, strictObject_eq_valid_iff, Autopilot.toJs,
    Js.same_object_iff_field (by simp), Autopilot.schemaOk_iff]
  simp only [← exists_and_right]
  apply exists_congr
  intro entries
  obtain ⟨accountId, rules⟩ := ap
  simp [array_eq_valid_iff_same fun _ _ _ => ruleSchema_eq_valid_iff]
  tauto

/-- **The validator** finds nothing exactly in the JSON forms of the autopilots that the schema
accepts and that are within the limits. -/
theorem validate_eq_nil_iff :
    validate v = some [] ↔ ∃ ap, Js.Same ap.toJs v ∧ ap.SchemaOk ∧ limitErrors ap = [] := by
  have hschema : ∀ ap, autopilotSchema [] v = valid ap ↔ Js.Same ap.toJs v ∧ ap.SchemaOk :=
    fun _ => autopilotSchema_eq_valid_iff
  simp only [← and_assoc, ← hschema]
  unfold validate
  obtain ⟨value, issues, thrown⟩ := autopilotSchema [] v
  cases thrown with
  | true => simp [valid]
  | false =>
    cases value with
    | none => cases issues <;> simp [valid]
    | some ap => cases issues <;> simp [valid]

/-! ## A JSON form is that of one autopilot -/

lemma Amount.same_toJs (a : Amount) : Js.Same a.toJs a.toJs := by
  cases a
  all_goals
    refine Js.same_object_self (by simp) ?_
    simp

lemma Condition.same_toJs (c : Condition) : Js.Same c.toJs c.toJs := by
  cases c
  all_goals
    refine Js.same_object_self (by simp) ?_
    simp

lemma Action.same_toJs (a : Action) : Js.Same a.toJs a.toJs := by
  cases a
  all_goals
    refine Js.same_object_self (by simp) ?_
    simp [Amount.same_toJs]

lemma same_array_self {α : Type} {toJs : α → Js} (h : ∀ a, Js.Same (toJs a) (toJs a))
    (l : List α) : Js.Same (.array (l.map toJs)) (.array (l.map toJs)) := by
  rw [Js.same_array_iff]
  refine ⟨_, rfl, ?_⟩
  rw [List.forall₂_map_left_iff, List.forall₂_map_right_iff, List.forall₂_same]
  exact fun a _ => h a

lemma Rule.same_toJs (r : Rule) : Js.Same r.toJs r.toJs := by
  refine Js.same_object_self (by simp) ?_
  simp [Action.same_toJs, same_array_self Condition.same_toJs]

/-- An autopilot's JSON form is one of it. -/
lemma Autopilot.same_toJs (ap : Autopilot) : Js.Same ap.toJs ap.toJs := by
  refine Js.same_object_self (by simp) ?_
  simp [same_array_self Rule.same_toJs]

/-- Two variants with one JSON form have the same tag, and fields of the same form. -/
lemma fields_of_same {t t' : String} {fs fs' : List (String × Js)}
    (h : Js.Same (variantJs t fs) v) (h' : Js.Same (variantJs t' fs') v)
    (hfs : ∀ f ∈ fs, f.2 ≠ .undefined) (hfs' : ∀ f ∈ fs', f.2 ≠ .undefined) :
    t = t' ∧ ∃ g : String → Js, (∀ f ∈ fs, Js.Same f.2 (g f.1)) ∧
      ∀ f ∈ fs', Js.Same f.2 (g f.1) := by
  rw [same_variantJs_iff hfs] at h
  rw [same_variantJs_iff hfs'] at h'
  obtain ⟨entries, rfl, ht, -, hf⟩ := h
  obtain ⟨_, heq, ht', -, hf'⟩ := h'
  cases heq
  rw [ht] at ht'
  exact ⟨Js.string.inj ht', _, hf, hf'⟩

@[simp] lemma Amount.toJs_ne_undefined (a : Amount) : a.toJs ≠ .undefined := by
  cases a <;> simp [toJs, variantJs]

lemma Amount.eq_of_same {a b : Amount} (ha : Js.Same a.toJs v) (hb : Js.Same b.toJs v) :
    a = b := by
  cases a <;> cases b <;> obtain ⟨ht, g, hf, hf'⟩ := fields_of_same ha hb (by simp) (by simp)
  all_goals simp_all

lemma Condition.eq_of_same {a b : Condition} (ha : Js.Same a.toJs v) (hb : Js.Same b.toJs v) :
    a = b := by
  cases a <;> cases b <;> obtain ⟨ht, g, hf, hf'⟩ := fields_of_same ha hb (by simp) (by simp)
  all_goals first | exact absurd ht (by decide) | simp_all

/-- An action's amount is a field of its JSON form. -/
lemma Action.same_amount {a : Action} (h : Js.Same a.toJs v) :
    ∃ entries, v = .object entries ∧ Js.Same a.amount.toJs (Js.field entries "amount") := by
  cases a <;> rw [toJs, same_variantJs_iff (by simp)] at h
  all_goals
    obtain ⟨entries, hv, -, -, hf⟩ := h
    simp only [List.forall_mem_cons] at hf
    exact ⟨entries, hv, by simp only [amount]; tauto⟩

lemma Action.eq_of_same {a b : Action} (ha : Js.Same a.toJs v) (hb : Js.Same b.toJs v) :
    a = b := by
  have hamount : a.amount = b.amount := by
    obtain ⟨entries, rfl, ha'⟩ := same_amount ha
    obtain ⟨_, heq, hb'⟩ := same_amount hb
    cases heq
    exact Amount.eq_of_same ha' hb'
  cases a <;> cases b <;> obtain ⟨ht, g, hf, hf'⟩ := fields_of_same ha hb (by simp) (by simp)
  all_goals first | exact absurd ht (by decide) | simp_all [amount]

/-- Arrays with one JSON form are equal when their items are. -/
lemma eq_of_same_array {α : Type} {toJs : α → Js}
    (hitem : ∀ a b v, Js.Same (toJs a) v → Js.Same (toJs b) v → a = b) {as bs : List α}
    (ha : Js.Same (.array (as.map toJs)) v) (hb : Js.Same (.array (bs.map toJs)) v) : as = bs := by
  rw [Js.same_array_iff] at ha hb
  obtain ⟨vs, rfl, ha⟩ := ha
  obtain ⟨_, heq, hb⟩ := hb
  cases heq
  induction vs generalizing as bs with
  | nil =>
    rw [List.forall₂_nil_right_iff, List.map_eq_nil_iff] at ha hb
    rw [ha, hb]
  | cons v vs ih =>
    cases as with
    | nil => cases ha
    | cons a as =>
      cases bs with
      | nil => cases hb
      | cons b bs =>
        rw [List.map_cons, List.forall₂_cons] at ha hb
        rw [hitem a b v ha.1 hb.1, ih ha.2 hb.2]

lemma Rule.eq_of_same {a b : Rule} (ha : Js.Same a.toJs v) (hb : Js.Same b.toJs v) : a = b := by
  have haction : ∀ a : Action, a.toJs ≠ .undefined := by
    intro a
    cases a <;> simp [Action.toJs, variantJs]
  rw [toJs, Js.same_object_iff_field (by simp [haction])] at ha hb
  obtain ⟨entries, rfl, -, ha⟩ := ha
  obtain ⟨_, heq, -, hb⟩ := hb
  cases heq
  obtain ⟨cs, all, act, cool⟩ := a
  obtain ⟨cs', all', act', cool'⟩ := b
  simp only [List.forall_mem_cons, Js.same_bool_iff, Js.same_number_iff] at ha hb
  obtain ⟨hcs, hall, hact, hcool, -⟩ := ha
  obtain ⟨hcs', hall', hact', hcool', -⟩ := hb
  obtain rfl := eq_of_same_array (fun _ _ _ => Condition.eq_of_same) hcs hcs'
  obtain rfl := Action.eq_of_same hact hact'
  rw [hall, Js.bool.injEq] at hall'
  rw [hcool, Js.number.injEq, Nat.cast_inj] at hcool'
  rw [hall', hcool']

/-- **A value is the JSON form of one autopilot at most.** -/
theorem Autopilot.eq_of_same {a b : Autopilot} (ha : Js.Same a.toJs v) (hb : Js.Same b.toJs v) :
    a = b := by
  rw [toJs, Js.same_object_iff_field (by simp)] at ha hb
  obtain ⟨entries, rfl, -, ha⟩ := ha
  obtain ⟨_, heq, -, hb⟩ := hb
  cases heq
  obtain ⟨account, rules⟩ := a
  obtain ⟨account', rules'⟩ := b
  simp only [List.forall_mem_cons, Js.same_string_iff] at ha hb
  obtain ⟨haccount, hrules, -⟩ := ha
  obtain ⟨haccount', hrules', -⟩ := hb
  obtain rfl := eq_of_same_array (fun _ _ _ => Rule.eq_of_same) hrules hrules'
  rw [haccount, Js.string.injEq] at haccount'
  rw [haccount']

end Schemas

end Koul.Core
