import Koul.Core.Json
import Koul.Core.Printed
import Mathlib

set_option relaxedAutoImplicit false
set_option autoImplicit false

/-!
# The validator against the router

`validateAutopilot` and the router's `autopilot_ok` keep the same limits by hand, in two
languages. Its documentation says that an empty answer means the router accepts the shape and
limits. Here is exactly when it does: the two differ in one check, that of an FX asset's text.

## Main definitions

* `Koul.Core.Accepted` — an autopilot in its machine types that the router accepts.
* `Koul.Core.Autopilot.InLimits` — the limits on an autopilot's JSON side, but for its FX assets.
* `Koul.Core.AssetsAgree` — the two checks of the FX assets come out alike.

## Main results

* `Koul.Core.valid_iff_inLimits` — what the validator finds nothing in.
* `Koul.Core.accepted_iff_inLimits` — what the router accepts.
* `Koul.Core.validate_agrees_iff` — the two agree exactly when the checks of the assets do.
-/

namespace Koul.Core

open Zod.Outcome

/-! ## What the router accepts -/

/-- A condition in its machine types, on contract tokens, that the router accepts. -/
@[mk_iff acceptedCondition_iff]
structure AcceptedCondition (c : Router.Condition) : Prop where
  fits : c.Fits
  tokens : ∀ t ∈ c.tokens, isContractId t = true
  ok : Router.conditionOk c = true

@[mk_iff acceptedAction_iff]
structure AcceptedAction (a : Router.Action) : Prop where
  fits : a.Fits
  tokens : ∀ t ∈ a.tokens, isContractId t = true
  ok : Router.actionOk a = true

@[mk_iff acceptedRule_iff_fields]
structure AcceptedRule (r : Router.Rule) : Prop where
  conditions : ∀ c ∈ r.conditions, AcceptedCondition c
  atLeastOne : 1 ≤ r.conditions.length
  atMostThree : r.conditions.length ≤ 3
  action : AcceptedAction r.action
  cooldown_pos : 0 < r.cooldownLedgers
  cooldown_fits : Router.FitsU32 r.cooldownLedgers

/-- An autopilot in its machine types, on contract tokens, that the router accepts. -/
structure Accepted (ap : Router.Autopilot) : Prop where
  fits : ap.Fits
  tokens : ∀ t ∈ ap.tokens, isContractId t = true
  ok : Router.autopilotOk ap = true

lemma acceptedRule_iff {r : Router.Rule} : AcceptedRule r ↔
    r.Fits ∧ (∀ t ∈ r.tokens, isContractId t = true) ∧ Router.ruleOk r = true := by
  have hmax : Router.MAX_CONDITIONS = 3 := rfl
  simp only [Router.Rule.tokens, List.mem_append, List.mem_flatMap, Router.ruleOk, hmax,
    Bool.and_eq_true, decide_eq_true_eq, List.all_eq_true, Bool.not_eq_true',
    List.isEmpty_eq_false_iff, ← List.length_pos_iff]
  constructor
  · intro h
    refine ⟨⟨fun c hc => (h.conditions c hc).fits, h.action.fits, h.cooldown_fits⟩, ?_,
      ⟨⟨⟨h.atLeastOne, h.atMostThree⟩, h.cooldown_pos⟩, fun c hc => (h.conditions c hc).ok⟩,
      h.action.ok⟩
    rintro t (⟨c, hc, ht⟩ | ht)
    · exact (h.conditions c hc).tokens t ht
    · exact h.action.tokens t ht
  · rintro ⟨hfits, htokens, ⟨⟨⟨hlo, hhi⟩, hcool⟩, hconditions⟩, haction⟩
    exact ⟨fun c hc => ⟨hfits.conditions c hc, fun t ht => htokens t (.inl ⟨c, hc, ht⟩),
        hconditions c hc⟩, hlo, hhi,
      ⟨hfits.action, fun t ht => htokens t (.inr ht), haction⟩, hcool, hfits.cooldown⟩

lemma accepted_iff {ap : Router.Autopilot} : Accepted ap ↔ Router.FitsU64 ap.accountId ∧
    (∀ r ∈ ap.rules, AcceptedRule r) ∧ 1 ≤ ap.rules.length ∧ ap.rules.length ≤ 32 := by
  simp only [acceptedRule_iff]
  constructor
  · rintro ⟨hfits, htokens, hok⟩
    obtain ⟨hne, hlen, hrules⟩ := (Router.autopilotOk_iff ap).mp hok
    refine ⟨hfits.accountId, fun r hr => ⟨hfits.rules r hr, fun t ht => ?_, hrules r hr⟩,
      List.length_pos_iff.mpr hne, hlen⟩
    exact htokens t (List.mem_flatMap.mpr ⟨r, hr, ht⟩)
  · rintro ⟨haccount, hrules, hlo, hhi⟩
    refine ⟨⟨haccount, fun r hr => (hrules r hr).1⟩, fun t ht => ?_, ?_⟩
    · obtain ⟨r, hr, ht⟩ := List.mem_flatMap.mp ht
      exact (hrules r hr).2.1 t ht
    · exact (Router.autopilotOk_iff ap).mpr
        ⟨List.length_pos_iff.mp hlo, hhi, fun r hr => (hrules r hr).2.2⟩

/-! ## Limits -/

/-- A decimal text of an `i128` that is not negative. -/
def IsI128 (s : String) : Prop := isDecimal s = true ∧ bigInt s ≤ I128_MAX

def IsU64 (s : String) : Prop := isDecimal s = true ∧ bigInt s ≤ U64_MAX

def IsU32 (n : ℕ) : Prop := n ≤ 0xffffffff

/-- A share of a balance, or an amount of at least `least`. -/
def Amount.InLimits (least : ℕ) : Amount → Prop
  | .all => True
  | .percent bps => 1 ≤ bps ∧ bps ≤ 10000
  | .fixed value => IsI128 value ∧ least ≤ bigInt value

/-- The limits of a condition, the text of an FX asset apart. -/
def Condition.InLimits : Condition → Prop
  | .healthFactor _ levelWad => IsI128 levelWad ∧ 0 < bigInt levelWad
  | .supplyRateGap hubOver hubUnder minBps =>
    (IsU32 hubOver ∧ IsU32 hubUnder ∧ IsU32 minBps) ∧ hubOver ≠ hubUnder ∧ 0 < minBps
  | .supplyRate hub _ bps => (IsU32 hub ∧ IsU32 bps) ∧ 0 < bps
  | .fxPrice _ _ level maxAgeSecs =>
    (IsI128 level ∧ 0 < bigInt level) ∧ IsU64 maxAgeSecs ∧ 0 < bigInt maxAgeSecs
  | .idleBalance _ amount => IsI128 amount
  | .tokenPrice token _ level => isContractId token = true ∧ IsI128 level ∧ 0 < bigInt level
  | .tokenBalance token _ amount => isContractId token = true ∧ IsI128 amount

def Action.InLimits : Action → Prop
  | .moveSupply fromHub toHub amount =>
    (IsU32 fromHub ∧ IsU32 toHub) ∧ fromHub ≠ toHub ∧ amount.InLimits MIN_MOVE
  | .supplyFromWallet hub amount => IsU32 hub ∧ amount.InLimits MIN_MOVE
  | .repayFromWallet hub amount => IsU32 hub ∧ amount.InLimits MIN_MOVE
  | .repayWithCollateral withdrawHub repayHub amount =>
    (IsU32 withdrawHub ∧ IsU32 repayHub) ∧ amount.InLimits MIN_MOVE
  | .withdrawToWallet hub amount => IsU32 hub ∧ amount.InLimits MIN_MOVE
  | .swapFromWallet tokenIn tokenOut amount maxSlippageBps =>
    (isContractId tokenIn = true ∧ isContractId tokenOut = true) ∧ tokenIn ≠ tokenOut ∧
      amount.InLimits 1 ∧ 1 ≤ maxSlippageBps ∧ maxSlippageBps ≤ 2000
  | .withdrawAndSwap hub tokenOut amount maxSlippageBps =>
    (IsU32 hub ∧ isContractId tokenOut = true) ∧ amount.InLimits MIN_MOVE ∧
      1 ≤ maxSlippageBps ∧ maxSlippageBps ≤ 2000

@[mk_iff inLimits_iff]
structure Rule.InLimits (r : Rule) : Prop where
  conditions : ∀ c ∈ r.conditions, c.InLimits
  atLeastOne : 1 ≤ r.conditions.length
  atMostThree : r.conditions.length ≤ 3
  action : r.action.InLimits
  cooldown_pos : 0 < r.cooldownLedgers
  cooldown : IsU32 r.cooldownLedgers

/-- Everything but the texts of the FX assets is as the router has it. -/
@[mk_iff inLimits_iff]
structure Autopilot.InLimits (ap : Autopilot) : Prop where
  accountId : IsU64 ap.accountId
  rules : ∀ r ∈ ap.rules, r.InLimits
  atLeastOne : 1 ≤ ap.rules.length
  atMost : ap.rules.length ≤ 32

/-! ## The FX assets -/

def Condition.assets : Condition → List String
  | .fxPrice asset _ _ _ => [asset]
  | _ => []

def Rule.assets (r : Rule) : List String := r.conditions.flatMap (·.assets)

/-- The texts of the FX assets. -/
def Autopilot.assets (ap : Autopilot) : List String := ap.rules.flatMap (·.assets)

/-- The check of the schema: 1 to 32 UTF-16 code units. -/
def AssetLengthOk (s : String) : Prop := 1 ≤ jsLength s ∧ jsLength s ≤ 32

/-- The text is a host symbol's. -/
def IsSymbol (s : String) : Prop := (toSymbol? s).isSome

instance (s : String) : Decidable (IsSymbol s) :=
  inferInstanceAs (Decidable ((toSymbol? s).isSome = true))

/-- The schema's check of the assets comes out as the host's: neither are all texts of 1 to 32
code units and some is no symbol's, nor are all symbols' and some is empty. -/
def AssetsAgree (ap : Autopilot) : Prop :=
  ¬ ((∀ a ∈ ap.assets, AssetLengthOk a) ∧ ∃ a ∈ ap.assets, ¬ IsSymbol a) ∧
    ¬ ((∀ a ∈ ap.assets, IsSymbol a) ∧ "" ∈ ap.assets)

/-- A symbol's text has as many code units as characters. -/
lemma jsLength_of_symbolChars {cs : List Char} (h : cs.all isSymbolChar = true) (n : ℕ) :
    cs.foldl (fun n c => n + if c.toNat > 0xffff then 2 else 1) n = n + cs.length := by
  induction cs generalizing n with
  | nil => rfl
  | cons c cs ih =>
    rw [List.all_cons, Bool.and_eq_true] at h
    have hc : ¬ c.toNat > 0xffff := by
      have hchar := h.1
      simp only [isSymbolChar, Char.isAlphanum, Char.isAlpha, Char.isUpper, Char.isLower,
        Char.isDigit, Bool.or_eq_true, Bool.and_eq_true, decide_eq_true_eq, beq_iff_eq] at hchar
      rcases hchar with ((⟨-, h⟩ | ⟨-, h⟩) | ⟨-, h⟩) | rfl
      · exact not_lt.mpr ((UInt32.le_iff_toNat_le.mp h).trans (by decide))
      · exact not_lt.mpr ((UInt32.le_iff_toNat_le.mp h).trans (by decide))
      · exact not_lt.mpr ((UInt32.le_iff_toNat_le.mp h).trans (by decide))
      · decide
    rw [List.foldl_cons, if_neg hc, ih h.2, List.length_cons]
    omega

/-- A text that is a symbol's and not empty passes the schema's check. -/
lemma assetLengthOk_of_isSymbol {s : String} (h : IsSymbol s) (hne : s ≠ "") :
    AssetLengthOk s := by
  unfold IsSymbol toSymbol? at h
  split_ifs at h with hs
  · have hlen : jsLength s = s.length := by
      rw [jsLength, jsLength_of_symbolChars hs.2, Nat.zero_add, String.length_toList]
    have hpos : s.length ≠ 0 := fun h0 => hne (String.length_eq_zero_iff.mp h0)
    exact ⟨by omega, hlen ▸ hs.1⟩
  · cases h

/-! ## The validator and the limits -/

@[simp] lemma errorIf_eq_nil_iff {bad : Bool} {text : String} :
    errorIf bad text = [] ↔ bad = false := by
  cases bad <;> simp [errorIf]

/-- The validator finds nothing in a condition exactly when it is in the limits and its asset's
text has the length that the schema wants. -/
lemma conditionValid_iff (p : String) (c : Condition) :
    c.SchemaOk ∧ conditionErrors p c = [] ↔ c.InLimits ∧ ∀ a ∈ c.assets, AssetLengthOk a := by
  cases c
  all_goals
    simp [Condition.SchemaOk, IsPositive, conditionErrors, Condition.values, Condition.assets,
      AssetLengthOk, Condition.InLimits, IsI128, IsU64, IsU32, Nat.pos_iff_ne_zero]
    try tauto

/-- For an action there is no such text. -/
lemma actionValid_iff (path : String) (a : Action) :
    a.SchemaOk ∧ actionErrors path a = [] ↔ a.InLimits := by
  have hmin : MIN_MOVE = 10000000 := rfl
  have hmax : I128_MAX = 0x7fffffffffffffffffffffffffffffff := rfl
  cases a with
  | moveSupply _ _ amount | supplyFromWallet _ amount | repayFromWallet _ amount
  | repayWithCollateral _ _ amount | withdrawToWallet _ amount | swapFromWallet _ _ amount _
  | withdrawAndSwap _ _ amount _ =>
    cases amount
    all_goals
      simp only [Action.SchemaOk, Amount.SchemaOk, IsPositive, actionErrors, Action.amount,
        Action.isSwapFromWallet, Action.InLimits, Amount.InLimits, IsI128, IsU32,
        List.append_eq_nil_iff, errorIf_eq_nil_iff, beq_eq_false_iff_ne, Bool.or_eq_false_iff,
        decide_eq_false_iff_not, Bool.not_false, Bool.not_true,
        Bool.true_and, Bool.false_and, hmin, hmax]
      grind

/-- What holds of every item and its index, item by item. -/
lemma forall_zipIdx_iff {α : Type} {S Q : α → Prop} {f : ℕ → α → List String}
    (h : ∀ i x, S x ∧ f i x = [] ↔ Q x) (l : List α) (n : ℕ) :
    (∀ x ∈ l, S x) ∧ (l.zipIdx n).flatMap (fun x => f x.2 x.1) = [] ↔ ∀ x ∈ l, Q x := by
  induction l generalizing n with
  | nil => simp
  | cons x l ih =>
    rw [List.forall_mem_cons, List.forall_mem_cons, ← ih (n + 1), ← h n x, List.zipIdx_cons,
      List.flatMap_cons, List.append_eq_nil_iff]
    tauto

lemma ruleValid_iff {i : ℕ} {r : Rule} :
    r.SchemaOk ∧ ruleErrors i r = [] ↔ r.InLimits ∧ ∀ a ∈ r.assets, AssetLengthOk a := by
  have hconditions := forall_zipIdx_iff (fun j c => conditionValid_iff s!"rules.{i}.conditions.{j}" c)
    r.conditions 0
  have haction := actionValid_iff s!"rules.{i}" r.action
  have hassets : (∀ a ∈ r.assets, AssetLengthOk a) ↔
      ∀ c ∈ r.conditions, ∀ a ∈ c.assets, AssetLengthOk a := by
    simp only [Rule.assets, List.mem_flatMap]
    grind
  rw [Rule.schemaOk_iff, Rule.inLimits_iff, hassets, ← haction]
  simp only [ruleErrors, List.append_eq_nil_iff, errorIf_eq_nil_iff, beq_eq_false_iff_ne,
    Nat.pos_iff_ne_zero, IsU32]
  rw [forall₂_and] at hconditions
  tauto

/-- **The validator** finds nothing in an autopilot exactly when it is in the limits and its
assets' texts have the length that the schema wants. -/
theorem valid_iff_inLimits {ap : Autopilot} :
    ap.SchemaOk ∧ limitErrors ap = [] ↔ ap.InLimits ∧ ∀ a ∈ ap.assets, AssetLengthOk a := by
  have hrules := forall_zipIdx_iff (fun i r => ruleValid_iff (i := i) (r := r)) ap.rules 0
  have hassets : (∀ a ∈ ap.assets, AssetLengthOk a) ↔
      ∀ r ∈ ap.rules, ∀ a ∈ r.assets, AssetLengthOk a := by
    simp only [Autopilot.assets, List.mem_flatMap]
    grind
  rw [Autopilot.schemaOk_iff, Autopilot.inLimits_iff, hassets]
  simp only [limitErrors, List.append_eq_nil_iff, errorIf_eq_nil_iff, decide_eq_false_iff_not,
    not_lt, IsU64]
  rw [forall₂_and] at hrules
  tauto

/-! ## The validator of a typed autopilot -/

@[simp] lemma checkUint_eq_nil_iff {path : List String} {n : ℕ} :
    checkUint path n = [] ↔ n ≤ 0xffffffff := by
  rw [checkUint, issueUnless_eq_nil_iff, decide_eq_true_eq]

@[simp] lemma checkDecimal_eq_nil_iff {path : List String} {s : String} :
    checkDecimal path s = [] ↔ isDecimal s = true := by
  rw [checkDecimal, issueUnless_eq_nil_iff]

@[simp] lemma checkPositive_eq_nil_iff {path : List String} {s : String} :
    checkPositive path s = [] ↔ IsPositive s := by
  rw [checkPositive, List.append_eq_nil_iff, checkDecimal_eq_nil_iff, issueUnless_eq_nil_iff,
    decide_eq_true_eq, IsPositive]

@[simp] lemma checkContractId_eq_nil_iff {path : List String} {s : String} :
    checkContractId path s = [] ↔ isContractId s = true := by
  rw [checkContractId, issueUnless_eq_nil_iff]

@[simp] lemma checkSlippage_eq_nil_iff {path : List String} {n : ℕ} :
    checkSlippage path n = [] ↔ 1 ≤ n ∧ n ≤ 2000 := by
  simp [checkSlippage, issueUnless_eq_nil_iff]

@[simp] lemma checkAmount_eq_nil_iff {path : List String} {a : Amount} :
    checkAmount path a = [] ↔ a.SchemaOk := by
  cases a <;> simp [checkAmount, Amount.SchemaOk]

lemma checkCondition_eq_nil_iff {path : List String} {c : Condition} :
    checkCondition path c = [] ↔ c.SchemaOk := by
  cases c <;> simp [checkCondition, Condition.SchemaOk, issueUnless_eq_nil_iff, and_assoc]

lemma checkAction_eq_nil_iff {path : List String} {a : Action} :
    checkAction path a = [] ↔ a.SchemaOk := by
  cases a <;> simp [checkAction, Action.SchemaOk]

/-- The items of an array are checked under their indices, which no check reads. -/
lemma checkItems_eq_nil_iff {α : Type} {check : List String → α → List Issue} {P : α → Prop}
    (h : ∀ path x, check path x = [] ↔ P x) {path : List String} {items : List α} :
    checkItems path check items = [] ↔ ∀ x ∈ items, P x := by
  rw [checkItems, List.flatMap_eq_nil_iff]
  constructor
  · intro hall x hx
    obtain ⟨i, hi, rfl⟩ := List.mem_iff_getElem.mp hx
    exact (h _ _).mp (hall (items[i], i) (List.mem_zipIdx_iff_getElem?.mpr (by simp)))
  · rintro hall ⟨x, i⟩ hx
    exact (h _ _).mpr (hall x (List.fst_mem_of_mem_zipIdx hx))

lemma checkRule_eq_nil_iff {path : List String} {r : Rule} :
    checkRule path r = [] ↔ r.SchemaOk := by
  have hconditions : checkItems (path ++ ["conditions"]) checkCondition r.conditions = [] ↔
      ∀ c ∈ r.conditions, c.SchemaOk :=
    checkItems_eq_nil_iff (P := Condition.SchemaOk) fun _ _ => checkCondition_eq_nil_iff
  rw [checkRule, Rule.schemaOk_iff]
  simp only [List.append_eq_nil_iff, hconditions, checkUint_eq_nil_iff, checkAction_eq_nil_iff,
    issueUnless_eq_nil_iff, decide_eq_true_eq, ge_iff_le, and_assoc]

/-- The schema has no issue with a typed autopilot exactly when it is in the schema's bounds. -/
lemma schemaIssues_eq_nil_iff {ap : Autopilot} : schemaIssues ap = [] ↔ ap.SchemaOk := by
  have hrules : checkItems ["rules"] checkRule ap.rules = [] ↔ ∀ r ∈ ap.rules, r.SchemaOk :=
    checkItems_eq_nil_iff (P := Rule.SchemaOk) fun _ _ => checkRule_eq_nil_iff
  rw [schemaIssues, Autopilot.schemaOk_iff]
  simp only [List.append_eq_nil_iff, hrules, checkDecimal_eq_nil_iff, issueUnless_eq_nil_iff,
    decide_eq_true_eq, ge_iff_le, and_assoc]

/-- **The validator** of a typed autopilot, and the limits. -/
theorem validateAutopilot_eq_nil_iff_inLimits {ap : Autopilot} :
    validateAutopilot ap = [] ↔ ap.InLimits ∧ ∀ a ∈ ap.assets, AssetLengthOk a := by
  rw [validateAutopilot_eq_nil_iff, schemaIssues_eq_nil_iff, valid_iff_inLimits]

/-! ## The router and the limits -/

@[simp] lemma repr_bigInt_iff {s : String} : (bigInt s : ℤ).repr = s ↔ isDecimal s = true :=
  toString_bigInt_iff

@[simp] lemma repr_natBigInt_iff {s : String} : (bigInt s).repr = s ↔ isDecimal s = true :=
  toString_bigInt_iff

/-- A text that prints an accepted condition encodes to it. -/
lemma exists_printCondition_iff {c : Condition} :
    (∃ c', printCondition c' = c ∧ AcceptedCondition c') ↔
      ∃ c', encodeCondition c = some c' ∧ printCondition c' = c ∧ AcceptedCondition c' := by
  constructor
  · rintro ⟨c', rfl, h⟩
    exact ⟨c', encodeCondition_printCondition h.ok, rfl, h⟩
  · rintro ⟨c', -, hprint, h⟩
    exact ⟨c', hprint, h⟩

lemma exists_printAction_iff {a : Action} :
    (∃ a', printAction a' = a ∧ AcceptedAction a') ↔
      printAction (encodeAction a) = a ∧ AcceptedAction (encodeAction a) := by
  constructor
  · rintro ⟨a', rfl, h⟩
    rw [encodeAction_printAction h.ok]
    exact ⟨rfl, h⟩
  · rintro ⟨hprint, h⟩
    exact ⟨_, hprint, h⟩

/-- A condition is the text of one that the router accepts exactly when it is in the limits and
its asset is a symbol. -/
lemma acceptedText_iff {c : Condition} :
    (∃ c', printCondition c' = c ∧ AcceptedCondition c') ↔
      c.InLimits ∧ ∀ a ∈ c.assets, IsSymbol a := by
  rw [exists_printCondition_iff]
  cases c with
  | fxPrice asset cmp level maxAgeSecs =>
    cases hs : toSymbol? asset with
    | none => simp [encodeCondition, hs, Condition.assets, IsSymbol]
    | some sym =>
      have hname := toSymbol?_eq_some hs
      simp [encodeCondition, hs, hname, Condition.assets, IsSymbol, printCondition,
        acceptedCondition_iff, Router.Condition.Fits, Router.Condition.tokens,
        Router.conditionOk, Condition.InLimits, IsI128, IsU64, Router.FitsI128, Router.FitsU64,
        I128_MAX, U64_MAX]
      tauto
  | _ =>
    simp [encodeCondition, Condition.assets, printCondition, acceptedCondition_iff,
      Router.Condition.Fits, Router.Condition.tokens, Router.conditionOk, Condition.InLimits,
      IsI128, IsU32, Router.FitsI128, Router.FitsU32, I128_MAX]
    try tauto

lemma acceptedActionText_iff {a : Action} :
    (∃ a', printAction a' = a ∧ AcceptedAction a') ↔ a.InLimits := by
  rw [exists_printAction_iff]
  cases a with
  | moveSupply _ _ amount | supplyFromWallet _ amount | repayFromWallet _ amount
  | repayWithCollateral _ _ amount | withdrawToWallet _ amount | swapFromWallet _ _ amount _
  | withdrawAndSwap _ _ amount _ =>
    cases amount
    all_goals
      simp [printAction, encodeAction, printAmount, encodeAmount, acceptedAction_iff,
        Router.Action.Fits, Router.Amount.Fits, Router.Action.tokens, Router.actionOk,
        Router.amountOk, Router.swapAmountOk, Router.MIN_MOVE, Router.MAX_SLIPPAGE_BPS,
        Action.InLimits, Amount.InLimits, IsI128, IsU32, Router.FitsI128, Router.FitsU32,
        I128_MAX, MIN_MOVE]
      try grind

/-- A list is printed from accepted items when each of its items is. -/
lemma exists_map_iff {α β : Type} (print : α → β) (P : α → Prop) (l : List β) :
    (∃ l' : List α, l'.map print = l ∧ ∀ x ∈ l', P x) ↔ ∀ y ∈ l, ∃ x, print x = y ∧ P x := by
  constructor
  · rintro ⟨l', rfl, h⟩ y hy
    obtain ⟨x, hx, rfl⟩ := List.mem_map.mp hy
    exact ⟨x, rfl, h x hx⟩
  · intro h
    induction l with
    | nil => exact ⟨[], rfl, by simp⟩
    | cons y l ih =>
      obtain ⟨⟨x, rfl, hx⟩, hl⟩ := List.forall_mem_cons.mp h
      obtain ⟨l', rfl, hl'⟩ := ih hl
      exact ⟨x :: l', rfl, List.forall_mem_cons.mpr ⟨hx, hl'⟩⟩

lemma acceptedRuleText_iff {r : Rule} :
    (∃ r', printRule r' = r ∧ AcceptedRule r') ↔ r.InLimits ∧ ∀ a ∈ r.assets, IsSymbol a := by
  have hassets : (∀ a ∈ r.assets, IsSymbol a) ↔
      ∀ c ∈ r.conditions, ∀ a ∈ c.assets, IsSymbol a := by
    simp only [Rule.assets, List.mem_flatMap]
    grind
  have hconditions := exists_map_iff printCondition AcceptedCondition r.conditions
  simp only [acceptedText_iff, forall₂_and] at hconditions
  have haction := acceptedActionText_iff (a := r.action)
  rw [Rule.inLimits_iff, hassets, ← haction]
  constructor
  · rintro ⟨r', rfl, h⟩
    obtain ⟨hlimits, hsymbols⟩ := hconditions.mp ⟨r'.conditions, rfl, h.conditions⟩
    have hlen : (printRule r').conditions.length = r'.conditions.length := List.length_map _
    exact ⟨⟨hlimits, hlen ▸ h.atLeastOne, hlen ▸ h.atMostThree, ⟨_, rfl, h.action⟩,
      h.cooldown_pos, h.cooldown_fits⟩, hsymbols⟩
  · rintro ⟨⟨hlimits, hlo, hhi, ⟨a', ha', haccepted⟩, hpos, hfits⟩, hsymbols⟩
    obtain ⟨cs', hcs', hall⟩ := hconditions.mpr ⟨hlimits, hsymbols⟩
    have hlen : r.conditions.length = cs'.length := by rw [← hcs', List.length_map]
    refine ⟨⟨cs', r.matchAll, a', r.cooldownLedgers⟩, ?_, hall, hlen ▸ hlo, hlen ▸ hhi,
      haccepted, hpos, hfits⟩
    obtain ⟨conditions, matchAll, action, cooldownLedgers⟩ := r
    simp only at hcs' ha'
    rw [printRule, hcs', ha']

/-- **The router** accepts what an autopilot is the text of exactly when it is in the limits and
its assets are symbols. -/
theorem accepted_iff_inLimits {ap : Autopilot} :
    (∃ ap', printAutopilot ap' = ap ∧ Accepted ap') ↔
      ap.InLimits ∧ ∀ a ∈ ap.assets, IsSymbol a := by
  have hassets : (∀ a ∈ ap.assets, IsSymbol a) ↔
      ∀ r ∈ ap.rules, ∀ a ∈ r.assets, IsSymbol a := by
    simp only [Autopilot.assets, List.mem_flatMap]
    grind
  have hrules := exists_map_iff printRule AcceptedRule ap.rules
  simp only [acceptedRuleText_iff, forall₂_and] at hrules
  rw [Autopilot.inLimits_iff, hassets]
  simp only [accepted_iff]
  constructor
  · rintro ⟨ap', rfl, haccount, h, hlo, hhi⟩
    obtain ⟨hlimits, hsymbols⟩ := hrules.mp ⟨ap'.rules, rfl, h⟩
    have hlen : (printAutopilot ap').rules.length = ap'.rules.length := List.length_map _
    refine ⟨⟨⟨isDecimal_toString _, ?_⟩, hlimits, hlen ▸ hlo, hlen ▸ hhi⟩, hsymbols⟩
    rw [printAutopilot, bigInt_repr]
    exact haccount
  · rintro ⟨⟨⟨hdecimal, haccount⟩, hlimits, hlo, hhi⟩, hsymbols⟩
    obtain ⟨rs', hrs', hall⟩ := hrules.mpr ⟨hlimits, hsymbols⟩
    have hlen : ap.rules.length = rs'.length := by rw [← hrs', List.length_map]
    refine ⟨⟨bigInt ap.accountId, rs'⟩, ?_, haccount, hall, hlen ▸ hlo, hlen ▸ hhi⟩
    obtain ⟨accountId, rules⟩ := ap
    simp only at hrs' hdecimal
    rw [printAutopilot, hrs', repr_bigInt hdecimal]

/-! ## Agreement -/

/-- **The validator agrees with the router** on a value exactly when the value denotes no
autopilot in the limits on whose FX assets the two checks come out differently.
**Proof sketch.** A value has one autopilot at most. The validator finds nothing in it when it
is in the limits and its assets have the schema's length; the router accepts it when it is in the
limits and its assets are symbols. -/
theorem validate_agrees_iff (v : Js) :
    (validate v = some [] ↔ ∃ ap, Js.Same (printAutopilot ap).toJs v ∧ Accepted ap) ↔
      ∀ ap : Autopilot, Js.Same ap.toJs v → ap.InLimits → AssetsAgree ap := by
  have hvalid : validate v = some [] ↔ ∃ ap : Autopilot, Js.Same ap.toJs v ∧ ap.InLimits ∧
      ∀ a ∈ ap.assets, AssetLengthOk a := by
    simp only [validate_eq_nil_iff, valid_iff_inLimits]
  have haccepted : (∃ ap, Js.Same (printAutopilot ap).toJs v ∧ Accepted ap) ↔
      ∃ ap : Autopilot, Js.Same ap.toJs v ∧ ap.InLimits ∧ ∀ a ∈ ap.assets, IsSymbol a := by
    simp only [← accepted_iff_inLimits]
    constructor
    · rintro ⟨ap', hsame, h⟩
      exact ⟨_, hsame, ap', rfl, h⟩
    · rintro ⟨_, hsame, ap', rfl, h⟩
      exact ⟨ap', hsame, h⟩
  rw [hvalid, haccepted]
  constructor
  · intro h ap hsame hlimits
    constructor
    · rintro ⟨hlength, a, ha, hnot⟩
      obtain ⟨ap', hsame', -, hsymbols⟩ := h.mp ⟨ap, hsame, hlimits, hlength⟩
      obtain rfl := Autopilot.eq_of_same hsame hsame'
      exact hnot (hsymbols a ha)
    · rintro ⟨hsymbols, hempty⟩
      obtain ⟨ap', hsame', -, hlength⟩ := h.mpr ⟨ap, hsame, hlimits, hsymbols⟩
      obtain rfl := Autopilot.eq_of_same hsame hsame'
      exact absurd (hlength "" hempty).1 (by decide)
  · intro h
    constructor
    · rintro ⟨ap, hsame, hlimits, hlength⟩
      refine ⟨ap, hsame, hlimits, fun a ha => ?_⟩
      by_contra hnot
      exact (h ap hsame hlimits).1 ⟨hlength, a, ha, hnot⟩
    · rintro ⟨ap, hsame, hlimits, hsymbols⟩
      refine ⟨ap, hsame, hlimits, fun a ha => assetLengthOk_of_isSymbol (hsymbols a ha) ?_⟩
      rintro rfl
      exact (h ap hsame hlimits).2 ⟨hsymbols, ha⟩

/-- An FX rule on an asset whose text has a character that no symbol has. -/
def slashAutopilot : Autopilot :=
  ⟨"1", [⟨[.fxPrice "USD/TRY" .below "100000000000000" "3600"], true,
    .supplyFromWallet 1 .all, 60⟩]⟩

/-- The validator finds nothing in it, and it denotes nothing that the router accepts. -/
theorem validate_slashAutopilot : validate slashAutopilot.toJs = some [] ∧
    ¬ ∃ ap, Js.Same (printAutopilot ap).toJs slashAutopilot.toJs ∧ Accepted ap := by
  have hschema : autopilotSchema [] slashAutopilot.toJs = valid slashAutopilot := rfl
  have hsame := (autopilotSchema_eq_valid_iff.mp hschema).1
  refine ⟨by decide +kernel, ?_⟩
  rintro ⟨ap, hap, haccepted⟩
  have hprint := Autopilot.eq_of_same hap hsame
  have hsymbols := (accepted_iff_inLimits.mp ⟨ap, hprint, haccepted⟩).2
  exact absurd (hsymbols "USD/TRY" (by decide)) (by decide +kernel)

end Koul.Core
