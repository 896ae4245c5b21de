import Koul.Core.Json
import Koul.Lib.Base64
import Koul.Lib.JsonText
import Koul.Lib.Utf8
import Koul.Web.Fold

set_option relaxedAutoImplicit false
set_option autoImplicit false

/-!
# Shared rule sets

The link form of a set of rules, from `library.ts`: the rules without what is local to a browser, as JSON
text, as UTF-8, as base64 in the alphabet of URLs.

## Main definitions

* `Koul.Web.portable`, `Koul.Web.materialize` — a rule with nothing local in it, and a draft made of one.
* `Koul.Web.portableSet` — the schema of a set.
* `Koul.Web.encodeRules`, `Koul.Web.decodeRules` — the token of a set, and the set of a token.

## Main results

* `Koul.Web.decodeRules_encodeRules` — a set survives its token.

## Design

The JSON form of a rule has its fields in the order of the interfaces, without those that are `undefined`.
The length of a name is counted as JavaScript counts it, in UTF-16 code units.
-/

namespace Koul.Web

open Koul.Core (jsLength)
open JsonText (Text Numerals IsDouble)
open Zod Zod.Outcome

def MAX_NAME : ℕ := 40

/-! ## Rules without what is local -/

structure PortableRule where
  name : Option String
  conditions : List Condition
  matching : Option Match
  action : Action
  cooldownSec : Number
  enabled : Option Bool
deriving DecidableEq, Repr

structure PortableSet where
  name : Option String
  rules : List PortableRule
deriving DecidableEq, Repr

/-- A rule with nothing local in it: no id, no inferred marks. -/
def portable (r : NamedRule) : PortableRule :=
  ⟨some r.name, r.conditions, some r.matching, r.action, r.cooldownSec, some r.enabled⟩

/-- A fresh draft rule from a portable one, under the next identifier. -/
def materialize (newId : String) (p : PortableRule) : NamedRule where
  id := newId
  name := p.name.getD "Rule"
  conditions := p.conditions
  matching := p.matching.getD .all
  action := p.action
  cooldownSec := p.cooldownSec
  enabled := p.enabled.getD true
  inferred := []

/-- A draft of a portable rule is that rule. -/
@[simp] lemma portable_materialize (newId : String) (r : NamedRule) :
    portable (materialize newId (portable r)) = portable r := rfl

/-! ## JSON forms -/

def ConditionKind.text : ConditionKind → String
  | .rateGap => "rate_gap"
  | .poolRate => "pool_rate"
  | .healthFactor => "health_factor"
  | .fxPrice => "fx_price"
  | .idleUsdc => "idle_usdc"
  | .tokenPrice => "token_price"
  | .tokenBalance => "token_balance"

def Comparator.text : Comparator → String
  | .gte => "gte"
  | .lte => "lte"

def PoolId.text : PoolId → String
  | .A => "A"
  | .B => "B"

def ActionKind.text : ActionKind → String
  | .supplyFromWallet => "supply_from_wallet"
  | .moveToBestPool => "move_to_best_pool"
  | .repayFromWallet => "repay_from_wallet"
  | .withdrawToWallet => "withdraw_to_wallet"
  | .sellToken => "sell_token"
  | .buyToken => "buy_token"
  | .withdrawToToken => "withdraw_to_token"

def Match.text : Match → String
  | .all => "all"
  | .any => "any"

def Number.toJs : Number → Js
  | .fin q => .number q
  | _ => .notFinite

/-- A field that an object has when there is a value for it. -/
def fieldJs {α : Type} (key : String) (toJs : α → Js) (a : Option α) : List (String × Js) :=
  a.toList.map fun a => (key, toJs a)

def Condition.toJs (c : Condition) : Js :=
  .object ([("kind", .string c.kind.text), ("comparator", .string c.comparator.text),
    ("value", c.value.toJs)] ++ fieldJs "pool" (.string ·.text) c.pool ++
    fieldJs "token" (.string ·.name) c.token)

def ActionAmount.toJs : ActionAmount → Js
  | .all => .string "all"
  | .fixed value => value.toJs
  | .share percent => .object [("percent", percent.toJs)]

def Action.toJs (a : Action) : Js :=
  .object ([("kind", .string a.kind.text), ("amount", a.amount.toJs)] ++
    fieldJs "pool" (.string ·.text) a.pool ++ fieldJs "token" (.string ·.name) a.token)

def PortableRule.toJs (p : PortableRule) : Js :=
  .object (fieldJs "name" .string p.name ++ [("conditions", .array (p.conditions.map Condition.toJs))] ++
    fieldJs "match" (.string ·.text) p.matching ++ [("action", p.action.toJs),
      ("cooldownSec", p.cooldownSec.toJs)] ++ fieldJs "enabled" .bool p.enabled)

def PortableSet.toJs (p : PortableSet) : Js :=
  .object ([("v", .number 1)] ++ fieldJs "name" .string p.name ++
    [("rules", .array (p.rules.map PortableRule.toJs))])

/-! ## The schema -/

/-- The texts of an enumeration. -/
def texts {α : Type} (text : α → String) (options : List α) : Schema α :=
  enum (options.map fun a => (text a, a))

def conditionKinds : List ConditionKind :=
  [.rateGap, .poolRate, .healthFactor, .fxPrice, .idleUsdc, .tokenPrice, .tokenBalance]

def actionKinds : List ActionKind :=
  [.supplyFromWallet, .moveToBestPool, .repayFromWallet, .withdrawToWallet, .sellToken, .buyToken,
    .withdrawToToken]

def TOKEN_SYMBOLS : List TokenSymbol := [.XLM, .ETH, .SOL, .XRP, .wBTC, .BTC, .USDT, .EURC]

def poolSchema : Schema PoolId := texts PoolId.text [.A, .B]

def tokenSchema : Schema TokenSymbol := texts TokenSymbol.name TOKEN_SYMBOLS

/-- `z.number().finite()`: `number` has refused the others already. -/
def finite : Schema Number := Zod.map .fin Zod.number

def conditionSchema : Schema Condition := object fun o =>
  Condition.mk <$> o.get "kind" (texts ConditionKind.text conditionKinds) <*>
    o.get "comparator" (texts Comparator.text [.gte, .lte]) <*> o.get "value" finite <*>
    o.get "pool" (optional poolSchema) <*> o.get "token" (optional tokenSchema)

def isAll : Js → Bool
  | .string s => s == "all"
  | _ => false

/-- `z.number().positive().finite()`. -/
def positive : Schema ℚ := check Zod.number (fun q => 0 < q) .tooSmall

/-- `z.number().int().min(1).max(100)`. -/
def percent : Schema ℚ :=
  check (check (check Zod.number (fun q => q.den = 1) .invalidType) (fun q => 1 ≤ q) .tooSmall)
    (fun q => q ≤ 100) .tooBig

def amountSchema : Schema ActionAmount := union [literal isAll .all,
  Zod.map (fun q => .fixed (.fin q)) positive,
  object fun o => (fun q => .share (.fin q)) <$> o.get "percent" percent]

def actionSchema : Schema Action := object fun o =>
  Action.mk <$> o.get "kind" (texts ActionKind.text actionKinds) <*> o.get "amount" amountSchema <*>
    o.get "pool" (optional poolSchema) <*> o.get "token" (optional tokenSchema)

/-- `z.string().max(hi)`. -/
def stringUpTo (hi : ℕ) : Schema String := check string (fun s => jsLength s ≤ hi) .tooBig

/-- `z.number().int().positive()`. -/
def cooldownSchema : Schema Number :=
  Zod.map .fin (check (check Zod.number (fun q => q.den = 1) .invalidType) (fun q => 0 < q) .tooSmall)

def portableRule : Schema PortableRule := object fun o =>
  PortableRule.mk <$> o.get "name" (optional (stringUpTo 60)) <*>
    o.get "conditions" (array conditionSchema 1 3) <*>
    o.get "match" (optional (texts Match.text [.all, .any])) <*> o.get "action" actionSchema <*>
    o.get "cooldownSec" cooldownSchema <*> o.get "enabled" (optional boolean)

def isOne : Js → Bool
  | .number q => q == 1
  | _ => false

def portableSet : Schema PortableSet := object fun o =>
  (fun _ name rules => ⟨name, rules⟩) <$> o.get "v" (literal isOne ()) <*>
    o.get "name" (optional (stringUpTo MAX_NAME)) <*> o.get "rules" (array portableRule 1 32)

/-! ## Tokens -/

/-- A text in the alphabet of URLs, without what fills it up. -/
def toBase64Url (text : Text) : Text :=
  ((Base64.btoa (Utf8.encode text)).map fun c =>
    if c = '+' then '-' else if c = '/' then '_' else c).rdropWhile (· == '=')

def fromBase64Url (text : Text) : Option Text :=
  let b64 := text.map (fun c => if c = '-' then '+' else if c = '_' then '/' else c) ++
    List.replicate ((4 - text.length % 4) % 4) '='
  (Base64.atob b64).map Utf8.decode

variable (N : Numerals)

/-- The rules as one URL-safe token. -/
def encodeRules (rules : List NamedRule) (name : Option String) : Option Text :=
  (JsonText.stringify? N (PortableSet.toJs ⟨name, rules.map portable⟩)).map toBase64Url

/-- A set of rules that was decoded. -/
structure SharedRules where
  name : Option String
  rules : List NamedRule
deriving DecidableEq, Repr

/-- The rules back from a token, as new draft rules, when the token is one of ours; `newId` numbers the
identifiers that are given out. -/
def decodeRules (newId : ℕ → String) (token : Text) : Option SharedRules :=
  match (fromBase64Url token).bind (JsonText.parse? N) with
  | none => none
  | some v =>
    match portableSet [] v with
    | ⟨some parsed, [], false⟩ =>
      some ⟨parsed.name, parsed.rules.zipIdx.map fun p => materialize (newId p.2) p.1⟩
    | _ => none

/-! ## Sets that can be shared -/

/-- A finite double. -/
def Number.IsFinite : Number → Prop
  | .fin q => IsDouble q
  | _ => False

/-- All, a positive amount, or a whole percent of 1 to 100. -/
def ActionAmount.Shareable : ActionAmount → Prop
  | .all => True
  | .fixed value => value.IsFinite ∧ value.gt 0 = true
  | .share percent => percent.isInteger = true ∧ percent.ge 1 = true ∧ percent.le 100 = true

structure PortableRule.Shareable (p : PortableRule) : Prop where
  name : ∀ s ∈ p.name, jsLength s ≤ 60
  atLeastOne : 1 ≤ p.conditions.length
  atMostThree : p.conditions.length ≤ 3
  values : ∀ c ∈ p.conditions, c.value.IsFinite
  amount : p.action.amount.Shareable
  cooldown : p.cooldownSec.IsFinite ∧ p.cooldownSec.isInteger = true ∧ p.cooldownSec.gt 0 = true

structure PortableSet.Shareable (p : PortableSet) : Prop where
  name : ∀ s ∈ p.name, jsLength s ≤ MAX_NAME
  atLeastOne : 1 ≤ p.rules.length
  atMost : p.rules.length ≤ 32
  rules : ∀ r ∈ p.rules, r.Shareable

/-! ## Fields -/

section Fields

variable {α : Type} {key : String} {toJs : α → Js} {a : Option α}

lemma lookup_fieldJs (k : String) :
    (fieldJs key toJs a).lookup k = if k = key then a.map toJs else none := by
  cases a with
  | none => simp [fieldJs]
  | some a =>
    by_cases hk : k = key
    · simp [fieldJs, hk]
    · simp [fieldJs, List.lookup_cons, beq_eq_false_iff_ne.mpr hk, hk]

lemma keys_fieldJs : ((fieldJs key toJs a).map Prod.fst).Sublist [key] := by
  cases a with
  | none => exact List.nil_sublist _
  | some a => exact List.Sublist.refl _

lemma isJson_fieldJs (h : ∀ b, a = some b → JsonText.IsJson (toJs b)) :
    ∀ f ∈ fieldJs key toJs a, JsonText.IsJson f.2 := by
  cases a with
  | none => simp [fieldJs]
  | some a => simpa [fieldJs] using h a rfl

/-- A field that may be absent is read as what it was written from. -/
lemma optional_of_valid (s : Schema α) (toJs : α → Js) (a : Option α) {path : List String}
    (h : ∀ b, a = some b → toJs b ≠ .undefined ∧ s path (toJs b) = valid b) :
    optional s path ((a.map toJs).getD .undefined) = valid a := by
  rw [optional_eq_valid_iff]
  cases a with
  | none => exact Or.inl ⟨rfl, rfl⟩
  | some b => exact Or.inr ⟨(h b rfl).1, b, (h b rfl).2, rfl⟩

lemma texts_text {text : α → String} {options : List α} (h : (options.map text).Nodup) {a : α}
    (ha : a ∈ options) (path : List String) : texts text options path (.string (text a)) = valid a := by
  have hkeys : ((options.map fun a => (text a, a)).map Prod.fst).Nodup := by
    rw [List.map_map]
    exact h
  exact (enum_eq_valid_iff hkeys).mpr ⟨(text a, a), List.mem_map_of_mem ha, rfl, rfl⟩

end Fields

/-! ## JSON forms that can be written -/

lemma Number.exists_fin {x : Number} (h : x.IsFinite) : ∃ q, x = .fin q ∧ IsDouble q := by
  cases x with
  | fin q => exact ⟨q, rfl, h⟩
  | inf _ => exact h.elim
  | nan => exact h.elim

lemma Number.exists_whole {x : Number} (h : x.isInteger = true) : ∃ q, x = .fin q ∧ q.den = 1 := by
  cases x with
  | fin q => exact ⟨q, rfl, by simpa [isInteger] using h⟩
  | inf _ => cases h
  | nan => cases h

lemma Number.isJson {x : Number} (h : x.IsFinite) : JsonText.IsJson x.toJs := by
  obtain ⟨q, rfl, hq⟩ := exists_fin h
  exact .number hq

/-- A whole percent is a double. -/
lemma Number.isFinite_of_percent {x : Number} (hint : x.isInteger = true) (hlo : x.ge 1 = true)
    (hhi : x.le 100 = true) : x.IsFinite := by
  obtain ⟨q, rfl, hden⟩ := exists_whole hint
  have hq : (q.num : ℚ) = q := Rat.coe_int_num_of_den_eq_one hden
  simp only [ge, le, decide_eq_true_eq] at hlo hhi
  rw [← hq] at hlo hhi
  have hnum : 1 ≤ q.num := by exact_mod_cast hlo
  have hle : q.num ≤ 100 := by exact_mod_cast hhi
  obtain ⟨n, hn⟩ := Int.eq_ofNat_of_zero_le (zero_le_one.trans hnum)
  rw [hn] at hq hle
  have hdouble : IsDouble (n : ℚ) := JsonText.isDouble_natCast (by omega)
  rw [Int.cast_natCast] at hq
  rwa [hq] at hdouble

lemma isJson_object {fields : List (String × Js)} (keys : List String)
    (hkeys : (fields.map Prod.fst).Sublist keys) (hnodup : keys.Nodup)
    (h : ∀ f ∈ fields, JsonText.IsJson f.2) : JsonText.IsJson (.object fields) :=
  .object (hnodup.sublist hkeys) h

lemma Condition.isJson {c : Condition} (h : c.value.IsFinite) : JsonText.IsJson c.toJs := by
  refine isJson_object (["kind", "comparator", "value"] ++ ["pool"] ++ ["token"]) ?_
    (by decide) ?_
  · rw [List.map_append, List.map_append]
    exact ((List.Sublist.refl _).append keys_fieldJs).append keys_fieldJs
  · simp only [List.forall_mem_append, List.forall_mem_cons]
    exact ⟨⟨⟨.string _, .string _, Number.isJson h, by simp⟩, isJson_fieldJs fun b _ => .string _⟩,
      isJson_fieldJs fun b _ => .string _⟩

lemma ActionAmount.isJson {a : ActionAmount} (h : a.Shareable) : JsonText.IsJson a.toJs := by
  cases a with
  | all => exact .string _
  | fixed value => exact Number.isJson h.1
  | share percent =>
    obtain ⟨hint, hlo, hhi⟩ := h
    refine isJson_object ["percent"] (List.Sublist.refl _) (by decide) ?_
    exact List.forall_mem_singleton.mpr (Number.isJson (Number.isFinite_of_percent hint hlo hhi))

lemma Action.isJson {a : Action} (h : a.amount.Shareable) : JsonText.IsJson a.toJs := by
  refine isJson_object (["kind", "amount"] ++ ["pool"] ++ ["token"]) ?_ (by decide) ?_
  · rw [List.map_append, List.map_append]
    exact ((List.Sublist.refl _).append keys_fieldJs).append keys_fieldJs
  · simp only [List.forall_mem_append, List.forall_mem_cons]
    exact ⟨⟨⟨.string _, ActionAmount.isJson h, by simp⟩, isJson_fieldJs fun b _ => .string _⟩,
      isJson_fieldJs fun b _ => .string _⟩

lemma PortableRule.isJson {p : PortableRule} (h : p.Shareable) : JsonText.IsJson p.toJs := by
  refine isJson_object (["name"] ++ ["conditions"] ++ ["match"] ++ ["action", "cooldownSec"] ++
    ["enabled"]) ?_ (by decide) ?_
  · rw [List.map_append, List.map_append, List.map_append, List.map_append]
    exact (((keys_fieldJs.append (List.Sublist.refl _)).append keys_fieldJs).append
      (List.Sublist.refl _)).append keys_fieldJs
  · have hconditions : ∀ v ∈ p.conditions.map Condition.toJs, JsonText.IsJson v :=
      List.forall_mem_map.mpr fun c hc => Condition.isJson (h.values c hc)
    simp only [List.forall_mem_append, List.forall_mem_cons]
    exact ⟨⟨⟨⟨isJson_fieldJs fun b _ => .string _, .array hconditions, by simp⟩,
      isJson_fieldJs fun b _ => .string _⟩, Action.isJson h.amount, Number.isJson h.cooldown.1,
      by simp⟩, isJson_fieldJs fun b _ => .bool _⟩

lemma PortableSet.isJson {p : PortableSet} (h : p.Shareable) : JsonText.IsJson p.toJs := by
  refine isJson_object (["v"] ++ ["name"] ++ ["rules"]) ?_ (by decide) ?_
  · rw [List.map_append, List.map_append]
    exact ((List.Sublist.refl _).append keys_fieldJs).append (List.Sublist.refl _)
  · have hone : IsDouble ((1 : ℕ) : ℚ) := JsonText.isDouble_natCast (by decide)
    have hrules : ∀ v ∈ p.rules.map PortableRule.toJs, JsonText.IsJson v :=
      List.forall_mem_map.mpr fun r hr => PortableRule.isJson (h.rules r hr)
    simp only [List.forall_mem_append, List.forall_mem_cons]
    exact ⟨⟨⟨.number (by simpa using hone), by simp⟩, isJson_fieldJs fun b _ => .string _⟩,
      .array hrules, by simp⟩

/-! ## Forms that are read back -/

lemma poolSchema_text (pool : PoolId) (path : List String) :
    poolSchema path (.string pool.text) = valid pool :=
  texts_text (by decide) (by cases pool <;> decide) _

lemma tokenSchema_name (token : TokenSymbol) (path : List String) :
    tokenSchema path (.string token.name) = valid token :=
  texts_text (by decide) (by cases token <;> decide) _

/-- A pool that may be absent. -/
lemma optional_pool (pool : Option PoolId) (path : List String) :
    optional poolSchema path ((pool.map (.string ·.text)).getD .undefined) = valid pool :=
  optional_of_valid poolSchema (.string ·.text) pool fun b _ => ⟨by simp, poolSchema_text b path⟩

/-- A token that may be absent. -/
lemma optional_token (token : Option TokenSymbol) (path : List String) :
    optional tokenSchema path ((token.map (.string ·.name)).getD .undefined) = valid token :=
  optional_of_valid tokenSchema (.string ·.name) token fun b _ => ⟨by simp, tokenSchema_name b path⟩

lemma finite_toJs {x : Number} (h : x.IsFinite) (path : List String) : finite path x.toJs = valid x := by
  obtain ⟨q, rfl, -⟩ := Number.exists_fin h
  rfl

lemma stringUpTo_string {hi : ℕ} {s : String} (h : jsLength s ≤ hi) (path : List String) :
    stringUpTo hi path (.string s) = valid s :=
  check_eq_valid_iff.mpr ⟨string_eq_valid_iff.mpr rfl, decide_eq_true h⟩

lemma boolean_bool (b : Bool) (path : List String) : boolean path (.bool b) = valid b := rfl

lemma conditionSchema_toJs {c : Condition} (h : c.value.IsFinite) (path : List String) :
    conditionSchema path c.toJs = valid c := by
  obtain ⟨kind, comparator, value, pool, token⟩ := c
  have hkind : texts ConditionKind.text conditionKinds (path ++ ["kind"]) (.string kind.text) =
      valid kind := texts_text (by decide) (by cases kind <;> decide) _
  have hcomparator : texts Comparator.text [.gte, .lte] (path ++ ["comparator"])
      (.string comparator.text) = valid comparator :=
    texts_text (by decide) (by cases comparator <;> decide) _
  have hvalue : finite (path ++ ["value"]) value.toJs = valid value := finite_toJs h _
  simp [conditionSchema, Condition.toJs, Fields.get, Js.field, lookup_fieldJs, List.lookup_append,
    List.lookup_cons, hkind, hcomparator, hvalue, optional_pool, optional_token]

lemma amountSchema_toJs {a : ActionAmount} (h : a.Shareable) (path : List String) :
    amountSchema path a.toJs = valid a := by
  refine union_eq_valid_iff.mpr ?_
  cases a with
  | all => exact ⟨[], _, _, rfl, literal_eq_valid_iff.mpr ⟨rfl, rfl⟩, by simp⟩
  | fixed value =>
    obtain ⟨hfinite, hpos⟩ := h
    obtain ⟨q, rfl, -⟩ := Number.exists_fin hfinite
    refine ⟨[literal isAll .all], _, _, rfl, ?_, List.forall_mem_singleton.mpr rfl⟩
    exact map_eq_valid_iff.mpr ⟨q, check_eq_valid_iff.mpr ⟨rfl, hpos⟩, rfl⟩
  | share x =>
    obtain ⟨hint, hlo, hhi⟩ := h
    obtain ⟨q, rfl, hden⟩ := Number.exists_whole hint
    have hpercent : percent (path ++ ["percent"]) (.number q) = valid q :=
      check_eq_valid_iff.mpr ⟨check_eq_valid_iff.mpr ⟨check_eq_valid_iff.mpr
        ⟨rfl, decide_eq_true hden⟩, hlo⟩, hhi⟩
    refine ⟨[literal isAll .all, Zod.map (fun q => .fixed (.fin q)) positive], _, _, rfl, ?_, ?_⟩
    · exact map_eq_valid_iff.mpr ⟨q, hpercent, rfl⟩
    · exact List.forall_mem_cons.mpr ⟨rfl, List.forall_mem_singleton.mpr rfl⟩

lemma actionSchema_toJs {a : Action} (h : a.amount.Shareable) (path : List String) :
    actionSchema path a.toJs = valid a := by
  obtain ⟨kind, amount, pool, token⟩ := a
  have hkind : texts ActionKind.text actionKinds (path ++ ["kind"]) (.string kind.text) =
      valid kind := texts_text (by decide) (by cases kind <;> decide) _
  have hamount : amountSchema (path ++ ["amount"]) amount.toJs = valid amount := amountSchema_toJs h _
  simp [actionSchema, Action.toJs, Fields.get, Js.field, lookup_fieldJs, List.lookup_append,
    List.lookup_cons, hkind, hamount, optional_pool, optional_token]

lemma cooldownSchema_toJs {x : Number} (hint : x.isInteger = true) (hpos : x.gt 0 = true)
    (path : List String) : cooldownSchema path x.toJs = valid x := by
  obtain ⟨q, rfl, hden⟩ := Number.exists_whole hint
  refine map_eq_valid_iff.mpr ⟨q, check_eq_valid_iff.mpr ⟨check_eq_valid_iff.mpr ⟨rfl, ?_⟩, hpos⟩, rfl⟩
  exact decide_eq_true hden

lemma portableRule_toJs {p : PortableRule} (h : p.Shareable) (path : List String) :
    portableRule path p.toJs = valid p := by
  have hname := optional_of_valid _ .string p.name fun s hs =>
    ⟨by simp, stringUpTo_string (h.name s hs) (path ++ ["name"])⟩
  have hitems : List.Forall₂ (fun c v => ∀ path, conditionSchema path v = valid c) p.conditions
      (p.conditions.map Condition.toJs) :=
    List.forall₂_map_right_iff.mpr (List.forall₂_same.mpr fun c hc path =>
      conditionSchema_toJs (h.values c hc) path)
  have hconditions : array conditionSchema 1 3 (path ++ ["conditions"])
      (.array (p.conditions.map Condition.toJs)) = valid p.conditions :=
    array_of_valid hitems h.atLeastOne h.atMostThree
  have hmatch := optional_of_valid (texts Match.text [.all, .any]) (.string ·.text) p.matching fun b _ =>
    ⟨by simp, texts_text (by decide) (by cases b <;> decide) (path ++ ["match"])⟩
  have henabled := optional_of_valid boolean .bool p.enabled fun b _ =>
    ⟨by simp, boolean_bool b (path ++ ["enabled"])⟩
  have haction := actionSchema_toJs h.amount (path ++ ["action"])
  have hcooldown := cooldownSchema_toJs h.cooldown.2.1 h.cooldown.2.2 (path ++ ["cooldownSec"])
  simp [portableRule, PortableRule.toJs, Fields.get, Js.field, lookup_fieldJs, List.lookup_append,
    List.lookup_cons, hname, hconditions, hmatch, henabled, haction, hcooldown]

/-- **A set that can be shared** is what the schema reads its form as. -/
theorem portableSet_toJs {p : PortableSet} (h : p.Shareable) (path : List String) :
    portableSet path p.toJs = valid p := by
  have hv : isOne (.number 1) = true := by decide
  have hname := optional_of_valid _ .string p.name fun s hs =>
    ⟨by simp, stringUpTo_string (h.name s hs) (path ++ ["name"])⟩
  have hitems : List.Forall₂ (fun r v => ∀ path, portableRule path v = valid r) p.rules
      (p.rules.map PortableRule.toJs) :=
    List.forall₂_map_right_iff.mpr (List.forall₂_same.mpr fun r hr path =>
      portableRule_toJs (h.rules r hr) path)
  have hrules : array portableRule 1 32 (path ++ ["rules"]) (.array (p.rules.map PortableRule.toJs)) =
      valid p.rules := array_of_valid hitems h.atLeastOne h.atMost
  simp [portableSet, PortableSet.toJs, Fields.get, Js.field, lookup_fieldJs, List.lookup_append,
    List.lookup_cons, hv, hname, hrules]

/-! ## Tokens that were made -/

/-- The characters of a token. -/
def isUrlSafe (c : Char) : Bool := c.isAlphanum || c == '-' || c == '_'

/-- A character of base64 in the alphabet of URLs. -/
def urlChar (n : ℕ) : Char :=
  if Base64.char n = '+' then '-' else if Base64.char n = '/' then '_' else Base64.char n

lemma isUrlSafe_urlChar : ∀ n < 64, isUrlSafe (urlChar n) = true := by decide

lemma urlChar_ne_equals : ∀ n < 64, urlChar n ≠ '=' := by decide

lemma char_of_urlChar : ∀ n < 64, (if urlChar n = '-' then '+' else
    if urlChar n = '_' then '/' else urlChar n) = Base64.char n := by decide

/-- What fills a text up is taken off. -/
lemma rdropWhile_append {text : Text} (h : ∀ c ∈ text, c ≠ '=') (k : ℕ) :
    (text ++ List.replicate k '=').rdropWhile (· == '=') = text := by
  have hfill : ∀ c ∈ List.replicate k '=', (c == '=') = true := by
    intro c hc
    rw [List.eq_of_mem_replicate hc]
    rfl
  have hself : text.reverse.dropWhile (· == '=') = text.reverse := by
    cases hrev : text.reverse with
    | nil => rfl
    | cons c cs =>
      have hc : c ∈ text := List.mem_reverse.mp (hrev ▸ List.mem_cons_self)
      rw [List.dropWhile_cons, if_neg (by simpa using h c hc)]
  rw [List.rdropWhile, List.reverse_append, List.reverse_replicate,
    List.dropWhile_append_of_pos hfill, hself, List.reverse_reverse]

lemma toBase64Url_eq (text : Text) :
    toBase64Url text = (Base64.sixes (Utf8.encode text)).map urlChar := by
  have hne : ∀ c ∈ (Base64.sixes (Utf8.encode text)).map urlChar, c ≠ '=' := by
    intro c hc
    obtain ⟨n, hn, rfl⟩ := List.mem_map.mp hc
    exact urlChar_ne_equals n (Base64.sixes_lt _ n hn)
  rw [toBase64Url, Base64.btoa, Base64.padding, List.map_append, List.map_replicate, List.map_map]
  exact rdropWhile_append hne _

lemma isUrlSafe_toBase64Url (text : Text) : ∀ c ∈ toBase64Url text, isUrlSafe c = true := by
  rw [toBase64Url_eq]
  intro c hc
  obtain ⟨n, hn, rfl⟩ := List.mem_map.mp hc
  exact isUrlSafe_urlChar n (Base64.sixes_lt _ n hn)

/-- **A text in the alphabet of URLs** is read back, unless it begins with a byte order mark. -/
lemma fromBase64Url_toBase64Url {text : Text} (h : ∀ c, text.head? = some c → c.toNat ≠ 0xfeff) :
    fromBase64Url (toBase64Url text) = some text := by
  have hchars : ((Base64.sixes (Utf8.encode text)).map urlChar).map
      (fun c => if c = '-' then '+' else if c = '_' then '/' else c) =
      (Base64.sixes (Utf8.encode text)).map Base64.char := by
    rw [List.map_map]
    refine List.map_congr_left fun n hn => ?_
    exact char_of_urlChar n (Base64.sixes_lt _ n hn)
  have hfull : (Base64.sixes (Utf8.encode text)).map Base64.char ++ List.replicate
      ((4 - ((Base64.sixes (Utf8.encode text)).map urlChar).length % 4) % 4) '=' =
      Base64.btoa (Utf8.encode text) := by
    rw [Base64.btoa, Base64.padding, List.length_map]
  rw [toBase64Url_eq, fromBase64Url]
  simp only [hchars, hfull]
  rw [Base64.atob_btoa, Option.map_some, Utf8.decode_utf8 h]

/-! ## Sets that were shared -/

lemma map_portable_materialize (newId : ℕ → String) (rules : List NamedRule) (k : ℕ) :
    (((rules.map portable).zipIdx k).map fun p => materialize (newId p.2) p.1).map portable =
      rules.map portable := by
  induction rules generalizing k with
  | nil => rfl
  | cons r rules ih =>
    rw [List.map_cons, List.zipIdx_cons, List.map_cons, List.map_cons, ih, portable_materialize]

/-- **A set survives its token.** The token of a set that can be shared is made of characters of URLs, and is
decoded to the name of the set and to drafts of its rules. -/
theorem decodeRules_encodeRules (newId : ℕ → String) {rules : List NamedRule} {name : Option String}
    (h : (PortableSet.mk name (rules.map portable)).Shareable) :
    ∃ token, encodeRules N rules name = some token ∧ (∀ c ∈ token, isUrlSafe c = true) ∧
      ∃ out, decodeRules N newId token = some out ∧ out.name = name ∧
        out.rules.map portable = rules.map portable := by
  obtain ⟨text, htext, hparse⟩ := JsonText.parse_stringify (N := N) (PortableSet.isJson h)
  have hhead : text.head? = some '{' := JsonText.head_of_object htext
  have hback : fromBase64Url (toBase64Url text) = some text := by
    refine fromBase64Url_toBase64Url fun c hc => ?_
    obtain rfl : '{' = c := Option.some.inj (hhead.symm.trans hc)
    decide
  refine ⟨toBase64Url text, ?_, isUrlSafe_toBase64Url text, ⟨name, _⟩, ?_, rfl,
    map_portable_materialize newId rules 0⟩
  · rw [encodeRules, htext, Option.map_some]
  · rw [decodeRules, hback, Option.bind_some, hparse]
    dsimp only
    rw [portableSet_toJs h, valid]

theorem decodeRules_encodeRules_lira :
    let exit : NamedRule := ⟨⟨"r_1", [⟨.fxPrice, .gte, .fin 50, none, none⟩], .all,
      ⟨.withdrawToWallet, .all, none, none⟩, .fin 600, true⟩, "Lira exit", ["cooldownSec"]⟩
    ∃ token, encodeRules JsonText.wholeNumerals [exit] (some "Lira shield") = some token ∧
      (∀ c ∈ token, isUrlSafe c = true) ∧
      ∃ out, decodeRules JsonText.wholeNumerals (fun n => s!"r_{n}") token = some out ∧
        out.name = some "Lira shield" ∧ out.rules.map portable = [exit].map portable := by
  intro exit
  have hfinite : ∀ n : ℕ, n < 2 ^ 53 → (Number.fin n).IsFinite := fun n hn => JsonText.isDouble_natCast hn
  refine decodeRules_encodeRules JsonText.wholeNumerals _ ⟨?_, by decide, by decide, ?_⟩
  · rintro s ⟨⟩
    decide
  · refine List.forall_mem_singleton.mpr ⟨?_, by decide, by decide, ?_, trivial, ?_⟩
    · rintro s ⟨⟩
      decide
    · refine List.forall_mem_singleton.mpr ?_
      exact_mod_cast hfinite 50 (by decide)
    · exact ⟨by exact_mod_cast hfinite 600 (by decide), rfl, by decide⟩

end Koul.Web
