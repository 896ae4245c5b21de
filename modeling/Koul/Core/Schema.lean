import Koul.Soroban
import Mathlib.Data.List.Induction

set_option relaxedAutoImplicit false
set_option autoImplicit false

/-!
# The autopilot as JSON

The typed autopilot of `@koul/core` and the checks of its schema. `u64` and `i128` values are
decimal strings there; the numbers of the schema are non-negative integers, so they are natural
numbers here, and values of another JSON shape, which the schema refuses, cannot be written.

## Main definitions

* `Koul.Core.Autopilot`, `Rule`, `Condition`, `Action`, `Amount` — the schema's types.
* `Koul.Core.schemaIssues` — what the schema finds wrong with a typed autopilot.
* `Koul.Core.bigInt` — `BigInt` of a decimal string.

## Main results

* `Koul.Core.bigInt_repr`, `Koul.Core.repr_bigInt` — `BigInt` reads a printed number back, and a
  decimal string is the number it denotes, printed.
-/

namespace Koul.Core

/-! ## Strings of the schema -/

/-- `/^(0|[1-9][0-9]*)$/`. -/
def isDecimal (s : String) : Bool :=
  match s.toList with
  | [] => false
  | ['0'] => true
  | c :: cs => c.isDigit && c != '0' && cs.all Char.isDigit

/-- `BigInt` of a decimal string. On a string with other characters `BigInt` throws; the schema
refuses such a string before anything else reads it. -/
def bigInt (s : String) : ℕ := Nat.ofDigitChars 10 s.toList 0

/-- The letters and digits of base 32, `[A-Z2-7]`. -/
def isBase32 (c : Char) : Bool := c.isUpper || ('2' ≤ c && c ≤ '7')

/-- `/^C[A-Z2-7]{55}$/`. -/
def isContractId (s : String) : Bool :=
  match s.toList with
  | c :: cs => c == 'C' && cs.length == 55 && cs.all isBase32
  | [] => false

/-- The length of a JavaScript string, in UTF-16 code units. -/
def jsLength (s : String) : ℕ :=
  s.toList.foldl (fun n c => n + if c.toNat > 0xffff then 2 else 1) 0

/-- `BigInt` reads a printed number back. -/
lemma bigInt_repr (n : ℕ) : bigInt (toString n) = n := by
  have hdigits : (toString n).toList = Nat.toDigits 10 n := Nat.toList_repr
  rw [bigInt, hdigits, Nat.ofDigitChars_ten_toDigits]

/-- A digit is the character of its value. -/
lemma digitChar_of_isDigit {c : Char} (h : c.isDigit = true) :
    c.toNat - '0'.toNat < 10 ∧ Nat.digitChar (c.toNat - '0'.toNat) = c := by
  rw [Char.isDigit, Bool.and_eq_true, decide_eq_true_eq, decide_eq_true_eq] at h
  have hlo : 48 ≤ c.toNat := UInt32.le_iff_toNat_le.mp h.1
  have hhi : c.toNat ≤ 57 := UInt32.le_iff_toNat_le.mp h.2
  have hlt : c.toNat - 48 < 10 := by omega
  refine ⟨hlt, ?_⟩
  apply Char.toNat_inj.mp
  show (Nat.digitChar (c.toNat - 48)).toNat = c.toNat
  rw [Nat.toNat_digitChar_of_lt_ten hlt]
  omega

/-- The digits of a number written without a leading zero are those digits. -/
lemma toDigits_ofDigitChars {c : Char} (hc : c.isDigit = true) (hne : c ≠ '0') (cs : List Char)
    (hcs : ∀ d ∈ cs, d.isDigit = true) :
    0 < Nat.ofDigitChars 10 (c :: cs) 0 ∧
      Nat.toDigits 10 (Nat.ofDigitChars 10 (c :: cs) 0) = c :: cs := by
  induction cs using List.reverseRecOn with
  | nil =>
    obtain ⟨hlt, hchar⟩ := digitChar_of_isDigit hc
    rw [Nat.ofDigitChars_cons, Nat.ofDigitChars_nil, Nat.mul_zero, Nat.zero_add]
    refine ⟨?_, by rw [Nat.toDigits_of_lt_base hlt, hchar]⟩
    rcases Nat.eq_zero_or_pos (c.toNat - '0'.toNat) with hzero | hpos
    · rw [hzero] at hchar
      exact absurd hchar.symm hne
    · exact hpos
  | append_singleton ds d ih =>
    obtain ⟨hpos, hdigits⟩ := ih fun e he => hcs e (List.mem_append_left _ he)
    obtain ⟨hlt, hchar⟩ := digitChar_of_isDigit (hcs d (by simp))
    rw [← List.cons_append, Nat.ofDigitChars_append, Nat.ofDigitChars_cons, Nat.ofDigitChars_nil]
    refine ⟨by omega, ?_⟩
    rw [← Nat.toDigits_append_toDigits (by decide) hpos hlt, hdigits,
      Nat.toDigits_of_lt_base hlt, hchar]

/-- A decimal string is the printed number that it denotes. -/
lemma repr_bigInt {s : String} (h : isDecimal s = true) : toString (bigInt s) = s := by
  rw [Nat.toString_eq_ofList_toDigits, bigInt]
  rw [isDecimal] at h
  rw [← String.toList_inj, String.toList_ofList]
  split at h
  · cases h
  · next hs => rw [hs]; rfl
  · next c cs _ hs =>
    simp only [Bool.and_eq_true, bne_iff_ne, List.all_eq_true] at h
    rw [hs]
    exact (toDigits_ofDigitChars h.1.1 h.1.2 cs h.2).2
/-! ## Types -/

inductive Cmp
  | below
  | atOrAbove
deriving DecidableEq, Repr

inductive Amount
  | all
  | percent (bps : ℕ)
  | fixed (value : String)
deriving DecidableEq, Repr

inductive Condition
  | healthFactor (cmp : Cmp) (levelWad : String)
  | supplyRateGap (hubOver hubUnder minBps : ℕ)
  | supplyRate (hub : ℕ) (cmp : Cmp) (bps : ℕ)
  | fxPrice (asset : String) (cmp : Cmp) (level maxAgeSecs : String)
  | idleBalance (cmp : Cmp) (amount : String)
  | tokenPrice (token : String) (cmp : Cmp) (level : String)
  | tokenBalance (token : String) (cmp : Cmp) (amount : String)
deriving DecidableEq, Repr

inductive Action
  | moveSupply (fromHub toHub : ℕ) (amount : Amount)
  | supplyFromWallet (hub : ℕ) (amount : Amount)
  | repayFromWallet (hub : ℕ) (amount : Amount)
  | repayWithCollateral (withdrawHub repayHub : ℕ) (amount : Amount)
  | withdrawToWallet (hub : ℕ) (amount : Amount)
  | swapFromWallet (tokenIn tokenOut : String) (amount : Amount) (maxSlippageBps : ℕ)
  | withdrawAndSwap (hub : ℕ) (tokenOut : String) (amount : Amount) (maxSlippageBps : ℕ)
deriving DecidableEq, Repr

structure Rule where
  conditions : List Condition
  matchAll : Bool
  action : Action
  cooldownLedgers : ℕ
deriving DecidableEq, Repr

structure Autopilot where
  accountId : String
  rules : List Rule
deriving DecidableEq, Repr

/-- The amount that every action has. -/
def Action.amount : Action → Amount
  | .moveSupply _ _ a => a
  | .supplyFromWallet _ a => a
  | .repayFromWallet _ a => a
  | .repayWithCollateral _ _ a => a
  | .withdrawToWallet _ a => a
  | .swapFromWallet _ _ a _ => a
  | .withdrawAndSwap _ _ a _ => a

/-! ## The schema's checks -/

/-- Which check of the schema a value fails. The two messages are the schema's own, the other
checks have the library's. -/
inductive SchemaCheck
  | tooBig
  | tooSmall
  | invalidFormat
  | custom (message : String)
deriving DecidableEq, Repr

/-- An issue: the path of the value and the check it fails. -/
structure Issue where
  path : List String
  check : SchemaCheck
deriving DecidableEq, Repr

/-- One check of a value. -/
def issueUnless (ok : Bool) (path : List String) (check : SchemaCheck) : List Issue :=
  if ok then [] else [⟨path, check⟩]

def checkUint (path : List String) (n : ℕ) : List Issue :=
  issueUnless (n ≤ 0xffffffff) path .tooBig

def checkDecimal (path : List String) (s : String) : List Issue :=
  issueUnless (isDecimal s) path .invalidFormat

def checkPositive (path : List String) (s : String) : List Issue :=
  checkDecimal path s ++ issueUnless (bigInt s > 0) path (.custom "Must be positive")

def checkContractId (path : List String) (s : String) : List Issue :=
  issueUnless (isContractId s) path (.custom "Must be a contract address (C...)")

/-- Swap slippage against the router's oracle price, in basis points. -/
def checkSlippage (path : List String) (n : ℕ) : List Issue :=
  issueUnless (n ≥ 1) path .tooSmall ++ issueUnless (n ≤ 2000) path .tooBig

def checkAmount (path : List String) : Amount → List Issue
  | .all => []
  | .percent bps => checkUint (path ++ ["bps"]) bps
  | .fixed value => checkPositive (path ++ ["value"]) value

def checkCondition (path : List String) : Condition → List Issue
  | .healthFactor _ levelWad => checkPositive (path ++ ["level_wad"]) levelWad
  | .supplyRateGap hubOver hubUnder minBps =>
    checkUint (path ++ ["hub_over"]) hubOver ++ checkUint (path ++ ["hub_under"]) hubUnder ++
      checkUint (path ++ ["min_bps"]) minBps
  | .supplyRate hub _ bps => checkUint (path ++ ["hub"]) hub ++ checkUint (path ++ ["bps"]) bps
  | .fxPrice asset _ level maxAgeSecs =>
    issueUnless (jsLength asset ≥ 1) (path ++ ["asset"]) .tooSmall ++
      issueUnless (jsLength asset ≤ 32) (path ++ ["asset"]) .tooBig ++
      checkPositive (path ++ ["level"]) level ++
      checkDecimal (path ++ ["max_age_secs"]) maxAgeSecs
  | .idleBalance _ amount => checkDecimal (path ++ ["amount"]) amount
  | .tokenPrice token _ level =>
    checkContractId (path ++ ["token"]) token ++ checkPositive (path ++ ["level"]) level
  | .tokenBalance token _ amount =>
    checkContractId (path ++ ["token"]) token ++ checkDecimal (path ++ ["amount"]) amount

def checkAction (path : List String) : Action → List Issue
  | .moveSupply fromHub toHub amount =>
    checkUint (path ++ ["from_hub"]) fromHub ++ checkUint (path ++ ["to_hub"]) toHub ++
      checkAmount (path ++ ["amount"]) amount
  | .supplyFromWallet hub amount =>
    checkUint (path ++ ["hub"]) hub ++ checkAmount (path ++ ["amount"]) amount
  | .repayFromWallet hub amount =>
    checkUint (path ++ ["hub"]) hub ++ checkAmount (path ++ ["amount"]) amount
  | .repayWithCollateral withdrawHub repayHub amount =>
    checkUint (path ++ ["withdraw_hub"]) withdrawHub ++
      checkUint (path ++ ["repay_hub"]) repayHub ++ checkAmount (path ++ ["amount"]) amount
  | .withdrawToWallet hub amount =>
    checkUint (path ++ ["hub"]) hub ++ checkAmount (path ++ ["amount"]) amount
  | .swapFromWallet tokenIn tokenOut amount maxSlippageBps =>
    checkContractId (path ++ ["token_in"]) tokenIn ++
      checkContractId (path ++ ["token_out"]) tokenOut ++
      checkAmount (path ++ ["amount"]) amount ++
      checkSlippage (path ++ ["max_slippage_bps"]) maxSlippageBps
  | .withdrawAndSwap hub tokenOut amount maxSlippageBps =>
    checkUint (path ++ ["hub"]) hub ++ checkContractId (path ++ ["token_out"]) tokenOut ++
      checkAmount (path ++ ["amount"]) amount ++
      checkSlippage (path ++ ["max_slippage_bps"]) maxSlippageBps

/-- The issues of an array's items, each under its index. -/
def checkItems {α : Type} (path : List String) (check : List String → α → List Issue)
    (items : List α) : List Issue :=
  items.zipIdx.flatMap fun (x, i) => check (path ++ [toString i]) x

def checkRule (path : List String) (r : Rule) : List Issue :=
  checkItems (path ++ ["conditions"]) checkCondition r.conditions ++
    issueUnless (r.conditions.length ≥ 1) (path ++ ["conditions"]) .tooSmall ++
    issueUnless (r.conditions.length ≤ 3) (path ++ ["conditions"]) .tooBig ++
    checkAction (path ++ ["action"]) r.action ++
    checkUint (path ++ ["cooldown_ledgers"]) r.cooldownLedgers

/-- The issues of `autopilotSchema.safeParse`. -/
def schemaIssues (ap : Autopilot) : List Issue :=
  checkDecimal ["account_id"] ap.accountId ++ checkItems ["rules"] checkRule ap.rules ++
    issueUnless (ap.rules.length ≥ 1) ["rules"] .tooSmall ++
    issueUnless (ap.rules.length ≤ 32) ["rules"] .tooBig

/-- A check that finds nothing passes. -/
lemma issueUnless_eq_nil_iff {ok : Bool} {path : List String} {check : SchemaCheck} :
    issueUnless ok path check = [] ↔ ok = true := by
  cases ok <;> simp [issueUnless]

end Koul.Core
