import Koul.Core.Codec
import Koul.Router.Host
import Koul.Router.Validation

set_option relaxedAutoImplicit false
set_option autoImplicit false

/-!
# Contract values, printed

A contract autopilot as the JSON side writes it: integers as their decimal texts, symbols and
addresses as their own. Printing undoes the encoding of a valid autopilot, and encoding undoes
the printing of an accepted one.

## Main definitions

* `Koul.Core.printAutopilot` — the contract's autopilot, printed.

## Main results

* `Koul.Core.isDecimal_toString` — a printed natural number is a decimal string.
* `Koul.Core.encodeCondition_printCondition`, `encodeAction_printAction` — what encoding a
  printed value gives back.
-/

namespace Koul.Core

/-! ## Decimal texts -/

/-- The digits of a number start with no zero, unless it is 0. -/
lemma toDigits_head {n : ℕ} (hn : 0 < n) : ∃ c cs, Nat.toDigits 10 n = c :: cs ∧ c ≠ '0' := by
  induction n using Nat.strong_induction_on with
  | _ n ih =>
    rcases Nat.lt_or_ge n 10 with hlt | hge
    · refine ⟨n.digitChar, [], Nat.toDigits_of_lt_base hlt, ?_⟩
      intro hzero
      have hnat := congrArg Char.toNat hzero
      rw [Nat.toNat_digitChar_of_lt_ten hlt] at hnat
      have hc : '0'.toNat = 48 := rfl
      omega
    · obtain ⟨c, cs, hcs, hne⟩ := ih (n / 10) (by omega) (by omega)
      refine ⟨c, cs ++ [(n % 10).digitChar], ?_, hne⟩
      rw [Nat.toDigits_of_base_le (by decide) hge, hcs, List.cons_append]

/-- **A printed natural number is a decimal string.** -/
theorem isDecimal_toString (n : ℕ) : isDecimal (toString n) = true := by
  have hdigits : (toString n).toList = Nat.toDigits 10 n := Nat.toList_repr
  rw [isDecimal, hdigits]
  rcases Nat.eq_zero_or_pos n with rfl | hn
  · rfl
  · obtain ⟨c, cs, hcs, hne⟩ := toDigits_head hn
    have hall : ∀ d ∈ c :: cs, d.isDigit = true := fun d hd =>
      Nat.isDigit_of_mem_toDigits (by decide) (by decide) (hcs ▸ hd)
    obtain ⟨hc, hcs'⟩ := List.forall_mem_cons.mp hall
    rw [hcs]
    split
    · next h => cases h
    · rfl
    · next d ds _ h =>
      cases h
      simp only [Bool.and_eq_true, bne_iff_ne, List.all_eq_true]
      exact ⟨⟨hc, hne⟩, hcs'⟩

/-- A natural number prints the same as an integer. -/
lemma toString_natCast (n : ℕ) : toString (n : ℤ) = toString n := rfl

/-- A string is what its number prints exactly when it is decimal. -/
lemma toString_bigInt_iff {s : String} : toString (bigInt s) = s ↔ isDecimal s = true := by
  constructor
  · intro h
    rw [← h]
    exact isDecimal_toString _
  · exact repr_bigInt

/-- The number of a printed integer, when it is not negative. -/
lemma bigInt_toString_of_nonneg {z : ℤ} (hz : 0 ≤ z) : (bigInt (toString z) : ℤ) = z := by
  obtain ⟨n, rfl⟩ := Int.eq_ofNat_of_zero_le hz
  rw [toString_natCast, bigInt_repr]

/-! ## Printing -/

def printCmp : Router.Cmp → Cmp
  | .below => .below
  | .atOrAbove => .atOrAbove

def printAmount : Router.Amount → Amount
  | .all => .all
  | .percent bps => .percent bps
  | .fixed x => .fixed (toString x)

def printCondition : Router.Condition → Condition
  | .healthFactor cmp level => .healthFactor (printCmp cmp) (toString level)
  | .supplyRateGap overHub underHub minBps => .supplyRateGap overHub underHub minBps
  | .supplyRate hub cmp bps => .supplyRate hub (printCmp cmp) bps
  | .fxPrice asset cmp level maxAgeSecs =>
    .fxPrice asset.name (printCmp cmp) (toString level) (toString maxAgeSecs)
  | .idleBalance cmp amount => .idleBalance (printCmp cmp) (toString amount)
  | .tokenPrice token cmp level => .tokenPrice token (printCmp cmp) (toString level)
  | .tokenBalance token cmp amount => .tokenBalance token (printCmp cmp) (toString amount)

def printAction : Router.Action → Action
  | .moveSupply fromHub toHub amount => .moveSupply fromHub toHub (printAmount amount)
  | .supplyFromWallet hub amount => .supplyFromWallet hub (printAmount amount)
  | .repayFromWallet hub amount => .repayFromWallet hub (printAmount amount)
  | .repayWithCollateral withdrawHub repayHub amount =>
    .repayWithCollateral withdrawHub repayHub (printAmount amount)
  | .withdrawToWallet hub amount => .withdrawToWallet hub (printAmount amount)
  | .swapFromWallet tokenIn tokenOut amount maxSlippageBps =>
    .swapFromWallet tokenIn tokenOut (printAmount amount) maxSlippageBps
  | .withdrawAndSwap hub tokenOut amount maxSlippageBps =>
    .withdrawAndSwap hub tokenOut (printAmount amount) maxSlippageBps

def printRule (r : Router.Rule) : Rule :=
  ⟨r.conditions.map printCondition, r.matchAll, printAction r.action, r.cooldownLedgers⟩

def printAutopilot (ap : Router.Autopilot) : Autopilot :=
  ⟨toString ap.accountId, ap.rules.map printRule⟩

/-! ## Encoding a printed value -/

@[simp] lemma encodeCmp_printCmp (cmp : Router.Cmp) : encodeCmp (printCmp cmp) = cmp := by
  cases cmp <;> rfl

@[simp] lemma printCmp_encodeCmp (cmp : Cmp) : printCmp (encodeCmp cmp) = cmp := by
  cases cmp <;> rfl

/-- A symbol's text is that symbol. -/
@[simp] lemma toSymbol?_name (s : Symbol) : toSymbol? s.name = some s := by
  rw [toSymbol?, dif_pos ⟨s.length_le, s.chars⟩]

/-- A text is a symbol's exactly when it is short enough and has a symbol's characters. -/
lemma toSymbol?_eq_some {s : String} {sym : Symbol} (h : toSymbol? s = some sym) :
    sym.name = s := by
  rw [toSymbol?] at h
  split_ifs at h
  cases h
  rfl

lemma encodeAmount_printAmount {a : Router.Amount} (h : Router.amountOk a = true ∨
    Router.swapAmountOk a = true) : encodeAmount (printAmount a) = a := by
  cases a with
  | all => rfl
  | percent bps => rfl
  | fixed x =>
    have hx : 0 ≤ x := by
      rcases h with h | h
      · exact le_trans (by decide) (of_decide_eq_true h : x ≥ Router.MIN_MOVE)
      · exact le_of_lt (of_decide_eq_true h : x > 0)
    rw [printAmount, encodeAmount, bigInt_toString_of_nonneg hx]

/-- Encoding undoes the printing of an accepted condition. -/
lemma encodeCondition_printCondition {c : Router.Condition} (h : Router.conditionOk c = true) :
    encodeCondition (printCondition c) = some c := by
  cases c with
  | healthFactor cmp level =>
    have hlevel : 0 < level := of_decide_eq_true h
    simp only [printCondition, encodeCondition, encodeCmp_printCmp,
      bigInt_toString_of_nonneg hlevel.le]
  | supplyRateGap overHub underHub minBps => rfl
  | supplyRate hub cmp bps => simp only [printCondition, encodeCondition, encodeCmp_printCmp]
  | fxPrice asset cmp level maxAgeSecs =>
    simp only [Router.conditionOk, Bool.and_eq_true, decide_eq_true_eq] at h
    simp only [printCondition, encodeCondition, toSymbol?_name, encodeCmp_printCmp,
      bigInt_toString_of_nonneg (le_of_lt h.1), bigInt_repr, Option.bind_eq_bind,
      Option.bind_some]
  | idleBalance cmp amount =>
    have hamount : 0 ≤ amount := of_decide_eq_true h
    simp only [printCondition, encodeCondition, encodeCmp_printCmp,
      bigInt_toString_of_nonneg hamount]
  | tokenPrice token cmp level =>
    have hlevel : 0 < level := of_decide_eq_true h
    simp only [printCondition, encodeCondition, encodeCmp_printCmp,
      bigInt_toString_of_nonneg hlevel.le]
  | tokenBalance token cmp amount =>
    have hamount : 0 ≤ amount := of_decide_eq_true h
    simp only [printCondition, encodeCondition, encodeCmp_printCmp,
      bigInt_toString_of_nonneg hamount]

/-- So it does for an accepted action. -/
lemma encodeAction_printAction {a : Router.Action} (h : Router.actionOk a = true) :
    encodeAction (printAction a) = a := by
  cases a with
  | moveSupply fromHub toHub amount =>
    simp only [Router.actionOk, Bool.and_eq_true] at h
    simp only [printAction, encodeAction, encodeAmount_printAmount (.inl h.2)]
  | supplyFromWallet hub amount =>
    simp only [printAction, encodeAction, encodeAmount_printAmount (.inl h)]
  | repayFromWallet hub amount =>
    simp only [printAction, encodeAction, encodeAmount_printAmount (.inl h)]
  | repayWithCollateral withdrawHub repayHub amount =>
    simp only [printAction, encodeAction, encodeAmount_printAmount (.inl h)]
  | withdrawToWallet hub amount =>
    simp only [printAction, encodeAction, encodeAmount_printAmount (.inl h)]
  | swapFromWallet tokenIn tokenOut amount maxSlippageBps =>
    simp only [Router.actionOk, Bool.and_eq_true] at h
    simp only [printAction, encodeAction, encodeAmount_printAmount (.inr h.1.1.2)]
  | withdrawAndSwap hub tokenOut amount maxSlippageBps =>
    simp only [Router.actionOk, Bool.and_eq_true] at h
    simp only [printAction, encodeAction, encodeAmount_printAmount (.inl h.1.1)]

end Koul.Core
