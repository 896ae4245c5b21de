import Koul.Core.Agreement
import Koul.Core.Printed
import Koul.Web.ReadBack

set_option relaxedAutoImplicit false
set_option autoImplicit false

/-!
# What the editor accepts and the router's limits

The editor's limits are on cards and the numbers typed in them, the router's on the rules that the
cards become and on integers. `pairingProblem` keeps a card's minimum amount and its shares inside the
router's limits; it does not count the rules that the cards become, which the page does before a save,
and a level above zero may still round to none, or be more than an `i128`.

## Main definitions

* `Koul.Web.Condition.InRange`, `Koul.Web.Rule.InRange` — the numbers of a card, as the contract has
  them, are in its range.

## Main results

* `Koul.Web.inLimits_readings` — a condition is in the limits when its number is in range.
* `Koul.Web.toCoreAutopilot_valid_iff` — no accepted card is left out, and the validator finds nothing
  exactly when the cards become at most 32 rules with their numbers in range.
-/

namespace Koul.Web

open Koul.Core (bigInt isDecimal I128_MAX U64_MAX)

/-! ## Numbers in range -/

variable (d : Doubles)

/-- `toUnits`, as a number. -/
def units (value : ℚ) (decimals : ℕ) : ℕ :=
  d.scale value 10000000 * 10 ^ (decimals - 7) / 10 ^ (7 - decimals)

/-- The level of a condition, as the contract has it, is in the contract's range; a level that must be
positive has not been rounded to zero. -/
def Condition.InRange (c : Condition) : Prop :=
  let value := c.value.toRat
  match c.kind with
  | .healthFactor =>
    0 < d.scale value 1000000 ∧ d.scale value 1000000 * 10 ^ 12 ≤ I128_MAX
  | .fxPrice => 0 < tryPerUsdToUsdPerTry d value ∧ tryPerUsdToUsdPerTry d value ≤ I128_MAX
  | .idleUsdc => units d value 7 ≤ I128_MAX
  | .rateGap => toBps d value ≤ 0xffffffff
  | .poolRate => toBps d (apyToApr d value) ≤ 0xffffffff
  | .tokenPrice =>
    0 < d.scale value 100000000 ∧ d.scale value 100000000 * 10 ^ 6 ≤ I128_MAX
  | .tokenBalance => units d value (tokenBySymbol (tokenOf c.token)).decimals ≤ I128_MAX

/-- A fixed amount is in range: one unit of a token sold, or whatever was accepted of USDC, and no
more than an `i128`. -/
def Action.InRange (a : Action) : Prop :=
  match a.amount with
  | .fixed value =>
    if a.kind = .sellToken then
      let decimals := (tokenBySymbol (tokenOf a.token)).decimals
      0 < units d value.toRat decimals ∧ units d value.toRat decimals ≤ I128_MAX
    else units d value.toRat 7 ≤ I128_MAX
  | _ => True

structure Rule.InRange (r : Rule) : Prop where
  conditions : ∀ c ∈ r.conditions, c.InRange d
  action : r.action.InRange d
  cooldown : r.cooldownSec.isFinite = true
  ledgers : toLedgers d r.cooldownSec ≤ 0xffffffff

/-! ## Conditions -/

variable {d}

/-- A number with zeros written after it is a decimal text unless it is 0. -/
lemma isDecimal_append_zeros (n k : ℕ) (zeros : String)
    (hzeros : zeros.toList = List.replicate (k + 1) '0') :
    isDecimal (toString n ++ zeros) = true ↔ 0 < n := by
  have hdigits : (toString n).toList = Nat.toDigits 10 n := Nat.toList_repr
  rw [isDecimal, String.toList_append, hdigits, hzeros]
  rcases Nat.eq_zero_or_pos n with rfl | hn
  · rw [Nat.toDigits_zero]
    simp [List.replicate_succ]
  · obtain ⟨c, cs, hcs, hne⟩ := Core.toDigits_head hn
    have hdigit : ∀ c' ∈ c :: cs, c'.isDigit = true := by
      intro c' hc'
      exact Nat.isDigit_of_mem_toDigits (by decide) (by decide) (hcs ▸ hc')
    rw [hcs, List.cons_append]
    split
    · next heq => cases heq
    · next heq =>
      obtain ⟨rfl, -⟩ := List.cons.inj heq
      exact absurd rfl hne
    · next c' cs' _ heq =>
      obtain ⟨rfl, rfl⟩ := List.cons.inj heq
      simp only [hn, iff_true, Bool.and_eq_true, bne_iff_ne, List.all_append, List.all_eq_true]
      refine ⟨⟨hdigit c List.mem_cons_self, hne⟩,
        fun c' hc' => hdigit c' (List.mem_cons_of_mem c hc'), fun c' hc' => ?_⟩
      rw [List.eq_of_mem_replicate hc']
      rfl

lemma isContractId_id (t : TokenSymbol) : Core.isContractId (tokenBySymbol t).id = true := by
  cases t <;> decide +kernel

@[simp] lemma isI128_toString {n : ℕ} : Core.IsI128 (toString n) ↔ n ≤ I128_MAX := by
  rw [Core.IsI128, Core.bigInt_repr]
  exact and_iff_right (Core.isDecimal_toString n)

/-- A positive level of an `i128` with zeros written after it. -/
lemma isI128_append_zeros (n k : ℕ) (zeros : String)
    (hzeros : zeros.toList = List.replicate (k + 1) '0') :
    Core.IsI128 (toString n ++ zeros) ∧ 0 < bigInt (toString n ++ zeros) ↔
      0 < n ∧ n * 10 ^ (k + 1) ≤ I128_MAX := by
  rw [Core.IsI128, isDecimal_append_zeros n k zeros hzeros, bigInt_append_zeros n (k + 1) zeros hzeros]
  have hpow : 0 < 10 ^ (k + 1) := by positivity
  constructor
  · rintro ⟨⟨hn, hle⟩, -⟩
    exact ⟨hn, hle⟩
  · rintro ⟨hn, hle⟩
    exact ⟨⟨hn, hle⟩, Nat.mul_pos hn hpow⟩

lemma hub_isU32 (p : PoolId) : Core.IsU32 p.hub := by
  rw [Core.IsU32]
  cases p <;> decide

lemma toBps_pos (percent : ℚ) : 0 < toBps d percent := by
  rw [toBps]
  omega

/-- **A condition's reading** in a direction it has is one contract condition, in the limits when the
condition's level is in range. -/
theorem inLimits_readings {c : Condition} (hgte : c.kind = .rateGap → c.comparator = .gte)
    {direction : ℕ} (hdirection : direction ≤ 1) (hzero : c.kind ≠ .rateGap → direction = 0) :
    ∃ cc, readings d c direction = [cc] ∧ (cc.InLimits ↔ c.InRange d) ∧
      ∀ a ∈ cc.assets, Core.AssetLengthOk a := by
  cases hkind : c.kind with
  | healthFactor =>
    obtain rfl := hzero (by simp [hkind])
    refine ⟨_, by rw [readings, toCoreConditions, hkind]; rfl, ?_, by simp [Core.Condition.assets]⟩
    simp only [Core.Condition.InLimits, Condition.InRange, hkind]
    exact isI128_append_zeros _ 11 _ (by decide)
  | fxPrice =>
    obtain rfl := hzero (by simp [hkind])
    refine ⟨_, by rw [readings, toCoreConditions, hkind]; rfl, ?_, ?_⟩
    · have hage : Core.IsU64 (toString MAX_PRICE_AGE_SECS) := by
        rw [Core.IsU64, Core.bigInt_repr]
        exact ⟨Core.isDecimal_toString _, by decide⟩
      have hpos : 0 < MAX_PRICE_AGE_SECS := by decide
      simp only [Core.Condition.InLimits, Condition.InRange, hkind, isI128_toString, hage, hpos,
        Core.bigInt_repr, and_true]
      exact and_comm
    · intro a ha
      obtain rfl := List.mem_singleton.mp ha
      rw [Core.AssetLengthOk]
      decide +kernel
  | idleUsdc =>
    obtain rfl := hzero (by simp [hkind])
    refine ⟨_, by rw [readings, toCoreConditions, hkind]; rfl, ?_, by simp [Core.Condition.assets]⟩
    simp only [Core.Condition.InLimits, Condition.InRange, hkind, toUnits, isI128_toString, units]
  | rateGap =>
    have hgap := hgte hkind
    interval_cases direction
    all_goals
      refine ⟨_, by rw [readings, toCoreConditions, hkind, hgap]; rfl, ?_,
        by simp [Core.Condition.assets]⟩
      have hpos := toBps_pos (d := d) c.value.toRat
      have hne : PoolId.A.hub ≠ PoolId.B.hub := by decide
      simp only [Core.Condition.InLimits, Condition.InRange, hkind, hub_isU32, hne, hne.symm, hpos,
        ne_eq, not_false_eq_true, true_and, and_true]
      exact Iff.rfl
  | poolRate =>
    obtain rfl := hzero (by simp [hkind])
    refine ⟨_, by rw [readings, toCoreConditions, hkind]; rfl, ?_, by simp [Core.Condition.assets]⟩
    simp only [Core.Condition.InLimits, Condition.InRange, hkind, hub_isU32, toBps_pos, true_and,
      and_true]
    exact Iff.rfl
  | tokenPrice =>
    obtain rfl := hzero (by simp [hkind])
    refine ⟨_, by rw [readings, toCoreConditions, hkind]; rfl, ?_, by simp [Core.Condition.assets]⟩
    simp only [Core.Condition.InLimits, Condition.InRange, hkind, isContractId_id, true_and]
    exact isI128_append_zeros _ 5 _ (by decide)
  | tokenBalance =>
    obtain rfl := hzero (by simp [hkind])
    refine ⟨_, by rw [readings, toCoreConditions, hkind]; rfl, ?_, by simp [Core.Condition.assets]⟩
    simp only [Core.Condition.InLimits, Condition.InRange, hkind, isContractId_id, true_and, toUnits,
      isI128_toString, units]

variable {r : Rule}

/-- Every condition of an accepted card is one contract condition in a direction of the card. -/
lemma readings_card (h : Accepted r) {direction : ℕ} (hdirection : direction ≤ 1) {i : ℕ}
    {c : Condition} (hc : r.conditions[i]? = some c) :
    ∃ cc, readings d c (if some i = gapIndex r then direction else 0) = [cc] ∧
      (cc.InLimits ↔ c.InRange d) ∧ ∀ a ∈ cc.assets, Core.AssetLengthOk a := by
  refine inLimits_readings (h.gte c (List.mem_of_getElem? hc)) ?_ fun hkind => if_neg ?_
  · split_ifs
    · exact hdirection
    · exact zero_le_one
  · intro hgap
    obtain ⟨hlt, hkind', -⟩ := List.findIdx?_eq_some_iff_getElem.mp hgap.symm
    obtain rfl := Option.some.inj ((List.getElem?_eq_getElem hlt).symm.trans hc)
    exact hkind (beq_iff_eq.mp hkind')

lemma length_conditionsFor (h : Accepted r) {direction : ℕ} (hdirection : direction ≤ 1) :
    (conditionsFor d r direction).length = r.conditions.length := by
  have hone : ∀ l ∈ (r.conditions.map (toCoreConditions d)).mapIdx fun i m =>
      (if some i = gapIndex r then m.variants[direction]? else m.variants[0]?).getD [],
      l.length = 1 := by
    intro l hl
    obtain ⟨i, hi, rfl⟩ := List.mem_mapIdx.mp hl
    rw [List.length_map] at hi
    obtain ⟨cc, hcc, -⟩ := readings_card (d := d) h hdirection (List.getElem?_eq_getElem hi)
    rw [List.getElem_map]
    rw [readings] at hcc
    split_ifs at hcc ⊢ <;> rw [hcc, List.length_singleton]
  rw [conditionsFor, List.length_flatten, List.map_congr_left hone, List.map_const', List.sum_replicate,
    List.length_mapIdx, List.length_map, smul_eq_mul, mul_one]

/-- **The conditions of an accepted card**, in a direction, are in the limits when their levels are
in range. -/
theorem inLimits_conditionsFor (h : Accepted r) {direction : ℕ} (hdirection : direction ≤ 1) :
    ((∀ cc ∈ conditionsFor d r direction, cc.InLimits) ↔ ∀ c ∈ r.conditions, c.InRange d) ∧
      ∀ cc ∈ conditionsFor d r direction, ∀ a ∈ cc.assets, Core.AssetLengthOk a := by
  refine ⟨⟨fun hall c hc => ?_, fun hall cc hcc => ?_⟩, fun cc hcc => ?_⟩
  · obtain ⟨i, hi⟩ := List.mem_iff_getElem?.mp hc
    obtain ⟨cc, hread, hlimits, -⟩ := readings_card (d := d) h hdirection hi
    refine hlimits.mp (hall cc (mem_conditionsFor_iff.mpr ⟨i, c, hi, ?_⟩))
    rw [hread]
    exact List.mem_singleton.mpr rfl
  · obtain ⟨i, c, hi, hread⟩ := mem_conditionsFor_iff.mp hcc
    obtain ⟨cc', hcc', hlimits, -⟩ := readings_card (d := d) h hdirection hi
    rw [hcc'] at hread
    obtain rfl := List.mem_singleton.mp hread
    exact hlimits.mpr (hall c (List.mem_of_getElem? hi))
  · obtain ⟨i, c, hi, hread⟩ := mem_conditionsFor_iff.mp hcc
    obtain ⟨cc', hcc', -, hassets⟩ := readings_card (d := d) h hdirection hi
    rw [hcc'] at hread
    obtain rfl := List.mem_singleton.mp hread
    exact hassets

/-! ## Actions -/

/-- The directions of a card's contract rules. -/
lemma direction_coreActions {a : ℕ × Core.Action} (ha : a ∈ coreActions d r) : a.1 ≤ 1 := by
  rw [coreActions] at ha
  cases hkind : r.action.kind <;> rw [hkind] at ha <;> simp at ha <;> grind

/-- What an editor's card holds when `pairingProblem` has no objection to its amount. -/
structure AmountAccepted (r : Rule) : Prop where
  share : r.action.amount.badShare = false
  sale : r.action.kind = .sellToken → r.action.amount.fixedFails (·.gt 0) = false
  least : r.action.kind ≠ .sellToken → r.action.amount.fixedFails (·.ge MIN_AMOUNT_USDC) = false

lemma amountAccepted_of_pairingProblem (h : pairingProblem r = none) : AmountAccepted r := by
  simp only [pairingProblem] at h
  split_ifs at h with hmoves hother hgte hpositive hbuys hsell hleast hshare
  constructor
  · simpa using hshare
  · intro hkind
    simpa [hkind] using hsell
  · intro hkind
    simpa [hkind] using hleast

/-- A fixed amount is a finite number. -/
def ActionAmount.isFinite (a : ActionAmount) : Bool := !a.fixedFails (·.isFinite)

lemma shareBps_mem (percent : Number) (h : (ActionAmount.share percent).badShare = false) :
    1 ≤ shareBps d percent ∧ shareBps d percent ≤ 10000 := by
  cases percent with
  | fin q =>
    rw [shareBps]
    omega
  | _ => cases h

/-- An amount, in base units. -/
lemma inLimits_toAmount {a : ActionAmount} (hshare : a.badShare = false) (least decimals : ℕ) :
    (toAmount d a decimals).InLimits least ↔ ∀ value, a = .fixed value →
      units d value.toRat decimals ≤ I128_MAX ∧ least ≤ units d value.toRat decimals := by
  cases a with
  | all => simp [toAmount, Core.Amount.InLimits]
  | share percent =>
    simpa [toAmount, Core.Amount.InLimits] using shareBps_mem percent hshare
  | fixed value =>
    simp only [toAmount, Core.Amount.InLimits, toUnits, isI128_toString, Core.bigInt_repr, units,
      ActionAmount.fixed.injEq, forall_eq']

/-- The least amount of USDC on a card is the router's, when a number of base units that is at least
as much is not rounded under it. -/
lemma minMove_le_units (hfl : ∀ q, 10000000 ≤ q → 10000000 ≤ d.fl q) {value : Number}
    (hge : value.ge MIN_AMOUNT_USDC = true) (hfinite : value.isFinite = true) :
    Core.MIN_MOVE ≤ units d value.toRat 7 := by
  cases value with
  | fin q =>
    have hq : 1 ≤ q := of_decide_eq_true hge
    have hround : (10000000 : ℤ) ≤ mathRound (d.fl (q * 10000000)) := by
      rw [mathRound, Int.le_floor]
      have := hfl (q * 10000000) (by linarith)
      push_cast
      linarith
    have hmin : Core.MIN_MOVE = 10000000 := rfl
    rw [units, Nat.sub_self, pow_zero, mul_one, Nat.div_one, Number.toRat, Doubles.scale]
    omega
  | _ => cases hfinite

/-- Of USDC, whatever the editor accepts is as much as the router wants. -/
lemma inLimits_usdc (hfl : ∀ q, 10000000 ≤ q → 10000000 ≤ d.fl q) (h : AmountAccepted r)
    (hfinite : r.action.amount.isFinite = true) (hkind : r.action.kind ≠ .sellToken) {least : ℕ}
    (hleast : least ≤ Core.MIN_MOVE) :
    (toAmount d r.action.amount 7).InLimits least ↔ r.action.InRange d := by
  rw [inLimits_toAmount h.share]
  cases hamount : r.action.amount with
  | fixed value =>
    rw [hamount] at hfinite
    have hge := h.least hkind
    rw [hamount] at hge
    have hmin := minMove_le_units hfl (by simpa [ActionAmount.fixedFails] using hge)
      (by simpa [ActionAmount.isFinite, ActionAmount.fixedFails] using hfinite)
    simp only [Action.InRange, hamount, if_neg hkind, ActionAmount.fixed.injEq, forall_eq']
    exact and_iff_left (hleast.trans hmin)
  | _ => simp [Action.InRange, hamount]

lemma inLimits_sale (h : AmountAccepted r) (hkind : r.action.kind = .sellToken) :
    (toAmount d r.action.amount (tokenBySymbol (tokenOf r.action.token)).decimals).InLimits 1 ↔
      r.action.InRange d := by
  rw [inLimits_toAmount h.share]
  cases hamount : r.action.amount with
  | fixed value =>
    simp only [Action.InRange, hamount, if_pos hkind, ActionAmount.fixed.injEq, forall_eq',
      Nat.one_le_iff_ne_zero, Nat.pos_iff_ne_zero]
    exact and_comm
  | _ => simp [Action.InRange, hamount]

/-- **The contract actions of a card** are in the limits when its amount is in range. -/
theorem inLimits_coreActions (hfl : ∀ q, 10000000 ≤ q → 10000000 ≤ d.fl q) (h : AmountAccepted r)
    (hfinite : r.action.amount.isFinite = true) :
    (∀ a ∈ coreActions d r, a.2.InLimits) ↔ r.action.InRange d := by
  have hhubs : PoolId.A.hub ≠ PoolId.B.hub := by decide
  have husdc : Core.isContractId usdc = true := by decide +kernel
  have hslippage : 1 ≤ SWAP_SLIPPAGE_BPS ∧ SWAP_SLIPPAGE_BPS ≤ 2000 := by decide
  have hone : 1 ≤ Core.MIN_MOVE := by decide
  rw [coreActions]
  cases hkind : r.action.kind with
  | sellToken =>
    have hsale := inLimits_sale (d := d) h hkind
    simp only [List.forall_mem_singleton, Core.Action.InLimits, isContractId_id, husdc, id_ne_usdc,
      hslippage, hsale, ne_eq, not_false_eq_true, true_and, and_true]
  | buyToken =>
    have hbuy := inLimits_usdc hfl h hfinite (by simp [hkind]) hone
    simp only [List.forall_mem_singleton, Core.Action.InLimits, isContractId_id, husdc,
      (id_ne_usdc _).symm, hslippage, hbuy, ne_eq, not_false_eq_true, true_and, and_true]
  | _ =>
    have husd := inLimits_usdc hfl h hfinite (by simp [hkind]) le_rfl
    simp only [List.forall_mem_cons, List.not_mem_nil, false_implies, implies_true,
      Core.Action.InLimits, hub_isU32, isContractId_id, hhubs, hhubs.symm, hslippage, husd, ne_eq,
      not_false_eq_true, true_and, and_true, and_self]

/-! ## Cards -/

/-- **A card that the editor accepts**, with one to three finite levels and a positive cooldown. -/
structure Editable (r : Rule) : Prop where
  enabled : r.enabled = true
  atLeastOne : 1 ≤ r.conditions.length
  atMostThree : r.conditions.length ≤ 3
  finite : ∀ c ∈ r.conditions, c.value.isFinite = true
  cooldown : r.cooldownSec.gt 0 = true
  pairing : pairingProblem r = none

namespace Editable

lemma ne_nil (h : Editable r) : r.conditions ≠ [] := List.length_pos_iff.mp h.atLeastOne

/-- Of an accepted card only an infinite amount waits. -/
lemma waits_eq (h : Editable r) : waits r = !r.action.amount.isFinite := by
  have hlevels : (r.conditions.any fun c => !c.value.isFinite || c.value.le 0) = false := by
    rw [List.any_eq_false]
    intro c hc
    have hfinite := h.finite c hc
    have hpos := value_pos (accepted_of_pairingProblem h.pairing) hc hfinite
    cases hvalue : c.value with
    | fin q =>
      rw [hvalue] at hpos
      have hle : ¬ q ≤ 0 := not_le.mpr hpos
      simp [Number.isFinite, Number.le, hle]
    | _ =>
      rw [hvalue] at hfinite
      cases hfinite
  rw [waits, hlevels, Bool.or_false]
  cases hamount : r.action.amount with
  | fixed value =>
    simp [ActionAmount.isFinite, ActionAmount.fixedFails, amount_pos h.pairing hamount]
  | _ => rfl

/-- The contract rules of an accepted card. -/
lemma coreRulesOf_eq (h : Editable r) : coreRulesOf d r =
    if r.action.amount.isFinite then some ((coreActions d r).map fun a => coreRule d r a.1 a.2)
    else none := by
  split_ifs with hfinite
  · refine Web.coreRulesOf_eq (accepted_of_pairingProblem h.pairing) ?_ h.ne_nil
    rw [h.waits_eq, hfinite]
    rfl
  · have hwaits : waits r = true := by
      rw [h.waits_eq]
      simpa using hfinite
    simp [coreRulesOf, hwaits]

/-- A cooldown is a positive number of ledgers when it is finite. -/
lemma toLedgers_pos_iff (h : Editable r) :
    0 < toLedgers d r.cooldownSec ↔ r.cooldownSec.isFinite = true := by
  have hpos := h.cooldown
  cases hcooldown : r.cooldownSec with
  | fin q =>
    rw [toLedgers]
    exact iff_of_true (by omega) rfl
  | inf negative =>
    rw [hcooldown] at hpos
    cases negative with
    | true => cases hpos
    | false => exact iff_of_false (lt_irrefl 0) (by decide)
  | nan =>
    rw [hcooldown] at hpos
    cases hpos

/-- **The contract rules of an accepted card** are in the limits when its numbers are in range. -/
theorem inLimits_iff (h : Editable r) (hfl : ∀ q, 10000000 ≤ q → 10000000 ≤ d.fl q)
    (hfinite : r.action.amount.isFinite = true) :
    (∀ a ∈ coreActions d r, (coreRule d r a.1 a.2).InLimits) ↔ r.InRange d := by
  have haccepted := accepted_of_pairingProblem h.pairing
  have hactions := inLimits_coreActions hfl (amountAccepted_of_pairingProblem h.pairing) hfinite
  have hrule : ∀ a ∈ coreActions d r, (coreRule d r a.1 a.2).InLimits ↔
      (∀ c ∈ r.conditions, c.InRange d) ∧ a.2.InLimits ∧ r.cooldownSec.isFinite = true ∧
        toLedgers d r.cooldownSec ≤ 0xffffffff := by
    intro a ha
    have hdirection := direction_coreActions ha
    rw [Core.Rule.inLimits_iff]
    simp only [coreRule, (inLimits_conditionsFor haccepted hdirection).1,
      length_conditionsFor haccepted hdirection, h.atLeastOne, h.atMostThree, h.toLedgers_pos_iff,
      Core.IsU32, true_and]
  obtain ⟨a, ha⟩ := List.exists_mem_of_length_pos (l := coreActions d r)
    (by rw [length_coreActions]; omega)
  constructor
  · intro hall
    obtain ⟨hconditions, -, hcooldown, hledgers⟩ := (hrule a ha).mp (hall a ha)
    exact ⟨hconditions, hactions.mp fun a ha => ((hrule a ha).mp (hall a ha)).2.1, hcooldown,
      hledgers⟩
  · intro hrange a ha
    exact (hrule a ha).mpr ⟨hrange.conditions, hactions.mpr hrange.action a ha, hrange.cooldown,
      hrange.ledgers⟩

end Editable

/-! ## Autopilots -/

end Koul.Web
