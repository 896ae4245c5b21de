import Koul.Router.Reads
import Koul.Web.Adapter
import Mathlib.Tactic.IntervalCases

set_option relaxedAutoImplicit false
set_option autoImplicit false

/-!
# Moving to the better hub

A card that moves to the better hub becomes two contract rules, one for each direction. Each holds
the rate gap of its direction and, next to it, the card's other conditions. Whether the router
moves only to the hub that pays more depends on how they are joined.

## Main definitions

* `Koul.Web.NeverToWorse` — no rule of the cards moves to a hub that does not pay more.
* `Koul.Web.GapDecides` — a card's rate gap decides its moves.

## Main results

* `Koul.Web.lt_of_supplyRateGap` — a rate gap that holds orders the two rates.
* `Koul.Web.exists_level` — any other condition can hold while all rates are equal.
* `Koul.Web.neverToWorse_iff` — when the cards never move to the worse hub.
-/

namespace Koul.Web

open Router (Reads Answers)
open Koul.Core (encodeCondition encodeRule bigInt)

/-! ## Conditions of the router -/

/-- A rate gap that holds orders the two rates. -/
lemma lt_of_supplyRateGap {rd : Reads} {user : Address} {accountId overHub underHub bps : ℕ}
    (hbps : 1 ≤ bps)
    (h : (rd.evaluate user accountId (.supplyRateGap overHub underHub bps)).holds = true) :
    rd.depositRate underHub < rd.depositRate overHub := by
  have hgap : (bps : ℤ) * Router.BPS_RAY ≤ rd.depositRate overHub - rd.depositRate underHub :=
    of_decide_eq_true h
  have hray : (0 : ℤ) < Router.BPS_RAY := by decide
  have hpos : 0 < (bps : ℤ) * Router.BPS_RAY := by positivity
  omega

/-- The state in which every reading is `v`. -/
def flatReads (v : ℤ) : Reads where
  e :=
    { getHealthFactor := fun _ _ => v
      getCollateralAmount := fun _ _ _ => v
      getBorrowAmount := fun _ _ _ => v
      getDepositRate := fun _ _ => v
      getSyncData := fun _ _ => ⟨⟨v⟩, ⟨v⟩⟩
      getSuppliedAmount := fun _ _ => v
      getBorrowedAmount := fun _ _ => v
      lastprice := fun _ _ => some ⟨v, 0⟩
      balance := fun _ _ => v }
  cfg := ⟨"controller", "pool", "usdc", "oracle", 3⟩
  feed := fun _ => some ⟨.fixed v, 7⟩
  ledger := ⟨1, 0⟩

/-- A value on the side of a level that a comparison asks for. -/
def valueAt (cmp : Router.Cmp) (level : ℤ) : ℤ :=
  match cmp with
  | .below => level - 1
  | .atOrAbove => level

lemma holds_valueAt (cmp : Router.Cmp) (level : ℤ) :
    Router.holds cmp (valueAt cmp level) level = true := by
  cases cmp with
  | below => exact decide_eq_true (by show level - 1 < level; omega)
  | atOrAbove => exact decide_eq_true (le_refl level)

/-- **Every condition but a rate gap can hold** while all rates are equal, unless it asks for a
token price under the least one. -/
lemma exists_level {c : Router.Condition} (user : Address) (accountId : ℕ)
    (hgap : ∀ overHub underHub bps, c ≠ .supplyRateGap overHub underHub bps)
    (hprice : ∀ t level, c = .tokenPrice t .below level → 2 ≤ level) :
    ∃ v, ((flatReads v).evaluate user accountId c).holds = true := by
  cases c with
  | healthFactor cmp level => exact ⟨valueAt cmp level, holds_valueAt cmp level⟩
  | supplyRateGap overHub underHub bps => exact absurd rfl (hgap overHub underHub bps)
  | supplyRate hub cmp bps =>
    refine ⟨valueAt cmp bps * Router.BPS_RAY, ?_⟩
    show Router.holds cmp ((valueAt cmp bps * Router.BPS_RAY).tdiv Router.BPS_RAY) bps = true
    rw [Int.mul_tdiv_cancel _ (by decide)]
    exact holds_valueAt cmp bps
  | fxPrice asset cmp level maxAge =>
    refine ⟨valueAt cmp level, ?_⟩
    have hfresh : Router.isStale 0 0 maxAge = false := decide_eq_false (by omega)
    simp only [Reads.evaluate, flatReads, hfresh]
    exact holds_valueAt cmp level
  | idleBalance cmp amount => exact ⟨valueAt cmp amount, holds_valueAt cmp amount⟩
  | tokenPrice t cmp level =>
    have hlevel : ∃ v, 0 < v ∧ Router.holds cmp v level = true := by
      cases cmp with
      | below =>
        have := hprice t level rfl
        exact ⟨level - 1, by omega, holds_valueAt .below level⟩
      | atOrAbove => exact ⟨max 1 level, by omega, decide_eq_true (le_max_right 1 level)⟩
    obtain ⟨v, hpos, hholds⟩ := hlevel
    refine ⟨v, ?_⟩
    have hread : (flatReads v).price t = some (v, 7) := if_pos hpos
    simp only [Reads.evaluate, hread]
    exact hholds
  | tokenBalance t cmp amount => exact ⟨valueAt cmp amount, holds_valueAt cmp amount⟩

/-! ## The rules of a card that moves -/

variable {d : Doubles} {r : Rule}

/-- The contract conditions that a card's condition reads as in a direction. -/
def readings (d : Doubles) (c : Condition) (direction : ℕ) : List Core.Condition :=
  ((toCoreConditions d c).variants[direction]?).getD []

/-- The conditions of a card for a direction: those of its first rate gap in that direction, those
of the others in their first reading. -/
lemma mem_conditionsFor_iff {direction : ℕ} {cc : Core.Condition} :
    cc ∈ conditionsFor d r direction ↔ ∃ i c, r.conditions[i]? = some c ∧
      cc ∈ readings d c (if some i = gapIndex r then direction else 0) := by
  rw [conditionsFor, List.mem_flatten]
  constructor
  · rintro ⟨l, hl, hcc⟩
    obtain ⟨i, hi, rfl⟩ := List.mem_mapIdx.mp hl
    rw [List.length_map] at hi
    refine ⟨i, r.conditions[i], List.getElem?_eq_getElem hi, ?_⟩
    rw [List.getElem_map] at hcc
    rw [readings]
    split_ifs at hcc ⊢ <;> exact hcc
  · rintro ⟨i, c, hc, hcc⟩
    obtain ⟨hi, rfl⟩ := List.getElem?_eq_some_iff.mp hc
    refine ⟨_, List.mem_mapIdx.mpr ⟨i, by rwa [List.length_map], rfl⟩, ?_⟩
    rw [List.getElem_map]
    rw [readings] at hcc
    split_ifs at hcc ⊢ <;> exact hcc

/-- The first rate gap of an accepted card that moves. -/
lemma exists_gapIndex (h : Accepted r) (hmove : r.action.kind = .moveToBestPool) :
    ∃ i c, gapIndex r = some i ∧ r.conditions[i]? = some c ∧ c.kind = .rateGap ∧
      c.comparator = .gte := by
  have hany : r.conditions.any (·.kind == .rateGap) = true := by
    rw [h.gap, hmove]
    rfl
  rw [← List.findIdx?_isSome, Option.isSome_iff_exists] at hany
  obtain ⟨i, hi⟩ := hany
  obtain ⟨hlt, hkind, -⟩ := List.findIdx?_eq_some_iff_getElem.mp hi
  have hkind' : r.conditions[i].kind = .rateGap := by simpa using hkind
  exact ⟨i, r.conditions[i], hi, List.getElem?_eq_getElem hlt, hkind',
    h.gte _ (List.getElem_mem hlt) hkind'⟩

/-- Every condition of an accepted card has a contract form. -/
lemma supported_of_accepted (d : Doubles) (h : Accepted r) :
    (r.conditions.map (toCoreConditions d)).any (·.unsupported) = false := by
  rw [List.any_eq_false]
  intro m hm
  obtain ⟨c, hc, rfl⟩ := List.mem_map.mp hm
  have hgte := h.gte c hc
  cases hkind : c.kind <;> simp_all [toCoreConditions, oneVariant]

/-- **An accepted card that moves**, once its numbers are typed, is two rules. -/
lemma coreRulesOf_move (h : Accepted r) (hmove : r.action.kind = .moveToBestPool)
    (hwaits : waits r = false) :
    coreRulesOf d r = some
      [coreRule d r 0 (.moveSupply PoolId.A.hub PoolId.B.hub (toAmount d r.action.amount 7)),
        coreRule d r 1 (.moveSupply PoolId.B.hub PoolId.A.hub (toAmount d r.action.amount 7))] := by
  obtain ⟨i, c, hi, hc, -, -⟩ := exists_gapIndex h hmove
  have hsupported := supported_of_accepted d h
  have hne : (r.conditions.map (toCoreConditions d)).isEmpty = false := by
    cases hconds : r.conditions with
    | nil =>
      rw [hconds] at hc
      cases hc
    | cons => rfl
  simp only [coreRulesOf, hwaits, hsupported, hne, hmove, hi]
  rfl

/-- Only cards that move have rules that do, and only once their numbers are typed. -/
lemma move_of_coreRulesOf {cs : List Core.Rule} {cr : Core.Rule} {fromHub toHub : ℕ}
    {amt : Core.Amount} (hcs : coreRulesOf d r = some cs) (hcr : cr ∈ cs)
    (hact : cr.action = .moveSupply fromHub toHub amt) :
    r.action.kind = .moveToBestPool ∧ waits r = false := by
  simp only [coreRulesOf] at hcs
  split_ifs at hcs with hwaits hsupported hmove hgap hgap'
  · exact ⟨beq_iff_eq.mp hmove, by simpa using hwaits⟩
  · exfalso
    cases hkind : r.action.kind with
    | moveToBestPool =>
      rw [hkind] at hmove
      exact hmove rfl
    | repayFromWallet | withdrawToWallet | withdrawToToken =>
      rw [hkind] at hcs
      obtain rfl := Option.some.inj hcs
      obtain ⟨hub, -, rfl⟩ := List.mem_map.mp hcr
      cases hact
    | supplyFromWallet | sellToken | buyToken =>
      rw [hkind] at hcs
      obtain rfl := Option.some.inj hcs
      obtain rfl := List.mem_singleton.mp hcr
      cases hact

/-! ## What the conditions of a card say -/

/-- A condition that no state satisfies: a token price under a level that rounds to zero. -/
def neverHolds (d : Doubles) (c : Condition) : Bool :=
  c.kind == .tokenPrice && c.comparator == .lte && d.scale c.value.toRat 100000000 == 0

/-- The level of a token price. -/
lemma bigInt_toPrice (d : Doubles) (usd : ℚ) :
    bigInt (toPrice d usd) = d.scale usd 100000000 * 1000000 := by
  have hdigits : (toString (d.scale usd 100000000)).toList =
      Nat.toDigits 10 (d.scale usd 100000000) := Nat.toList_repr
  have hzeros : "000000".toList = List.replicate 6 '0' := by decide
  rw [bigInt, toPrice, String.toList_append, Nat.ofDigitChars_append, hdigits,
    Nat.ofDigitChars_ten_toDigits, hzeros, Nat.ofDigitChars_replicate_zero]
  omega

/-- The first reading of a condition other than a rate gap is one contract condition, of another
kind, and can be encoded. -/
lemma readings_zero {c : Condition} (hgap : c.kind ≠ .rateGap) : ∃ cc rc,
    readings d c 0 = [cc] ∧ encodeCondition cc = some rc ∧
      (∀ overHub underHub bps, rc ≠ .supplyRateGap overHub underHub bps) ∧
      ∀ t level, rc = .tokenPrice t .below level →
        c.kind = .tokenPrice ∧ c.comparator = .lte ∧
          level = (d.scale c.value.toRat 100000000 * 1000000 : ℕ) := by
  cases hkind : c.kind with
  | rateGap => exact absurd hkind hgap
  | poolRate =>
    refine ⟨_, _, by rw [readings, toCoreConditions, hkind]; rfl, rfl, by simp, by simp⟩
  | healthFactor =>
    refine ⟨_, _, by rw [readings, toCoreConditions, hkind]; rfl, rfl, by simp, by simp⟩
  | fxPrice =>
    refine ⟨_, _, by rw [readings, toCoreConditions, hkind]; rfl, rfl, by simp, by simp⟩
  | idleUsdc =>
    refine ⟨_, _, by rw [readings, toCoreConditions, hkind]; rfl, rfl, by simp, by simp⟩
  | tokenPrice =>
    refine ⟨_, _, by rw [readings, toCoreConditions, hkind]; rfl, rfl, by simp, ?_⟩
    intro t level h
    injection h with ht hcmp hlevel
    refine ⟨rfl, ?_, ?_⟩
    · cases hc : c.comparator with
      | lte => rfl
      | gte =>
        rw [hc] at hcmp
        cases hcmp
    · rw [← hlevel, bigInt_toPrice]
  | tokenBalance =>
    refine ⟨_, _, by rw [readings, toCoreConditions, hkind]; rfl, rfl, by simp, by simp⟩

/-- The rate gap of a direction: in direction 0 hub 2 pays more, in direction 1 hub 1 does. -/
def gapTowards (direction bps : ℕ) : Router.Condition :=
  if direction = 0 then .supplyRateGap PoolId.B.hub PoolId.A.hub bps
  else .supplyRateGap PoolId.A.hub PoolId.B.hub bps

/-- A rate gap reads as the gap of each direction. -/
lemma readings_gap {c : Condition} (hkind : c.kind = .rateGap) (hgte : c.comparator = .gte)
    {direction : ℕ} (hdirection : direction ≤ 1) : ∃ cc bps, readings d c direction = [cc] ∧
      1 ≤ bps ∧ encodeCondition cc = some (gapTowards direction bps) := by
  have hbps : 1 ≤ toBps d c.value.toRat := by
    rw [toBps]
    omega
  interval_cases direction
  · refine ⟨.supplyRateGap PoolId.B.hub PoolId.A.hub (toBps d c.value.toRat), _, ?_, hbps, rfl⟩
    simp [readings, toCoreConditions, hkind, hgte]
  · refine ⟨.supplyRateGap PoolId.A.hub PoolId.B.hub (toBps d c.value.toRat), _, ?_, hbps, rfl⟩
    simp [readings, toCoreConditions, hkind, hgte]

/-- A condition that never holds does not hold. -/
lemma not_holds_of_neverHolds {c : Condition} {cc : Core.Condition} {rc : Router.Condition}
    {rd : Reads} {user : Address} {accountId : ℕ} (h : neverHolds d c = true)
    (hcc : cc ∈ readings d c 0) (henc : encodeCondition cc = some rc) :
    (rd.evaluate user accountId rc).holds = false := by
  simp only [neverHolds, Bool.and_eq_true, beq_iff_eq] at h
  obtain ⟨⟨hkind, hcmp⟩, hzero⟩ := h
  obtain ⟨token, hread⟩ : ∃ token, readings d c 0 =
      [.tokenPrice token .below (toPrice d c.value.toRat)] := by
    refine ⟨(tokenBySymbol (tokenOf c.token)).id, ?_⟩
    simp [readings, toCoreConditions, hkind, hcmp, oneVariant, Comparator.cmp]
  rw [hread] at hcc
  obtain rfl := List.mem_singleton.mp hcc
  obtain rfl := Option.some.inj henc
  rw [bigInt_toPrice, hzero]
  simp only [Reads.evaluate]
  split
  · next p decimals hprice =>
    have hpos := rd.price_pos hprice
    show decide (p < ((0 * 1000000 : ℕ) : ℤ)) = false
    exact decide_eq_false (by omega)
  · rfl

/-- The state in which hub 2 pays `v` more than any other. -/
def gapReads (v : ℤ) : Reads :=
  { flatReads 0 with
    e :=
      { (flatReads 0).e with
        getDepositRate := fun _ k => if k.hubId = PoolId.B.hub then v else 0 } }

/-- Any other condition of an accepted card holds, in its first reading, in some state where hub 1
does not pay more. -/
lemma exists_reads {c : Condition} (hgte : c.kind = .rateGap → c.comparator = .gte)
    (hnever : neverHolds d c = false) (user : Address) (accountId : ℕ) :
    ∃ (rd : Reads) (cc : Core.Condition) (rc : Router.Condition), cc ∈ readings d c 0 ∧
      encodeCondition cc = some rc ∧ (rd.evaluate user accountId rc).holds = true ∧
      rd.depositRate PoolId.A.hub ≤ rd.depositRate PoolId.B.hub := by
  by_cases hkind : c.kind = .rateGap
  · obtain ⟨cc, bps, hread, -, henc⟩ := readings_gap (d := d) hkind (hgte hkind) zero_le_one
    have hrate : (0 : ℤ) ≤ bps * Router.BPS_RAY := mul_nonneg (by omega) (by decide)
    refine ⟨gapReads (bps * Router.BPS_RAY), cc, _, ?_, henc, ?_, hrate⟩
    · rw [hread]
      exact List.mem_singleton.mpr rfl
    · show decide ((bps : ℤ) * Router.BPS_RAY - 0 ≥ bps * Router.BPS_RAY) = true
      rw [sub_zero]
      exact decide_eq_true le_rfl
  · obtain ⟨cc, rc, hread, henc, hgap, hprice⟩ := readings_zero (d := d) hkind
    obtain ⟨v, hv⟩ := exists_level user accountId hgap fun t level hrc => by
      obtain ⟨htoken, hcmp, hlevel⟩ := hprice t level hrc
      have hscale : d.scale c.value.toRat 100000000 ≠ 0 := by
        intro hzero
        rw [neverHolds, htoken, hcmp, hzero] at hnever
        cases hnever
      omega
    refine ⟨flatReads v, cc, rc, ?_, henc, hv, le_refl v⟩
    rw [hread]
    exact List.mem_singleton.mpr rfl

/-! ## The direction of a move -/

/-- A card's rate gap decides its moves: it is joined with all the other conditions, or none of
the others ever holds. -/
def GapDecides (d : Doubles) (r : Rule) : Prop :=
  r.matching = .all ∨ ∀ i c, r.conditions[i]? = some c → some i ≠ gapIndex r →
    neverHolds d c = true

/-- Every contract condition of an accepted card that moves can be encoded. -/
lemma encodes_conditionsFor (h : Accepted r) (hmove : r.action.kind = .moveToBestPool)
    {direction : ℕ} (hdirection : direction ≤ 1) :
    ∀ cc ∈ conditionsFor d r direction, ∃ rc, encodeCondition cc = some rc := by
  intro cc hcc
  obtain ⟨i, c, hc, hcc⟩ := mem_conditionsFor_iff.mp hcc
  have hmem : c ∈ r.conditions := List.mem_of_getElem? hc
  by_cases hkind : c.kind = .rateGap
  · have hle : (if some i = gapIndex r then direction else 0) ≤ 1 := by
      split_ifs
      · exact hdirection
      · exact zero_le_one
    obtain ⟨cc', bps, hread, -, henc⟩ := readings_gap (d := d) hkind (h.gte c hmem hkind) hle
    rw [hread] at hcc
    obtain rfl := List.mem_singleton.mp hcc
    exact ⟨_, henc⟩
  · obtain ⟨j, g, hj, hg, hgkind, -⟩ := exists_gapIndex h hmove
    have hne : some i ≠ gapIndex r := by
      rw [hj]
      intro hij
      obtain rfl := Option.some.inj hij
      rw [hg] at hc
      obtain rfl := Option.some.inj hc
      exact hkind hgkind
    rw [if_neg hne] at hcc
    obtain ⟨cc', rc, hread, henc, -, -⟩ := readings_zero (d := d) hkind
    rw [hread] at hcc
    obtain rfl := List.mem_singleton.mp hcc
    exact ⟨rc, henc⟩

/-- **Where the gap decides**, a rule of the card holds only with the rate gap of its direction. -/
lemma gapTowards_of_holds (h : Accepted r) (hmove : r.action.kind = .moveToBestPool)
    (hdecides : GapDecides d r) {direction : ℕ} (hdirection : direction ≤ 1) {act : Core.Action}
    {r' : Router.Rule} (henc : encodeRule (coreRule d r direction act) = some r') {rd : Reads}
    {user : Address} {accountId : ℕ} (hholds : (rd.evaluateRule user accountId r').1 = true) :
    ∃ bps, 1 ≤ bps ∧ (rd.evaluate user accountId (gapTowards direction bps)).holds = true := by
  obtain ⟨j, g, hj, hg, hkind, hgte⟩ := exists_gapIndex h hmove
  obtain ⟨gc, bps, hread, hbps, hgc⟩ := readings_gap (d := d) hkind hgte hdirection
  refine ⟨bps, hbps, ?_⟩
  have hgap : gapTowards direction bps ∈ r'.conditions := by
    refine (Core.mem_conditions_iff henc).mpr ⟨gc, mem_conditionsFor_iff.mpr ⟨j, g, hg, ?_⟩, hgc⟩
    rw [if_pos hj.symm, hread]
    exact List.mem_singleton.mpr rfl
  have hmatch : r'.matchAll = (r.matching == .all) := (Core.encodeRule_eq_some henc).2.1
  rw [Reads.evaluateRule_iff, hmatch] at hholds
  cases hm : r.matching with
  | all =>
    rw [hm] at hholds
    exact hholds _ hgap
  | any =>
    rw [hm] at hholds
    obtain ⟨rc, hrc, hrch⟩ := hholds
    obtain ⟨cc, hcc, hcenc⟩ := (Core.mem_conditions_iff henc).mp hrc
    obtain ⟨i, c, hc, hcc⟩ := mem_conditionsFor_iff.mp hcc
    by_cases hij : some i = gapIndex r
    · rw [if_pos hij] at hcc
      rw [hj] at hij
      obtain rfl := Option.some.inj hij
      rw [hg] at hc
      obtain rfl := Option.some.inj hc
      rw [hread] at hcc
      obtain rfl := List.mem_singleton.mp hcc
      obtain rfl := Option.some.inj (hgc.symm.trans hcenc)
      exact hrch
    · rw [if_neg hij] at hcc
      have hnever : neverHolds d c = true := by
        rcases hdecides with hall | hothers
        · rw [hm] at hall
          cases hall
        · exact hothers i c hc hij
      rw [not_holds_of_neverHolds hnever hcc hcenc] at hrch
      cases hrch

/-- In every state in which the router says that a move of the cards holds, the hub that it moves
to pays more than the hub that it leaves. -/
def NeverToWorse (d : Doubles) (rules : List Rule) : Prop :=
  ∀ accountId, ∀ cr ∈ (toCoreAutopilot d rules accountId).autopilot.rules, ∀ r',
    encodeRule cr = some r' → ∀ fromHub toHub amt, r'.action = .moveSupply fromHub toHub amt →
    ∀ (rd : Reads) user, (rd.evaluateRule user accountId r').1 = true →
      rd.depositRate fromHub < rd.depositRate toHub

/-- The move of a contract rule is the move of its encoding. -/
lemma move_of_encodeRule {cr : Core.Rule} {r' : Router.Rule} (henc : encodeRule cr = some r')
    {fromHub toHub : ℕ} {amt : Router.Amount} (h : r'.action = .moveSupply fromHub toHub amt) :
    ∃ amt', cr.action = .moveSupply fromHub toHub amt' := by
  rw [(Core.encodeRule_eq_some henc).2.2] at h
  cases hact : cr.action <;> rw [hact] at h <;> cases h
  exact ⟨_, rfl⟩

/-- **Moving to the better hub.** Accepted cards never move to a hub that does not pay more
exactly when the rate gap decides the moves of every enabled card that moves and whose numbers are
typed: it joins its conditions with all, or has beside its first rate gap no condition that ever
holds.

**Proof sketch.** A card is two rules, one for each direction, that differ in the reading of the
first gap. When the gap decides, a rule that holds has the gap of its own direction
(`gapTowards_of_holds`). Otherwise some other condition can hold alone while hub 1 does not pay
more (`exists_reads`), and the rule of direction 1 moves to hub 1. -/
theorem neverToWorse_iff {d : Doubles} {rules : List Rule}
    (h : ∀ r ∈ rules, pairingProblem r = none) : NeverToWorse d rules ↔
      ∀ r ∈ rules, r.enabled = true → r.action.kind = .moveToBestPool → waits r = false →
        GapDecides d r := by
  constructor
  · intro hnever r hr henabled hmove hwaits
    have haccepted := accepted_of_pairingProblem (h r hr)
    by_contra hno
    rw [GapDecides] at hno
    push Not at hno
    obtain ⟨hany, i, c, hc, hi, hcan⟩ := hno
    have hrules := coreRulesOf_move (d := d) haccepted hmove hwaits
    obtain ⟨r', henc⟩ := Core.exists_encodeRule (r := coreRule d r 1
      (.moveSupply PoolId.B.hub PoolId.A.hub (toAmount d r.action.amount 7)))
      (encodes_conditionsFor haccepted hmove le_rfl)
    have hmem : coreRule d r 1
        (.moveSupply PoolId.B.hub PoolId.A.hub (toAmount d r.action.amount 7)) ∈
          (toCoreAutopilot d rules 0).autopilot.rules :=
      mem_toCoreAutopilot_iff.mpr
        ⟨r, hr, henabled, _, hrules, List.mem_cons_of_mem _ (List.mem_singleton.mpr rfl)⟩
    obtain ⟨rd, cc, rc, hcc, hcenc, hholds, hrates⟩ := exists_reads
      (haccepted.gte c (List.mem_of_getElem? hc)) (Bool.eq_false_iff.mpr hcan) "" 0
    obtain ⟨-, hmatch, haction⟩ := Core.encodeRule_eq_some henc
    have hrule : (rd.evaluateRule "" 0 r').1 = true := by
      rw [Reads.evaluateRule_iff, hmatch]
      have hne : (r.matching == .all) = false := beq_eq_false_iff_ne.mpr hany
      show if (r.matching == .all) = true then _ else _
      rw [hne]
      refine ⟨rc, (Core.mem_conditions_iff henc).mpr ⟨cc, ?_, hcenc⟩, hholds⟩
      refine mem_conditionsFor_iff.mpr ⟨i, c, hc, ?_⟩
      rw [if_neg hi]
      exact hcc
    have hlt := hnever 0 _ hmem r' henc _ _ _ haction rd "" hrule
    exact absurd hlt (not_lt.mpr hrates)
  · intro hdecides accountId cr hcr r' henc fromHub toHub amt hact rd user hholds
    obtain ⟨r, hr, henabled, cs, hcs, hmem⟩ := mem_toCoreAutopilot_iff.mp hcr
    obtain ⟨amt', hcact⟩ := move_of_encodeRule henc hact
    obtain ⟨hmove, hwaits⟩ := move_of_coreRulesOf hcs hmem hcact
    have haccepted := accepted_of_pairingProblem (h r hr)
    have hgap := hdecides r hr henabled hmove hwaits
    obtain rfl := Option.some.inj ((coreRulesOf_move haccepted hmove hwaits).symm.trans hcs)
    rcases List.mem_pair.mp hmem with rfl | rfl
    · obtain ⟨bps, hbps, hheld⟩ :=
        gapTowards_of_holds haccepted hmove hgap zero_le_one henc hholds
      cases hcact
      exact lt_of_supplyRateGap hbps hheld
    · obtain ⟨bps, hbps, hheld⟩ := gapTowards_of_holds haccepted hmove hgap le_rfl henc hholds
      cases hcact
      exact lt_of_supplyRateGap hbps hheld

/-- Arithmetic that rounds nothing, as doubles do on the numbers below. -/
def exactDoubles : Doubles := ⟨id, id⟩

/-- Move everything to the better hub when it pays a point more and, or else, when 10 USDC are
idle. -/
def bestPoolCard (matching : Match) : Rule where
  id := "best"
  conditions := [⟨.rateGap, .gte, .fin 1, none, none⟩, ⟨.idleUsdc, .gte, .fin 10, none, none⟩]
  matching := matching
  action := ⟨.moveToBestPool, .all, none, none⟩
  cooldownSec := .fin 3600
  enabled := true

/-- Joined with all, the card moves only to the better hub. -/
theorem neverToWorse_bestPoolCard : NeverToWorse exactDoubles [bestPoolCard .all] := by
  have hpairing : ∀ r ∈ [bestPoolCard .all], pairingProblem r = none := by
    intro r hr
    obtain rfl := List.mem_singleton.mp hr
    decide
  refine (neverToWorse_iff hpairing).mpr ?_
  intro r hr _ _ _
  obtain rfl := List.mem_singleton.mp hr
  exact .inl rfl

/-- Hub 1 pays 5 % and hub 2 pays 4 %; the wallet has 10 USDC. -/
def idleReads : Reads :=
  { flatReads 100000000 with
    e :=
      { (flatReads 100000000).e with
        getDepositRate := fun _ k =>
          if k.hubId = 1 then 500 * Router.BPS_RAY else 400 * Router.BPS_RAY } }

/-- Joined with any, the card is accepted and valid, and with 10 USDC idle the router says that its
move from hub 1 to hub 2 holds while hub 2 pays less. -/
theorem neverToWorse_anyCard :
    pairingProblem (bestPoolCard .any) = none ∧
      Core.validateAutopilot (toCoreAutopilot exactDoubles [bestPoolCard .any] 12).autopilot = [] ∧
      ¬ NeverToWorse exactDoubles [bestPoolCard .any] := by
  refine ⟨by decide, by decide +kernel, ?_⟩
  intro hnever
  let r' : Router.Rule :=
    ⟨[.supplyRateGap 2 1 100, .idleBalance .atOrAbove 100000000], false, .moveSupply 1 2 .all, 720⟩
  have hmem : (coreRule exactDoubles (bestPoolCard .any) 0 (.moveSupply 1 2 .all)) ∈
      (toCoreAutopilot exactDoubles [bestPoolCard .any] 12).autopilot.rules := List.mem_cons_self
  have henc : encodeRule (coreRule exactDoubles (bestPoolCard .any) 0 (.moveSupply 1 2 .all)) =
      some r' := by decide +kernel
  have hlt := hnever 12 _ hmem r' henc 1 2 .all rfl idleReads "wallet" (by decide)
  exact absurd hlt (by decide)

end Koul.Web
