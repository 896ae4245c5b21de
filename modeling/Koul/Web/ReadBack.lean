import Koul.Web.BestPool
import Koul.Web.Fold
import Mathlib.Analysis.SpecialFunctions.Log.Basic

set_option relaxedAutoImplicit false
set_option autoImplicit false

/-!
# Reading back what was saved

A card is saved as one or two contract rules, which read alike, and the fold makes them one card
again. With exact numbers every part of a card reads back as it was, but for the levels that pass
through an inverse or a logarithm and are rounded on both ways. Cards that read alike and stand
side by side become one.

## Main definitions

* `Koul.Web.Rule.Representable` — a card whose numbers have the decimals that the contract keeps.
* `Koul.Web.ReadDoubles.Exact` — exact arithmetic, and rates converted by the real functions.
* `Koul.Web.KeepsCards` — each card reads back as it was, and no two neighbours are alike.

## Main results

* `Koul.Web.shapes_coreRulesOf` — the contract rules of a card all read as the card does.
* `Koul.Web.readBack_iff` — when the cards saved are the cards read back.
-/

namespace Koul.Web

open Koul.Core (bigInt bigInt_repr)

/-! ## Cards that the contract can hold -/

/-- A number with so many decimals, where `scale` is a power of ten. -/
def HasDecimals (value : Number) (scale : ℚ) : Prop := ∃ n : ℕ, value = .fin (n / scale)

/-- A condition with a pool or a token exactly when it reads one, and a level with the decimals of
its kind. The level of a rate can be any. -/
structure Condition.Representable (c : Condition) : Prop where
  pool : c.pool.isSome = true ↔ c.kind = .poolRate
  token : c.token.isSome = true ↔ c.kind = .tokenPrice ∨ c.kind = .tokenBalance
  finite : c.value.isFinite = true
  two : c.kind = .healthFactor ∨ c.kind = .fxPrice ∨ c.kind = .rateGap → HasDecimals c.value 100
  four : c.kind = .tokenPrice → HasDecimals c.value 10000
  seven : c.kind = .idleUsdc ∨ c.kind = .tokenBalance → HasDecimals c.value 10000000

/-- A fixed amount with seven decimals, or a share of 1 to 99 percent. -/
def ActionAmount.Representable : ActionAmount → Prop
  | .all => True
  | .fixed value => HasDecimals value 10000000
  | .share percent => ∃ n : ℕ, percent = .fin n ∧ 1 ≤ n ∧ n ≤ 99

structure Action.Representable (a : Action) : Prop where
  pool : a.pool.isSome = true ↔ a.kind = .supplyFromWallet
  token : a.token.isSome = true ↔
    a.kind = .sellToken ∨ a.kind = .buyToken ∨ a.kind = .withdrawToToken
  amount : a.amount.Representable

/-- A card whose values the contract can hold, with a cooldown of whole ledgers. -/
structure Rule.Representable (r : Rule) : Prop where
  conditions : ∀ c ∈ r.conditions, c.Representable
  action : r.action.Representable
  cooldown : ∃ n : ℕ, r.cooldownSec = .fin (5 * n)

/-! ## Exact numbers -/

/-- Arithmetic that rounds nothing, and the conversion of rates by the real functions, as far as
the rounding to a basis point or to two decimals shows. -/
structure ReadDoubles.Exact (d : ReadDoubles) : Prop where
  fl : ∀ q, d.fl q = q
  log1p : ∀ q : ℚ, 0 ≤ q →
    mathRound (d.log1p q * 10000) = ⌊Real.log (1 + q) * 10000 + 1 / 2⌋
  expm1 : ∀ q : ℚ, 0 ≤ q →
    mathRound (d.expm1 q * 10000) = ⌊(Real.exp q - 1) * 10000 + 1 / 2⌋

/-- The USD/TRY level that a level reads back as: the price of a lira is its inverse, rounded to
14 decimals, and the inverse of that is rounded to two. -/
def fxReading (v : ℚ) : ℚ :=
  mathRound (100000000000000 / (mathRound (100000000000000 / v) : ℚ) * 100) / 100

/-- The basis points of the simple rate that compounds to a rate in percent. -/
noncomputable def apyBps (v : ℚ) : ℤ := max 1 ⌊Real.log (1 + v / 100) * 10000 + 1 / 2⌋

/-- The rate that a rate reads back as, rounded to two decimals. -/
noncomputable def apyReading (v : ℚ) : ℚ :=
  ⌊(Real.exp (apyBps v / 10000) - 1) * 10000 + 1 / 2⌋ / 100

/-- The level that a condition's level reads back as. -/
noncomputable def levelReading (c : Condition) : ℚ :=
  match c.kind with
  | .fxPrice => fxReading c.value.toRat
  | .poolRate => apyReading c.value.toRat
  | _ => c.value.toRat

/-- What a condition reads back as. -/
noncomputable def Condition.read (c : Condition) : Condition :=
  { c with value := .fin (levelReading c) }

lemma mathRound_intCast (n : ℤ) : mathRound n = n := by
  rw [mathRound, Int.floor_eq_iff]
  constructor <;> norm_num

lemma mathRound_natCast (n : ℕ) : mathRound n = n := mathRound_intCast n

section Exact

variable {d : ReadDoubles} (hd : d.Exact)
include hd

lemma scale_eq {q factor : ℚ} {n : ℕ} (h : q * factor = n) : d.scale q factor = n := by
  rw [Doubles.scale, hd.fl, h, mathRound_natCast, Int.toNat_natCast]

lemma number_toString (n : ℕ) : number d (toString n) = n := by
  rw [number, hd.fl, bigInt_repr]

lemma toFixed_eq {x scale : ℚ} {n : ℕ} (h : x * scale = n) : toFixed d x scale = n / scale := by
  rw [toFixed, hd.fl, h, mathRound_natCast, Int.cast_natCast]

end Exact

/-! ## Conditions -/

/-- A number with zeros written after it. -/
lemma bigInt_append_zeros (n k : ℕ) (zeros : String)
    (hzeros : zeros.toList = List.replicate k '0') :
    bigInt (toString n ++ zeros) = n * 10 ^ k := by
  have hdigits : (toString n).toList = Nat.toDigits 10 n := Nat.toList_repr
  rw [bigInt, String.toList_append, Nat.ofDigitChars_append, hdigits,
    Nat.ofDigitChars_ten_toDigits, hzeros, Nat.ofDigitChars_replicate_zero, Nat.mul_comm]

@[simp] lemma ofCmp_cmp (c : Comparator) : ofCmp c.cmp = c := by cases c <;> rfl

@[simp] lemma ofFlipped_flipped (c : Comparator) : ofFlipped c.flipped = c := by cases c <;> rfl

@[simp] lemma poolByHub_hub (p : PoolId) : poolByHub p.hub = p := by cases p <;> rfl

/-- A token is found by its id. -/
@[simp] lemma tokenById_id (t : TokenSymbol) : tokenById (tokenBySymbol t).id = some t := by
  cases t <;> decide +kernel

/-- The decimals of a token: seven or eight. -/
lemma decimals_eq (t : TokenSymbol) :
    (tokenBySymbol t).decimals = 7 ∨ (tokenBySymbol t).decimals = 8 := by
  cases t <;> decide

section Exact

variable {d : ReadDoubles} (hd : d.Exact)
include hd

/-- Base units, read back in whole ones. -/
lemma number_toUnits {q : ℚ} {n : ℕ} (hq : q = n / 10000000) {decimals : ℕ}
    (hdecimals : decimals = 7 ∨ decimals = 8) :
    number d (toUnits d.toDoubles q decimals) / (10 ^ decimals : ℕ) = q := by
  have hscale : d.scale q 10000000 = n := scale_eq hd (by rw [hq]; ring)
  rw [toUnits, hscale, number_toString hd, hq]
  rcases hdecimals with rfl | rfl
  · norm_num
  · push_cast
    norm_num
    ring

/-- A value read back to the decimals that it has. -/
lemma toFixed_self {n : ℕ} {scale : ℚ} (hscale : scale ≠ 0) :
    toFixed d (n / scale) scale = n / scale :=
  toFixed_eq hd (div_mul_cancel₀ (n : ℚ) hscale)

/-- The basis points of a rate gap. -/
lemma toBps_gap {n : ℕ} (hpos : 0 < (n / 100 : ℚ)) :
    ((toBps d.toDoubles (n / 100) : ℕ) / 100 : ℚ) = n / 100 := by
  have hn : 1 ≤ n := by
    rcases Nat.eq_zero_or_pos n with rfl | hn
    · norm_num at hpos
    · exact hn
  have hexact : (n / 100 * 100 : ℚ) = n := by ring
  have hbps : toBps d.toDoubles (n / 100) = n := by
    rw [toBps, hd.fl, hexact, mathRound_natCast]
    omega
  rw [hbps]

/-- The basis points that a rate is saved as. -/
lemma toBps_apyToApr {v : ℚ} (hv : 0 ≤ v) :
    (toBps d.toDoubles (apyToApr d.toDoubles v) : ℤ) = apyBps v := by
  have harg : d.log1p (v / 100) * 100 * 100 = d.log1p (v / 100) * 10000 := by ring
  rw [toBps, apyToApr, hd.fl, hd.fl, hd.fl, harg, hd.log1p _ (by positivity),
    Int.toNat_of_nonneg (le_trans zero_le_one (le_max_left _ _)), apyBps]
  push_cast
  rfl

/-- A saved rate reads back as the rate it is rounded to. -/
lemma toFixed_aprToApy {v : ℚ} (hv : 0 ≤ v) :
    toFixed d (aprToApy d (d.fl ((toBps d.toDoubles (apyToApr d.toDoubles v) : ℕ) / 100))) 100 =
      apyReading v := by
  have hbps := toBps_apyToApr hd hv
  generalize toBps d.toDoubles (apyToApr d.toDoubles v) = bps at hbps ⊢
  have harg : d.expm1 (bps / 100 / 100) * 100 * 100 = d.expm1 (bps / 100 / 100) * 10000 := by
    ring
  have hreal : (((bps : ℚ) / 100 / 100 : ℚ) : ℝ) = apyBps v / 10000 := by
    rw [← hbps]
    push_cast
    ring
  rw [toFixed, aprToApy, hd.fl, hd.fl, hd.fl, hd.fl, harg, hd.expm1 _ (by positivity), hreal,
    apyReading]

/-- A saved USD/TRY level reads back as the level it is rounded to. -/
lemma toFixed_usdPerTry {v : ℚ} (hv : 0 < v) :
    toFixed d (usdPerTryToTryPerUsd d (bigInt (toString (tryPerUsdToUsdPerTry d.toDoubles v))))
      100 = fxReading v := by
  have hnonneg : 0 ≤ mathRound (100000000000000 / v) := by
    refine Int.floor_nonneg.mpr ?_
    positivity
  have hlevel : ((tryPerUsdToUsdPerTry d.toDoubles v : ℕ) : ℚ) =
      (mathRound (100000000000000 / v) : ℤ) := by
    rw [tryPerUsdToUsdPerTry, hd.fl]
    exact_mod_cast congrArg (Int.cast (R := ℚ)) (Int.toNat_of_nonneg hnonneg)
  rw [bigInt_repr, toFixed, hd.fl, fxReading, ← hlevel, usdPerTryToTryPerUsd]
  split_ifs with h
  · rw [h]
    norm_num
  · rw [hd.fl, hd.fl]

/-- The first reading of a condition, read back. -/
lemma fromCore_readings {c : Condition} (hrep : c.Representable) (hpos : 0 < c.value.toRat)
    (hgte : c.kind = .rateGap → c.comparator = .gte) :
    (readings d.toDoubles c 0).map (fromCoreCondition d) = [c.read] := by
  obtain ⟨kind, comparator, value, pool, token⟩ := c
  have hpool := hrep.pool
  have htoken := hrep.token
  cases kind with
  | healthFactor =>
    obtain ⟨n, rfl⟩ := hrep.two (.inl rfl)
    obtain rfl : pool = none := by simpa using hpool
    obtain rfl : token = none := by simpa using htoken
    have hscale : d.scale (n / 100) 1000000 = n * 10000 :=
      scale_eq hd (by push_cast; ring)
    have hlevel : number d (toString (n * 10000) ++ "000000000000") / 1000000000000000000 =
        n / 100 := by
      rw [number, hd.fl, bigInt_append_zeros _ 12 _ (by decide)]
      push_cast
      ring
    show [fromCoreCondition d (.healthFactor comparator.cmp
      (toString (d.scale (n / 100) 1000000) ++ "000000000000"))] = _
    rw [hscale, fromCoreCondition, hd.fl, hlevel, toFixed_self hd (by norm_num), ofCmp_cmp]
    rfl
  | fxPrice =>
    obtain ⟨n, rfl⟩ := hrep.two (.inr (.inl rfl))
    obtain rfl : pool = none := by simpa using hpool
    obtain rfl : token = none := by simpa using htoken
    show [fromCoreCondition d (.fxPrice "TRY" comparator.flipped
      (toString (tryPerUsdToUsdPerTry d.toDoubles (n / 100))) (toString MAX_PRICE_AGE_SECS))] = _
    rw [fromCoreCondition, ofFlipped_flipped, toFixed_usdPerTry hd (v := n / 100) hpos]
    rfl
  | rateGap =>
    obtain ⟨n, rfl⟩ := hrep.two (.inr (.inr rfl))
    obtain rfl : pool = none := by simpa using hpool
    obtain rfl : token = none := by simpa using htoken
    obtain rfl : comparator = .gte := hgte rfl
    show [fromCoreCondition d (.supplyRateGap PoolId.B.hub PoolId.A.hub
      (toBps d.toDoubles (n / 100)))] = _
    rw [fromCoreCondition, hd.fl, toBps_gap hd hpos]
    rfl
  | poolRate =>
    obtain ⟨p, rfl⟩ : ∃ p, pool = some p := Option.isSome_iff_exists.mp (by simpa using hpool)
    obtain rfl : token = none := by simpa using htoken
    obtain ⟨q, rfl⟩ : ∃ q, value = .fin q := by
      have hfinite := hrep.finite
      cases value with
      | fin q => exact ⟨q, rfl⟩
      | _ => cases hfinite
    show [fromCoreCondition d (.supplyRate p.hub comparator.cmp
      (toBps d.toDoubles (apyToApr d.toDoubles q)))] = _
    rw [fromCoreCondition, toFixed_aprToApy hd (v := q) (le_of_lt hpos), ofCmp_cmp, poolByHub_hub]
    rfl
  | idleUsdc =>
    obtain ⟨n, rfl⟩ := hrep.seven (.inl rfl)
    obtain rfl : pool = none := by simpa using hpool
    obtain rfl : token = none := by simpa using htoken
    have hunits := number_toUnits hd (q := n / 10000000) rfl (.inl rfl)
    show [fromCoreCondition d (.idleBalance comparator.cmp
      (toUnits d.toDoubles (n / 10000000) 7))] = _
    have hseven : ((10 ^ 7 : ℕ) : ℚ) = 10000000 := by norm_num
    rw [hseven] at hunits
    rw [fromCoreCondition, hd.fl, ofCmp_cmp, hunits]
    rfl
  | tokenPrice =>
    obtain ⟨n, rfl⟩ := hrep.four rfl
    obtain rfl : pool = none := by simpa using hpool
    obtain ⟨t, rfl⟩ : ∃ t, token = some t := Option.isSome_iff_exists.mp (by simpa using htoken)
    have hscale : d.scale (n / 10000) 100000000 = n * 10000 :=
      scale_eq hd (by push_cast; ring)
    have hlevel : number d (toPrice d.toDoubles (n / 10000)) / 100000000000000 = n / 10000 := by
      rw [number, hd.fl, bigInt_toPrice, hscale]
      push_cast
      ring
    show [fromCoreCondition d (.tokenPrice (tokenBySymbol t).id comparator.cmp
      (toPrice d.toDoubles (n / 10000)))] = _
    rw [fromCoreCondition, hd.fl, hlevel, toFixed_self hd (by norm_num), ofCmp_cmp, tokenById_id]
    rfl
  | tokenBalance =>
    obtain ⟨n, rfl⟩ := hrep.seven (.inr rfl)
    obtain rfl : pool = none := by simpa using hpool
    obtain ⟨t, rfl⟩ : ∃ t, token = some t := Option.isSome_iff_exists.mp (by simpa using htoken)
    have hunits := number_toUnits hd (q := n / 10000000) rfl (decimals_eq t)
    show [fromCoreCondition d (.tokenBalance (tokenBySymbol t).id comparator.cmp
      (toUnits d.toDoubles (n / 10000000) (tokenBySymbol t).decimals))] = _
    simp only [fromCoreCondition, hd.fl, ofCmp_cmp, tokenById_id, Option.elim_some, hunits,
      Option.getD_some]
    rfl

/-- A rate gap reads back alike in the other direction. -/
lemma fromCore_readings_one {c : Condition} (hrep : c.Representable) (hpos : 0 < c.value.toRat)
    (hkind : c.kind = .rateGap) (hgte : c.comparator = .gte) :
    (readings d.toDoubles c 1).map (fromCoreCondition d) = [c.read] := by
  have hzero := fromCore_readings hd hrep hpos fun _ => hgte
  have hone : (readings d.toDoubles c 1).map (fromCoreCondition d) =
      (readings d.toDoubles c 0).map (fromCoreCondition d) := by
    simp [readings, toCoreConditions, hkind, hgte, fromCoreCondition]
  rw [hone, hzero]

end Exact

/-! ## Cards -/

/-- The levels of an accepted card. -/
lemma value_pos {r : Rule} (h : Accepted r) {c : Condition} (hc : c ∈ r.conditions)
    (hfinite : c.value.isFinite = true) : 0 < c.value.toRat := by
  have hgt := h.positive c hc
  cases hvalue : c.value with
  | fin q =>
    rw [hvalue] at hgt
    exact of_decide_eq_true hgt
  | _ =>
    rw [hvalue] at hfinite
    cases hfinite

section Exact

variable {d : ReadDoubles} (hd : d.Exact)
include hd

/-- The conditions of a card in either direction, read back. -/
lemma fromCore_conditionsFor {r : Rule} (haccepted : Accepted r) (hrep : r.Representable)
    {direction : ℕ} (hdirection : direction ≤ 1) :
    (conditionsFor d.toDoubles r direction).map (fromCoreCondition d) =
      r.conditions.map (·.read) := by
  have hitems : ((r.conditions.map (toCoreConditions d.toDoubles)).mapIdx fun i m =>
      (if some i = gapIndex r then m.variants[direction]? else m.variants[0]?).getD []).map
        (List.map (fromCoreCondition d)) = r.conditions.map fun c => [c.read] := by
    refine List.ext_getElem (by simp) fun i hi hi' => ?_
    simp only [List.getElem_mapIdx, List.getElem_map]
    have hlt : i < r.conditions.length := by simpa using hi
    have hmem : r.conditions[i] ∈ r.conditions := List.getElem_mem _
    have hc := hrep.conditions _ hmem
    have hpos := value_pos haccepted hmem hc.finite
    have hgte := haccepted.gte _ hmem
    split_ifs with hgap
    · have hkind : r.conditions[i].kind = .rateGap := by
        obtain ⟨_, hkind, -⟩ := List.findIdx?_eq_some_iff_getElem.mp hgap.symm
        exact beq_iff_eq.mp hkind
      interval_cases direction
      · exact fromCore_readings hd hc hpos hgte
      · exact fromCore_readings_one hd hc hpos hkind (hgte hkind)
    · exact fromCore_readings hd hc hpos hgte
  rw [conditionsFor, List.map_flatten, hitems, ← List.flatMap_def, List.map_eq_flatMap]

/-- An amount reads back as it was. -/
lemma fromAmount_toAmount {a : ActionAmount} (h : a.Representable) {decimals : ℕ}
    (hdecimals : decimals = 7 ∨ decimals = 8) :
    fromAmount d (toAmount d.toDoubles a decimals) decimals = a := by
  cases a with
  | all => rfl
  | fixed value =>
    obtain ⟨n, rfl⟩ := h
    rw [toAmount, fromAmount, hd.fl]
    exact congrArg (fun q => ActionAmount.fixed (.fin q)) (number_toUnits hd rfl hdecimals)
  | share percent =>
    obtain ⟨n, rfl, hlo, hhi⟩ := h
    have hbps : shareBps d.toDoubles (.fin n) = n * 100 := by
      have hexact : (n * 100 : ℚ) = (n * 100 : ℕ) := by push_cast; rfl
      rw [shareBps, hd.fl, hexact, mathRound_natCast]
      omega
    have hpercent : max 1 ((mathRound ((n * 100 : ℕ) / 100) : ℤ) : ℚ) = n := by
      have hexact : ((n * 100 : ℕ) / 100 : ℚ) = n := by push_cast; ring
      rw [hexact, mathRound_natCast, Int.cast_natCast]
      exact max_eq_right (by exact_mod_cast hlo)
    have hlt : ¬ n * 100 ≥ 10000 := by omega
    rw [toAmount, hbps, fromAmount, if_neg hlt, hd.fl, hpercent]

end Exact

/-- How many contract rules a card has beyond the first. -/
def extraRules (r : Rule) : ℕ :=
  match r.action.kind with
  | .moveToBestPool | .repayFromWallet | .withdrawToWallet | .withdrawToToken => 1
  | _ => 0

/-- What a card reads back as. -/
noncomputable def readShape (d : ReadDoubles) (r : Rule) : Shape :=
  ⟨r.action.kind, r.conditions.map (·.read), r.action.amount, r.matching == .all,
    toLedgers d.toDoubles r.cooldownSec, r.action.pool, r.action.token⟩

/-- A fixed amount of an accepted card is positive. -/
lemma amount_pos {r : Rule} (h : pairingProblem r = none) {value : Number}
    (hamount : r.action.amount = .fixed value) : value.gt 0 = true := by
  have hge : value.ge 1 = true → value.gt 0 = true := by
    intro hge
    cases value with
    | fin q =>
      have hq : (1 : ℚ) ≤ q := of_decide_eq_true hge
      exact decide_eq_true (lt_of_lt_of_le one_pos hq)
    | inf negative => exact hge
    | nan => cases hge
  simp only [pairingProblem] at h
  split_ifs at h with hmoves hother hgte hpositive hbuys hsell hother
  by_cases hkind : r.action.kind = .sellToken
  · simpa [hkind, hamount, ActionAmount.fixedFails] using hsell
  · exact hge (by simpa [hkind, hamount, ActionAmount.fixedFails, MIN_AMOUNT_USDC] using hother)

/-- No number of a representable card is still being typed. -/
lemma waits_eq_false {r : Rule} (h : pairingProblem r = none) (hrep : r.Representable) :
    waits r = false := by
  have hconditions : (r.conditions.any fun c => !c.value.isFinite || c.value.le 0) = false := by
    rw [List.any_eq_false]
    intro c hc
    have hfinite := (hrep.conditions c hc).finite
    have hpos := value_pos (accepted_of_pairingProblem h) hc hfinite
    cases hvalue : c.value with
    | fin q =>
      rw [hvalue] at hpos
      have hle : ¬ q ≤ 0 := not_le.mpr hpos
      simp [Number.isFinite, Number.le, hle]
    | _ =>
      rw [hvalue] at hfinite
      cases hfinite
  have hamount := hrep.action.amount
  rw [waits, hconditions, Bool.or_false]
  cases hamt : r.action.amount with
  | all => rfl
  | share percent => rfl
  | fixed value =>
    rw [hamt] at hamount
    obtain ⟨n, rfl⟩ := hamount
    simp [Number.isFinite, amount_pos h hamt]

/-- The contract actions of a card, each with its direction. -/
def coreActions (d : Doubles) (r : Rule) : List (ℕ × Core.Action) :=
  let amount := toAmount d r.action.amount 7
  let token := tokenBySymbol (tokenOf r.action.token)
  match r.action.kind with
  | .moveToBestPool =>
    [(0, .moveSupply PoolId.A.hub PoolId.B.hub amount),
      (1, .moveSupply PoolId.B.hub PoolId.A.hub amount)]
  | .repayFromWallet =>
    [(0, .repayFromWallet PoolId.A.hub amount), (0, .repayFromWallet PoolId.B.hub amount)]
  | .withdrawToWallet =>
    [(0, .withdrawToWallet PoolId.A.hub amount), (0, .withdrawToWallet PoolId.B.hub amount)]
  | .supplyFromWallet => [(0, .supplyFromWallet (r.action.pool.getD .B).hub amount)]
  | .sellToken =>
    [(0, .swapFromWallet token.id usdc (toAmount d r.action.amount token.decimals)
      SWAP_SLIPPAGE_BPS)]
  | .buyToken => [(0, .swapFromWallet usdc token.id amount SWAP_SLIPPAGE_BPS)]
  | .withdrawToToken =>
    [(0, .withdrawAndSwap PoolId.A.hub token.id amount SWAP_SLIPPAGE_BPS),
      (0, .withdrawAndSwap PoolId.B.hub token.id amount SWAP_SLIPPAGE_BPS)]

lemma length_coreActions (d : Doubles) (r : Rule) :
    (coreActions d r).length = extraRules r + 1 := by
  rw [coreActions, extraRules]
  cases r.action.kind <;> rfl

/-- An accepted card with conditions is the contract rules of its actions. -/
lemma coreRulesOf_eq {d : Doubles} {r : Rule} (haccepted : Accepted r) (hwaits : waits r = false)
    (hne : r.conditions ≠ []) :
    coreRulesOf d r = some ((coreActions d r).map fun a => coreRule d r a.1 a.2) := by
  by_cases hmove : r.action.kind = .moveToBestPool
  · rw [coreRulesOf_move haccepted hmove hwaits, coreActions, hmove]
    rfl
  · have hsupported := supported_of_accepted d haccepted
    have hempty : (r.conditions.map (toCoreConditions d)).isEmpty = false := by
      rwa [List.isEmpty_eq_false_iff, Ne, List.map_eq_nil_iff]
    have hgap : gapIndex r = none := by
      have hany : r.conditions.any (·.kind == .rateGap) = false := by
        rw [haccepted.gap]
        exact beq_false_of_ne hmove
      rw [gapIndex, ← Option.not_isSome_iff_eq_none, List.findIdx?_isSome, hany]
      decide
    simp only [coreRulesOf, coreActions, hwaits, hsupported, hempty, hgap]
    cases hkind : r.action.kind with
    | moveToBestPool => exact absurd hkind hmove
    | _ => rfl

/-- A token is not the router's asset. -/
lemma id_ne_usdc (t : TokenSymbol) : (tokenBySymbol t).id ≠ usdc := by
  cases t <;> decide +kernel

section Exact

variable {d : ReadDoubles} (hd : d.Exact)
include hd

/-- The contract actions of a card read as the card's. -/
lemma reads_coreActions {r : Rule} (hrep : r.action.Representable) :
    ∀ a ∈ coreActions d.toDoubles r, a.1 ≤ 1 ∧ (actionOf a.2).kind = r.action.kind ∧
      (actionOf a.2).token = r.action.token ∧ poolOf a.2 = r.action.pool ∧
      fromAmount d a.2.amount (actionOf a.2).decimals = r.action.amount := by
  have hamount := fromAmount_toAmount hd hrep.amount (.inl rfl)
  obtain ⟨id, conditions, matching, ⟨kind, amount, pool, token⟩, cooldownSec, enabled⟩ := r
  have hpool := hrep.pool
  have htoken := hrep.token
  simp only [coreActions]
  cases kind with
  | moveToBestPool | repayFromWallet | withdrawToWallet =>
    obtain rfl : pool = none := by simpa using hpool
    obtain rfl : token = none := by simpa using htoken
    simpa [actionOf, poolOf, Core.Action.amount] using hamount
  | supplyFromWallet =>
    obtain ⟨p, rfl⟩ : ∃ p, pool = some p := Option.isSome_iff_exists.mp (by simpa using hpool)
    obtain rfl : token = none := by simpa using htoken
    simpa [actionOf, poolOf, Core.Action.amount] using hamount
  | sellToken =>
    obtain rfl : pool = none := by simpa using hpool
    obtain ⟨t, rfl⟩ : ∃ t, token = some t := Option.isSome_iff_exists.mp (by simpa using htoken)
    have hdecimals := fromAmount_toAmount hd hrep.amount (decimals_eq t)
    simpa [actionOf, poolOf, Core.Action.amount, tokenOf, id_ne_usdc] using hdecimals
  | buyToken | withdrawToToken =>
    obtain rfl : pool = none := by simpa using hpool
    obtain ⟨t, rfl⟩ : ∃ t, token = some t := Option.isSome_iff_exists.mp (by simpa using htoken)
    simpa [actionOf, poolOf, Core.Action.amount, tokenOf] using hamount

/-- **The contract rules of a card** all read as the card does. -/
theorem shapes_coreRulesOf {r : Rule} (hpairing : pairingProblem r = none)
    (hrep : r.Representable) (hne : r.conditions ≠ []) :
    ∃ cs, coreRulesOf d.toDoubles r = some cs ∧
      cs.map (shapeOf d) = List.replicate (extraRules r + 1) (readShape d r) := by
  have haccepted := accepted_of_pairingProblem hpairing
  refine ⟨_, coreRulesOf_eq haccepted (waits_eq_false hpairing hrep) hne, ?_⟩
  rw [← length_coreActions d.toDoubles r, List.map_map, ← List.map_const']
  refine List.map_congr_left fun a ha => ?_
  obtain ⟨hdirection, hkind, htoken, hpool, hamount⟩ := reads_coreActions hd hrep.action a ha
  simp only [Function.comp_apply, shapeOf, readShape, coreRule, hkind, htoken, hamount, hpool,
    fromCore_conditionsFor hd haccepted hrep hdirection]

end Exact

/-! ## Autopilots -/

/-- The contract rules and the rule ids of the cards. -/
lemma foldl_addRule (d : Doubles) (rules : List Rule) (m : CoreMapping) :
    let m' := rules.foldl (addRule d) m
    m'.autopilot = ⟨m.autopilot.accountId, m.autopilot.rules ++
      rules.flatMap fun r => if r.enabled then (coreRulesOf d r).getD [] else []⟩ ∧
    m'.ruleIds = m.ruleIds ++
      rules.flatMap fun r => if r.enabled then ((coreRulesOf d r).getD []).map fun _ => r.id
        else [] := by
  induction rules generalizing m with
  | nil => simp
  | cons r rules ih =>
    have hstep : (addRule d m r).autopilot = ⟨m.autopilot.accountId, m.autopilot.rules ++
          if r.enabled then (coreRulesOf d r).getD [] else []⟩ ∧
        (addRule d m r).ruleIds = m.ruleIds ++
          if r.enabled then ((coreRulesOf d r).getD []).map fun _ => r.id else [] := by
      rw [addRule]
      cases r.enabled with
      | false => simp
      | true => cases coreRulesOf d r <;> simp
    obtain ⟨hautopilot, hids⟩ := ih (addRule d m r)
    rw [hstep.1] at hautopilot
    rw [hstep.2] at hids
    simp only [List.foldl_cons, List.flatMap_cons, hautopilot, hids, List.append_assoc, and_self]

/-- The autopilot saved depends on the cards up to their ids. -/
lemma autopilot_congr (d : Doubles) {rules rules' : List Rule} (accountId : ℕ)
    (h : rules.map (·.unnamed) = rules'.map (·.unnamed)) :
    (toCoreAutopilot d rules accountId).autopilot =
      (toCoreAutopilot d rules' accountId).autopilot := by
  have hrules : ∀ l : List Rule,
      (l.flatMap fun r => if r.enabled then (coreRulesOf d r).getD [] else []) =
        (l.map (·.unnamed)).flatMap fun r =>
          if r.enabled then (coreRulesOf d r).getD [] else [] := by
    intro l
    rw [List.flatMap_map]
    rfl
  rw [toCoreAutopilot, toCoreAutopilot, (foldl_addRule d rules _).1, (foldl_addRule d rules' _).1,
    hrules rules, hrules rules', h]

/-- A card without conditions is left out. -/
lemma coreRulesOf_nil {d : Doubles} {r : Rule} (h : r.conditions = []) :
    coreRulesOf d r = none := by
  simp only [coreRulesOf, h, List.map_nil, List.any_nil, List.isEmpty_nil, Bool.false_or, if_true]
  split_ifs <;> rfl

/-- A level that reads back as it was: only one of USD/TRY and one of a rate may not. -/
structure Condition.LevelKept (c : Condition) : Prop where
  fxPrice : c.kind = .fxPrice → fxReading c.value.toRat = c.value.toRat
  poolRate : c.kind = .poolRate → apyReading c.value.toRat = c.value.toRat

/-- A card that is saved and reads back as it was. -/
structure Rule.Kept (r : Rule) : Prop where
  conditions : r.conditions ≠ []
  levels : ∀ c ∈ r.conditions, c.LevelKept
  cooldown : r.cooldownSec ≠ .fin 0

/-- Every card reads back as it was, and no two neighbours are alike. -/
structure KeepsCards (rules : List Rule) : Prop where
  kept : ∀ r ∈ rules, r.Kept
  neighbours : rules.IsChain fun r s => r.unnamed ≠ s.unnamed

/-- A condition reads back as it was exactly when its level does. -/
lemma read_eq_iff {c : Condition} (hfinite : c.value.isFinite = true) :
    c.read = c ↔ c.LevelKept := by
  obtain ⟨kind, comparator, value, pool, token⟩ := c
  cases value with
  | fin q =>
    have hread : Condition.read ⟨kind, comparator, .fin q, pool, token⟩ =
        ⟨kind, comparator, .fin q, pool, token⟩ ↔
        levelReading ⟨kind, comparator, .fin q, pool, token⟩ = q := by
      simp [Condition.read]
    rw [hread]
    constructor
    · intro h
      exact ⟨fun hkind => by cases hkind; exact h, fun hkind => by cases hkind; exact h⟩
    · intro h
      cases kind with
      | fxPrice => exact h.fxPrice rfl
      | poolRate => exact h.poolRate rfl
      | _ => rfl
  | _ => cases hfinite

section Exact

variable {d : ReadDoubles} (hd : d.Exact)
include hd

/-- A card reads back as it was exactly when its levels and its cooldown do. -/
lemma cardOf_readShape_iff {r : Rule} (henabled : r.enabled = true) (hrep : r.Representable) :
    cardOf d "" (readShape d r) = r.unnamed ↔
      (∀ c ∈ r.conditions, c.LevelKept) ∧ r.cooldownSec ≠ .fin 0 := by
  obtain ⟨ruleId, conditions, matching, action, cooldownSec, enabled⟩ := r
  obtain ⟨n, rfl⟩ := hrep.cooldown
  have hledgers : toLedgers d.toDoubles (.fin (5 * n)) = max 1 n := by
    have hexact : (5 * n / LEDGER_SECONDS : ℚ) = n := by
      rw [LEDGER_SECONDS]
      ring
    rw [toLedgers, hd.fl, hexact, mathRound_natCast]
    omega
  have hcooldown : ((max 1 n : ℕ) * LEDGER_SECONDS : ℚ) = 5 * n ↔
      Number.fin (5 * n) ≠ .fin 0 := by
    rw [LEDGER_SECONDS, Ne, Number.fin.injEq]
    rcases Nat.eq_zero_or_pos n with rfl | hn
    · norm_num
    · rw [max_eq_right hn]
      have hne : (n : ℚ) ≠ 0 := Nat.cast_ne_zero.mpr hn.ne'
      simp [hne, mul_comm]
  have hconditions : conditions.map (·.read) = conditions ↔ ∀ c ∈ conditions, c.LevelKept := by
    have hmap := List.map_inj_left (l := conditions) (f := Condition.read) (g := id)
    rw [List.map_id] at hmap
    rw [hmap]
    exact forall₂_congr fun c hc => read_eq_iff (hrep.conditions c hc).finite
  have hmatching : (if (matching == .all) = true then Match.all else .any) = matching := by
    cases matching <;> rfl
  simp only at henabled
  rw [← hconditions, ← hcooldown]
  simp only [cardOf, readShape, Rule.unnamed, hledgers, hd.fl, hmatching, henabled,
    Rule.mk.injEq, true_and, and_true, Number.fin.injEq]

/-- **What is saved of a list of cards**: those with conditions, each in a block of contract rules
that read as it does and that carry its id. -/
lemma saved_eq {rules : List Rule} (henabled : ∀ r ∈ rules, r.enabled = true)
    (hpairing : ∀ r ∈ rules, pairingProblem r = none) (hrep : ∀ r ∈ rules, r.Representable)
    (accountId : ℕ) :
    let m := toCoreAutopilot d.toDoubles rules accountId
    let saved := rules.filter fun r => r.conditions ≠ []
    m.autopilot.rules.map (shapeOf d) = Stutter.blocks (readShape d) extraRules saved ∧
      m.ruleIds = saved.flatMap fun r => List.replicate (extraRules r + 1) r.id := by
  intro m saved
  have hm := foldl_addRule d.toDoubles rules ⟨⟨toString accountId, []⟩, [], []⟩
  have hrules : m.autopilot.rules = rules.flatMap fun r =>
      if r.enabled then (coreRulesOf d.toDoubles r).getD [] else [] := congrArg (·.rules) hm.1
  have hids : m.ruleIds = rules.flatMap fun r =>
      if r.enabled then ((coreRulesOf d.toDoubles r).getD []).map fun _ => r.id else [] := hm.2
  rw [hrules, hids, Stutter.blocks]
  clear hm hrules hids m
  induction rules with
  | nil => exact ⟨rfl, rfl⟩
  | cons r rules ih =>
    obtain ⟨hr, henabled⟩ := List.forall_mem_cons.mp henabled
    obtain ⟨hrpair, hpairing⟩ := List.forall_mem_cons.mp hpairing
    obtain ⟨hrrep, hrep⟩ := List.forall_mem_cons.mp hrep
    obtain ⟨hshapes, hids⟩ := ih henabled hpairing hrep
    by_cases hne : r.conditions = []
    · have hsaved : saved = rules.filter fun r => r.conditions ≠ [] :=
        List.filter_cons_of_neg (by simpa using hne)
      rw [hsaved]
      simp only [List.flatMap_cons, coreRulesOf_nil hne, hr, if_true, Option.getD_none,
        List.map_nil, List.nil_append]
      exact ⟨hshapes, hids⟩
    · have hsaved : saved = r :: rules.filter fun r => r.conditions ≠ [] :=
        List.filter_cons_of_pos (by simpa using hne)
      obtain ⟨cs, hcs, hread⟩ := shapes_coreRulesOf hd hrpair hrrep hne
      have hruleIds : (cs.map fun _ => r.id) = List.replicate (extraRules r + 1) r.id := by
        rw [List.map_const', ← List.length_map (f := shapeOf d), hread, List.length_replicate]
      rw [hsaved]
      simp only [List.flatMap_cons, hcs, hr, if_true, Option.getD_some, List.map_append, hread,
        hshapes, hids, hruleIds, and_self]

/-- **Saved cards read back as they were**, each contract rule maps to the card whose id it
carries, and saving them again stores the same, exactly when every card is kept and no two
neighbours are alike.
**Proof sketch.** The contract rules of a card read alike, so the shapes that are folded are
blocks, one for each card; the fold keeps the shapes without their repetitions. With no two
neighbours alike nothing is merged. The other way round, as many cards come back as were given, so
none was left out and none merged, and each is the reading of the one in its place. -/
theorem readBack_iff {rules : List Rule} (henabled : ∀ r ∈ rules, r.enabled = true)
    (hpairing : ∀ r ∈ rules, pairingProblem r = none) (hrep : ∀ r ∈ rules, r.Representable)
    (fxOn : Bool) (accountId : ℕ) :
    let m := toCoreAutopilot d.toDoubles rules accountId
    let f := foldCoreRules d fxOn m.autopilot
    (f.rules.map (·.toRule.unnamed) = rules.map (·.unnamed) ∧
      f.contractToUi.map (fun i => rules[i]?.map (·.id)) = m.ruleIds.map some ∧
      (toCoreAutopilot d.toDoubles (f.rules.map (·.toRule)) accountId).autopilot =
        m.autopilot) ↔ KeepsCards rules := by
  intro m f
  obtain ⟨hui, hcards⟩ := foldCoreRules_spec (d := d) fxOn m.autopilot
  obtain ⟨hshapes, hids⟩ := saved_eq hd henabled hpairing hrep accountId
  rw [hshapes] at hui hcards
  rw [Stutter.heads_blocks] at hcards
  have hcard : ∀ r ∈ rules, cardOf d "" (readShape d r) = r.unnamed ↔
      (∀ c ∈ r.conditions, c.LevelKept) ∧ r.cooldownSec ≠ .fin 0 := fun r hr =>
    cardOf_readShape_iff hd (henabled r hr) (hrep r hr)
  constructor
  · rintro ⟨hsame, -, -⟩
    rw [hcards] at hsame
    set saved := rules.filter fun r => r.conditions ≠ [] with hsaved
    have hsub : saved.Sublist rules := List.filter_sublist
    have hstutter := (saved.map (readShape d)).destutter_sublist (· ≠ ·)
    have hlength : ((saved.map (readShape d)).destutter (· ≠ ·)).length = rules.length := by
      rw [← List.length_map (f := cardOf d ""), hsame, List.length_map]
    have hle := hstutter.length_le
    rw [List.length_map] at hle
    have hall : saved = rules := hsub.eq_of_length (by have := hsub.length_le; omega)
    have hkept : (rules.map (readShape d)).destutter (· ≠ ·) = rules.map (readShape d) := by
      rw [hall] at hstutter hlength
      exact hstutter.eq_of_length (by rw [hlength, List.length_map])
    have hchain := (List.isChain_map _).mp ((List.destutter_eq_self_iff _ _).mp hkept)
    rw [hall, hkept, List.map_map, List.map_inj_left] at hsame
    refine ⟨fun r hr => ?_, hchain.imp fun r s hne heq => hne ?_⟩
    · have hr' : r ∈ saved := hall ▸ hr
      obtain ⟨hlevels, hcooldown⟩ := (hcard r hr).mp (hsame r hr)
      exact ⟨by simpa using (List.mem_filter.mp hr').2, hlevels, hcooldown⟩
    · show readShape d r.unnamed = readShape d s.unnamed
      rw [heq]
  · intro h
    have hsaved : (rules.filter fun r => r.conditions ≠ []) = rules :=
      List.filter_eq_self.mpr fun r hr => by simpa using (h.kept r hr).conditions
    have hread : ∀ r ∈ rules, cardOf d "" (readShape d r) = r.unnamed := fun r hr =>
      (hcard r hr).mpr ⟨(h.kept r hr).levels, (h.kept r hr).cooldown⟩
    have hchain : (rules.map (readShape d)).IsChain (· ≠ ·) := by
      rw [List.isChain_map]
      refine h.neighbours.imp_of_mem_imp fun r s hr hs hne heq => hne ?_
      rw [← hread r hr, ← hread s hs, heq]
    rw [hsaved] at hui hcards hids
    rw [List.destutter_of_isChain _ _ hchain, List.map_map] at hcards
    have hsame : f.rules.map (·.toRule.unnamed) = rules.map (·.unnamed) :=
      hcards.trans (List.map_congr_left hread)
    rw [Stutter.runOf_blocks _ _ _ hchain] at hui
    refine ⟨hsame, ?_, ?_⟩
    · have hindex : ∀ b ∈ rules.zipIdx, rules[b.2]? = some b.1 := fun b hb =>
        List.mem_zipIdx_iff_getElem?.mp hb
      have hfst : rules = rules.zipIdx.map Prod.fst := (List.zipIdx_map_fst 0 rules).symm
      have hright : (rules.flatMap fun r => List.replicate (extraRules r + 1) r.id) =
          rules.zipIdx.flatMap fun b => List.replicate (extraRules b.1 + 1) b.1.id := by
        conv_lhs => rw [hfst, List.flatMap_map]
      rw [hui, hids, hright, List.map_flatMap, List.map_flatMap]
      refine List.flatMap_congr fun b hb => ?_
      rw [List.map_replicate, List.map_replicate, hindex b hb, Option.map_some]
    · refine autopilot_congr _ _ ?_
      rw [List.map_map]
      exact hsame

end Exact

/-- Exact arithmetic, with rates that are converted to a hundredth of a basis point. -/
noncomputable def realDoubles : ReadDoubles where
  fl := id
  log1p q := ⌊Real.log (1 + q) * 10000 + 1 / 2⌋ / 10000
  expm1 q := ⌊(Real.exp q - 1) * 10000 + 1 / 2⌋ / 10000

lemma realDoubles_exact : realDoubles.Exact where
  fl _ := rfl
  log1p q _ := by
    rw [realDoubles, div_mul_cancel₀ _ (by norm_num), mathRound_intCast]
  expm1 q _ := by
    rw [realDoubles, div_mul_cancel₀ _ (by norm_num), mathRound_intCast]

/-- Put 10 idle USDC or more into the second pool, at most once in so many ledgers. -/
def idleCard (ruleId : String) (ledgers : ℕ) : Rule where
  id := ruleId
  conditions := [⟨.idleUsdc, .gte, .fin 10, none, none⟩]
  matching := .all
  action := ⟨.supplyFromWallet, .all, some .B, none⟩
  cooldownSec := .fin (5 * ledgers)
  enabled := true

lemma idleCard_representable (ruleId : String) (ledgers : ℕ) :
    (idleCard ruleId ledgers).Representable where
  conditions := by
    intro c hc
    obtain rfl := List.mem_singleton.mp hc
    exact ⟨by decide, by decide, rfl, by simp, by simp, fun _ => ⟨100000000, by norm_num⟩⟩
  action := ⟨by simp [idleCard], by simp [idleCard], trivial⟩
  cooldown := ⟨ledgers, rfl⟩

/-- Two cards that are not alike read back as they were. -/
theorem readBack_idleCards :
    let rules := [idleCard "put" 1, idleCard "later" 12]
    let m := toCoreAutopilot realDoubles.toDoubles rules 12
    let f := foldCoreRules realDoubles false m.autopilot
    f.rules.map (·.toRule.unnamed) = rules.map (·.unnamed) ∧
      f.contractToUi.map (fun i => rules[i]?.map (·.id)) = m.ruleIds.map some ∧
      (toCoreAutopilot realDoubles.toDoubles (f.rules.map (·.toRule)) 12).autopilot =
        m.autopilot := by
  intro rules
  have hrep : ∀ r ∈ rules, r.Representable :=
    List.forall_mem_cons.mpr ⟨idleCard_representable "put" 1,
      List.forall_mem_singleton.mpr (idleCard_representable "later" 12)⟩
  have hkept : ∀ r ∈ rules, r.Kept := by
    have hlevel : (⟨.idleUsdc, .gte, .fin 10, none, none⟩ : Condition).LevelKept :=
      ⟨(fun h => by cases h), fun h => by cases h⟩
    refine List.forall_mem_cons.mpr ⟨?_, List.forall_mem_singleton.mpr ?_⟩
    · exact ⟨by decide, List.forall_mem_singleton.mpr hlevel, by decide +kernel⟩
    · exact ⟨by decide, List.forall_mem_singleton.mpr hlevel, by decide +kernel⟩
  have henabled : ∀ r ∈ rules, r.enabled = true := by decide
  exact (readBack_iff realDoubles_exact henabled (by decide) hrep false 12).mpr
    ⟨hkept, by decide +kernel⟩

/-- **Two cards alike**, side by side, come back as one, and both contract rules map to it. -/
theorem readBack_twinCards :
    let rules := [idleCard "one" 1, idleCard "two" 1]
    let m := toCoreAutopilot realDoubles.toDoubles rules 12
    let f := foldCoreRules realDoubles false m.autopilot
    (∀ r ∈ rules, r.enabled = true ∧ pairingProblem r = none ∧ r.Representable) ∧
      m.ruleIds = ["one", "two"] ∧ f.rules.length = 1 ∧ f.contractToUi = [0, 0] := by
  refine ⟨?_, by decide +kernel, by decide +kernel, by decide +kernel⟩
  exact List.forall_mem_cons.mpr ⟨⟨rfl, by decide, idleCard_representable "one" 1⟩,
    List.forall_mem_singleton.mpr ⟨rfl, by decide, idleCard_representable "two" 1⟩⟩

end Koul.Web
