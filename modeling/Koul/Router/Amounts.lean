import Koul.Lib.Grain
import Mathlib.Tactic.Linarith
import Koul.Router.Types

set_option relaxedAutoImplicit false
set_option autoImplicit false

/-!
# The router's arithmetic

The amount functions of `koul_router`: snapping to 0.01 USDC, what can leave a hub, resolving an
`Amount` against its base, cooldowns, staleness, and the oracle value of a swap. Machine
division truncates (`Int.tdiv`, `Int.tmod`); overflow of `i128`, which panics, is left out here.

## Main definitions

* `Koul.Router.floorGrain`, `ceilGrain`, `withdrawable`, `resolve`, `swapFloor`.

## Main results

* `Koul.Router.withdrawable_spec` — what is withdrawable is covered by the position, by the
  hub's cash less a grain, and by the pool's utilisation ceiling.
* `Koul.Router.withdrawable_tight` — and nothing more than two grains above it could leave.
* `Koul.Router.resolve_le_of_pos`, `Koul.Router.dvd_resolve` — a resolved amount is a multiple of the
  grain within its base.
* `Koul.Router.want_le` — before snapping, an amount is at most a nonnegative base.
-/

namespace Koul.Router

def RAY : ℤ := 1000000000000000000000000000

def BPS_RAY : ℤ := RAY.tdiv 10000

/-- Every amount passed to the controller is snapped to 0.01 USDC. -/
def GRAIN : ℤ := 100000

/-- Moves below 1 USDC are ignored. -/
def MIN_MOVE : ℤ := 10000000

def MAX_RULES : ℕ := 32

def MAX_CONDITIONS : ℕ := 3

/-- Prices are USD with 14 decimals. -/
def PRICE_ONE : ℤ := 100000000000000

def MAX_SLIPPAGE_BPS : ℕ := 2000

def floorGrain (x : ℤ) : ℤ := if x ≤ 0 then 0 else x - x.tmod GRAIN

def ceilGrain (x : ℤ) : ℤ :=
  if x ≤ 0 then 0 else if x.tmod GRAIN = 0 then x else x - x.tmod GRAIN + GRAIN

/-- The pool's utilisation ceiling `borrowed / (supplied - w) ≤ maxUtilization` as a cap on `w`. -/
def utilCap (cash supplied borrowed maxUtilization : ℤ) : ℤ :=
  if borrowed ≤ 0 ∨ maxUtilization ≥ RAY ∨ maxUtilization ≤ 0 then cash
  else supplied - ((borrowed * RAY).tdiv maxUtilization + 1)

/-- What can actually leave a hub now: the position snapped down, capped by the hub's liquid
cash and by the pool's utilisation ceiling, minus one grain of margin. -/
def withdrawable (collateral cash supplied borrowed maxUtilization : ℤ) : ℤ :=
  let util := utilCap cash supplied borrowed maxUtilization
  let cap := floorGrain (if util < cash then util else cash) - GRAIN
  let c := floorGrain collateral
  if c < cap then c else if cap > 0 then cap else 0

def holds (cmp : Cmp) (value level : ℤ) : Bool :=
  match cmp with
  | .below => value < level
  | .atOrAbove => value ≥ level

/-- The `match` on an amount that `resolve` and the wallet swap of `plan` both spell out. -/
def want (amount : Amount) (base : ℤ) : ℤ :=
  match amount with
  | .all => base
  | .percent bps => base.tdiv 10000 * bps + (base.tmod 10000 * bps).tdiv 10000
  | .fixed x => if x < base then x else base

/-- Resolve an `Amount` against its base, snapped down to the grain and never above the base. -/
def resolve (amount : Amount) (base : ℤ) : ℤ :=
  floorGrain (if want amount base < base then want amount base else base)

def ready (lastFired now cooldownLedgers : ℕ) : Bool :=
  lastFired == 0 || now - lastFired ≥ cooldownLedgers

def isStale (now ts maxAge : ℕ) : Bool := now - ts > maxAge

def pow10 (n : ℕ) : ℤ := 10 ^ n

/-- USD value of `amount` base units at `price`, in 14 decimals. -/
def usdValue (amount : ℤ) (decimals : ℕ) (price : ℤ) : ℤ :=
  amount.tdiv (pow10 decimals) * price +
    (amount.tmod (pow10 decimals) * price).tdiv (pow10 decimals)

/-- The least the router accepts for `amountIn`: the oracle-implied output less the slippage. -/
def swapFloor (amountIn : ℤ) (decIn : ℕ) (priceIn : ℤ) (decOut : ℕ) (priceOut : ℤ)
    (slippageBps : ℕ) : ℤ :=
  if priceOut ≤ 0 then 0
  else
    let out := (usdValue amountIn decIn priceIn * pow10 decOut).tdiv priceOut
    out.tdiv 10000 * (10000 - slippageBps) + (out.tmod 10000 * (10000 - slippageBps)).tdiv 10000

/-! ## Snapping -/

lemma GRAIN_pos : 0 < GRAIN := by decide

lemma floorGrain_eq (x : ℤ) : floorGrain x = Grain.down GRAIN x := rfl

lemma ceilGrain_eq (x : ℤ) : ceilGrain x = Grain.up GRAIN x := rfl

lemma dvd_floorGrain (x : ℤ) : GRAIN ∣ floorGrain x := Grain.dvd_down GRAIN x

lemma floorGrain_nonneg (x : ℤ) : 0 ≤ floorGrain x := Grain.down_nonneg GRAIN_pos

lemma floorGrain_le {x : ℤ} (hx : 0 ≤ x) : floorGrain x ≤ x := Grain.down_le GRAIN_pos hx

lemma floorGrain_of_dvd {x : ℤ} (hx : 0 ≤ x) (h : GRAIN ∣ x) : floorGrain x = x :=
  Grain.down_of_dvd hx h

/-- A positive snapped amount is at most the amount itself. -/
lemma floorGrain_le_of_pos {x : ℤ} (h : 0 < floorGrain x) : floorGrain x ≤ x := by
  rcases le_or_gt x 0 with hx | hx
  · rw [floorGrain_eq, Grain.down_of_nonpos hx] at h
    omega
  · exact floorGrain_le hx.le

/-- Snapping down loses less than a grain. -/
lemma lt_floorGrain_add (x : ℤ) : x < floorGrain x + GRAIN := by
  rw [floorGrain_eq]
  exact Grain.lt_down_add GRAIN_pos

/-- The lesser of two snapped amounts is snapped. -/
lemma dvd_min {x y : ℤ} (hx : GRAIN ∣ x) (hy : GRAIN ∣ y) : GRAIN ∣ min x y := by
  rcases min_choice x y with h | h
  · rw [h]
    exact hx
  · rw [h]
    exact hy

/-! ## What can leave a hub -/

/-- An amount under the utilisation cap keeps the pool under its ceiling. -/
lemma lt_mul_of_le_utilCap {supplied borrowed mu w : ℤ} (hb : 0 < borrowed) (hmu : 0 < mu)
    (hw : w ≤ supplied - ((borrowed * RAY).tdiv mu + 1)) :
    borrowed * RAY < mu * (supplied - w) := by
  have hpos : 0 ≤ borrowed * RAY := (mul_pos hb (by decide)).le
  rw [Int.tdiv_eq_ediv_of_nonneg hpos] at hw
  have hlt : borrowed * RAY < (borrowed * RAY / mu + 1) * mu :=
    Int.lt_ediv_add_one_mul_self _ hmu
  have hle : mu * (borrowed * RAY / mu + 1) ≤ mu * (supplied - w) :=
    mul_le_mul_of_nonneg_left (by omega) hmu.le
  linarith

section Withdrawable

variable (collateral cash supplied borrowed mu : ℤ)

lemma dvd_withdrawable : GRAIN ∣ withdrawable collateral cash supplied borrowed mu := by
  have hcap : ∀ x, GRAIN ∣ floorGrain x - GRAIN := fun x =>
    dvd_sub (dvd_floorGrain x) (dvd_refl GRAIN)
  simp only [withdrawable]
  -- the position, the cap, or nothing
  split_ifs <;> first | exact dvd_floorGrain _ | exact hcap _ | exact dvd_zero GRAIN

lemma withdrawable_le_floorGrain :
    withdrawable collateral cash supplied borrowed mu ≤ floorGrain collateral := by
  simp only [withdrawable]
  have := floorGrain_nonneg collateral
  split_ifs <;> omega

/-- A positive withdrawable amount leaves one grain under both caps. -/
lemma withdrawable_add_le (h : 0 < withdrawable collateral cash supplied borrowed mu) :
    withdrawable collateral cash supplied borrowed mu + GRAIN ≤
      min (utilCap cash supplied borrowed mu) cash := by
  set u := utilCap cash supplied borrowed mu with hu
  have hmin : (if u < cash then u else cash) = min u cash := by
    rcases lt_or_ge u cash with h | h
    · rw [if_pos h, min_eq_left h.le]
    · rw [if_neg (not_lt.mpr h), min_eq_right h]
  have hcap : withdrawable collateral cash supplied borrowed mu + GRAIN ≤
      floorGrain (min u cash) := by
    simp only [withdrawable, ← hu, hmin] at h ⊢
    split_ifs at h ⊢ <;> omega
  have hpos : 0 < floorGrain (min u cash) := by
    have := GRAIN_pos
    omega
  exact hcap.trans (floorGrain_le_of_pos hpos)

/-- **What can leave a hub**: a positive withdrawable amount is within the position, leaves a
grain of the hub's cash, and keeps the pool under its utilisation ceiling. -/
theorem withdrawable_spec (h : 0 < withdrawable collateral cash supplied borrowed mu) :
    withdrawable collateral cash supplied borrowed mu ≤ collateral ∧
      withdrawable collateral cash supplied borrowed mu ≤ cash - GRAIN ∧
      (0 < borrowed → 0 < mu → mu < RAY → borrowed * RAY <
        mu * (supplied - withdrawable collateral cash supplied borrowed mu)) := by
  have hfloor := withdrawable_le_floorGrain collateral cash supplied borrowed mu
  have hcaps := withdrawable_add_le collateral cash supplied borrowed mu h
  have hcash := hcaps.trans (min_le_right _ _)
  have hutil := hcaps.trans (min_le_left _ _)
  refine ⟨hfloor.trans (floorGrain_le_of_pos (h.trans_le hfloor)), by omega, ?_⟩
  intro hb hmu hray
  have hcap : utilCap cash supplied borrowed mu =
      supplied - ((borrowed * RAY).tdiv mu + 1) := if_neg (by omega)
  have := GRAIN_pos
  exact lt_mul_of_le_utilCap hb hmu (by omega)

lemma withdrawable_nonneg : 0 ≤ withdrawable collateral cash supplied borrowed mu := by
  simp only [withdrawable]
  have := floorGrain_nonneg collateral
  split_ifs <;> omega

/-- Less than one grain of the position is left, or less than two under one of the caps. -/
lemma lt_withdrawable_add :
    collateral < withdrawable collateral cash supplied borrowed mu + GRAIN ∨
      min (utilCap cash supplied borrowed mu) cash <
        withdrawable collateral cash supplied borrowed mu + 2 * GRAIN := by
  set u := utilCap cash supplied borrowed mu with hu
  have hmin : (if u < cash then u else cash) = min u cash := by
    split_ifs <;> omega
  have hc := lt_floorGrain_add collateral
  have hcap := lt_floorGrain_add (min u cash)
  have h0 := floorGrain_nonneg collateral
  have := GRAIN_pos
  simp only [withdrawable, ← hu, hmin]
  split_ifs <;> omega

/-- An amount two past the utilisation cap puts the pool over its ceiling. -/
lemma mul_lt_of_utilCap_lt {supplied borrowed mu w : ℤ} (hb : 0 < borrowed) (hmu : 0 < mu)
    (hw : supplied - ((borrowed * RAY).tdiv mu + 1) + 1 < w) :
    mu * (supplied - w) < borrowed * RAY := by
  have hpos : 0 ≤ borrowed * RAY := (mul_pos hb (by decide)).le
  rw [Int.tdiv_eq_ediv_of_nonneg hpos] at hw
  have hle : mu * (borrowed * RAY / mu) ≤ borrowed * RAY := Int.mul_ediv_self_le hmu.ne'
  have hlt : mu * (supplied - w) < mu * (borrowed * RAY / mu) :=
    mul_lt_mul_of_pos_left (by omega) hmu
  omega

/-- **Withdrawable is safe and tight**: a multiple of the grain within the position that, when
positive, leaves a grain of cash and keeps the pool strictly under its ceiling; and nothing more
than two grains above it meets the position, the cash and the ceiling.

**Proof sketch.** The floor to the grain, the margin and the strict ceiling lose less than two
grains together: what exceeds them exceeds the position, the cash, or the cap by at least two,
and the cap is at most one under the exact ceiling. -/
theorem withdrawable_tight (hcollateral : 0 ≤ collateral) :
    0 ≤ withdrawable collateral cash supplied borrowed mu ∧
      GRAIN ∣ withdrawable collateral cash supplied borrowed mu ∧
      withdrawable collateral cash supplied borrowed mu ≤ collateral ∧
      (0 < withdrawable collateral cash supplied borrowed mu →
        withdrawable collateral cash supplied borrowed mu ≤ cash - GRAIN ∧
        (0 < borrowed → 0 < mu → mu < RAY → borrowed * RAY <
          mu * (supplied - withdrawable collateral cash supplied borrowed mu))) ∧
      ∀ w', withdrawable collateral cash supplied borrowed mu + 2 * GRAIN < w' →
        ¬ (w' ≤ collateral ∧ w' ≤ cash ∧
          (0 < borrowed → 0 < mu → mu < RAY → borrowed * RAY ≤ mu * (supplied - w'))) := by
  refine ⟨withdrawable_nonneg .., dvd_withdrawable .., ?_, fun h => ?_, ?_⟩
  · exact (withdrawable_le_floorGrain ..).trans (floorGrain_le hcollateral)
  · exact (withdrawable_spec _ _ _ _ _ h).2
  · rintro w' hw ⟨hwc, hwcash, hutil⟩
    have := GRAIN_pos
    rcases lt_withdrawable_add collateral cash supplied borrowed mu with h | h
    · omega
    · unfold utilCap at h
      split_ifs at h with hoff
      · omega
      · push Not at hoff
        -- the cash is not what binds, so the ceiling is
        have hover : mu * (supplied - w') < borrowed * RAY := by
          apply mul_lt_of_utilCap_lt hoff.1 hoff.2.2
          omega
        exact absurd (hutil hoff.1 hoff.2.2 hoff.2.1) (not_le.mpr hover)

/-- The hub of the source's test: 37.34 USDC leaves, and nothing above 37.36 could. -/
theorem withdrawable_tight_hub2 :
    withdrawable 499900441 379900000 499900441 120000441 950000000000000000000000000 =
        373400000 ∧
      ∀ w', withdrawable 499900441 379900000 499900441 120000441 950000000000000000000000000 +
          2 * GRAIN < w' →
        ¬ (w' ≤ 499900441 ∧ w' ≤ 379900000 ∧
          ((0 : ℤ) < 120000441 → (0 : ℤ) < 950000000000000000000000000 →
            950000000000000000000000000 < RAY →
            120000441 * RAY ≤ 950000000000000000000000000 * (499900441 - w'))) :=
  ⟨by decide, (withdrawable_tight _ _ _ _ _ (by decide)).2.2.2.2⟩

end Withdrawable

/-! ## Resolving an amount -/

/-- A percentage of a nonnegative base, computed in two parts, is at most the base. -/
lemma percent_le {base : ℤ} {bps : ℕ} (hbase : 0 ≤ base) (hbps : bps ≤ 10000) :
    base.tdiv 10000 * bps + (base.tmod 10000 * bps).tdiv 10000 ≤ base := by
  have hmod : 0 ≤ base % 10000 := Int.emod_nonneg _ (by decide)
  have hb : (bps : ℤ) ≤ 10000 := by exact_mod_cast hbps
  have hb0 : (0 : ℤ) ≤ bps := Int.natCast_nonneg bps
  rw [Int.tdiv_eq_ediv_of_nonneg hbase, Int.tmod_eq_emod_of_nonneg hbase,
    Int.tdiv_eq_ediv_of_nonneg (mul_nonneg hmod hb0)]
  have hq : base / 10000 * bps ≤ base / 10000 * 10000 :=
    mul_le_mul_of_nonneg_left hb (by omega)
  have hr : base % 10000 * bps ≤ base % 10000 * 10000 := mul_le_mul_of_nonneg_left hb hmod
  omega

/-- Amounts the validator accepts ask for at most 100% of their base. -/
def Amount.AtMostAll : Amount → Prop
  | .percent bps => bps ≤ 10000
  | _ => True

lemma want_le {a : Amount} {base : ℤ} (ha : a.AtMostAll) (hbase : 0 ≤ base) :
    want a base ≤ base := by
  cases a with
  | all => exact le_refl base
  | percent bps => exact percent_le hbase ha
  | fixed x =>
    simp only [want]
    split_ifs <;> omega

lemma resolve_eq (a : Amount) (base : ℤ) : resolve a base = floorGrain (min (want a base) base) := by
  rw [resolve]
  congr 1
  split_ifs <;> omega

lemma dvd_resolve (a : Amount) (base : ℤ) : GRAIN ∣ resolve a base := dvd_floorGrain _

lemma resolve_nonneg (a : Amount) (base : ℤ) : 0 ≤ resolve a base := floorGrain_nonneg _

/-- Snapping a resolved amount again changes nothing. -/
@[simp] lemma floorGrain_resolve (a : Amount) (base : ℤ) :
    floorGrain (resolve a base) = resolve a base :=
  floorGrain_of_dvd (resolve_nonneg a base) (dvd_resolve a base)

/-- A positive resolved amount is within its base, whatever the base. -/
lemma resolve_le_of_pos {a : Amount} {base : ℤ} (h : 0 < resolve a base) :
    resolve a base ≤ base := by
  rw [resolve_eq] at h ⊢
  exact (floorGrain_le_of_pos h).trans (min_le_right _ _)

/-- `All` of a snapped base is the base. -/
lemma resolve_all {base : ℤ} (hbase : 0 ≤ base) (h : GRAIN ∣ base) : resolve .all base = base := by
  rw [resolve_eq, want, min_self, floorGrain_of_dvd hbase h]

end Koul.Router
