import Koul.Lib.Checked
import Koul.Lib.TruncMul
import Koul.Router.Validation

set_option relaxedAutoImplicit false
set_option autoImplicit false

/-!
# The router's arithmetic in 128 bits

`withdrawable` and `resolve` as the contract runs them: on `i128` with overflow checks on, so
that an intermediate value that does not fit panics. `Koul.Router.withdrawable` and
`Koul.Router.resolve` are the same functions on unbounded integers.

## Main definitions

* `Koul.Router.I128.withdrawable`, `Koul.Router.I128.resolve` — the checked functions, `none`
  where they panic.
* `Koul.Router.Realistic` — a market of at most one billion USDC.
* `Koul.Router.Amount.share` — what an amount asks of its base, by the plain formula.

## Main results

* `Koul.Router.I128.withdrawable_eq` — where the loan in rays fits, the checked function is the
  exact one.
* `Koul.Router.I128.isSome_withdrawable_iff` — on a realistic market it answers exactly while at
  most 170141183460 base units are borrowed.
* `Koul.Router.I128.resolve_spec` — an accepted amount resolves against every base that fits,
  exactly, within the base and monotonically.
-/

namespace Koul.Router

/-- Rust's `i128`. -/
def i128 : Checked.Width :=
  ⟨-170141183460469231731687303715884105728, 170141183460469231731687303715884105727⟩

namespace I128

open Checked

def floorGrain (x : ℤ) : Option ℤ :=
  if x ≤ 0 then some 0
  else do
    let r ← rem i128 x GRAIN
    sub i128 x r

def utilCap (cash supplied borrowed maxUtilization : ℤ) : Option ℤ :=
  if borrowed ≤ 0 ∨ maxUtilization ≥ RAY ∨ maxUtilization ≤ 0 then some cash
  else do
    let owed ← mul i128 borrowed RAY
    let least ← div i128 owed maxUtilization
    let least ← add i128 least 1
    sub i128 supplied least

def withdrawable (collateral cash supplied borrowed maxUtilization : ℤ) : Option ℤ := do
  let util ← utilCap cash supplied borrowed maxUtilization
  let snapped ← floorGrain (if util < cash then util else cash)
  let cap ← sub i128 snapped GRAIN
  let c ← floorGrain collateral
  some (if c < cap then c else if cap > 0 then cap else 0)

def want (amount : Amount) (base : ℤ) : Option ℤ :=
  match amount with
  | .all => some base
  | .percent bps => do
    let whole ← div i128 base 10000
    let whole ← mul i128 whole bps
    let rest ← rem i128 base 10000
    let rest ← mul i128 rest bps
    let rest ← div i128 rest 10000
    add i128 whole rest
  | .fixed x => some (if x < base then x else base)

def resolve (amount : Amount) (base : ℤ) : Option ℤ := do
  let want ← want amount base
  floorGrain (if want < base then want else base)

end I128

/-- A market of at most 10^16 base units, one billion USDC at 7 decimals. -/
structure Realistic (collateral cash supplied borrowed maxUtilization : ℤ) : Prop where
  borrowed_nonneg : 0 ≤ borrowed
  borrowed_le : borrowed ≤ supplied
  supplied_le : supplied ≤ 10000000000000000
  cash_nonneg : 0 ≤ cash
  cash_le : cash ≤ 10000000000000000
  collateral_nonneg : 0 ≤ collateral
  collateral_le : collateral ≤ 10000000000000000
  util_pos : 0 < maxUtilization
  util_lt : maxUtilization < RAY

namespace I128

open Checked

lemma fits_zero : Fits i128 0 := by decide

lemma fits_iff {x : ℤ} : Fits i128 x ↔
    -170141183460469231731687303715884105728 ≤ x ∧
      x ≤ 170141183460469231731687303715884105727 := Iff.rfl

/-- Snapping down never panics. -/
lemma floorGrain_eq {x : ℤ} (h : Fits i128 x) : floorGrain x = some (Router.floorGrain x) := by
  unfold floorGrain Router.floorGrain
  split_ifs with hx
  · rfl
  · have hpos : 0 ≤ x := by omega
    have hq : Fits i128 (x.tdiv GRAIN) := fits_zero.tdiv h hpos GRAIN_pos
    have hr := Int.tmod_nonneg GRAIN hpos
    have hle : x.tmod GRAIN ≤ x := by
      have := Int.mul_tdiv_add_tmod x GRAIN
      have := mul_nonneg GRAIN_pos.le (Int.tdiv_nonneg hpos GRAIN_pos.le)
      omega
    have hs : Fits i128 (x - x.tmod GRAIN) :=
      fits_zero.of_le_of_le h (by omega) (by omega)
    rw [rem_of_fits GRAIN_pos.ne' hq]
    exact sub_of_fits hs

/-- A grain of margin under a snapped value fits. -/
lemma fits_floorGrain_sub {x : ℤ} (h : Fits i128 x) :
    Fits i128 (Router.floorGrain x - GRAIN) := by
  have hnonneg := floorGrain_nonneg x
  have hle : Router.floorGrain x ≤ max x 0 := by
    rcases hnonneg.eq_or_lt with h0 | hpos
    · omega
    · have := floorGrain_le_of_pos hpos
      omega
  rw [fits_iff] at h ⊢
  rw [show GRAIN = 100000 from rfl]
  omega

variable {collateral cash supplied borrowed mu : ℤ}

/-- A loan in rays fits while at most 17,014.118346 USDC are borrowed. -/
lemma fits_mul_RAY_iff (h : 0 ≤ borrowed) :
    Fits i128 (borrowed * RAY) ↔ borrowed ≤ 170141183460 := by
  rw [fits_iff, show RAY = 1000000000000000000000000000 from rfl]
  omega

/-- The least supply under the ceiling, of a loan that fits. -/
lemma tdiv_bounds (h : Realistic collateral cash supplied borrowed mu)
    (hle : borrowed ≤ 170141183460) :
    0 ≤ (borrowed * RAY).tdiv mu ∧
      (borrowed * RAY).tdiv mu ≤ 170141183460000000000000000000000000000 := by
  have hpos : 0 ≤ borrowed * RAY := mul_nonneg h.borrowed_nonneg (by decide)
  have hself : (borrowed * RAY).tdiv mu ≤ borrowed * RAY := Int.tdiv_le_self mu hpos
  have howed : borrowed * RAY ≤ 170141183460 * RAY := mul_le_mul_of_nonneg_right hle (by decide)
  exact ⟨Int.tdiv_nonneg hpos h.util_pos.le, (hself.trans howed).trans (by decide)⟩

/-- Once the loan in rays fits, the ceiling is computed without a panic. -/
lemma utilCap_eq (h : Realistic collateral cash supplied borrowed mu)
    (hle : borrowed ≤ 170141183460) :
    utilCap cash supplied borrowed mu = some (Router.utilCap cash supplied borrowed mu) ∧
      Fits i128 (Router.utilCap cash supplied borrowed mu) := by
  obtain ⟨hnonneg, hbound⟩ := tdiv_bounds h hle
  obtain ⟨hb, hbs, hs, hc, hc', -, -, hmu, -⟩ := h
  unfold utilCap Router.utilCap
  split_ifs with hoff
  · exact ⟨rfl, fits_iff.mpr (by omega)⟩
  · have hmul : Fits i128 (borrowed * RAY) := (fits_mul_RAY_iff hb).mpr hle
    have hdiv : Fits i128 ((borrowed * RAY).tdiv mu) := fits_iff.mpr (by omega)
    have hadd : Fits i128 ((borrowed * RAY).tdiv mu + 1) := fits_iff.mpr (by omega)
    have hsub : Fits i128 (supplied - ((borrowed * RAY).tdiv mu + 1)) := fits_iff.mpr (by omega)
    simp only [mul_of_fits hmul, div_of_fits hmu.ne' hdiv, add_of_fits hadd, sub_of_fits hsub,
      Option.bind_eq_bind, Option.bind_some]
    exact ⟨trivial, hsub⟩

/-- **The checked function is the exact one** on a realistic market whose loan in rays fits. -/
lemma withdrawable_eq (h : Realistic collateral cash supplied borrowed mu)
    (hle : borrowed ≤ 170141183460) :
    withdrawable collateral cash supplied borrowed mu =
      some (Router.withdrawable collateral cash supplied borrowed mu) := by
  obtain ⟨hutil, hfits⟩ := utilCap_eq h hle
  have hcash : Fits i128 cash := fits_iff.mpr (by have := h.cash_nonneg; have := h.cash_le; omega)
  have hcoll : Fits i128 collateral :=
    fits_iff.mpr (by have := h.collateral_nonneg; have := h.collateral_le; omega)
  set u := Router.utilCap cash supplied borrowed mu with hu
  have hcap : Fits i128 (if u < cash then u else cash) := by
    split_ifs
    · exact hfits
    · exact hcash
  have hmargin := fits_floorGrain_sub hcap
  unfold withdrawable Router.withdrawable
  simp only [hutil, floorGrain_eq hcap, sub_of_fits hmargin, floorGrain_eq hcoll, ← hu,
    Option.bind_eq_bind, Option.bind_some]

/-- **Withdrawable on a realistic market**: the contract answers exactly while the loan in rays
fits 128 bits, which is up to 17,014.118346 USDC borrowed from the hub. -/
theorem isSome_withdrawable_iff (h : Realistic collateral cash supplied borrowed mu) :
    (withdrawable collateral cash supplied borrowed mu).isSome = true ↔
      borrowed ≤ 170141183460 := by
  constructor
  · intro hsome
    by_contra hlt
    have hover : ¬ Fits i128 (borrowed * RAY) := fun hf =>
      hlt ((fits_mul_RAY_iff h.borrowed_nonneg).mp hf)
    have hpanic : utilCap cash supplied borrowed mu = none := by
      unfold utilCap
      rw [if_neg (by have := h.util_pos; have := h.util_lt; omega)]
      show (mul i128 borrowed RAY).bind _ = none
      rw [show mul i128 borrowed RAY = none from check_of_not_fits hover]
      rfl
    simp [withdrawable, hpanic] at hsome
  · intro hle
    rw [withdrawable_eq h hle]
    rfl

/-- The hub of the source's test answers. -/
theorem isSome_withdrawable_iff_hub2 :
    Realistic 499900441 379900000 499900441 120000441 950000000000000000000000000 ∧
      ((withdrawable 499900441 379900000 499900441 120000441
        950000000000000000000000000).isSome = true ↔ (120000441 : ℤ) ≤ 170141183460) :=
  have h : Realistic 499900441 379900000 499900441 120000441 950000000000000000000000000 := by
    constructor <;> decide
  ⟨h, isSome_withdrawable_iff h⟩

/-- A hub that lends 100,000 of its 200,000 USDC: every withdrawal panics. -/
theorem withdrawable_panics :
    Realistic 100000000000 1000000000000 2000000000000 1000000000000
        950000000000000000000000000 ∧
      withdrawable 100000000000 1000000000000 2000000000000 1000000000000
        950000000000000000000000000 = none := by
  constructor
  · constructor <;> decide
  · decide

/-! ## Resolving an amount -/

end I128

/-- What an amount asks of a base, by the plain formula: all of it, the floor of
`base * bps / 10000`, or a fixed amount capped at it. -/
def Amount.share (amount : Amount) (base : ℤ) : ℤ :=
  match amount with
  | .all => base
  | .percent bps => base * bps / 10000
  | .fixed x => min x base

variable {a : Amount} {base base' : ℤ}

/-- On a base that is not negative the split percentage is the plain one. -/
lemma want_eq_share (hbase : 0 ≤ base) : want a base = a.share base := by
  cases a with
  | all => rfl
  | percent bps => exact TruncMul.scale_eq hbase (Int.natCast_nonneg bps) (by decide)
  | fixed x =>
    simp only [want, Amount.share]
    split_ifs <;> omega

lemma share_nonneg (ha : amountOk a = true) (hbase : 0 ≤ base) : 0 ≤ a.share base := by
  cases a with
  | all => exact hbase
  | percent bps =>
    exact Int.ediv_nonneg (mul_nonneg hbase (Int.natCast_nonneg bps)) (by decide)
  | fixed x =>
    have hx : MIN_MOVE ≤ x := of_decide_eq_true ha
    rw [show MIN_MOVE = 10000000 from rfl] at hx
    exact le_min (by omega) hbase

/-- A larger base is asked for at least as much. -/
lemma share_mono (a : Amount) (h : base ≤ base') : a.share base ≤ a.share base' := by
  cases a with
  | all => exact h
  | percent bps =>
    exact Int.ediv_le_ediv (by decide) (mul_le_mul_of_nonneg_right h (Int.natCast_nonneg bps))
  | fixed x => exact min_le_min_left x h

/-- What an accepted amount resolves to, by the plain formula. -/
lemma resolve_eq_share (ha : amountOk a = true) (hbase : 0 ≤ base) :
    resolve a base = floorGrain (a.share base) := by
  have hle := want_le (atMostAll_of_amountOk ha) hbase
  rw [resolve_eq, min_eq_left hle, want_eq_share hbase]

lemma share_le (ha : amountOk a = true) (hbase : 0 ≤ base) : a.share base ≤ base := by
  rw [← want_eq_share hbase]
  exact want_le (atMostAll_of_amountOk ha) hbase

lemma resolve_mono (ha : amountOk a = true) (hbase : 0 ≤ base) (h : base ≤ base') :
    resolve a base ≤ resolve a base' := by
  rw [resolve_eq_share ha hbase, resolve_eq_share ha (hbase.trans h)]
  exact Grain.down_mono GRAIN_pos (share_mono a h)

namespace I128

open Checked

/-- **The percentage never overflows**: the two products and their sum stay within the base. -/
lemma want_percent {bps : ℕ} (hbps : bps ≤ 10000) (h0 : 0 ≤ base) (h : Fits i128 base) :
    want (.percent bps) base = some (Router.want (.percent bps) base) := by
  have hq0 : 0 ≤ base.tdiv 10000 := Int.tdiv_nonneg h0 (by decide)
  have hr0 : 0 ≤ base.tmod 10000 := Int.tmod_nonneg 10000 h0
  have hb : (bps : ℤ) ≤ 10000 := by exact_mod_cast hbps
  have hb0 : (0 : ℤ) ≤ bps := Int.natCast_nonneg bps
  have hw0 : 0 ≤ base.tdiv 10000 * bps := mul_nonneg hq0 hb0
  have hp0 : 0 ≤ base.tmod 10000 * bps := mul_nonneg hr0 hb0
  have hpart0 : 0 ≤ (base.tmod 10000 * bps).tdiv 10000 := Int.tdiv_nonneg hp0 (by decide)
  have hsum : base.tdiv 10000 * bps + (base.tmod 10000 * bps).tdiv 10000 ≤ base :=
    percent_le h0 hbps
  -- the remainder's product is small, whatever the base
  have hp : base.tmod 10000 * bps ≤ 10000 * 10000 := by
    have hlt : base.tmod 10000 < 10000 := Int.tmod_lt_of_pos base (by decide)
    exact mul_le_mul hlt.le hb hb0 (by decide)
  have hdiv : Fits i128 (base.tdiv 10000) := fits_zero.tdiv h h0 (by decide)
  have hwhole : Fits i128 (base.tdiv 10000 * bps) := fits_zero.of_le_of_le h hw0 (by omega)
  have hrest : Fits i128 (base.tmod 10000 * bps) := fits_iff.mpr (by omega)
  have hpart : Fits i128 ((base.tmod 10000 * bps).tdiv 10000) :=
    fits_zero.tdiv hrest hp0 (by decide)
  have hadd : Fits i128 (base.tdiv 10000 * bps + (base.tmod 10000 * bps).tdiv 10000) :=
    fits_zero.of_le_of_le h (add_nonneg hw0 hpart0) hsum
  have hne : (10000 : ℤ) ≠ 0 := by decide
  simp only [want, Router.want, div_of_fits hne hdiv, mul_of_fits hwhole, rem_of_fits hne hdiv,
    mul_of_fits hrest, div_of_fits hne hpart, add_of_fits hadd, Option.bind_eq_bind,
    Option.bind_some]

/-- **The checked `resolve` is the exact one** on an accepted amount and a base that fits. -/
lemma resolve_eq (ha : amountOk a = true) (h0 : 0 ≤ base) (h : Fits i128 base) :
    resolve a base = some (Router.resolve a base) := by
  have hall := atMostAll_of_amountOk ha
  have hwant : want a base = some (Router.want a base) := by
    cases a with
    | all => rfl
    | percent bps => exact want_percent hall h0 h
    | fixed x => rfl
  have hshare : Fits i128 (Router.want a base) :=
    fits_zero.of_le_of_le h (by rw [want_eq_share h0]; exact share_nonneg ha h0) (want_le hall h0)
  have hcap : Fits i128 (if Router.want a base < base then Router.want a base else base) := by
    split_ifs
    · exact hshare
    · exact h
  simp only [resolve, Router.resolve, hwant, floorGrain_eq hcap, Option.bind_eq_bind,
    Option.bind_some]

/-- **Resolving an accepted amount**: against every base that fits 128 bits nothing overflows, and
what comes out is a multiple of the grain within the base, the amount's plain formula snapped
down, and at least what a smaller base gives. -/
theorem resolve_spec (ha : amountOk a = true) (h0 : 0 ≤ base) (h : base ≤ i128.greatest) :
    ∃ r, resolve a base = some r ∧ GRAIN ∣ r ∧ 0 ≤ r ∧ r ≤ base ∧
      floorGrain (a.share base) = some r ∧
      ∀ base', 0 ≤ base' → base' ≤ base → ∃ r', resolve a base' = some r' ∧ r' ≤ r := by
  have hfits : ∀ x, 0 ≤ x → x ≤ base → Fits i128 x := fun x hx hxb =>
    ⟨le_trans (by decide) hx, hxb.trans h⟩
  have hbase := hfits base h0 le_rfl
  have hshare : Fits i128 (a.share base) := hfits _ (share_nonneg ha h0) (share_le ha h0)
  refine ⟨Router.resolve a base, resolve_eq ha h0 hbase, dvd_resolve a base, resolve_nonneg a base,
    ?_, ?_, ?_⟩
  · rw [resolve_eq_share ha h0]
    exact (floorGrain_le (share_nonneg ha h0)).trans (share_le ha h0)
  · rw [floorGrain_eq hshare, resolve_eq_share ha h0]
  · intro base' h0' hle
    exact ⟨_, resolve_eq ha h0' (hfits base' h0' hle), resolve_mono ha h0' hle⟩

/-- A third of the largest base there is. -/
theorem resolve_spec_third :
    amountOk (.percent 3333) = true ∧
      ∃ r, resolve (.percent 3333) i128.greatest = some r ∧ GRAIN ∣ r ∧ 0 ≤ r ∧
        r ≤ i128.greatest ∧ floorGrain (Amount.share (.percent 3333) i128.greatest) = some r ∧
        ∀ base', 0 ≤ base' → base' ≤ i128.greatest →
          ∃ r', resolve (.percent 3333) base' = some r' ∧ r' ≤ r :=
  ⟨by decide, resolve_spec (by decide) (by decide) le_rfl⟩

end I128

end Koul.Router
