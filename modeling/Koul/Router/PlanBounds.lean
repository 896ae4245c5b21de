import Koul.Router.Reads

set_option relaxedAutoImplicit false
set_option autoImplicit false

/-!
# What a plan may move

Whatever the contracts answer, the amount of a plan is covered by what it is taken from: a
withdrawal by the position, the hub's cash and the pool's utilisation ceiling, a payment by the
wallet, a repayment by the debt and two grains.

## Main definitions

* `Koul.Router.Reads.NonNeg` — no reading is negative.
* `Koul.Router.Reads.WithinHub` — an amount that may leave a hub.
* `Koul.Router.Reads.PlanBounds` — the bounds on the amount an action plans.

## Main results

* `Koul.Router.Reads.plan_bounds` — every plan of an accepted action is within its bounds.
-/

namespace Koul.Router

namespace Reads

variable (rd : Reads)

/-! ## The readings a plan depends on -/

def collateral (accountId hub : ℕ) : ℤ :=
  rd.e.getCollateralAmount rd.cfg.controller accountId (key rd.cfg hub)

def debt (accountId hub : ℕ) : ℤ :=
  rd.e.getBorrowAmount rd.cfg.controller accountId (key rd.cfg hub)

def cash (hub : ℕ) : ℤ := (rd.e.getSyncData rd.cfg.pool (key rd.cfg hub)).state.cash

def supplied (hub : ℕ) : ℤ := rd.e.getSuppliedAmount rd.cfg.pool (key rd.cfg hub)

def borrowed (hub : ℕ) : ℤ := rd.e.getBorrowedAmount rd.cfg.pool (key rd.cfg hub)

def maxUtilization (hub : ℕ) : ℤ :=
  (rd.e.getSyncData rd.cfg.pool (key rd.cfg hub)).params.maxUtilization

def wallet (user : Address) : ℤ := rd.balance rd.cfg.usdc user

/-- No reading is negative. -/
structure NonNeg : Prop where
  collateral : ∀ accountId hub, 0 ≤ rd.collateral accountId hub
  debt : ∀ accountId hub, 0 ≤ rd.debt accountId hub
  cash : ∀ hub, 0 ≤ rd.cash hub
  supplied : ∀ hub, 0 ≤ rd.supplied hub
  borrowed : ∀ hub, 0 ≤ rd.borrowed hub
  maxUtilization : ∀ hub, 0 ≤ rd.maxUtilization hub
  balance : ∀ token user, 0 ≤ rd.balance token user

/-- The amount `w` may leave `hub`: it is snapped, worth moving, within the account's position,
leaves a grain of the hub's cash, and keeps the pool under its utilisation ceiling. -/
structure WithinHub (accountId hub : ℕ) (w : ℤ) : Prop where
  grain : GRAIN ∣ w
  min_move : MIN_MOVE ≤ w
  collateral : w ≤ rd.collateral accountId hub
  cash : w ≤ rd.cash hub - GRAIN
  utilization : 0 < rd.borrowed hub → 0 < rd.maxUtilization hub → rd.maxUtilization hub < RAY →
    rd.borrowed hub * RAY ≤ rd.maxUtilization hub * (rd.supplied hub - w)

/-- The bounds on the amount `w` that an action plans. -/
def PlanBounds (user : Address) (accountId : ℕ) : Action → ℤ → Prop
  | .moveSupply fromHub _ _, w => rd.WithinHub accountId fromHub w
  | .withdrawToWallet hub _, w => rd.WithinHub accountId hub w
  | .withdrawAndSwap hub _ _ _, w => rd.WithinHub accountId hub w
  | .repayWithCollateral fromHub hub _, w =>
    rd.WithinHub accountId fromHub w ∧ w < rd.debt accountId hub + 2 * GRAIN
  | .supplyFromWallet _ _, w => GRAIN ∣ w ∧ MIN_MOVE ≤ w ∧ w ≤ rd.wallet user
  | .repayFromWallet hub amt, w =>
    GRAIN ∣ w ∧ 0 < w ∧ w ≤ rd.wallet user ∧ w < rd.debt accountId hub + 2 * GRAIN ∧
      (amt = .all → rd.debtBase accountId hub ≤ floorGrain (rd.wallet user) →
        rd.debt accountId hub + GRAIN ≤ w)
  | .swapFromWallet tin _ _ _, w => 0 < w ∧ w ≤ rd.balance tin user

/-! ## Bounds on the bases -/

lemma dvd_withdrawableIn (accountId hub : ℕ) : GRAIN ∣ rd.withdrawableIn accountId hub := by
  simp only [withdrawableIn, hubWithdrawable]
  split_ifs
  · exact dvd_zero GRAIN
  · exact dvd_withdrawable _ _ _ _ _

/-- What is withdrawable from a hub with a position is `withdrawable` of the hub's readings. -/
lemma withdrawableIn_of_pos {accountId hub : ℕ} (h : 0 < rd.withdrawableIn accountId hub) :
    rd.withdrawableIn accountId hub = withdrawable (rd.collateral accountId hub) (rd.cash hub)
      (rd.supplied hub) (rd.borrowed hub) (rd.maxUtilization hub) := by
  simp only [withdrawableIn, hubWithdrawable] at h ⊢
  split_ifs at h ⊢ with hc
  · exact absurd h (lt_irrefl 0)
  · rfl

/-- An amount worth moving, snapped and within what is withdrawable, may leave the hub. -/
lemma withinHub_of_le {accountId hub : ℕ} {w : ℤ} (hgrain : GRAIN ∣ w) (hmin : MIN_MOVE ≤ w)
    (hle : w ≤ rd.withdrawableIn accountId hub) : rd.WithinHub accountId hub w := by
  have hpos : 0 < rd.withdrawableIn accountId hub := by
    have : (0 : ℤ) < MIN_MOVE := by decide
    omega
  have heq := rd.withdrawableIn_of_pos hpos
  rw [heq] at hle hpos
  obtain ⟨hcoll, hcash, hutil⟩ := withdrawable_spec _ _ _ _ _ hpos
  refine ⟨hgrain, hmin, hle.trans hcoll, hle.trans hcash, ?_⟩
  intro hb hmu hray
  have hstep : rd.maxUtilization hub * (rd.supplied hub - withdrawable (rd.collateral accountId hub)
      (rd.cash hub) (rd.supplied hub) (rd.borrowed hub) (rd.maxUtilization hub)) ≤
        rd.maxUtilization hub * (rd.supplied hub - w) :=
    mul_le_mul_of_nonneg_left (by omega) hmu.le
  exact (hutil hb hmu hray).le.trans hstep

/-- With a debt, the debt base lies between the debt plus one grain and two. -/
lemma debtBase_bounds {accountId hub : ℕ} (h : 0 < rd.debtBase accountId hub) :
    rd.debt accountId hub + GRAIN ≤ rd.debtBase accountId hub ∧
      rd.debtBase accountId hub < rd.debt accountId hub + 2 * GRAIN := by
  simp only [debtBase] at h ⊢
  split_ifs at h ⊢ with hd
  · exact absurd h (lt_irrefl 0)
  · have hg := GRAIN_pos
    have hup := Grain.up_lt (x := rd.debt accountId hub + GRAIN) hg
    have hle := Grain.le_up (x := rd.debt accountId hub + GRAIN) hg
    simp only [ceilGrain_eq, debt] at hup hle ⊢
    omega

lemma dvd_debtBase (accountId hub : ℕ) : GRAIN ∣ rd.debtBase accountId hub := by
  simp only [debtBase]
  split_ifs
  · exact dvd_zero GRAIN
  · exact Grain.dvd_up _ _

/-- A positive amount resolved against the debt base is under the debt plus two grains. -/
lemma resolve_debtBase_lt {accountId hub : ℕ} {amt : Amount}
    (h : 0 < resolve amt (rd.debtBase accountId hub)) :
    resolve amt (rd.debtBase accountId hub) < rd.debt accountId hub + 2 * GRAIN := by
  have hle := resolve_le_of_pos h
  have := (rd.debtBase_bounds (h.trans_le hle)).2
  omega

/-! ## Bounds on each action's plan -/

variable {rd} {user : Address} {accountId : ℕ}

/-- A plan of a resolved withdrawal exists only for an amount that may leave the hub. -/
lemma withinHub_of_resolve {hub : ℕ} {amt : Amount}
    (h : ¬ resolve amt (rd.withdrawableIn accountId hub) < MIN_MOVE) :
    rd.WithinHub accountId hub (resolve amt (rd.withdrawableIn accountId hub)) := by
  have hmin : MIN_MOVE ≤ resolve amt (rd.withdrawableIn accountId hub) := not_lt.mp h
  have hpos : 0 < resolve amt (rd.withdrawableIn accountId hub) := by
    have : (0 : ℤ) < MIN_MOVE := by decide
    omega
  exact rd.withinHub_of_le (dvd_resolve _ _) hmin (resolve_le_of_pos hpos)

/-- A swap's plan keeps the amount it was asked for, which is positive. -/
lemma planSwap_some {tin tout : Address} {amount : ℤ} {slip : ℕ} {hub : Option ℕ} {p : Plan}
    (h : rd.planSwap tin tout amount slip hub = some p) :
    0 < amount ∧ ∃ minOut, 0 < minOut ∧ p = .swap tin tout amount minOut hub := by
  simp only [planSwap, Option.bind_eq_bind, Option.bind_eq_some_iff, Prod.exists] at h
  obtain ⟨pin, din, -, pout, dout, -, h⟩ := h
  split_ifs at h with hbad hmin
  push Not at hbad hmin
  exact ⟨hbad.1, _, hmin, (Option.some.inj h).symm⟩

/-- The bounds on a repayment from the wallet. -/
lemma repayFromWallet_bounds {hub : ℕ} {amt : Amount} {pay : ℤ}
    (hpay : pay = min (resolve amt (rd.debtBase accountId hub)) (floorGrain (rd.wallet user)))
    (hpos : 0 < pay) : rd.PlanBounds user accountId (.repayFromWallet hub amt) pay := by
  have hwant : pay ≤ resolve amt (rd.debtBase accountId hub) := hpay.trans_le (min_le_left _ _)
  have hidle : pay ≤ floorGrain (rd.wallet user) := hpay.trans_le (min_le_right _ _)
  refine ⟨?_, hpos, hidle.trans (floorGrain_le_of_pos (hpos.trans_le hidle)),
    hwant.trans_lt (rd.resolve_debtBase_lt (hpos.trans_le hwant)), ?_⟩
  · rw [hpay]
    exact dvd_min (dvd_resolve _ _) (dvd_floorGrain _)
  · -- the whole debt is planned when the wallet covers it
    rintro rfl hcover
    have hbase : 0 < rd.debtBase accountId hub :=
      hpos.trans_le (hwant.trans (resolve_le_of_pos (hpos.trans_le hwant)))
    rw [resolve_all hbase.le (rd.dvd_debtBase _ _), min_eq_left hcover] at hpay
    rw [hpay]
    exact (rd.debtBase_bounds hbase).1

/-- **Plan bounds**: the amount of every plan of an accepted action is covered by what it is
taken from.

**Proof sketch.** One case per action. A withdrawal resolves against `withdrawableIn`, which
`withdrawable_spec` bounds by the position, the cash and the utilisation ceiling; a repayment
also resolves against `debtBase`, which is less than two grains above the debt; a payment is at
most the snapped wallet balance; and a swap asks for at most the balance it sells. -/
theorem plan_bounds {a : Action} {p : Plan} (ha : actionOk a = true) (hrd : rd.NonNeg)
    (hp : rd.plan user accountId a = some p) : rd.PlanBounds user accountId a p.amount := by
  cases a with
  | moveSupply fromHub toHub amt =>
    simp only [plan] at hp
    split_ifs at hp with hw
    obtain rfl := Option.some.inj hp
    exact withinHub_of_resolve hw
  | withdrawToWallet hub amt =>
    simp only [plan] at hp
    split_ifs at hp with hw
    obtain rfl := Option.some.inj hp
    exact withinHub_of_resolve hw
  | withdrawAndSwap hub tout amt slip =>
    simp only [plan] at hp
    split_ifs at hp with hw
    obtain ⟨-, minOut, -, rfl⟩ := planSwap_some hp
    exact withinHub_of_resolve hw
  | supplyFromWallet hub amt =>
    simp only [plan] at hp
    split_ifs at hp with hput
    obtain rfl := Option.some.inj hp
    have hmin := not_lt.mp hput
    have hpos := lt_of_lt_of_le (by decide : (0 : ℤ) < MIN_MOVE) hmin
    have hbase := resolve_le_of_pos hpos
    exact ⟨dvd_resolve _ _, hmin, hbase.trans (floorGrain_le (hrd.balance _ _))⟩
  | repayFromWallet hub amt =>
    simp only [plan, ← min_def_lt] at hp
    split_ifs at hp with hpay
    obtain rfl := Option.some.inj hp
    exact repayFromWallet_bounds rfl (not_le.mp hpay)
  | repayWithCollateral fromHub hub amt =>
    simp only [plan, ← min_def_lt] at hp
    split_ifs at hp with hw
    obtain rfl := Option.some.inj hp
    have hmin := not_lt.mp hw
    have hpos := lt_of_lt_of_le (by decide : (0 : ℤ) < MIN_MOVE) hmin
    have hwant := min_le_left (resolve amt (rd.debtBase accountId hub))
      (rd.withdrawableIn accountId fromHub)
    exact ⟨rd.withinHub_of_le (dvd_min (dvd_resolve _ _) (rd.dvd_withdrawableIn _ _)) hmin
      (min_le_right _ _), hwant.trans_lt (rd.resolve_debtBase_lt (hpos.trans_le hwant))⟩
  | swapFromWallet tin tout amt slip =>
    unfold plan at hp
    obtain ⟨hpos, minOut, -, rfl⟩ := planSwap_some hp
    simp only [actionOk, Bool.and_eq_true] at ha
    exact ⟨hpos, want_le (atMostAll_of_swapAmountOk ha.1.1.2) (hrd.balance _ _)⟩

/-- A hub with 30 USDC of cash, 1000 supplied and 900 borrowed, and an account with 100 USDC in
it and 20 USDC of debt. -/
def illiquidHub : Reads where
  e :=
    { getHealthFactor := fun _ _ => 0
      getCollateralAmount := fun _ _ _ => 1000000000
      getBorrowAmount := fun _ _ _ => 200000000
      getDepositRate := fun _ _ => 0
      getSyncData := fun _ _ => ⟨⟨950000000000000000000000000⟩, ⟨300000000⟩⟩
      getSuppliedAmount := fun _ _ => 10000000000
      getBorrowedAmount := fun _ _ => 9000000000
      lastprice := fun _ _ => none
      balance := fun _ _ => 0 }
  cfg := ⟨"controller", "pool", "usdc", "oracle", 3⟩
  feed := fun _ => none
  ledger := ⟨1000, 10000⟩

/-- The move out of the illiquid hub is capped at its cash less a grain, within the bounds. -/
theorem plan_bounds_illiquidHub :
    actionOk (.moveSupply 1 2 .all) = true ∧ illiquidHub.NonNeg ∧
      illiquidHub.plan "wallet" 12 (.moveSupply 1 2 .all) = some (.move 1 2 299900000) ∧
      illiquidHub.PlanBounds "wallet" 12 (.moveSupply 1 2 .all) 299900000 := by
  have hok : actionOk (.moveSupply 1 2 .all) = true := by decide
  have hnn : illiquidHub.NonNeg := by
    constructor <;>
      simp [collateral, debt, cash, supplied, borrowed, maxUtilization, balance, illiquidHub]
  have hplan : illiquidHub.plan "wallet" 12 (.moveSupply 1 2 .all) =
      some (.move 1 2 299900000) := by decide
  exact ⟨hok, hnn, hplan, plan_bounds hok hnn hplan⟩

end Reads

end Koul.Router
