import Koul.Router.SwapFloor

set_option relaxedAutoImplicit false
set_option autoImplicit false

/-!
# Prices that fail safe

The router reads prices in three places: the price of an FX asset in a condition, the price of a
token in a condition, and the prices of both tokens when it plans a swap. A token's price goes
through `price`, which refuses one that is missing, stale or not positive; the FX condition asks the
oracle itself and compares whatever fresh answer it gets.

## Main definitions

* `Koul.Router.Reads.GoodAnswer` — an oracle's answer that is there, fresh and positive.
* `Koul.Router.Reads.GoodPrice` — the price that a condition reads is good.
* `Koul.Router.Reads.FailsSafe` — no condition of a rule holds and no swap is planned on a price that
  is not good.
* `Koul.Router.Reads.QuietFx` — no fresh answer that is not positive meets an FX condition's level.

## Main results

* `Koul.Router.Reads.prices_fail_safe_iff` — a rule fails safe exactly where its FX conditions are
  quiet.
* `Koul.Router.tick_fails_safe` — what a tick ran where every rule is quiet.
-/

namespace Koul.Router

namespace Reads

variable (rd : Reads)

/-! ## Good prices -/

/-- An oracle's answer that is there, no older than its limit, and positive. -/
def GoodAnswer (maxAge : ℕ) (answer : Option PriceData) : Prop :=
  ∃ p, answer = some p ∧ isStale rd.ledger.timestamp p.timestamp maxAge = false ∧ 0 < p.price

/-- A feed whose source gives a good price; a fixed price is always there and fresh. -/
def GoodSource : PriceSource → Prop
  | .fixed p => 0 < p
  | .oracle oracle asset maxAge => rd.GoodAnswer maxAge (rd.e.lastprice oracle asset)

/-- A registered token with a good price. -/
def GoodToken (token : Address) : Prop := ∃ f, rd.feed token = some f ∧ rd.GoodSource f.source

/-- The price that a condition reads is good; a condition that reads none has no bad one. -/
def GoodPrice : Condition → Prop
  | .fxPrice asset _ _ maxAge => rd.GoodAnswer maxAge (rd.e.lastprice rd.cfg.oracle (.other asset))
  | .tokenPrice t _ _ => rd.GoodToken t
  | _ => True

/-- **Prices fail safe** for a rule: a condition holds only at a good price, a swap is planned only
at two, and where the rule is due its conditions at good prices are enough for it to hold. -/
structure FailsSafe (user : Address) (accountId : ℕ) (r : Rule) : Prop where
  condition : ∀ c ∈ r.conditions, (rd.evaluate user accountId c).holds = true → rd.GoodPrice c
  swap : ∀ tin tout amount minOut hub,
    rd.plan user accountId r.action = some (.swap tin tout amount minOut hub) →
      rd.GoodToken tin ∧ rd.GoodToken tout
  due : ∀ lastFired p, rd.due user accountId lastFired r = some p →
    if r.matchAll then
      ∀ c ∈ r.conditions, (rd.evaluate user accountId c).holds = true ∧ rd.GoodPrice c
    else ∃ c ∈ r.conditions, (rd.evaluate user accountId c).holds = true ∧ rd.GoodPrice c

/-- No FX condition of the rule has a fresh answer of zero or less that meets its level. -/
def QuietFx (r : Rule) : Prop :=
  ∀ asset cmp level maxAge, .fxPrice asset cmp level maxAge ∈ r.conditions →
    ∀ p, rd.e.lastprice rd.cfg.oracle (.other asset) = some p →
      isStale rd.ledger.timestamp p.timestamp maxAge = false → p.price ≤ 0 →
        holds cmp p.price level = false

variable {rd}

/-- A token's price is good. -/
lemma goodToken_of_price {token : Address} {p : ℤ} {decimals : ℕ}
    (h : rd.price token = some (p, decimals)) : rd.GoodToken token := by
  simp only [price, Option.bind_eq_bind] at h
  obtain ⟨f, hf, h⟩ := Option.bind_eq_some_iff.mp h
  refine ⟨f, hf, ?_⟩
  have hguard : ∀ q : ℤ, (if q > 0 then some (q, f.decimals) else none) = some (p, decimals) →
      0 < q := by
    intro q hq
    split_ifs at hq with hq'
    exact hq'
  cases hsource : f.source with
  | fixed q =>
    rw [hsource] at h
    exact hguard q h
  | oracle oracle asset maxAge =>
    rw [hsource] at h
    obtain ⟨pd, hpd, h⟩ := Option.bind_eq_some_iff.mp h
    split_ifs at h with hstale
    · cases h
    · exact ⟨pd, hpd, by simpa using hstale, hguard _ h⟩

/-! ## Conditions -/

/-- An FX condition holds at a fresh answer that meets its level. -/
lemma evaluate_fxPrice_iff {user : Address} {accountId : ℕ} {asset : Symbol} {cmp : Cmp}
    {level : ℤ} {maxAge : ℕ} :
    (rd.evaluate user accountId (.fxPrice asset cmp level maxAge)).holds = true ↔
      ∃ p, rd.e.lastprice rd.cfg.oracle (.other asset) = some p ∧
        isStale rd.ledger.timestamp p.timestamp maxAge = false ∧
          holds cmp p.price level = true := by
  rw [evaluate]
  cases hanswer : rd.e.lastprice rd.cfg.oracle (.other asset) with
  | none => simp
  | some p => cases hstale : isStale rd.ledger.timestamp p.timestamp maxAge <;> simp [hstale]

/-- A token's price condition holds only at a good price. -/
lemma goodPrice_tokenPrice {user : Address} {accountId : ℕ} {t : Address} {cmp : Cmp} {level : ℤ}
    (h : (rd.evaluate user accountId (.tokenPrice t cmp level)).holds = true) :
    rd.GoodToken t := by
  rw [evaluate] at h
  cases hprice : rd.price t with
  | none =>
    rw [hprice] at h
    cases h
  | some p => exact goodToken_of_price hprice

/-- Where the FX conditions are quiet, a condition holds only at a good price. -/
lemma goodPrice_of_holds {user : Address} {accountId : ℕ} {r : Rule} (hquiet : rd.QuietFx r)
    {c : Condition} (hc : c ∈ r.conditions)
    (h : (rd.evaluate user accountId c).holds = true) : rd.GoodPrice c := by
  cases c with
  | fxPrice asset cmp level maxAge =>
    obtain ⟨p, hp, hfresh, hlevel⟩ := evaluate_fxPrice_iff.mp h
    refine ⟨p, hp, hfresh, ?_⟩
    by_contra hpos
    have hnot := hquiet asset cmp level maxAge hc p hp hfresh (not_lt.mp hpos)
    rw [hnot] at hlevel
    cases hlevel
  | tokenPrice t cmp level => exact goodPrice_tokenPrice h
  | _ => trivial

/-- At a level that a rule can be saved with, only a comparison with below can go wrong. -/
lemma quietFx_of_atOrAbove {r : Rule} (hok : r.conditions.all conditionOk = true)
    (hcmp : ∀ asset cmp level maxAge, .fxPrice asset cmp level maxAge ∈ r.conditions →
      cmp = .atOrAbove) : rd.QuietFx r := by
  intro asset cmp level maxAge hc p _ _ hneg
  obtain rfl := hcmp _ _ _ _ hc
  have hlevel := List.all_eq_true.mp hok _ hc
  simp only [conditionOk, Bool.and_eq_true, decide_eq_true_eq] at hlevel
  simp only [holds, decide_eq_false_iff_not, not_le]
  omega

/-! ## Rules -/

/-- A swap is planned only at two good prices. -/
lemma goodToken_of_plan {user : Address} {accountId : ℕ} {a : Action} {tin tout : Address}
    {amount minOut : ℤ} {hub : Option ℕ}
    (h : rd.plan user accountId a = some (.swap tin tout amount minOut hub)) :
    rd.GoodToken tin ∧ rd.GoodToken tout := by
  obtain ⟨slip, pin, din, pout, dout, -, hplan⟩ := plan_swap h
  exact ⟨goodToken_of_price hplan.priceIn, goodToken_of_price hplan.priceOut⟩

/-- **Prices fail safe** for a rule, whatever the oracles answer, exactly where no FX condition of it
has a fresh answer of zero or less that meets its level.

**Proof sketch.** A token's price is good wherever `price` gives one. An FX condition holds at any
fresh answer that meets its level (`evaluate_fxPrice_iff`), so it fails safe when the ones that are
not positive do not. -/
theorem prices_fail_safe_iff (rd : Reads) (user : Address) (accountId : ℕ) (r : Rule) :
    rd.FailsSafe user accountId r ↔ rd.QuietFx r := by
  constructor
  · intro h asset cmp level maxAge hc p hp hfresh hneg
    by_contra hholds
    rw [Bool.not_eq_false] at hholds
    obtain ⟨q, hq, -, hpos⟩ :=
      h.condition _ hc (evaluate_fxPrice_iff.mpr ⟨p, hp, hfresh, hholds⟩)
    rw [hp] at hq
    cases hq
    omega
  · intro hquiet
    have hgood : ∀ c ∈ r.conditions, (rd.evaluate user accountId c).holds = true →
        rd.GoodPrice c := fun c hc h => goodPrice_of_holds hquiet hc h
    refine ⟨hgood, fun tin tout amount minOut hub h => goodToken_of_plan h, ?_⟩
    intro lastFired p hdue
    have hholds := ((rd.due_isSome_iff user accountId lastFired r).mp
      (Option.isSome_of_eq_some hdue)).2.1
    rw [evaluateRule_iff] at hholds
    split_ifs at hholds ⊢ with hall
    · exact fun c hc => ⟨hholds c hc, hgood c hc (hholds c hc)⟩
    · obtain ⟨c, hc, hcholds⟩ := hholds
      exact ⟨c, hc, hcholds, hgood c hc hcholds⟩

/-- The illiquid hub, where the FX oracle has just answered with a price of zero. -/
def zeroFx : Reads :=
  { illiquidHub with e := { illiquidHub.e with lastprice := fun _ _ => some ⟨0, 10000⟩ } }

/-- Withdraw everything when a lira is worth less than 0.02 USD. -/
def liraExit : Rule :=
  ⟨[.fxPrice ⟨"TRY", by decide, by decide⟩ .below 2000000000000 900], true,
    .withdrawToWallet 1 .all, 1⟩

/-- There a rule that can be saved runs on that price. -/
theorem zero_price_fires : ruleOk liraExit = true ∧
    zeroFx.due "wallet" 12 0 liraExit = some (.withdraw 1 299900000) ∧
      ¬ zeroFx.FailsSafe "wallet" 12 liraExit := by
  have hdue : zeroFx.due "wallet" 12 0 liraExit = some (.withdraw 1 299900000) := by
    decide +kernel
  refine ⟨by decide +kernel, hdue, ?_⟩
  intro h
  obtain ⟨hholds, p, hp, -, hpos⟩ := h.due 0 _ hdue _ List.mem_cons_self
  cases hp
  cases hpos

end Reads

/-! ## Ticks -/

variable {σ : Type} {x : Contracts σ} {w w' : World σ} {user : Address} {id : ℕ}

/-- **A tick fails safe** where every stored rule is quiet: the rule it ran holds by its conditions
at good prices, and a swap that it ran is between two tokens with good prices. -/
theorem tick_fails_safe {auth : Bool} {route : Option Bytes} {ex : Executed} {ap : Autopilot}
    (hap : w.store.autopilot user id = some ap) (hquiet : ∀ r ∈ ap.rules, (w.reads x).QuietFx r)
    (h : tick x auth user id route w = .ok (some ex, w')) :
    ∃ r p, ap.rules[ex.ruleIndex]? = some r ∧
      (w.reads x).plan user ap.accountId r.action = some p ∧
      (w.reads x).FailsSafe user ap.accountId r ∧
      ∀ tin tout amount minOut hub, p = .swap tin tout amount minOut hub →
        (w.reads x).GoodToken tin ∧ (w.reads x).GoodToken tout := by
  obtain ⟨ap', idx, r, p, w₁, observed, hap', hr, hp, hrun, -⟩ := tick_run h
  rw [hap] at hap'
  cases hap'
  refine ⟨r, p, ?_, hp, ?_, ?_⟩
  · rw [(run_ok hrun).index]
    exact hr
  · exact (Reads.prices_fail_safe_iff _ _ _ _).mpr (hquiet r (List.mem_of_getElem? hr))
  · rintro tin tout amount minOut hub rfl
    exact Reads.goodToken_of_plan hp

end Koul.Router
