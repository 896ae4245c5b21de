import Koul.Lib.TruncMul
import Koul.Router.Refinement
import Mathlib.Tactic.FieldSimp

set_option relaxedAutoImplicit false
set_option autoImplicit false

/-!
# What a swap guarantees

The keeper brings the route of a swap and the venues execute it; neither is trusted. Here is what
a successful tick with a swap has checked, whatever both of them did: the route names the rule's
two tokens, and the wallet gained at least a floor that stands a known distance under the value
the oracles give.

## Main definitions

* `Koul.Router.oracleOut` — what an amount is worth in another token, exactly.
* `Koul.Router.Settled` — the route was checked and the wallet's gain measured.

## Main results

* `Koul.Router.swapFloor_le`, `Koul.Router.lt_swapFloor` — the floor against the exact value.
* `Koul.Router.tick_swap_fair` — what every successful tick with a swap has checked.
-/

namespace Koul.Router

open Transactional

/-! ## The floor against the exact value -/

lemma usdValue_eq (amount : ℤ) (decimals : ℕ) (price : ℤ) :
    usdValue amount decimals price = TruncMul.scale amount price (pow10 decimals) := rfl

/-- What a swap is expected to pay out before the slippage. -/
def expectedOut (amountIn : ℤ) (decIn : ℕ) (priceIn : ℤ) (decOut : ℕ) (priceOut : ℤ) : ℤ :=
  usdValue amountIn decIn priceIn * pow10 decOut / priceOut

/-- What an amount of one token is worth in another, exactly. -/
def oracleOut (amountIn : ℤ) (decIn : ℕ) (priceIn : ℤ) (decOut : ℕ) (priceOut : ℤ) : ℚ :=
  amountIn * priceIn * pow10 decOut / (pow10 decIn * priceOut)

lemma pow10_pos (n : ℕ) : 0 < pow10 n := by
  unfold pow10
  exact pow_pos (by decide) n

section Floor

variable {a : ℤ} {din : ℕ} {pin : ℤ} {dout : ℕ} {pout : ℤ} {slip : ℕ}

lemma usdValue_nonneg (ha : 0 < a) (hin : 0 < pin) : 0 ≤ usdValue a din pin :=
  TruncMul.scale_nonneg ha.le hin.le (pow10_pos din)

lemma expectedOut_nonneg (ha : 0 < a) (hin : 0 < pin) (hout : 0 < pout) :
    0 ≤ expectedOut a din pin dout pout := by
  unfold expectedOut
  exact Int.ediv_nonneg (mul_nonneg (usdValue_nonneg ha hin) (pow10_pos dout).le) hout.le

/-- The floor is the expected output less the slippage. -/
lemma swapFloor_eq (ha : 0 < a) (hin : 0 < pin) (hout : 0 < pout) :
    swapFloor a din pin dout pout slip =
      TruncMul.scale (expectedOut a din pin dout pout) (10000 - slip) 10000 := by
  have hv : 0 ≤ usdValue a din pin * pow10 dout :=
    mul_nonneg (usdValue_nonneg ha hin) (pow10_pos dout).le
  rw [swapFloor, if_neg (not_le.mpr hout), Int.tdiv_eq_ediv_of_nonneg hv]
  rfl

/-- The expected output is at most the exact value. -/
lemma expectedOut_le (ha : 0 < a) (hin : 0 < pin) (hout : 0 < pout) :
    (expectedOut a din pin dout pout : ℚ) ≤ oracleOut a din pin dout pout := by
  have hO : (0 : ℚ) < pow10 dout := by exact_mod_cast pow10_pos dout
  have hP : (0 : ℚ) < pout := by exact_mod_cast hout
  have hvalue := TruncMul.scale_le ha.le hin.le (pow10_pos din)
  have hfloor := TruncMul.floor_le (usdValue a din pin * pow10 dout) hout
  push_cast at hfloor
  calc (expectedOut a din pin dout pout : ℚ)
      ≤ usdValue a din pin * pow10 dout / pout := hfloor
    _ ≤ (a * pin / pow10 din) * pow10 dout / pout := by
        rw [usdValue_eq]
        gcongr
    _ = oracleOut a din pin dout pout := by
        unfold oracleOut
        have hD : (pow10 din : ℚ) ≠ 0 := by exact_mod_cast (pow10_pos din).ne'
        field_simp

/-- It is less than one unit and one 14-decimal USD unit's worth below it. -/
lemma lt_expectedOut (ha : 0 < a) (hin : 0 < pin) (hout : 0 < pout) :
    oracleOut a din pin dout pout - (pow10 dout / pout + 1) <
      (expectedOut a din pin dout pout : ℚ) := by
  have hO : (0 : ℚ) < pow10 dout := by exact_mod_cast pow10_pos dout
  have hP : (0 : ℚ) < pout := by exact_mod_cast hout
  have hvalue := TruncMul.lt_scale_add_one ha.le hin.le (pow10_pos din)
  have hfloor := TruncMul.lt_floor_add_one (usdValue a din pin * pow10 dout) hout
  push_cast at hfloor
  have hexact : oracleOut a din pin dout pout <
      (usdValue a din pin + 1) * pow10 dout / pout := by
    calc oracleOut a din pin dout pout
        = (a * pin / pow10 din) * pow10 dout / pout := by
          unfold oracleOut
          have hD : (pow10 din : ℚ) ≠ 0 := by exact_mod_cast (pow10_pos din).ne'
          field_simp
      _ < (usdValue a din pin + 1) * pow10 dout / pout := by
          rw [usdValue_eq]
          gcongr
  have hsplit : ((usdValue a din pin : ℚ) + 1) * pow10 dout / pout =
      usdValue a din pin * pow10 dout / pout + pow10 dout / pout := by ring
  unfold expectedOut
  linarith

/-- **The floor stands under the exact value**: it is at most the exact value less the
slippage. -/
theorem swapFloor_le (ha : 0 < a) (hin : 0 < pin) (hout : 0 < pout) (hslip : slip ≤ 10000) :
    (swapFloor a din pin dout pout slip : ℚ) ≤
      oracleOut a din pin dout pout * (1 - slip / 10000) := by
  have hs : (slip : ℚ) ≤ 10000 := by exact_mod_cast hslip
  have hm : (0 : ℤ) ≤ 10000 - slip := by omega
  have hnonneg : 0 ≤ expectedOut a din pin dout pout := expectedOut_nonneg ha hin hout
  have hscale := TruncMul.scale_le hnonneg hm (by decide : (0 : ℤ) < 10000)
  push_cast at hscale
  rw [swapFloor_eq ha hin hout]
  calc (TruncMul.scale (expectedOut a din pin dout pout) (10000 - slip) 10000 : ℚ)
      ≤ expectedOut a din pin dout pout * (10000 - slip) / 10000 := hscale
    _ = expectedOut a din pin dout pout * (1 - slip / 10000) := by ring
    _ ≤ oracleOut a din pin dout pout * (1 - slip / 10000) := by
        apply mul_le_mul_of_nonneg_right (expectedOut_le ha hin hout)
        linarith

/-- **How far under it stands**: by less than two units and one 14-decimal USD unit's worth. -/
theorem lt_swapFloor (ha : 0 < a) (hin : 0 < pin) (hout : 0 < pout) (hslip : slip ≤ 10000) :
    oracleOut a din pin dout pout * (1 - slip / 10000) - (pow10 dout / pout + 2) <
      (swapFloor a din pin dout pout slip : ℚ) := by
  have hs : (slip : ℚ) ≤ 10000 := by exact_mod_cast hslip
  have hs0 : (0 : ℚ) ≤ slip := Nat.cast_nonneg slip
  have hO : (0 : ℚ) < pow10 dout := by exact_mod_cast pow10_pos dout
  have hP : (0 : ℚ) < pout := by exact_mod_cast hout
  have hm : (0 : ℤ) ≤ 10000 - slip := by omega
  have hnonneg : 0 ≤ expectedOut a din pin dout pout := expectedOut_nonneg ha hin hout
  have hscale := TruncMul.lt_scale_add_one hnonneg hm (by decide : (0 : ℤ) < 10000)
  push_cast at hscale
  have hout' : oracleOut a din pin dout pout - (pow10 dout / pout + 1) <
      (expectedOut a din pin dout pout : ℚ) := lt_expectedOut ha hin hout
  have hgap : (0 : ℚ) ≤ pow10 dout / pout + 1 :=
    add_nonneg (div_nonneg hO.le hP.le) zero_le_one
  -- the slippage factor is at most one, so it scales the gap down
  have hfactor : (oracleOut a din pin dout pout - (pow10 dout / pout + 1)) * (1 - slip / 10000) ≤
      expectedOut a din pin dout pout * (1 - slip / 10000) :=
    mul_le_mul_of_nonneg_right hout'.le (by linarith)
  have hless : (pow10 dout / pout + 1 : ℚ) * (1 - slip / 10000) ≤ pow10 dout / pout + 1 :=
    mul_le_of_le_one_right hgap (by linarith)
  rw [swapFloor_eq ha hin hout]
  have hscale' : (expectedOut a din pin dout pout : ℚ) * (1 - slip / 10000) <
      TruncMul.scale (expectedOut a din pin dout pout) (10000 - slip) 10000 + 1 := by
    calc (expectedOut a din pin dout pout : ℚ) * (1 - slip / 10000)
        = expectedOut a din pin dout pout * (10000 - slip) / 10000 := by ring
      _ < _ := hscale
  linarith

/-- A floor that is positive leaves room for the slippage. -/
lemma slip_le_of_floor_pos (ha : 0 < a) (hin : 0 < pin) (hout : 0 < pout)
    (h : 0 < swapFloor a din pin dout pout slip) : slip ≤ 10000 := by
  by_contra hslip
  have hnonneg : 0 ≤ expectedOut a din pin dout pout := expectedOut_nonneg ha hin hout
  have hnonpos := TruncMul.scale_nonpos hnonneg
    (by omega : (10000 - slip : ℤ) ≤ 0) (by decide : (0 : ℤ) < 10000)
  rw [swapFloor_eq ha hin hout] at h
  omega

/-- An amount the router values at some USD is worth that much, exactly. -/
lemma usdValue_le (ha : 0 < a) (hin : 0 < pin) :
    (usdValue a din pin : ℚ) ≤ a * pin / pow10 din :=
  TruncMul.scale_le ha.le hin.le (pow10_pos din)

end Floor

/-! ## The plan of a swap -/

/-- What a swap's plan is worth and requires: the prices are positive, the amount is worth at
least 1 USD, and the floor is positive and the oracles' own. -/
structure SwapPlan (rd : Reads) (tin tout : Address) (amount : ℤ) (slip : ℕ) (minOut : ℤ)
    (pin : ℤ) (din : ℕ) (pout : ℤ) (dout : ℕ) : Prop where
  priceIn : rd.price tin = some (pin, din)
  priceOut : rd.price tout = some (pout, dout)
  amount_pos : 0 < amount
  worth : PRICE_ONE ≤ usdValue amount din pin
  floor : minOut = swapFloor amount din pin dout pout slip
  floor_pos : 0 < minOut

/-- A swap is planned only at prices, and for an amount and a floor, as `SwapPlan` says. -/
lemma planSwap_spec {rd : Reads} {tin tout : Address} {amount : ℤ} {slip : ℕ} {hub : Option ℕ}
    {p : Plan} (h : rd.planSwap tin tout amount slip hub = some p) :
    ∃ minOut pin din pout dout, p = .swap tin tout amount minOut hub ∧
      SwapPlan rd tin tout amount slip minOut pin din pout dout := by
  simp only [Reads.planSwap, Option.bind_eq_bind, Option.bind_eq_some_iff, Prod.exists] at h
  obtain ⟨pin, din, hin, pout, dout, hout, h⟩ := h
  split_ifs at h with hbad hmin
  push Not at hbad hmin
  exact ⟨_, pin, din, pout, dout, (Option.some.inj h).symm,
    hin, hout, hbad.1, hbad.2, rfl, hmin⟩

/-- The rule's action is a swap of this pair with this slippage, from the wallet or out of a
hub. -/
def Action.Swaps (cfg : Config) (tin tout : Address) (slip : ℕ) (hub : Option ℕ) : Action → Prop
  | .swapFromWallet i o _ s => i = tin ∧ o = tout ∧ s = slip ∧ hub = none
  | .withdrawAndSwap h o _ s => cfg.usdc = tin ∧ o = tout ∧ s = slip ∧ hub = some h
  | _ => False

/-- Only the two swap actions plan a swap, and of their own pair. -/
lemma plan_swap {rd : Reads} {user : Address} {accountId : ℕ} {act : Action} {tin tout : Address}
    {amount minOut : ℤ} {hub : Option ℕ}
    (h : rd.plan user accountId act = some (.swap tin tout amount minOut hub)) :
    ∃ slip pin din pout dout, act.Swaps rd.cfg tin tout slip hub ∧
      SwapPlan rd tin tout amount slip minOut pin din pout dout := by
  cases act with
  | swapFromWallet i o amt slip =>
    unfold Reads.plan at h
    obtain ⟨_, pin, din, pout, dout, hp, hplan⟩ := planSwap_spec h
    cases hp
    exact ⟨slip, pin, din, pout, dout, ⟨rfl, rfl, rfl, rfl⟩, hplan⟩
  | withdrawAndSwap hub' o amt slip =>
    simp only [Reads.plan] at h
    split_ifs at h
    obtain ⟨_, pin, din, pout, dout, hp, hplan⟩ := planSwap_spec h
    cases hp
    exact ⟨slip, pin, din, pout, dout, ⟨rfl, rfl, rfl, rfl⟩, hplan⟩
  | moveSupply fromHub toHub amt =>
    simp only [Reads.plan] at h
    split_ifs at h
    cases h
  | supplyFromWallet hub' amt =>
    simp only [Reads.plan] at h
    split_ifs at h
    cases h
  | repayFromWallet hub' amt =>
    simp only [Reads.plan] at h
    split_ifs at h <;> cases h
  | repayWithCollateral fromHub hub' amt =>
    simp only [Reads.plan] at h
    split_ifs at h <;> cases h
  | withdrawToWallet hub' amt =>
    simp only [Reads.plan] at h
    split_ifs at h
    cases h

/-! ## The tick of a swap -/

variable {σ : Type} {x : Contracts σ} {w w' : World σ} {user : Address} {id accountId : ℕ}

/-- A call of the aggregator. -/
def Call.IsSwap : Call → Prop
  | .executeStrategy .. => True
  | _ => False

/-- From state `s` of the other contracts to state `s'`, the route was checked against the pair,
the stored aggregator was called once, for the wallet and the amount, and the wallet gained
`got` of the token paid out. -/
structure Settled (x : Contracts σ) (w w' : World σ) (user : Address) (route : Option Bytes)
    (tin tout : Address) (amount got : ℤ) (s s' : σ) : Prop where
  call : ∃ bytes payload aggregator out before rest, route = some bytes ∧
    x.fromXdr bytes = some (some payload) ∧ payload.asset 1 = some tin ∧
    payload.asset 2 = some tout ∧ w.store.aggregator = some aggregator ∧
    x.executeStrategy aggregator user amount bytes s = some (out, s') ∧
    w'.calls = w.calls ++ before ++ .executeStrategy aggregator user amount bytes :: rest ∧
    ∀ c ∈ before ++ rest, ¬ c.IsSwap
  balance : (x.answers s').balance tout user = (x.answers s).balance tout user + got

/-- The state the aggregator is called in: the tick's own, or after the withdrawal of exactly
the amount. -/
def SwapsFrom (x : Contracts σ) (w : World σ) (user : Address) (accountId : ℕ) (amount : ℤ)
    (s : σ) : Option ℕ → Prop
  | none => s = w.ext
  | some hub => ∃ got, x.withdraw w.store.config.controller user accountId
      [(key w.store.config hub, amount)] (some user) w.ext = some (got, s) ∧
      floorGrain ((got[0]?.map Prod.snd).getD 0) = amount

/-- The withdrawal before a swap is one call, of exactly the amount, or none. -/
lemma withdrawExactly_ok {hub : Option ℕ} {amount : ℤ}
    (h : withdrawExactly x user accountId hub amount w = .ok w') :
    SwapsFrom x w user accountId amount w'.ext hub ∧ w'.store = w.store ∧
      ∃ before, w'.calls = w.calls ++ before ∧ ∀ c ∈ before, ¬ c.IsSwap := by
  cases hub with
  | none =>
    cases h
    exact ⟨rfl, rfl, [], (List.append_nil _).symm, fun c hc => nomatch hc⟩
  | some hub =>
    simp only [withdrawExactly, bind_eq_ok_iff, Prod.exists] at h
    obtain ⟨received, w₁, hwd, h⟩ := h
    split_ifs at h with hne
    cases h
    obtain ⟨got, s, hcall, hreceived, rfl⟩ := withdraw_ok hwd
    refine ⟨⟨got, hcall, hreceived.symm.trans (not_not.mp hne)⟩, rfl, _, rfl, ?_⟩
    intro c hc
    rw [List.mem_singleton.mp hc]
    exact id

/-- **A successful run of a swap** has settled it at its floor or above. -/
lemma run_swap {idx : ℕ} {tin tout : Address} {amount minOut : ℤ} {hub : Option ℕ}
    {route : Option Bytes} {ex : Executed}
    (h : run x user accountId id idx (.swap tin tout amount minOut hub) route w =
      .ok (ex, w')) :
    ex.amount = amount ∧ ∃ s s' got, SwapsFrom x w user accountId amount s hub ∧ minOut ≤ got ∧
      Settled x w w' user route tin tout amount got s s' := by
  simp only [run, bind_eq_ok_iff] at h
  obtain ⟨bytes, hroute, w₁, hw, w₂, hswap, h⟩ := h
  obtain ⟨rfl, payload, hxdr, hin, hout⟩ := checkRoute_ok hroute
  obtain ⟨hfrom, hstore, before, hcalls, hbefore⟩ := withdrawExactly_ok hw
  obtain ⟨aggregator, out, s', got, hagg, hcall, hbalance, hgot, rfl⟩ := swap_measures hswap
  have hw' : ex.amount = amount ∧ w'.calls = w.calls ++ before ++
      .executeStrategy aggregator user amount bytes :: [] := by
    cases hub with
    | none =>
      cases h
      exact ⟨rfl, by simp [World.publish, World.called, hcalls]⟩
    | some hub =>
      cases h
      exact ⟨rfl, by simp [World.publish, World.called, hcalls]⟩
  refine ⟨hw'.1, w₁.ext, s', got, hfrom, hgot, ?_, hbalance⟩
  refine ⟨bytes, payload, aggregator, out, before, [], rfl, hxdr, hin, hout, ?_, hcall, hw'.2, ?_⟩
  · rw [← hstore]
    exact hagg
  · rw [List.append_nil]
    exact hbefore

/-- Calls that are no swaps may follow. -/
lemma Settled.append {w₁ : World σ} {route : Option Bytes} {tin tout : Address} {amount got : ℤ}
    {s s' : σ} (h : Settled x w w₁ user route tin tout amount got s s') {cs : List Call}
    (hcalls : w'.calls = w₁.calls ++ cs) (hcs : ∀ c ∈ cs, ¬ c.IsSwap) :
    Settled x w w' user route tin tout amount got s s' where
  call := by
    obtain ⟨bytes, payload, aggregator, out, before, rest, hr, hx, hi, ho, ha, hc, hcalls₁, hno⟩ :=
      h.call
    refine ⟨bytes, payload, aggregator, out, before, rest ++ cs, hr, hx, hi, ho, ha, hc, ?_, ?_⟩
    · rw [hcalls, hcalls₁]
      simp
    · intro c hc
      rw [← List.append_assoc, List.mem_append] at hc
      exact hc.elim (hno c) (hcs c)
  balance := h.balance

/-- What the walk found is a rule of the autopilot, with its plan. -/
lemma firstDue_rule {ap : Autopilot} {idx : ℕ} {r : Rule} {p : Plan}
    (h : firstDue x w user id ap.accountId ap.rules 0 = some (idx, r, p)) :
    ap.rules[idx]? = some r ∧ (w.reads x).plan user ap.accountId r.action = some p := by
  obtain ⟨j, r', hj, hr, hdue, -⟩ := FirstMatch.find_eq_some h
  rw [Nat.zero_add] at hj
  subst hj
  simp only [dueAt, Option.map_eq_some_iff, Prod.mk.injEq] at hdue
  obtain ⟨p', -, rfl, rfl⟩ := hdue
  exact ⟨hr, (firstDue_spec h).2⟩

/-- A tick that did something ran the plan of one stored rule, noted it and closed the
session. -/
lemma tick_run {auth : Bool} {route : Option Bytes} {ex : Executed}
    (h : tick x auth user id route w = .ok (some ex, w')) :
    ∃ ap idx r p w₁ observed, w.store.autopilot user id = some ap ∧ ap.rules[idx]? = some r ∧
      (w.reads x).plan user ap.accountId r.action = some p ∧
      run x user ap.accountId id idx p route w = .ok (ex, w₁) ∧
      closeSession x user (fire user id idx ex observed w₁) = .ok w' := by
  obtain ⟨-, ap, w₂, hap, hloop, hclose⟩ := tick_ok h
  rcases tickLoop_ok hloop with
    ⟨-, hdone, -⟩ | ⟨idx, r, p, ex', w₁, observed, hdue, hrun, hdone, rfl⟩
  · exact nomatch hdone
  · obtain rfl := Option.some.inj hdone
    obtain ⟨hr, hp⟩ := firstDue_rule hdue
    exact ⟨ap, idx, r, p, w₁, observed, hap, hr, hp, hrun, hclose⟩

/-- Only a swap is reported as one. -/
lemma eq_swap_of_kind {cfg : Config} {idx : ℕ} {p : Plan}
    (h : (p.planned cfg idx).kind = kindSwap ∨ (p.planned cfg idx).kind = kindWithdrawSwap) :
    ∃ tin tout amount minOut hub, p = .swap tin tout amount minOut hub := by
  cases p with
  | swap tin tout amount minOut hub => exact ⟨tin, tout, amount, minOut, hub, rfl⟩
  | move fromHub toHub amount =>
    simp only [Plan.planned] at h
    exact absurd h (by decide)
  | supply hub amount =>
    simp only [Plan.planned] at h
    exact absurd h (by decide)
  | repayWallet hub amount =>
    simp only [Plan.planned] at h
    exact absurd h (by decide)
  | repayCollateral fromHub hub amount =>
    simp only [Plan.planned] at h
    exact absurd h (by decide)
  | withdraw hub amount =>
    simp only [Plan.planned] at h
    exact absurd h (by decide)

/-- **Swaps are fair**: whatever the route and whatever the aggregator and the venues do, a tick
that succeeds with a swap or a withdrawal and swap of `ex.amount` has

* decoded the route and found it to name exactly the rule's two tokens;
* called the stored aggregator once, for the wallet and exactly that amount, worth at least
  1 USD;
* measured that the wallet gained `got` of the token paid out over that call, at least a floor
  that is positive, at most the exact oracle value less the slippage, and less than
  `10 ^ dout / pout + 2` units under it.

**Proof sketch.** The tick ran the plan of one stored rule (`tick_run`), a swap by its kind,
planned as `SwapPlan` says and run as `run_swap` says. The distance of the floor from the exact
value is that of three floors, `swapFloor_le` and `lt_swapFloor`. -/
theorem tick_swap_fair {auth : Bool} {route : Option Bytes} {ex : Executed}
    (h : tick x auth user id route w = .ok (some ex, w'))
    (hkind : ex.kind = kindSwap ∨ ex.kind = kindWithdrawSwap) :
    ∃ ap r tin tout slip hub pin din pout dout s s' got,
      w.store.autopilot user id = some ap ∧ ap.rules[ex.ruleIndex]? = some r ∧
      r.action.Swaps w.store.config tin tout slip hub ∧
      (w.reads x).price tin = some (pin, din) ∧ (w.reads x).price tout = some (pout, dout) ∧
      SwapsFrom x w user ap.accountId ex.amount s hub ∧
      Settled x w w' user route tin tout ex.amount got s s' ∧
      (PRICE_ONE : ℚ) ≤ ex.amount * pin / pow10 din ∧
      let F := swapFloor ex.amount din pin dout pout slip
      let E := oracleOut ex.amount din pin dout pout
      F ≤ got ∧ 0 < F ∧
        E * (1 - slip / 10000) - (pow10 dout / pout + 2) < F ∧ F ≤ E * (1 - slip / 10000) := by
  obtain ⟨ap, idx, r, p, w₁, observed, hap, hr, hp, hrun, hclose⟩ := tick_run h
  have hok := run_ok hrun
  rw [hok.kind] at hkind
  obtain ⟨tin, tout, amount, minOut, hub, rfl⟩ := eq_swap_of_kind hkind
  obtain ⟨slip, pin, din, pout, dout, hswaps, hplan⟩ := plan_swap hp
  obtain ⟨hamount, s, s', got, hfrom, hgot, hsettled⟩ := run_swap hrun
  rw [← hamount] at hfrom hsettled hplan
  obtain ⟨hpriceIn, hpriceOut, ha, hworth, hfloor, hpos⟩ := hplan
  have hin := Reads.price_pos _ hpriceIn
  have hout := Reads.price_pos _ hpriceOut
  rw [hfloor] at hgot hpos
  have hslip := slip_le_of_floor_pos ha hin hout hpos
  -- closing the session makes no swap
  obtain ⟨-, -, -, hpolicy⟩ := closeSession_ok hclose
  have hsettled' : Settled x w w' user route tin tout ex.amount got s s' := by
    rcases hpolicy with ⟨-, rfl⟩ | ⟨policy, -, -, hcalls⟩
    · exact hsettled.append (List.append_nil _).symm fun c hc => nomatch hc
    · apply hsettled.append hcalls
      intro c hc
      rw [List.mem_singleton.mp hc]
      exact not_false
  refine ⟨ap, r, tin, tout, slip, hub, pin, din, pout, dout, s, s', got, hap, ?_, hswaps,
    hpriceIn, hpriceOut, hfrom, hsettled', ?_, hgot, hpos, lt_swapFloor ha hin hout hslip,
    swapFloor_le ha hin hout hslip⟩
  · rw [hok.index]
    exact hr
  · exact le_trans (by exact_mod_cast hworth) (usdValue_le ha hin)

/-- Contracts with a wallet of 20 USDC and an aggregator that pays it 18 EURC. -/
def marketContracts : Contracts Bool where
  answers := fun swapped =>
    { Reads.illiquidHub.e with
      balance := fun token _ =>
        if token = "eurc" then if swapped then 180000000 else 0 else 200000000 }
  withdraw := fun _ _ _ ws _ s => some (ws, s)
  supply := fun _ _ accountId _ _ s => some (accountId, s)
  repay := fun _ _ _ _ s => some s
  executeStrategy := fun _ _ totalIn _ _ => some (totalIn, true)
  endSession := fun _ _ s => some s
  fromXdr := fun _ => some (some ⟨["pair", "usdc", "eurc"], [0, 1, 2]⟩)

/-- A router whose one rule swaps all idle USDC at up to 1%, with EURC at 1.10 USD. -/
def marketWorld : World Bool where
  store :=
    { Storage.init "admin" Reads.illiquidHub.cfg with
      autopilot := fun _ _ => some ⟨12, [⟨[.idleBalance .atOrAbove 100000000], true,
        .swapFromWallet "usdc" "eurc" .all 100, 100⟩]⟩
      feed := fun token =>
        if token = "usdc" then some ⟨.fixed 100000000000000, 7⟩
        else if token = "eurc" then some ⟨.fixed 110000000000000, 7⟩
        else none
      aggregator := some "aggregator" }
  ledger := Reads.illiquidHub.ledger
  ext := false
  events := []
  calls := []

/-- There a tick swaps the 20 USDC; the wallet gains at least a floor of 17.9999999 EURC. -/
theorem tick_swap_fair_market :
    ∃ ex w', tick marketContracts true "wallet" 1 (some []) marketWorld = .ok (some ex, w') ∧
      ex.amount = 200000000 ∧
      ∃ s s' got, Settled marketContracts marketWorld w' "wallet" (some []) "usdc" "eurc"
        200000000 got s s' ∧ 179999999 ≤ got := by
  let done := tick marketContracts true "wallet" 1 (some []) marketWorld
  have hdone : ∃ w', done = .ok (some ⟨0, kindSwap, 200000000, 0, 0⟩, w') := ⟨_, rfl⟩
  obtain ⟨w', htick⟩ := hdone
  refine ⟨_, w', htick, rfl, ?_⟩
  obtain ⟨ap, r, tin, tout, slip, hub, pin, din, pout, dout, s, s', got, hap, hr, hswaps, hin,
    hout, -, hsettled, -, hgot, -⟩ := tick_swap_fair htick (.inl rfl)
  cases hap
  cases hr
  obtain ⟨rfl, rfl, rfl, rfl⟩ := hswaps
  cases hin
  cases hout
  exact ⟨s, s', got, hsettled, hgot⟩

end Koul.Router
