import Koul.Lib.FirstMatch
import Koul.Router.Entry
import Koul.Router.PlanBounds

set_option relaxedAutoImplicit false
set_option autoImplicit false

/-!
# What `next_action` says about `tick`

The keeper asks `next_action` whether a tick is worth sending, and for which route. Both walk the
rules on their own; here both are shown to run on the first rule that is due, in every world.

## Main definitions

* `Koul.Router.DueAt` — the rule of an index is off cooldown, holds and has something to do.
* `Koul.Router.firstDue` — the first such rule with its plan.
* `Koul.Router.Idle` — a tick that moved nothing.
* `Koul.Router.ActsOn` — a tick that acted on exactly the rule announced.

## Main results

* `Koul.Router.nextActionLoop_eq`, `Koul.Router.tickLoop_eq` — both walks as `firstDue`.
* `Koul.Router.nextAction_refines_tick` — what `next_action` answers is what a tick does.
-/

namespace Koul.Router

open Transactional

variable {σ : Type} (x : Contracts σ) (w : World σ) (user : Address) (id accountId : ℕ)

/-- The rule at `i` with its plan, when it is due in this world. -/
def dueAt (i : ℕ) (r : Rule) : Option (Rule × Plan) :=
  ((w.reads x).due user accountId (w.store.lastFiredAt user id i) r).map (r, ·)

/-- The first rule that is due, with its plan. -/
def firstDue (rules : List Rule) (idx : ℕ) : Option (ℕ × Rule × Plan) :=
  FirstMatch.find (dueAt x w user id accountId) rules idx

/-- The rule of index `i` is off cooldown, its conditions hold and its action has a plan. -/
def DueAt (ap : Autopilot) (i : ℕ) : Prop :=
  ∃ r, ap.rules[i]? = some r ∧
    ready (w.store.lastFiredAt user id i) w.ledger.sequence r.cooldownLedgers = true ∧
    ((w.reads x).evaluateRule user ap.accountId r).1 = true ∧
    ((w.reads x).plan user ap.accountId r.action).isSome

/-! ## Both walks -/

variable {x w user id accountId}

/-- A rule that is due is off cooldown and holds, and comes with its plan. -/
lemma eq_of_dueAt {i : ℕ} {r : Rule} {d : Rule × Plan}
    (h : dueAt x w user id accountId i r = some d) :
    ready (w.store.lastFiredAt user id i) w.ledger.sequence r.cooldownLedgers = true ∧
      ((w.reads x).evaluateRule user accountId r).1 = true ∧
      ∃ p, (w.reads x).plan user accountId r.action = some p ∧ d = (r, p) := by
  obtain ⟨p, hp, rfl⟩ := Option.map_eq_some_iff.mp h
  have hdue := (Reads.due_isSome_iff _ user accountId _ r).mp (Option.isSome_of_eq_some hp)
  refine ⟨hdue.1, hdue.2.1, p, ?_, rfl⟩
  rw [Reads.due] at hp
  split_ifs at hp
  exact hp

/-- A rule that is not due is on cooldown, does not hold, or has nothing to do. -/
lemma cases_of_not_dueAt {i : ℕ} {r : Rule} (h : dueAt x w user id accountId i r = none) :
    ready (w.store.lastFiredAt user id i) w.ledger.sequence r.cooldownLedgers = false ∨
      ((w.reads x).evaluateRule user accountId r).1 = false ∨
      (w.reads x).plan user accountId r.action = none := by
  by_contra hcon
  simp only [not_or, Bool.not_eq_false, ← Option.isSome_iff_ne_none] at hcon
  have hdue := (Reads.due_isSome_iff (w.reads x) user accountId _ r).mpr hcon
  rw [dueAt, Option.map_eq_none_iff] at h
  rw [h] at hdue
  cases hdue

/-- **The view's walk** reports the first rule that is due. -/
theorem nextActionLoop_eq (rules : List Rule) (idx : ℕ) :
    nextActionLoop x w user id accountId rules idx =
      (firstDue x w user id accountId rules idx).map
        fun d => d.2.2.planned w.store.config d.1 := by
  apply FirstMatch.loop_eq
  case hnil => exact fun _ => rfl
  case hskip =>
    intro r rs i h
    rcases cases_of_not_dueAt h with hready | hholds | hplan
    · simp [nextActionLoop, hready]
    · simp [nextActionLoop, hholds]
    · simp [nextActionLoop, hplan]
  case hstop =>
    intro r rs i d h
    obtain ⟨hready, hholds, p, hplan, rfl⟩ := eq_of_dueAt h
    simp [nextActionLoop, hready, hholds, hplan]

/-- Run the rule that the walk found. -/
def runDue (x : Contracts σ) (w : World σ) (user : Address) (id accountId : ℕ)
    (route : Option Bytes) : Option (ℕ × Rule × Plan) → Except Err (Option Executed × World σ)
  | none => .ok (none, w)
  | some (idx, r, p) => do
    let (ex, w') ← run x user accountId id idx p route w
    .ok (some ex, fire user id idx ex ((w.reads x).evaluateRule user accountId r).2 w')

/-- **The tick's walk** runs the first rule that is due. -/
theorem tickLoop_eq (route : Option Bytes) (rules : List Rule) (idx : ℕ) :
    tickLoop x w user id accountId route rules idx =
      runDue x w user id accountId route (firstDue x w user id accountId rules idx) := by
  apply FirstMatch.loop_eq
  case hnil => exact fun _ => rfl
  case hskip =>
    intro r rs i h
    rcases cases_of_not_dueAt h with hready | hholds | hplan
    · simp [tickLoop, hready]
    · simp [tickLoop, hholds]
    · simp [tickLoop, hplan]
  case hstop =>
    intro r rs i d h
    obtain ⟨hready, hholds, p, hplan, rfl⟩ := eq_of_dueAt h
    simp only [tickLoop, hready, hholds, hplan, Bool.not_true, Bool.false_eq_true, if_false]
    rfl

/-- What a successful walk did: nothing, or it ran the first rule that was due and noted it. -/
lemma tickLoop_ok {route : Option Bytes} {rules : List Rule} {idx : ℕ} {done : Option Executed}
    {w₁ : World σ} (h : tickLoop x w user id accountId route rules idx = .ok (done, w₁)) :
    (firstDue x w user id accountId rules idx = none ∧ done = none ∧ w₁ = w) ∨
      ∃ i r p ex w₂ observed, firstDue x w user id accountId rules idx = some (i, r, p) ∧
        run x user accountId id i p route w = .ok (ex, w₂) ∧ done = some ex ∧
        w₁ = fire user id i ex observed w₂ := by
  rw [tickLoop_eq] at h
  cases hdue : firstDue x w user id accountId rules idx with
  | none =>
    rw [hdue] at h
    cases h
    exact .inl ⟨rfl, rfl, rfl⟩
  | some d =>
    obtain ⟨i, r, p⟩ := d
    rw [hdue] at h
    simp only [runDue, bind_eq_ok_iff, Prod.exists] at h
    obtain ⟨ex, w₂, hrun, hfire⟩ := h
    cases hfire
    exact .inr ⟨i, r, p, ex, w₂, _, rfl, hrun, rfl, rfl⟩

/-! ## What the walk found -/

lemma dueAt_iff {ap : Autopilot} {i : ℕ} : DueAt x w user id ap i ↔
    ∃ r, ap.rules[i]? = some r ∧ (dueAt x w user id ap.accountId i r).isSome := by
  simp only [DueAt, dueAt, Option.isSome_map, Reads.due_isSome_iff]
  rfl

/-- When the walk finds nothing, no rule is due. -/
lemma not_dueAt_of_firstDue {ap : Autopilot}
    (h : firstDue x w user id ap.accountId ap.rules 0 = none) (i : ℕ) :
    ¬DueAt x w user id ap i := by
  rw [dueAt_iff]
  rintro ⟨r, hr, hdue⟩
  have hnone := FirstMatch.find_eq_none h hr
  rw [Nat.zero_add] at hnone
  rw [hnone] at hdue
  cases hdue

/-- The walk finds the least index that is due, with that rule's plan. -/
lemma firstDue_spec {ap : Autopilot} {idx : ℕ} {r : Rule} {p : Plan}
    (h : firstDue x w user id ap.accountId ap.rules 0 = some (idx, r, p)) :
    IsLeast {i | DueAt x w user id ap i} idx ∧
      (w.reads x).plan user ap.accountId r.action = some p := by
  have hset : {i | DueAt x w user id ap i} = {i | ∃ r, ap.rules[i]? = some r ∧
      (dueAt x w user id ap.accountId i r).isSome} := Set.ext fun _ => dueAt_iff
  refine ⟨hset ▸ FirstMatch.isLeast_of_find h, ?_⟩
  obtain ⟨j, r', -, -, hdue, -⟩ := FirstMatch.find_eq_some h
  obtain ⟨-, -, p', hp', heq⟩ := eq_of_dueAt hdue
  cases heq
  exact hp'

/-- What a plan withdraws is already snapped. -/
lemma floorGrain_of_plan {rd : Reads} {a : Action} {p : Plan}
    (hp : rd.plan user accountId a = some p) (hsource : p.source.isSome) :
    floorGrain p.amount = p.amount := by
  cases a with
  | moveSupply fromHub toHub amt =>
    simp only [Reads.plan] at hp
    split_ifs at hp
    obtain rfl := Option.some.inj hp
    exact floorGrain_resolve _ _
  | withdrawToWallet hub amt =>
    simp only [Reads.plan] at hp
    split_ifs at hp
    obtain rfl := Option.some.inj hp
    exact floorGrain_resolve _ _
  | withdrawAndSwap hub tout amt slip =>
    simp only [Reads.plan] at hp
    split_ifs at hp
    obtain ⟨-, minOut, -, rfl⟩ := Reads.planSwap_some hp
    exact floorGrain_resolve _ _
  | repayWithCollateral fromHub hub amt =>
    simp only [Reads.plan, ← min_def_lt] at hp
    split_ifs at hp with hw
    obtain rfl := Option.some.inj hp
    have hpos := lt_of_lt_of_le (by decide : (0 : ℤ) < MIN_MOVE) (not_lt.mp hw)
    exact floorGrain_of_dvd hpos.le (dvd_min (dvd_resolve _ _) (rd.dvd_withdrawableIn _ _))
  | supplyFromWallet hub amt =>
    simp only [Reads.plan] at hp
    split_ifs at hp
    obtain rfl := Option.some.inj hp
    cases hsource
  | repayFromWallet hub amt =>
    simp only [Reads.plan] at hp
    split_ifs at hp
    all_goals
      obtain rfl := Option.some.inj hp
      cases hsource
  | swapFromWallet tin tout amt slip =>
    unfold Reads.plan at hp
    obtain ⟨-, minOut, -, rfl⟩ := Reads.planSwap_some hp
    cases hsource

/-! ## Refinement -/

variable (x w user) in
/-- Closing the agent's session succeeds here: no policy is set, or the policy's `end_session`
does not trap. -/
def SessionCloses : Prop :=
  ∀ policy, w.store.policy = some policy → (x.endSession policy user w.ext).isSome

variable (user w) in
/-- A tick that moved nothing: the router stored and published nothing, and called nothing but
the policy's `end_session`. -/
structure Idle (w' : World σ) : Prop where
  store : w'.store = w.store
  events : w'.events = w.events
  calls : w'.calls = w.calls ∨ ∃ policy, w'.calls = w.calls ++ [.endSession policy user]

variable (x w user id accountId) in
/-- A tick that acted on exactly the rule announced: it reports that rule and kind, and the
amount when withdrawals are exact; only that rule's cooldown started, and the events are one
`Fired` of that rule after its own swaps. -/
structure ActsOn (p : Planned) (ex : Executed) (w' : World σ) : Prop where
  index : ex.ruleIndex = p.ruleIndex
  kind : ex.kind = p.kind
  amount : WithdrawsExactly x user accountId w → ex.amount = p.amount
  store : w'.store = w.store.setLastFired user id p.ruleIndex (some w.ledger.sequence)
  events : ∃ swaps observed, w'.events = w.events ++ swaps ++ [.fired user id p.ruleIndex p.kind
      ex.amount ex.fromHub ex.toHub observed] ∧
    ∀ ev ∈ swaps, ∃ tin tout amount got minOut,
      ev = .swapped user id p.ruleIndex tin tout amount got minOut

/-- An authorized tick of a stored autopilot runs the first due rule and closes the session. -/
lemma tick_eq {ap : Autopilot} (hap : w.store.autopilot user id = some ap)
    (route : Option Bytes) : tick x true user id route w =
      (runDue x w user id ap.accountId route (firstDue x w user id ap.accountId ap.rules 0)) >>=
        fun d => closeSession x user d.2 >>= fun w' => .ok (d.1, w') := by
  simp only [tick, hap, tickLoop_eq]
  rfl

/-- The view of a stored autopilot reports the first due rule. -/
lemma nextAction_eq {ap : Autopilot} (hap : w.store.autopilot user id = some ap) :
    nextAction x w user id = .ok ((firstDue x w user id ap.accountId ap.rules 0).map
      fun d => d.2.2.planned w.store.config d.1) := by
  simp only [nextAction, hap, nextActionLoop_eq]

/-- With nothing due, a tick closes the session and returns `none`. -/
lemma tick_of_none {ap : Autopilot} (hap : w.store.autopilot user id = some ap)
    (hdue : firstDue x w user id ap.accountId ap.rules 0 = none) (route : Option Bytes) :
    tick x true user id route w = closeSession x user w >>= fun w' => .ok (none, w') := by
  rw [tick_eq hap, hdue]
  rfl

/-- Closing the session moves nothing. -/
lemma idle_of_closeSession {w' : World σ} (h : closeSession x user w = .ok w') :
    Idle w user w' := by
  obtain ⟨hstore, -, hevents, hpolicy⟩ := closeSession_ok h
  refine ⟨hstore, hevents, ?_⟩
  rcases hpolicy with ⟨-, rfl⟩ | ⟨policy, -, -, hcalls⟩
  · exact .inl rfl
  · exact .inr ⟨policy, hcalls⟩

/-- A session that closes leaves a world. -/
lemma closeSession_of_closes (h : SessionCloses x w user) :
    ∃ w', closeSession x user w = .ok w' := by
  unfold closeSession
  split
  · exact ⟨w, rfl⟩
  · next policy hp =>
    obtain ⟨s, hs⟩ := Option.isSome_iff_exists.mp (h policy hp)
    exact ⟨w.called (.endSession policy user) s, bind_eq_ok_iff.mpr
      ⟨s, invoke_eq_ok_iff.mpr hs, rfl⟩⟩

/-- With a rule due, every successful tick acts on it. -/
lemma tick_of_some {ap : Autopilot} {idx : ℕ} {r : Rule} {p : Plan} {route : Option Bytes}
    {done : Option Executed} {w' : World σ} (hap : w.store.autopilot user id = some ap)
    (hdue : firstDue x w user id ap.accountId ap.rules 0 = some (idx, r, p))
    (h : tick x true user id route w = .ok (done, w')) :
    ∃ ex, done = some ex ∧
      ActsOn x w user id ap.accountId (p.planned w.store.config idx) ex w' := by
  rw [tick_eq hap, hdue] at h
  obtain ⟨⟨done', w₂⟩, hrun, h⟩ := bind_eq_ok_iff.mp h
  obtain ⟨w₃, hclose, h⟩ := bind_eq_ok_iff.mp h
  cases h
  simp only [runDue, bind_eq_ok_iff, Prod.exists] at hrun
  obtain ⟨ex, w₁, hrun, hfire⟩ := hrun
  cases hfire
  have hok := run_ok hrun
  obtain ⟨hstore, -, hevents, -⟩ := closeSession_ok hclose
  have hidx := p.planned_ruleIndex w.store.config idx
  refine ⟨ex, rfl, hok.index.trans hidx.symm, hok.kind, ?_, ?_, ?_⟩
  · intro hx
    rw [run_amount hx (floorGrain_of_plan (firstDue_spec hdue).2) hrun, Plan.planned_amount]
  · rw [hstore, fire_store, hok.store, hok.ledger, hidx]
  · obtain ⟨swaps, hswaps, hown⟩ := hok.events
    rw [hidx]
    refine ⟨swaps, ((w.reads x).evaluateRule user ap.accountId r).2.map (·.observed), ?_, hown⟩
    rw [hevents, ← hok.kind, ← hswaps, ← hok.index]
    rfl

/-- **What a successful tick did**: nothing was due and it moved nothing, or it acted on the first
rule that was due. -/
lemma tick_cases {auth : Bool} {route : Option Bytes} {done : Option Executed} {w' : World σ}
    (h : tick x auth user id route w = .ok (done, w')) :
    ∃ ap, w.store.autopilot user id = some ap ∧ (done = none ∧ Idle w user w' ∨
      ∃ idx r p ex, firstDue x w user id ap.accountId ap.rules 0 = some (idx, r, p) ∧
        done = some ex ∧ ActsOn x w user id ap.accountId (p.planned w.store.config idx) ex w') := by
  obtain ⟨rfl, ap, w₁, hap, -, -⟩ := tick_ok h
  refine ⟨ap, hap, ?_⟩
  cases hdue : firstDue x w user id ap.accountId ap.rules 0 with
  | none =>
    rw [tick_of_none hap hdue] at h
    obtain ⟨w₂, hclose, h⟩ := bind_eq_ok_iff.mp h
    cases h
    exact .inl ⟨rfl, idle_of_closeSession hclose⟩
  | some d =>
    obtain ⟨idx, r, p⟩ := d
    obtain ⟨ex, hdone, hacts⟩ := tick_of_some hap hdue h
    exact .inr ⟨idx, r, p, ex, rfl, hdone, hacts⟩

/-- Closing the session never fails for want of a route. -/
lemma closeSession_ne_routeRequired :
    closeSession x user w ≠ .error (.router .routeRequired) := by
  intro h
  unfold closeSession at h
  split at h
  · cases h
  · rcases bind_eq_error_iff.mp h with h | ⟨s, -, h⟩
    · cases invoke_eq_error h
    · cases h

/-- With a rule due, a tick without a route fails for want of one exactly when the rule's plan
is a swap. -/
lemma tick_routeRequired_iff {ap : Autopilot} {idx : ℕ} {r : Rule} {p : Plan}
    (hap : w.store.autopilot user id = some ap)
    (hdue : firstDue x w user id ap.accountId ap.rules 0 = some (idx, r, p)) :
    tick x true user id none w = .error (.router .routeRequired) ↔
      (p.planned w.store.config idx).needsRoute = true := by
  have hrun : run x user ap.accountId id idx p none w = .error (.router .routeRequired) ↔
      (p.planned w.store.config idx).needsRoute = true := run_routeRequired_iff
  rw [tick_eq hap, hdue, ← hrun]
  constructor
  · intro h
    rcases bind_eq_error_iff.mp h with h | ⟨⟨done, w'⟩, -, h⟩
    · rcases bind_eq_error_iff.mp h with h | ⟨_, -, h⟩
      · exact h
      · cases h
    · rcases bind_eq_error_iff.mp h with h | ⟨_, -, h⟩
      · exact absurd h closeSession_ne_routeRequired
      · cases h
  · intro h
    exact bind_eq_error_iff.mpr (.inl (bind_eq_error_iff.mpr (.inl h)))

/-- **`next_action` refines `tick`**: for a stored autopilot and an authorized call, in every
world,

* when a tick returns `none`, `next_action` answers `none`; when it answers `none`, a tick that
  does not fail returns `none`, and no tick fails as long as closing the session succeeds; either
  way the tick moves nothing;
* when it answers `p`, that is the least index whose rule is due, every successful tick acts on
  exactly that rule, and `p` needs a route exactly when a tick without one fails for want of it.

**Proof sketch.** Both walks are `firstDue` (`nextActionLoop_eq`, `tickLoop_eq`). When it finds
nothing, the tick only closes the session; when it finds a rule, `run_ok`, `run_amount` and
`run_routeRequired_iff` say what running that rule's plan does. -/
theorem nextAction_refines_tick {ap : Autopilot} (hap : w.store.autopilot user id = some ap) :
    (∀ route w', tick x true user id route w = .ok (none, w') →
      nextAction x w user id = .ok none ∧ Idle w user w') ∧
    (nextAction x w user id = .ok none → ∀ route,
      (∀ done w', tick x true user id route w = .ok (done, w') →
        done = none ∧ Idle w user w') ∧
      (SessionCloses x w user → ∃ w', tick x true user id route w = .ok (none, w'))) ∧
    ∀ p, nextAction x w user id = .ok (some p) →
      IsLeast {i | DueAt x w user id ap i} p.ruleIndex ∧
      (∀ route done w', tick x true user id route w = .ok (done, w') →
        ∃ ex, done = some ex ∧ ActsOn x w user id ap.accountId p ex w') ∧
      (p.needsRoute = true ↔
        tick x true user id none w = .error (.router .routeRequired)) := by
  have hnext := nextAction_eq (x := x) hap
  cases hdue : firstDue x w user id ap.accountId ap.rules 0 with
  | none =>
    rw [hdue, Option.map_none] at hnext
    have hidle : ∀ route done w', tick x true user id route w = .ok (done, w') →
        done = none ∧ Idle w user w' := by
      intro route done w' h
      rw [tick_of_none hap hdue] at h
      obtain ⟨w₁, hclose, h⟩ := bind_eq_ok_iff.mp h
      cases h
      exact ⟨rfl, idle_of_closeSession hclose⟩
    refine ⟨?_, ?_, ?_⟩
    · intro route w' h
      exact ⟨hnext, (hidle route none w' h).2⟩
    · intro _ route
      refine ⟨hidle route, ?_⟩
      intro hcloses
      obtain ⟨w', hw'⟩ := closeSession_of_closes hcloses
      refine ⟨w', ?_⟩
      rw [tick_of_none hap hdue, hw']
      rfl
    · intro p hp
      rw [hnext] at hp
      cases hp
  | some d =>
    obtain ⟨idx, r, p⟩ := d
    rw [hdue, Option.map_some] at hnext
    refine ⟨?_, ?_, ?_⟩
    · intro route w' h
      obtain ⟨ex, hex, -⟩ := tick_of_some hap hdue h
      cases hex
    · intro h
      rw [hnext] at h
      cases h
    · intro p' hp'
      rw [hnext] at hp'
      cases hp'
      rw [Plan.planned_ruleIndex]
      refine ⟨(firstDue_spec hdue).1, ?_, (tick_routeRequired_iff hap hdue).symm⟩
      intro route done w' h
      exact tick_of_some hap hdue h

/-- Contracts that answer as the illiquid hub does and allow every call. -/
def illiquidContracts : Contracts Unit where
  answers := fun _ => Reads.illiquidHub.e
  withdraw := fun _ _ _ ws _ _ => some (ws, ())
  supply := fun _ _ accountId _ _ _ => some (accountId, ())
  repay := fun _ _ _ _ _ => some ()
  executeStrategy := fun _ _ totalIn _ _ => some (totalIn, ())
  endSession := fun _ _ _ => some ()
  fromXdr := fun _ => none

/-- A repayment that is on cooldown, and a move out of the illiquid hub. -/
def illiquidAutopilot : Autopilot where
  accountId := 12
  rules :=
    [⟨[.healthFactor .below 1200000000000000000], true, .repayWithCollateral 1 1 .all, 100⟩,
      ⟨[.healthFactor .below 1200000000000000000], true, .moveSupply 1 2 .all, 100⟩]

/-- A router with that autopilot, whose first rule fired ten ledgers ago. -/
def illiquidWorld : World Unit where
  store :=
    { Storage.init "admin" Reads.illiquidHub.cfg with
      autopilot := fun _ _ => some illiquidAutopilot
      lastFired := fun _ _ i => if i = 0 then some 990 else none }
  ledger := Reads.illiquidHub.ledger
  ext := ()
  events := []
  calls := []

/-- There the next action is the move, rule 1, and that is what a tick does. -/
theorem nextAction_refines_tick_illiquidHub :
    nextAction illiquidContracts illiquidWorld "wallet" 1 =
      .ok (some ⟨1, kindMoveSupply, 299900000, false, "usdc", "usdc", 0⟩) ∧
    IsLeast {i | DueAt illiquidContracts illiquidWorld "wallet" 1 illiquidAutopilot i} 1 ∧
    ∀ route done w', tick illiquidContracts true "wallet" 1 route illiquidWorld = .ok (done, w') →
      ∃ ex, done = some ex ∧ ex.ruleIndex = 1 ∧ ex.kind = kindMoveSupply ∧
        ex.amount = 299900000 := by
  have hnext : nextAction illiquidContracts illiquidWorld "wallet" 1 =
      .ok (some ⟨1, kindMoveSupply, 299900000, false, "usdc", "usdc", 0⟩) := rfl
  have hexact : WithdrawsExactly illiquidContracts "wallet" 12 illiquidWorld := by
    intro hub amount got s h
    cases h
    rfl
  have hap : illiquidWorld.store.autopilot "wallet" 1 = some illiquidAutopilot := rfl
  obtain ⟨-, -, h⟩ := nextAction_refines_tick hap
  obtain ⟨hleast, hacts, -⟩ := h _ hnext
  refine ⟨hnext, hleast, ?_⟩
  intro route done w' htick
  obtain ⟨ex, hdone, hex⟩ := hacts route done w' htick
  exact ⟨ex, hdone, hex.index, hex.kind, hex.amount hexact⟩

end Koul.Router
