import Koul.Agent.Grant
import Koul.Core.Codec
import Koul.Policy.RateLimit
import Koul.Router.Refinement

set_option relaxedAutoImplicit false
set_option autoImplicit false

/-!
# The authorization tree of a tick

What the wallet is asked to authorize when its autopilot ticks, and that a grant which covers the
autopilot allows all of it. The controller and the aggregator are called with the wallet's
authorization, and pull tokens from the wallet: the controller's `supply` and `repay` send USDC to
the pool, `execute_strategy` sends the input token to the aggregator.

## Main definitions

* `Koul.Agent.contexts` — what a call of the router asks the wallet to authorize.
* `Koul.Agent.tickTree` — the tree of a tick that runs a plan, in order.
* `Koul.Agent.enforceAll` — `enforce` on the contexts of a tree, one after another.
* `Koul.Agent.PlanCalls` — the calls that a run of a plan can make.

## Main results

* `Koul.Agent.planCalls_of_run` — a successful run of a plan makes such calls.
* `Koul.Agent.enforceAll_tickTree` — a tree whose contexts are all allowed passes, up to the rate
  limit.
* `Koul.Agent.coveringGrant_passes` — under a covering grant every tick's tree does.
-/

namespace Koul.Agent

open Policy Router Transactional
open Koul.Core (needsWithdraw needsSupply needsRepay swapInputs unionOf bigInt encodeAction
  PermissionContracts)

/-! ## What a tick asks for -/

def hubAssetVal (k : HubAssetKey) : Val :=
  .map [(⟨"asset", by decide, by decide⟩, .address k.asset),
    (⟨"hub_id", by decide, by decide⟩, .u32 k.hubId)]

def paymentsVal (ps : List (HubAssetKey × ℤ)) : Val :=
  .vec (ps.map fun (k, amount) => .vec [hubAssetVal k, .i128 amount])

def optionVal {α : Type} (f : α → Val) : Option α → Val
  | none => .void
  | some a => f a

/-- A transfer of a token out of the wallet. -/
def transferContext (token sender recipient : Address) (amount : ℤ) : ContractContext :=
  ⟨token, .transfer, [.address sender, .address recipient, .i128 amount]⟩

/-- What a call of the router asks its caller to authorize: the call, and the tokens that the
callee pulls, of which `pulled` says how much. Closing the session takes the router's own
authorization. -/
def contexts (pool tokenIn : Address) (pulled : ℤ → ℤ) : Call → List ContractContext
  | .withdraw controller caller accountId withdrawals toAddr =>
    [⟨controller, .withdraw, [.address caller, .u64 accountId, paymentsVal withdrawals,
      optionVal .address toAddr]⟩]
  | .supply controller caller accountId spokeId assets =>
    ⟨controller, .supply, [.address caller, .u64 accountId, .u32 spokeId, paymentsVal assets]⟩ ::
      assets.map fun (k, amount) => transferContext k.asset caller pool (pulled amount)
  | .repay controller caller accountId payments =>
    ⟨controller, .repay, [.address caller, .u64 accountId, paymentsVal payments]⟩ ::
      payments.map fun (k, amount) => transferContext k.asset caller pool (pulled amount)
  | .executeStrategy aggregator sender totalIn swapXdr =>
    [⟨aggregator, .executeStrategy, [.address sender, .i128 totalIn, .bytes swapXdr]⟩,
      transferContext tokenIn sender aggregator (pulled totalIn)]
  | .endSession .. => []

/-- The wallet's authorization tree of a tick, in order: `tick` itself, and what the calls of its
plan ask for. -/
def tickTree (router : Address) (cfg : Config) (user : Address) (id : ℕ) (route : Option Bytes)
    (pulled : ℤ → ℤ) (p : Plan) (calls : List Call) : List ContractContext :=
  ⟨router, .tick, [.address user, .u32 id, optionVal .bytes route]⟩ ::
    calls.flatMap (contexts cfg.pool (p.planned cfg 0).tokenIn pulled)

/-- Only the root of the tree is a `tick`. -/
lemma fnName_of_mem_contexts {pool tokenIn : Address} {pulled : ℤ → ℤ} {call : Call}
    {c : ContractContext} (hc : c ∈ contexts pool tokenIn pulled call) : c.fnName ≠ .tick := by
  have hwithdraw : Symbol.withdraw ≠ .tick := by decide
  have hsupply : Symbol.supply ≠ .tick := by decide
  have hrepay : Symbol.repay ≠ .tick := by decide
  have hstrategy : Symbol.executeStrategy ≠ .tick := by decide
  have htransfer : Symbol.transfer ≠ .tick := by decide
  cases call with
  | withdraw controller caller accountId withdrawals toAddr =>
    obtain rfl := List.mem_singleton.mp hc
    exact hwithdraw
  | supply controller caller accountId spokeId assets =>
    rcases List.mem_cons.mp hc with rfl | hc
    · exact hsupply
    · obtain ⟨_, -, rfl⟩ := List.mem_map.mp hc
      exact htransfer
  | repay controller caller accountId payments =>
    rcases List.mem_cons.mp hc with rfl | hc
    · exact hrepay
    · obtain ⟨_, -, rfl⟩ := List.mem_map.mp hc
      exact htransfer
  | executeStrategy aggregator sender totalIn swapXdr =>
    rcases List.mem_cons.mp hc with rfl | hc
    · exact hstrategy
    · obtain rfl := List.mem_singleton.mp hc
      exact htransfer
  | endSession policy smartAccount => cases hc

/-- The calls that a run of a plan can make, whatever its withdrawal returned and whatever route
the keeper brought. -/
def PlanCalls (st : Storage) (user : Address) (accountId : ℕ) (p : Plan) (calls : List Call) :
    Prop :=
  ∃ aggregator route received,
    (∀ tin tout amount minOut hub, p = .swap tin tout amount minOut hub →
      st.aggregator = some aggregator) ∧
    calls = p.calls st.config aggregator user accountId route received

/-- A successful run of a plan makes calls that the plan can make. -/
theorem planCalls_of_run {σ : Type} {x : Contracts σ} {user : Address}
    {accountId id ruleIndex : ℕ} {p : Plan} {route : Option Bytes} {w w' : World σ}
    {ex : Executed} (h : run x user accountId id ruleIndex p route w = .ok (ex, w')) :
    ∃ calls, w'.calls = w.calls ++ calls ∧ PlanCalls w.store user accountId p calls := by
  obtain ⟨aggregator, bytes, received, hswap, hcalls⟩ := (run_ok h).calls
  refine ⟨_, hcalls, aggregator, bytes, received, ?_, rfl⟩
  intro tin tout amount minOut hub hp
  exact (hswap tin tout amount minOut hub hp).1

/-! ## Passing a tree -/

/-- `enforce` on the contexts of a tree, one after another. -/
def enforceAll (now : ℕ) (auth : Address → Bool) (signers : List Signer) (rule : ContextRule)
    (a : Address) : List ContractContext → State → Except Policy.Err State
  | [], s => .ok s
  | c :: cs, s => do
    let s ← enforce now auth (.contract c) signers rule a s
    enforceAll now auth signers rule a cs s

/-- The allowlist and the checks on a call's arguments allow it. -/
structure Allowed (p : KoulAgentParams) (a : Address) (c : ContractContext) : Prop where
  call : p.allows c = true
  args : checkArgs p a c.fnName c.args = .ok ()

/-- Passing a tree is up to the rate limit alone: nothing else refuses it, and with room for all
its contexts in the window it passes. -/
structure OnlyRateLimited (now : ℕ) (auth : Address → Bool) (signers : List Signer)
    (rule : ContextRule) (a : Address) (p : KoulAgentParams) (tree : List ContractContext)
    (s : State) : Prop where
  error : ∀ e, enforceAll now auth signers rule a tree s = .error e → e = .policy .rateLimited
  room : (windowAt p now (s.window a rule.id)).calls + tree.length ≤ p.maxCallsPerWindow →
    ∃ s', enforceAll now auth signers rule a tree s = .ok s'

variable {p : KoulAgentParams} {a : Address} {now : ℕ} {auth : Address → Bool}
  {signers : List Signer} {rule : ContextRule} {s : State} {c : ContractContext}
  {tree : List ContractContext}

/-- Counting a call in the same ledger adds one. -/
lemma windowAt_countCall {w : Option WindowState} {w' : WindowState}
    (h : countCall p now w = .ok w') :
    (windowAt p now (some w')).calls ≤ (windowAt p now w).calls + 1 := by
  simp only [countCall] at h
  split_ifs at h
  cases h
  simp only [windowAt, Option.getD_some]
  split_ifs <;> simp

/-- A count that is refused is rate limited, for want of room. -/
lemma countCall_error {w : Option WindowState} {e : Policy.Err}
    (h : countCall p now w = .error e) :
    e = .policy .rateLimited ∧ p.maxCallsPerWindow < (windowAt p now w).calls + 1 := by
  simp only [countCall] at h
  split_ifs at h with hfull
  cases h
  exact ⟨rfl, hfull⟩

/-- **One context**: an allowed context, in a session that it does not leave, passes up to the
rate limit, and the rest of the tree follows in a state where the same parameters and session
hold and one more call is counted. -/
lemma onlyRateLimited_cons {s₁ : State} (hauth : auth a = true) (hsigners : signers ≠ [])
    (hp : s.params a rule.id = some p) (hc : Allowed p a c)
    (hsession : enterSession now c a s = .ok s₁)
    (hrest : ∀ w, countCall p now (s.window a rule.id) = .ok w →
      OnlyRateLimited now auth signers rule a p tree (s₁.counted a rule c w)) :
    OnlyRateLimited now auth signers rule a p (c :: tree) s := by
  have hstep : enforceAll now auth signers rule a (c :: tree) s =
      countCall p now (s.window a rule.id) >>= fun w =>
        enforceAll now auth signers rule a tree (s₁.counted a rule c w) := by
    rw [enforceAll, enforce_of_checks hauth hsigners hp hc.call hsession hc.args,
      (enterSession_frame hsession).2]
    cases countCall p now (s.window a rule.id) with
    | error e => rfl
    | ok w => rfl
  cases hcount : countCall p now (s.window a rule.id) with
  | error e =>
    obtain ⟨rfl, hfull⟩ := countCall_error hcount
    rw [hcount] at hstep
    constructor
    · intro e he
      rw [hstep] at he
      cases he
      rfl
    · intro hroom
      rw [List.length_cons] at hroom
      omega
  | ok w =>
    rw [hcount] at hstep
    have htree := hrest w hcount
    constructor
    · intro e he
      exact htree.error e (hstep.symm.trans he)
    · intro hroom
      have hone := windowAt_countCall hcount
      rw [List.length_cons] at hroom
      obtain ⟨s', hs'⟩ := htree.room (by rw [counted_window_self]; omega)
      exact ⟨s', hstep.trans hs'⟩

/-- Inside a session, allowed contexts pass up to the rate limit. -/
lemma onlyRateLimited_of_session (hauth : auth a = true) (hsigners : signers ≠ [])
    (hallowed : ∀ c ∈ tree, Allowed p a c ∧ c.fnName ≠ .tick)
    (hp : s.params a rule.id = some p) {ses : Session} (hses : s.session a = some ses)
    (hledger : ses.ledger = now) : OnlyRateLimited now auth signers rule a p tree s := by
  induction tree generalizing s with
  | nil =>
    constructor
    · intro e h
      cases h
    · intro _
      exact ⟨s, rfl⟩
  | cons c cs ih =>
    obtain ⟨hc, hcs⟩ := List.forall_mem_cons.mp hallowed
    refine onlyRateLimited_cons hauth hsigners hp hc.1 (enterSession_open hc.2 hses hledger) ?_
    intro w _
    exact ih hcs hp hses

/-- **A tick's tree** whose contexts are all allowed passes, up to the rate limit: `tick` opens
the session that the others need. -/
theorem enforceAll_tickTree (hauth : auth a = true) (hsigners : signers ≠ [])
    (hp : s.params a rule.id = some p) (htick : c.fnName = .tick) (hc : Allowed p a c)
    (hallowed : ∀ c ∈ tree, Allowed p a c ∧ c.fnName ≠ .tick) :
    OnlyRateLimited now auth signers rule a p (c :: tree) s := by
  refine onlyRateLimited_cons hauth hsigners hp hc (enterSession_tick htick) ?_
  intro w _
  have hses : ((s.setSession a (some ⟨c.contract, now⟩)).counted a rule c w).session a =
      some ⟨c.contract, now⟩ := if_pos rfl
  exact onlyRateLimited_of_session hauth hsigners hallowed hp hses rfl

/-! ## Under a covering grant -/

/-- The router is deployed as the configuration says: around the same controller, pool and asset,
and with the same aggregator once it has one. -/
structure Deployed (contracts : PermissionContracts) (st : Storage) : Prop where
  controller : st.config.controller = contracts.controller
  pool : st.config.pool = contracts.pool
  usdc : st.config.usdc = contracts.usdc
  aggregator : ∀ g, st.aggregator = some g → contracts.aggregator = some g

/-- The parameters allow all that an autopilot needs, for its account. -/
structure Covers (contracts : PermissionContracts) (ap : Core.Autopilot) (p : KoulAgentParams) :
    Prop where
  account : bigInt ap.accountId = p.accountId
  calls : ∀ call ∈ (unionOf ap contracts).allowedCalls, call ∈ p.allowedCalls
  recipients : ∀ r ∈ (unionOf ap contracts).transferRecipients, r ∈ p.allowedTransferRecipients

variable {contracts : PermissionContracts} {ap : Core.Autopilot} {st : Storage} {user : Address}
  {pool tokenIn : Address} {pulled : ℤ → ℤ}

lemma covers_of_grantCovers (h : grantCovers contracts (readAgentParams (some p)) ap = .ok true) :
    Covers contracts ap p := by
  obtain ⟨-, haccount, hcalls, hrecipients⟩ := grantCovers_iff.mp h
  exact ⟨by rw [← haccount, Core.bigInt_repr], hcalls, hrecipients⟩

namespace Covers

variable (h : Covers contracts ap p)
include h

/-- The tick is allowed. -/
lemma tick (args : List Val) : Allowed p user ⟨contracts.router, .tick, args⟩ := by
  have hcall := h.calls (contracts.router, .tick) (Core.mem_allowedCalls_iff.mpr (.inl ⟨rfl, rfl⟩))
  exact ⟨allows_iff.mpr hcall, checkArgs_tick⟩

/-- A transfer of a needed token to a needed recipient is allowed. -/
lemma transfer {token recipient : Address} {amount : ℤ}
    (htoken : token ∈ Core.transferTokens ap contracts)
    (hrecipient : recipient ∈ (unionOf ap contracts).transferRecipients) :
    Allowed p user (transferContext token user recipient amount) := by
  have hcall := h.calls (token, .transfer) (Core.mem_allowedCalls_iff.mpr
    (.inr (.inr (.inr (.inr (.inr ⟨htoken, rfl⟩))))))
  refine ⟨allows_iff.mpr hcall, ?_⟩
  exact checkArgs_transfer.mpr ⟨_, _, recipient, rfl, h.recipients recipient hrecipient⟩

/-- USDC may go to the pool when a rule supplies or repays. -/
lemma toPool (hdep : Deployed contracts st) (hneeds : (needsSupply ap || needsRepay ap) = true)
    {amount : ℤ} :
    Allowed p user (transferContext st.config.usdc user st.config.pool amount) := by
  refine h.transfer ?_ ?_
  · rw [hdep.usdc]
    exact Core.mem_transferTokens_iff.mpr (.inl ⟨hneeds, rfl⟩)
  · rw [hdep.pool]
    exact Core.mem_transferRecipients_iff.mpr (.inl ⟨hneeds, rfl⟩)

/-- What a withdrawal to the wallet asks for is allowed when a rule withdraws. -/
lemma withdrawCall (hdep : Deployed contracts st) (hneeds : needsWithdraw ap = true) {hub : ℕ}
    {amount : ℤ} : ∀ c ∈ contexts pool tokenIn pulled
      (withdrawCall st.config user (bigInt ap.accountId) hub amount),
      Allowed p user c := by
  intro c hc
  obtain rfl := List.mem_singleton.mp hc
  have hcall := h.calls (st.config.controller, .withdraw) (Core.mem_allowedCalls_iff.mpr
    (.inr (.inl ⟨hneeds, hdep.controller, rfl⟩)))
  refine ⟨allows_iff.mpr hcall, ?_⟩
  rw [h.account]
  exact checkArgs_withdraw.mpr ⟨_, _, _, rfl, .inr rfl⟩

/-- What a supply asks for is allowed when a rule supplies. -/
lemma supplyCall (hdep : Deployed contracts st) (hneeds : needsSupply ap = true) {hub : ℕ}
    {amount : ℤ} : ∀ c ∈ contexts st.config.pool tokenIn pulled
      (supplyCall st.config user (bigInt ap.accountId) hub amount),
      Allowed p user c := by
  intro c hc
  rcases List.mem_cons.mp hc with rfl | hc
  · have hcall := h.calls (st.config.controller, .supply) (Core.mem_allowedCalls_iff.mpr
      (.inr (.inr (.inl ⟨hneeds, hdep.controller, rfl⟩))))
    refine ⟨allows_iff.mpr hcall, ?_⟩
    rw [h.account]
    exact checkArgs_supply.mpr ⟨rfl, rfl⟩
  · obtain rfl := List.mem_singleton.mp hc
    exact h.toPool hdep (by rw [hneeds, Bool.true_or])

/-- What a repayment asks for is allowed when a rule repays. -/
lemma repayCall (hdep : Deployed contracts st) (hneeds : needsRepay ap = true) {hub : ℕ}
    {amount : ℤ} : ∀ c ∈ contexts st.config.pool tokenIn pulled
      (repayCall st.config user (bigInt ap.accountId) hub amount),
      Allowed p user c := by
  intro c hc
  rcases List.mem_cons.mp hc with rfl | hc
  · have hcall := h.calls (st.config.controller, .repay) (Core.mem_allowedCalls_iff.mpr
      (.inr (.inr (.inr (.inl ⟨hneeds, hdep.controller, rfl⟩)))))
    refine ⟨allows_iff.mpr hcall, ?_⟩
    rw [h.account]
    exact checkArgs_repay.mpr ⟨rfl, rfl⟩
  · obtain rfl := List.mem_singleton.mp hc
    exact h.toPool hdep (by rw [hneeds, Bool.or_true])

/-- What a swap asks for is allowed when a rule swaps its input. -/
lemma executeStrategy {aggregator : Address} (hagg : contracts.aggregator = some aggregator)
    (htoken : tokenIn ∈ swapInputs ap contracts) {totalIn : ℤ} {swapXdr : Bytes} :
    ∀ c ∈ contexts pool tokenIn pulled (.executeStrategy aggregator user totalIn swapXdr),
      Allowed p user c := by
  have hswaps : swapInputs ap contracts ≠ [] := List.ne_nil_of_mem htoken
  intro c hc
  rcases List.mem_cons.mp hc with rfl | hc
  · have hcall := h.calls (aggregator, .executeStrategy) (Core.mem_allowedCalls_iff.mpr
      (.inr (.inr (.inr (.inr (.inl ⟨hswaps, hagg, rfl⟩))))))
    refine ⟨allows_iff.mpr hcall, ?_⟩
    exact checkArgs_executeStrategy.mpr ⟨rfl, rfl⟩
  · obtain rfl := List.mem_singleton.mp hc
    refine h.transfer ?_ ?_
    · exact Core.mem_transferTokens_iff.mpr (.inr htoken)
    · exact Core.mem_transferRecipients_iff.mpr (.inr ⟨hswaps, hagg⟩)

end Covers

/-- The plans that an action can resolve to. -/
def Resolves (usdc : Address) (p : Plan) : Router.Action → Prop
  | .moveSupply fromHub toHub _ => ∃ w, p = .move fromHub toHub w
  | .supplyFromWallet hub _ => ∃ w, p = .supply hub w
  | .repayFromWallet hub _ => ∃ w, p = .repayWallet hub w
  | .repayWithCollateral fromHub hub _ => ∃ w, p = .repayCollateral fromHub hub w
  | .withdrawToWallet hub _ => ∃ w, p = .withdraw hub w
  | .swapFromWallet tin tout _ _ => ∃ w minOut, p = .swap tin tout w minOut none
  | .withdrawAndSwap hub tout _ _ => ∃ w minOut, p = .swap usdc tout w minOut (some hub)

lemma resolves_of_plan {rd : Reads} {accountId : ℕ} {act : Router.Action} {p : Plan}
    (h : rd.plan user accountId act = some p) : Resolves rd.cfg.usdc p act := by
  cases act with
  | moveSupply fromHub toHub amt =>
    simp only [Reads.plan] at h
    split_ifs at h
    exact ⟨_, (Option.some.inj h).symm⟩
  | supplyFromWallet hub amt =>
    simp only [Reads.plan] at h
    split_ifs at h
    exact ⟨_, (Option.some.inj h).symm⟩
  | repayFromWallet hub amt =>
    simp only [Reads.plan] at h
    split_ifs at h <;> exact ⟨_, (Option.some.inj h).symm⟩
  | repayWithCollateral fromHub hub amt =>
    simp only [Reads.plan] at h
    split_ifs at h <;> exact ⟨_, (Option.some.inj h).symm⟩
  | withdrawToWallet hub amt =>
    simp only [Reads.plan] at h
    split_ifs at h
    exact ⟨_, (Option.some.inj h).symm⟩
  | swapFromWallet tin tout amt slip =>
    obtain ⟨-, minOut, -, hp⟩ := Reads.planSwap_some h
    exact ⟨_, minOut, hp⟩
  | withdrawAndSwap hub tout amt slip =>
    simp only [Reads.plan] at h
    split_ifs at h
    obtain ⟨-, minOut, -, hp⟩ := Reads.planSwap_some h
    exact ⟨_, minOut, hp⟩

/-- A rule of the autopilot has its tag among the tags. -/
lemma needs_of_mem {r : Core.Rule} (hr : r ∈ ap.rules) :
    (r.action.type = .moveSupply ∨ r.action.type = .repayWithCollateral ∨
      r.action.type = .withdrawToWallet ∨ r.action.type = .withdrawAndSwap →
        needsWithdraw ap = true) ∧
    (r.action.type = .moveSupply ∨ r.action.type = .supplyFromWallet → needsSupply ap = true) ∧
    (r.action.type = .repayFromWallet ∨ r.action.type = .repayWithCollateral →
      needsRepay ap = true) := by
  have hkind := Core.hasKind_of_mem hr
  refine ⟨?_, ?_, ?_⟩
  · rintro (h | h | h | h) <;> rw [h] at hkind <;> simp [needsWithdraw, hkind]
  · rintro (h | h) <;> rw [h] at hkind <;> simp [needsSupply, hkind]
  · rintro (h | h) <;> rw [h] at hkind <;> simp [needsRepay, hkind]

/-- **Every call of a plan** that a rule of the autopilot resolves to asks only for what a
covering grant allows. -/
lemma allowed_of_planCalls (h : Covers contracts ap p) (hdep : Deployed contracts st)
    {r : Core.Rule} (hr : r ∈ ap.rules) {plan : Plan} {calls : List Call}
    (hplan : Resolves st.config.usdc plan (encodeAction r.action))
    (hcalls : PlanCalls st user (bigInt ap.accountId) plan calls) :
    ∀ call ∈ calls, ∀ c ∈ contexts st.config.pool (plan.planned st.config 0).tokenIn pulled call,
      Allowed p user c := by
  obtain ⟨aggregator, route, received, hagg, rfl⟩ := hcalls
  obtain ⟨hwithdraw, hsupply, hrepay⟩ := needs_of_mem hr
  have hinput : ∀ t ∈ r.action.swapInput contracts, t ∈ swapInputs ap contracts :=
    fun t ht => Core.mem_swapInputs_iff.mpr ⟨r, hr, ht⟩
  cases hact : r.action with
  | moveSupply fromHub toHub amt =>
    rw [hact] at hplan hwithdraw hsupply
    obtain ⟨w, rfl⟩ := hplan
    refine List.forall_mem_cons.mpr ⟨?_, List.forall_mem_singleton.mpr ?_⟩
    · exact h.withdrawCall hdep (hwithdraw (.inl rfl))
    · exact h.supplyCall hdep (hsupply (.inl rfl))
  | supplyFromWallet hub amt =>
    rw [hact] at hplan hsupply
    obtain ⟨w, rfl⟩ := hplan
    exact List.forall_mem_singleton.mpr (h.supplyCall hdep (hsupply (.inr rfl)))
  | repayFromWallet hub amt =>
    rw [hact] at hplan hrepay
    obtain ⟨w, rfl⟩ := hplan
    exact List.forall_mem_singleton.mpr (h.repayCall hdep (hrepay (.inl rfl)))
  | repayWithCollateral fromHub hub amt =>
    rw [hact] at hplan hwithdraw hrepay
    obtain ⟨w, rfl⟩ := hplan
    refine List.forall_mem_cons.mpr ⟨?_, List.forall_mem_singleton.mpr ?_⟩
    · exact h.withdrawCall hdep (hwithdraw (.inr (.inl rfl)))
    · exact h.repayCall hdep (hrepay (.inr rfl))
  | withdrawToWallet hub amt =>
    rw [hact] at hplan hwithdraw
    obtain ⟨w, rfl⟩ := hplan
    exact List.forall_mem_singleton.mpr
      (h.withdrawCall hdep (hwithdraw (.inr (.inr (.inl rfl)))))
  | swapFromWallet tin tout amt slip =>
    rw [hact] at hplan hinput
    obtain ⟨w, minOut, rfl⟩ := hplan
    have hg := hdep.aggregator aggregator (hagg _ _ _ _ _ rfl)
    exact List.forall_mem_singleton.mpr
      (h.executeStrategy hg (hinput tin (List.mem_singleton.mpr rfl)))
  | withdrawAndSwap hub tout amt slip =>
    rw [hact] at hplan hwithdraw hinput
    obtain ⟨w, minOut, rfl⟩ := hplan
    have hg := hdep.aggregator aggregator (hagg _ _ _ _ _ rfl)
    refine List.forall_mem_cons.mpr ⟨?_, List.forall_mem_singleton.mpr ?_⟩
    · exact h.withdrawCall hdep (hwithdraw (.inr (.inr (.inr rfl))))
    · refine h.executeStrategy hg (hinput _ ?_)
      exact List.mem_singleton.mpr hdep.usdc

/-- **A covering grant never blocks a tick.** Let the stored parameters of a wallet's rule cover
an autopilot, and let a rule of that autopilot resolve to a plan. Then in every run of the plan
the tick's whole authorization tree passes `enforce`, context by context and in order, up to the
rate limit: no session, allowlist, recipient, arity, account, withdraw-destination or sender
check refuses it. And a grant that is built for an autopilot covers it.

**Proof sketch.** `allowed_of_planCalls` gives each context what `enforce` asks of it, and
`enforceAll_tickTree` walks the tree. -/
theorem coveringGrant_passes {σ : Type} {x : Contracts σ} {w : World σ} {r : Core.Rule}
    {plan : Plan} (hdep : Deployed contracts w.store) (hp : s.params user rule.id = some p)
    (hcovers : grantCovers contracts (readAgentParams (some p)) ap = .ok true)
    (hauth : auth user = true) (hsigners : signers ≠ []) (hr : r ∈ ap.rules)
    (hplan : (w.reads x).plan user (bigInt ap.accountId) (encodeAction r.action) = some plan) :
    (∀ id ruleIndex route ex w',
      run x user (bigInt ap.accountId) id ruleIndex plan route w = .ok (ex, w') →
        ∃ calls, w'.calls = w.calls ++ calls ∧
          PlanCalls w.store user (bigInt ap.accountId) plan calls) ∧
    (∀ calls, PlanCalls w.store user (bigInt ap.accountId) plan calls →
      ∀ now id route pulled, OnlyRateLimited now auth signers rule user p
        (tickTree contracts.router w.store.config user id route pulled plan calls) s) ∧
    ∀ perms maxCalls windowLedgers, Core.permissionsFor ap contracts = .ok perms →
      grantCovers contracts (readAgentParams
        (some (grantParams (bigInt ap.accountId) perms maxCalls windowLedgers))) ap = .ok true := by
  refine ⟨?_, ?_, ?_⟩
  · intro id ruleIndex route ex w' hrun
    exact planCalls_of_run hrun
  · intro calls hcalls now id route pulled
    have hcov := covers_of_grantCovers hcovers
    have hresolves := resolves_of_plan hplan
    refine enforceAll_tickTree hauth hsigners hp rfl (hcov.tick _) ?_
    intro c hc
    obtain ⟨call, hcall, hc⟩ := List.mem_flatMap.mp hc
    exact ⟨allowed_of_planCalls hcov hdep hr hresolves hcalls call hcall c hc,
      fnName_of_mem_contexts hc⟩
  · intro perms maxCalls windowLedgers hperms
    exact grantCovers_grantParams hperms maxCalls windowLedgers

/-- The rule that moves out of the illiquid hub, as the app holds it. -/
def moveRule : Core.Rule :=
  ⟨[.healthFactor .below "1200000000000000000"], true, .moveSupply 1 2 .all, 100⟩

def moveAutopilot : Core.Autopilot := ⟨"12", [moveRule]⟩

/-- The contracts around the illiquid hub, as a grant names them. -/
def illiquidDeployment : PermissionContracts := ⟨"router", "controller", "pool", "usdc", none⟩

/-- It moves within USDC, so its grant needs no aggregator. -/
lemma permissionsFor_moveAutopilot : Core.permissionsFor moveAutopilot illiquidDeployment =
    .ok (unionOf moveAutopilot illiquidDeployment) := by
  have hvalid : Core.validateAutopilot moveAutopilot = [] := by decide
  have hinputs : swapInputs moveAutopilot illiquidDeployment = [] := by decide
  refine Core.permissionsFor_eq_ok_iff.mpr ⟨hvalid, ?_, rfl⟩
  intro h
  exact absurd hinputs h

/-- The grant for that autopilot, and the policy after it. -/
def moveGrant : KoulAgentParams :=
  grantParams 12 (unionOf moveAutopilot illiquidDeployment) defaultMaxCalls defaultWindowLedgers

def moveState : State := State.init.setParams "wallet" 1 (some moveGrant)

/-- The wallet's own authorization, and its agent's signature. -/
def walletAuth : Address → Bool := (· == "wallet")

def agentSigners : List Signer := [.external "verifier" [7]]

/-- There the tree of the tick that moves is `tick`, a withdrawal, a supply and a transfer, and
all four pass. -/
theorem coveringGrant_passes_illiquidHub :
    ∃ calls, PlanCalls illiquidWorld.store "wallet" 12 (.move 1 2 299900000) calls ∧
      let tree := tickTree "router" illiquidWorld.store.config "wallet" 1 none id
        (.move 1 2 299900000) calls
      tree.map (·.fnName) = [.tick, .withdraw, .supply, .transfer] ∧
      ∃ s', enforceAll 1000 walletAuth agentSigners ⟨1⟩ "wallet" tree moveState = .ok s' := by
  have hdep : Deployed illiquidDeployment illiquidWorld.store :=
    ⟨rfl, rfl, rfl, fun _ h => nomatch h⟩
  have hp : moveState.params "wallet" (ContextRule.mk 1).id = some moveGrant := rfl
  have haccount : bigInt moveAutopilot.accountId = 12 := by decide
  have hcovers : grantCovers illiquidDeployment (readAgentParams (some moveGrant)) moveAutopilot =
      .ok true := by
    have h := grantCovers_grantParams permissionsFor_moveAutopilot defaultMaxCalls
      defaultWindowLedgers
    rw [haccount] at h
    exact h
  have hauth : walletAuth "wallet" = true := by decide
  have hsigners : agentSigners ≠ [] := by decide
  have hr : moveRule ∈ moveAutopilot.rules := List.mem_singleton.mpr rfl
  have hplan : (illiquidWorld.reads illiquidContracts).plan "wallet"
      (bigInt moveAutopilot.accountId) (encodeAction moveRule.action) =
        some (.move 1 2 299900000) := by
    rw [haccount]
    rfl
  obtain ⟨-, hpass, -⟩ := coveringGrant_passes hdep hp hcovers hauth hsigners hr hplan
  rw [haccount] at hpass
  have hcalls : PlanCalls illiquidWorld.store "wallet" 12 (.move 1 2 299900000)
      (Plan.calls illiquidWorld.store.config "" "wallet" 12 [] 299900000
        (.move 1 2 299900000)) := ⟨"", [], 299900000, (fun _ _ _ _ _ h => nomatch h), rfl⟩
  exact ⟨_, hcalls, rfl, (hpass _ hcalls 1000 1 none id).room (by decide)⟩

end Koul.Agent
