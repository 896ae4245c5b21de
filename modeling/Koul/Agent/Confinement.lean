import Koul.Agent.Tree

set_option relaxedAutoImplicit false
set_option autoImplicit false

/-!
# What a grant confines the agent to

The converse of a covering grant: what the policy lets through under the parameters that
`permissionsFor` gives, and how that compares with what the rules themselves transfer.

## Main definitions

* `Koul.Agent.Confined` — the contexts that a grant is for.
* `Koul.Agent.CanTransfer` — the transfers that some rule of an autopilot can make.
* `Koul.Agent.LeastPrivilege` — the policy lets no other transfer through.

## Main results

* `Koul.Agent.agent_confined` — only confined contexts are admitted; any other changes nothing.
* `Koul.Agent.canTransfer_of_planCalls` — no rule makes a transfer that `CanTransfer` leaves out.
* `Koul.Agent.leastPrivilege_iff` — when the two flat lists stay within what the rules need.
-/

namespace Koul.Agent

open Policy Router Transactional
open Koul.Core (needsWithdraw needsSupply needsRepay swapInputs transferTokens unionOf bigInt
  encodeAction PermissionContracts AgentPermissions permissionsFor)

/-- The contexts that a grant for account `n` of the smart account `a` is for. -/
inductive Confined (contracts : PermissionContracts) (n : ℕ) (a : Address) :
    ContractContext → Prop
  | tick (args : List Val) : Confined contracts n a ⟨contracts.router, .tick, args⟩
  | withdraw (x y dest : Val) (hdest : dest = .void ∨ dest = .address a) :
    Confined contracts n a ⟨contracts.controller, .withdraw, [x, .u64 n, y, dest]⟩
  | supply (x y z : Val) :
    Confined contracts n a ⟨contracts.controller, .supply, [x, .u64 n, y, z]⟩
  | repay (x y : Val) : Confined contracts n a ⟨contracts.controller, .repay, [x, .u64 n, y]⟩
  | executeStrategy (aggregator : Address) (y z : Val)
    (hagg : contracts.aggregator = some aggregator) :
    Confined contracts n a ⟨aggregator, .executeStrategy, [.address a, y, z]⟩
  | transfer (token recipient : Address) (x y : Val)
    (hrecipient : recipient = contracts.pool ∨ contracts.aggregator = some recipient) :
    Confined contracts n a ⟨token, .transfer, [x, .address recipient, y]⟩

variable {contracts : PermissionContracts} {ap : Core.Autopilot} {perms : AgentPermissions}
  {n maxCalls windowLedgers : ℕ} {p : KoulAgentParams} {a : Address} {rule : ContextRule}
  {s s' : State} {c : ContractContext}

/-- The recipients of a grant are the pool and the aggregator. -/
lemma recipient_of_mem {r : Address} (h : r ∈ (unionOf ap contracts).transferRecipients) :
    r = contracts.pool ∨ contracts.aggregator = some r := by
  rcases Core.mem_transferRecipients_iff.mp h with ⟨-, hpool⟩ | ⟨-, hagg⟩
  · exact .inl hpool
  · exact .inr hagg

/-- An allowed context of a grant is a confined one.

**Proof sketch.** The allowlist leaves six function names, and each has its argument check. -/
lemma confined_of_allowed
    (h : Allowed (grantParams n (unionOf ap contracts) maxCalls windowLedgers) a c) :
    Confined contracts n a c := by
  obtain ⟨hcall, hargs⟩ := h
  obtain ⟨contract, fnName, args⟩ := c
  rcases Core.mem_allowedCalls_iff.mp (allows_iff.mp hcall) with
    ⟨rfl, rfl⟩ | ⟨-, rfl, rfl⟩ | ⟨-, rfl, rfl⟩ | ⟨-, rfl, rfl⟩ | ⟨-, hagg, rfl⟩ | ⟨-, rfl⟩
  · exact .tick args
  · obtain ⟨x, y, dest, rfl, hdest⟩ := checkArgs_withdraw.mp hargs
    exact .withdraw x y dest hdest
  · obtain ⟨hlen, hid⟩ := checkArgs_supply.mp hargs
    match args, hlen with
    | [x, v, y, z], _ =>
      obtain rfl : v = .u64 n := Option.some.inj hid
      exact .supply x y z
  · obtain ⟨hlen, hid⟩ := checkArgs_repay.mp hargs
    match args, hlen with
    | [x, v, y], _ =>
      obtain rfl : v = .u64 n := Option.some.inj hid
      exact .repay x y
  · obtain ⟨hlen, hsender⟩ := checkArgs_executeStrategy.mp hargs
    match args, hlen with
    | [v, y, z], _ =>
      obtain rfl : v = .address a := Option.some.inj hsender
      exact .executeStrategy contract y z hagg
  · obtain ⟨x, y, recipient, rfl, hrecipient⟩ := checkArgs_transfer.mp hargs
    exact .transfer contract recipient x y (recipient_of_mem hrecipient)

/-- What `enforce` admits under installed parameters is an allowed call. -/
lemma allowed_of_enforce {i : Attempt} (hp : s.params a rule.id = some p)
    (h : attempt a rule.id s i = .ok s') : ∃ c, i.context = .contract c ∧ Allowed p a c := by
  obtain ⟨-, -, p', c, s₁, w, hp', hcontext, hallows, -, hargs, -, -⟩ := enforce_eq_ok_iff.mp h
  obtain rfl : p = p' := Option.some.inj (hp.symm.trans hp')
  exact ⟨c, hcontext, hallows, hargs⟩

/-- **Agent confinement.** Under the parameters that `permissionsFor` gives an autopilot, for
account `n` and whatever limits, every context that `enforce` admits for the smart account `a`
is a call for which the grant is: `tick` of the router; a withdrawal from account `n` to nowhere
or to `a`; a supply to it or a repayment of it; a swap that `a` sends; or a transfer to the pool
or the aggregator. Any other context, of whatever contract, function and arguments, is refused,
and leaves the policy's storage as it was.

**Proof sketch.** `enforce_eq_ok_iff` has an admitted context pass the allowlist and the checks
on its arguments, and `confined_of_allowed` reads these off the grant. -/
theorem agent_confined (hperms : permissionsFor ap contracts = .ok perms)
    (hp : s.params a rule.id = some (grantParams n perms maxCalls windowLedgers)) :
    (∀ i s', attempt a rule.id s i = .ok s' →
      ∃ c, i.context = .contract c ∧ Confined contracts n a c) ∧
    ∀ i, (∀ c, i.context = .contract c → ¬ Confined contracts n a c) →
      (∃ e, attempt a rule.id s i = .error e) ∧ after (attempt a rule.id) s i = s := by
  obtain ⟨-, -, rfl⟩ := Core.permissionsFor_eq_ok_iff.mp hperms
  have hadmitted : ∀ i s', attempt a rule.id s i = .ok s' →
      ∃ c, i.context = .contract c ∧ Confined contracts n a c := by
    intro i s' h
    obtain ⟨c, hcontext, hallowed⟩ := allowed_of_enforce hp h
    exact ⟨c, hcontext, confined_of_allowed hallowed⟩
  refine ⟨hadmitted, ?_⟩
  intro i hother
  cases h : attempt a rule.id s i with
  | ok s' =>
    obtain ⟨c, hcontext, hconfined⟩ := hadmitted i s' h
    exact absurd hconfined (hother c hcontext)
  | error e => exact ⟨⟨e, rfl⟩, after_of_error _ h⟩

/-- A confined withdrawal goes nowhere or to the wallet. -/
lemma Confined.dest (h : Confined contracts n a c) (hc : c.fnName = .withdraw) :
    c.args[3]? = some .void ∨ c.args[3]? = some (.address a) := by
  cases h with
  | withdraw x y dest hdest =>
    rcases hdest with rfl | rfl
    · exact .inl rfl
    · exact .inr rfl
  | tick => exact absurd hc (by decide : Symbol.tick ≠ .withdraw)
  | supply => exact absurd hc (by decide : Symbol.supply ≠ .withdraw)
  | repay => exact absurd hc (by decide : Symbol.repay ≠ .withdraw)
  | executeStrategy => exact absurd hc (by decide : Symbol.executeStrategy ≠ .withdraw)
  | transfer => exact absurd hc (by decide : Symbol.transfer ≠ .withdraw)

/-- The agent's withdrawal of an open session, to some address. -/
def withdrawTo (dest : Address) : Attempt where
  ledger := 1000
  auth := walletAuth
  context := .contract
    ⟨"controller", .withdraw, [.address "wallet", .u64 12, .vec [], .address dest]⟩
  signers := agentSigners

/-- To the wallet the withdrawal is admitted, to anyone else it is refused and nothing is
stored. -/
theorem agent_confined_moveGrant :
    Admits (attempt "wallet" 1) (moveState.setSession "wallet" (some ⟨"router", 1000⟩))
      (withdrawTo "wallet") ∧
    after (attempt "wallet" 1) (moveState.setSession "wallet" (some ⟨"router", 1000⟩))
      (withdrawTo "thief") = moveState.setSession "wallet" (some ⟨"router", 1000⟩) := by
  have hp : (moveState.setSession "wallet" (some ⟨"router", 1000⟩)).params "wallet"
      (ContextRule.mk 1).id = some (grantParams 12 (unionOf moveAutopilot illiquidDeployment)
        defaultMaxCalls defaultWindowLedgers) := rfl
  obtain ⟨-, hother⟩ := agent_confined permissionsFor_moveAutopilot hp
  refine ⟨by decide +kernel, (hother _ ?_).2⟩
  intro c hc hconfined
  cases hc
  rcases hconfined.dest rfl with hdest | hdest
  · cases hdest
  · exact absurd (Val.address.inj (Option.some.inj hdest)) (by decide)

/-! ## The transfers that the rules need -/

/-- Some rule of the autopilot can make a transfer of this token to this recipient in some tick:
USDC to the pool when it moves, supplies or repays, a swap's input to the aggregator. -/
def CanTransfer (contracts : PermissionContracts) (ap : Core.Autopilot)
    (token recipient : Address) : Prop :=
  ∃ r ∈ ap.rules,
    r.action.type.paysPool = true ∧ token = contracts.usdc ∧ recipient = contracts.pool ∨
      token ∈ r.action.swapInput contracts ∧ contracts.aggregator = some recipient

/-- No transfer passes the policy but those that the rules can make. -/
def LeastPrivilege (contracts : PermissionContracts) (ap : Core.Autopilot)
    (p : KoulAgentParams) : Prop :=
  ∀ now auth signers (rule : ContextRule) a (s s' : State) token recipient x y,
    s.params a rule.id = some p →
    enforce now auth (.contract ⟨token, .transfer, [x, .address recipient, y]⟩) signers rule a s =
      .ok s' →
    CanTransfer contracts ap token recipient

/-- A call of the router pulls this token to this recipient: an asset that it supplies or repays
to the pool, or a swap's input to the aggregator. -/
def Pulls (pool tokenIn token recipient : Address) : Call → Prop
  | .supply _ _ _ _ assets => recipient = pool ∧ ∃ q ∈ assets, token = q.1.asset
  | .repay _ _ _ payments => recipient = pool ∧ ∃ q ∈ payments, token = q.1.asset
  | .executeStrategy aggregator _ _ _ => recipient = aggregator ∧ token = tokenIn
  | _ => False

lemma pulls_of_mem_contexts {pool tokenIn token sender recipient : Address} {amount : ℤ}
    {pulled : ℤ → ℤ} {call : Call}
    (h : transferContext token sender recipient amount ∈ contexts pool tokenIn pulled call) :
    Pulls pool tokenIn token recipient call := by
  have hname : (transferContext token sender recipient amount).fnName = .transfer := rfl
  cases call with
  | withdraw controller caller accountId withdrawals toAddr =>
    rw [List.mem_singleton.mp h] at hname
    exact absurd hname (by decide : Symbol.withdraw ≠ .transfer)
  | supply controller caller accountId spokeId ps =>
    rcases List.mem_cons.mp h with h | h
    · rw [h] at hname
      exact absurd hname (by decide : Symbol.supply ≠ .transfer)
    · obtain ⟨q, hq, h⟩ := List.mem_map.mp h
      cases h
      exact ⟨rfl, q, hq, rfl⟩
  | repay controller caller accountId ps =>
    rcases List.mem_cons.mp h with h | h
    · rw [h] at hname
      exact absurd hname (by decide : Symbol.repay ≠ .transfer)
    · obtain ⟨q, hq, h⟩ := List.mem_map.mp h
      cases h
      exact ⟨rfl, q, hq, rfl⟩
  | executeStrategy aggregator caller totalIn swapXdr =>
    rcases List.mem_cons.mp h with h | h
    · rw [h] at hname
      exact absurd hname (by decide : Symbol.executeStrategy ≠ .transfer)
    · cases List.mem_singleton.mp h
      exact ⟨rfl, rfl⟩
  | endSession policy smartAccount => cases h

/-- **What the rules transfer**: no call of a rule's plan leads to a transfer that `CanTransfer`
leaves out. -/
theorem canTransfer_of_planCalls {st : Storage} (hdep : Deployed contracts st) {r : Core.Rule}
    (hr : r ∈ ap.rules) {plan : Plan} {calls : List Call} {user : Address} {pulled : ℤ → ℤ}
    (hplan : Resolves st.config.usdc plan (encodeAction r.action))
    (hcalls : PlanCalls st user (bigInt ap.accountId) plan calls) {call : Call}
    (hcall : call ∈ calls) {token sender recipient : Address} {amount : ℤ}
    (hc : transferContext token sender recipient amount ∈
      contexts st.config.pool (plan.planned st.config 0).tokenIn pulled call) :
    CanTransfer contracts ap token recipient := by
  obtain ⟨aggregator, route, received, hagg, rfl⟩ := hcalls
  have htransfer := pulls_of_mem_contexts hc
  -- a supply or a repayment is of USDC
  have hpool : ∀ (hub : ℕ) (z : ℤ), recipient = st.config.pool ∧
      (∃ q ∈ [(key st.config hub, z)], token = q.1.asset) → r.action.type.paysPool = true →
        CanTransfer contracts ap token recipient := by
    rintro hub z ⟨rfl, q, hq, rfl⟩ hpays
    obtain rfl := List.mem_singleton.mp hq
    exact ⟨r, hr, .inl ⟨hpays, hdep.usdc, hdep.pool⟩⟩
  cases hact : r.action with
  | moveSupply fromHub toHub amt =>
    rw [hact] at hplan hpool
    obtain ⟨w, rfl⟩ := hplan
    rcases List.mem_pair.mp hcall with rfl | rfl
    · exact htransfer.elim
    · exact hpool _ _ htransfer rfl
  | supplyFromWallet hub amt =>
    rw [hact] at hplan hpool
    obtain ⟨w, rfl⟩ := hplan
    obtain rfl := List.mem_singleton.mp hcall
    exact hpool _ _ htransfer rfl
  | repayFromWallet hub amt =>
    rw [hact] at hplan hpool
    obtain ⟨w, rfl⟩ := hplan
    obtain rfl := List.mem_singleton.mp hcall
    exact hpool _ _ htransfer rfl
  | repayWithCollateral fromHub hub amt =>
    rw [hact] at hplan hpool
    obtain ⟨w, rfl⟩ := hplan
    rcases List.mem_pair.mp hcall with rfl | rfl
    · exact htransfer.elim
    · exact hpool _ _ htransfer rfl
  | withdrawToWallet hub amt =>
    rw [hact] at hplan
    obtain ⟨w, rfl⟩ := hplan
    obtain rfl := List.mem_singleton.mp hcall
    exact htransfer.elim
  | swapFromWallet tin tout amt slip =>
    rw [hact] at hplan
    obtain ⟨w, minOut, rfl⟩ := hplan
    obtain rfl := List.mem_singleton.mp hcall
    obtain ⟨rfl, rfl⟩ := htransfer
    refine ⟨r, hr, .inr ⟨?_, hdep.aggregator _ (hagg _ _ _ _ _ rfl)⟩⟩
    rw [hact]
    exact List.mem_singleton.mpr rfl
  | withdrawAndSwap hub tout amt slip =>
    rw [hact] at hplan
    obtain ⟨w, minOut, rfl⟩ := hplan
    rcases List.mem_pair.mp hcall with rfl | rfl
    · exact htransfer.elim
    · obtain ⟨rfl, rfl⟩ := htransfer
      refine ⟨r, hr, .inr ⟨?_, hdep.aggregator _ (hagg _ _ _ _ _ rfl)⟩⟩
      rw [hact]
      exact List.mem_singleton.mpr hdep.usdc

/-! ## The transfers that the grant allows -/

/-- A transfer is allowed exactly when its token and its recipient are both on the lists. -/
lemma allowed_transfer_iff {token recipient : Address} {x y : Val} :
    Allowed (grantParams n (unionOf ap contracts) maxCalls windowLedgers) a
        ⟨token, .transfer, [x, .address recipient, y]⟩ ↔
      token ∈ transferTokens ap contracts ∧
        recipient ∈ (unionOf ap contracts).transferRecipients := by
  constructor
  · rintro ⟨hcall, hargs⟩
    obtain ⟨x', y', recipient', hlist, hrecipient⟩ := checkArgs_transfer.mp hargs
    cases hlist
    refine ⟨?_, hrecipient⟩
    rcases Core.mem_allowedCalls_iff.mp (allows_iff.mp hcall) with
      ⟨-, h⟩ | ⟨-, -, h⟩ | ⟨-, -, h⟩ | ⟨-, -, h⟩ | ⟨-, -, h⟩ | ⟨htoken, -⟩
    · exact absurd h (by decide : Symbol.transfer ≠ .tick)
    · exact absurd h (by decide : Symbol.transfer ≠ .withdraw)
    · exact absurd h (by decide : Symbol.transfer ≠ .supply)
    · exact absurd h (by decide : Symbol.transfer ≠ .repay)
    · exact absurd h (by decide : Symbol.transfer ≠ .executeStrategy)
    · exact htoken
  · rintro ⟨htoken, hrecipient⟩
    refine ⟨allows_iff.mpr (Core.mem_allowedCalls_iff.mpr ?_), ?_⟩
    · exact .inr (.inr (.inr (.inr (.inr ⟨htoken, rfl⟩))))
    · exact checkArgs_transfer.mpr ⟨x, y, recipient, rfl, hrecipient⟩

/-- In some session an allowed call is admitted. -/
lemma enforce_of_allowed (rule : ContextRule) (hmax : 0 < p.maxCallsPerWindow)
    (hc : Allowed p a c) (hname : c.fnName ≠ .tick) :
    ∃ s s', s.params a rule.id = some p ∧
      enforce 0 (fun _ => true) (.contract c) agentSigners rule a s = .ok s' := by
  let s := (State.init.setParams a rule.id (some p)).setSession a (some ⟨"", 0⟩)
  have hp : s.params a rule.id = some p := if_pos ⟨rfl, rfl⟩
  have hses : s.session a = some ⟨"", 0⟩ := if_pos rfl
  have hsession : enterSession 0 c a s = .ok s := enterSession_open hname hses rfl
  obtain ⟨w, hw⟩ : ∃ w, countCall p 0 (s.window a rule.id) = .ok w := by
    refine countCall_ok_iff_lt.mpr ?_
    have hwindow : windowAt p 0 (s.window a rule.id) = ⟨0, 0⟩ := ite_self _
    rw [hwindow]
    exact hmax
  refine ⟨s, s.counted a rule c w, hp, ?_⟩
  rw [enforce_of_checks rfl (by decide) hp hc.call hsession hc.args, hw]
  rfl

/-- **Least privilege of transfers.** Under the parameters that `permissionsFor` gives an
autopilot, the policy lets through only transfers that its rules can make exactly when no rule
pays the pool, or every swapped token is USDC, or the pool is the aggregator.

**Proof sketch.** The grant's tokens and recipients are two lists, so a transfer passes when its
token is on the one and its recipient on the other. With a rule that pays the pool and a rule
that swaps another token, that token may go to the pool. -/
theorem leastPrivilege_iff (hperms : permissionsFor ap contracts = .ok perms)
    (hmax : 0 < maxCalls) :
    LeastPrivilege contracts ap (grantParams n perms maxCalls windowLedgers) ↔
      (∀ r ∈ ap.rules, r.action.type.paysPool = false) ∨
      (∀ r ∈ ap.rules, ∀ t ∈ r.action.swapInput contracts, t = contracts.usdc) ∨
      contracts.aggregator = some contracts.pool := by
  obtain ⟨-, -, rfl⟩ := Core.permissionsFor_eq_ok_iff.mp hperms
  constructor
  · intro hleast
    by_contra hno
    push Not at hno
    obtain ⟨⟨r, hr, hpays⟩, ⟨r', hr', t, ht, hne⟩, hpool⟩ := hno
    have hneeds : (needsSupply ap || needsRepay ap) = true :=
      Core.needsPool_iff.mpr ⟨r, hr, by simpa using hpays⟩
    have hallowed : Allowed (grantParams n (unionOf ap contracts) maxCalls windowLedgers) ""
        ⟨t, .transfer, [.void, .address contracts.pool, .void]⟩ := by
      refine allowed_transfer_iff.mpr ⟨?_, ?_⟩
      · exact Core.mem_transferTokens_iff.mpr (.inr (Core.mem_swapInputs_iff.mpr ⟨r', hr', ht⟩))
      · exact Core.mem_transferRecipients_iff.mpr (.inl ⟨hneeds, rfl⟩)
    obtain ⟨s, s', hp, hs'⟩ := enforce_of_allowed ⟨1⟩ hmax hallowed
      (by decide : Symbol.transfer ≠ .tick)
    obtain ⟨r'', -, ⟨-, husdc, -⟩ | ⟨-, hagg⟩⟩ := hleast _ _ _ _ _ s s' _ _ _ _ hp hs'
    · exact hne husdc
    · exact hpool hagg
  · intro hcond now auth signers rule a s s' token recipient x y hp h
    have hattempt : attempt a rule.id s ⟨now, auth, _, signers⟩ = .ok s' := h
    obtain ⟨c, hc, hallowed⟩ := allowed_of_enforce hp hattempt
    cases hc
    obtain ⟨htoken, hrecipient⟩ := allowed_transfer_iff.mp hallowed
    rcases Core.mem_transferTokens_iff.mp htoken with ⟨hneeds, husdc⟩ | hswap <;>
      rcases Core.mem_transferRecipients_iff.mp hrecipient with ⟨hneeds', hpool⟩ | ⟨hswaps, hagg⟩
    · obtain ⟨r, hr, hpays⟩ := Core.needsPool_iff.mp hneeds
      exact ⟨r, hr, .inl ⟨hpays, husdc, hpool⟩⟩
    · -- USDC to the aggregator
      obtain ⟨r, hr, hpays⟩ := Core.needsPool_iff.mp hneeds
      rcases hcond with hnone | hsame | hagg'
      · exact absurd hpays (by rw [hnone r hr]; exact Bool.false_ne_true)
      · obtain ⟨t, ht⟩ := List.exists_mem_of_ne_nil _ hswaps
        obtain ⟨r', hr', ht⟩ := Core.mem_swapInputs_iff.mp ht
        refine ⟨r', hr', .inr ⟨?_, hagg⟩⟩
        rw [husdc, ← hsame r' hr' t ht]
        exact ht
      · rw [hagg] at hagg'
        exact ⟨r, hr, .inl ⟨hpays, husdc, Option.some.inj hagg'⟩⟩
    · -- a swapped token to the pool
      obtain ⟨r, hr, hpays⟩ := Core.needsPool_iff.mp hneeds'
      obtain ⟨r', hr', ht⟩ := Core.mem_swapInputs_iff.mp hswap
      rcases hcond with hnone | hsame | hagg
      · exact absurd hpays (by rw [hnone r hr]; exact Bool.false_ne_true)
      · exact ⟨r, hr, .inl ⟨hpays, hsame r' hr' token ht, hpool⟩⟩
      · exact ⟨r', hr', .inr ⟨ht, by rw [hpool]; exact hagg⟩⟩
    · obtain ⟨r, hr, ht⟩ := Core.mem_swapInputs_iff.mp hswap
      exact ⟨r, hr, .inr ⟨ht, hagg⟩⟩

/-- There the condition holds: the autopilot that moves swaps nothing. -/
theorem leastPrivilege_iff_moveGrant : LeastPrivilege illiquidDeployment moveAutopilot moveGrant := by
  have hmax : 0 < defaultMaxCalls := by decide
  refine (leastPrivilege_iff permissionsFor_moveAutopilot hmax).mpr (.inr (.inl ?_))
  intro r hr t ht
  obtain rfl := List.mem_singleton.mp hr
  cases ht

/-- The contracts of the app's testnet deployment. -/
def koulContracts : PermissionContracts where
  router := "CD5VSBUXQ4OQIVYI55CFF4C4YKSFQUY4OTFIOFJRNC6TUILMNN7MAO2D"
  controller := "CCXRWJ6SIU2WPFEGLFGJVITPL57QAYIMIO6OAM2NBGNDQSSCK2FFV3F3"
  pool := "CBSGF6QOQAMPFBEVSYPEQHSZRIHJ6RCGUPCRDMUX36DEKRWFAO2PZB5A"
  usdc := "CBIELTK6YBZJU5UP2WWQEUCYKLPU6AUNZ2BQ4WWFEIE3USCIHMXQDAMA"
  aggregator := some "CDNTWMWW2WGYTKIZTJYNGNVQQZI4KTC5BQRZ3275KESRX5T4O3AYECL5"

/-- Its XLM token. -/
def xlm : Address := "CDLZFC3SYJYDZT7K67VZ75HPJVIEUVNIXF47ZG2FB2RMQQVU2HHGCYSC"

/-- Supply idle USDC above 10, and sell a quarter of the XLM once it is worth half a dollar. -/
def supplyAndSell : Core.Autopilot where
  accountId := "12"
  rules :=
    [⟨[.idleBalance .atOrAbove "100000000"], true, .supplyFromWallet 1 .all, 720⟩,
      ⟨[.tokenPrice xlm .atOrAbove "50000000000000"], true,
        .swapFromWallet xlm koulContracts.usdc (.percent 2500) 100, 720⟩]

/-- With a rule that supplies and a rule that sells XLM, the policy also lets XLM go to the pool
and USDC to the aggregator, which neither rule does. -/
theorem leastPrivilege_supplyAndSell :
    ∃ perms, permissionsFor supplyAndSell koulContracts = .ok perms ∧
      ¬ LeastPrivilege koulContracts supplyAndSell
        (grantParams 12 perms defaultMaxCalls defaultWindowLedgers) := by
  have hvalid : Core.validateAutopilot supplyAndSell = [] := by decide +kernel
  refine ⟨unionOf supplyAndSell koulContracts, ?_, ?_⟩
  · refine Core.permissionsFor_eq_ok_iff.mpr ⟨hvalid, fun _ => by decide, rfl⟩
  · intro hleast
    have hallowed : Allowed (grantParams 12 (unionOf supplyAndSell koulContracts) defaultMaxCalls
        defaultWindowLedgers) "wallet"
        ⟨xlm, .transfer, [.void, .address koulContracts.pool, .void]⟩ :=
      allowed_transfer_iff.mpr ⟨by decide +kernel, by decide +kernel⟩
    obtain ⟨s, s', hp, hs'⟩ := enforce_of_allowed ⟨1⟩ (by decide) hallowed
      (by decide : Symbol.transfer ≠ .tick)
    have hcan := hleast _ _ _ _ _ s s' _ _ _ _ hp hs'
    revert hcan
    unfold CanTransfer
    decide +kernel

end Koul.Agent
