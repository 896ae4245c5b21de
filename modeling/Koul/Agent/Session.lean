import Koul.Agent.Grant
import Koul.Policy.Exclusivity
import Koul.Router.Refinement

set_option relaxedAutoImplicit false
set_option autoImplicit false

/-!
# The router closes the sessions it opens

The router with the agent policy as its `Policy`: the contracts around the router then carry the
policy's storage, and `end_session` runs the policy's code with the router as its caller.

## Main definitions

* `Koul.Agent.withPolicy` — contracts in which one address is the agent policy.

## Main results

* `Koul.Agent.session_of_tick` — after a successful tick the account has no session.
* `Koul.Agent.sessionCloses_withPolicy` — closing succeeds unless another router opened it.
* `Koul.Agent.session_safety` — sessions over whole runs of both contracts.
* `Koul.Agent.not_exclusive_of_grant` — what a grant lets in next to a tick's own calls.
-/

namespace Koul.Agent

open Transactional Router

variable {σ : Type}

/-- The contracts around the router `self`, with the agent policy at address `policy`: its
storage is the second part of their state. A contract's call carries its own authorization. -/
def withPolicy (x : Contracts (σ × Policy.State)) (policy self : Address) :
    Contracts (σ × Policy.State) :=
  { x with
    endSession := fun target user s =>
      if target = policy then
        (Policy.endSession (· == self) user s.2).toOption.map fun ps => (s.1, ps)
      else x.endSession target user s }

variable {x : Contracts (σ × Policy.State)} {policy self user : Address}
  {w w' : World (σ × Policy.State)}

/-- Closing the session through the policy leaves none. -/
lemma session_of_closeSession (hpolicy : w.store.policy = some policy)
    (h : closeSession (withPolicy x policy self) user w = .ok w') :
    w'.ext.2.session user = none := by
  obtain ⟨-, -, -, hclose⟩ := closeSession_ok h
  rcases hclose with ⟨hnone, -⟩ | ⟨policy', hpolicy', hend, -⟩
  · rw [hpolicy] at hnone
    cases hnone
  · obtain rfl : policy = policy' := Option.some.inj (hpolicy.symm.trans hpolicy')
    simp only [withPolicy, if_true, Option.map_eq_some_iff] at hend
    obtain ⟨ps, hps, hext⟩ := hend
    have hok : Policy.endSession (· == self) user w.ext.2 = .ok ps := by
      cases hrun : Policy.endSession (· == self) user w.ext.2 with
      | error e =>
        rw [hrun] at hps
        cases hps
      | ok ps' =>
        rw [hrun] at hps
        cases hps
        rfl
    rw [← hext]
    exact Policy.session_of_endSession hok

/-- **After a successful tick** of a router whose `Policy` is the agent policy, whatever it
returned and whatever the contracts it called did, the account has no open session. -/
theorem session_of_tick {auth : Bool} {id : ℕ} {route : Option Bytes} {done : Option Executed}
    (hpolicy : w.store.policy = some policy)
    (h : tick (withPolicy x policy self) auth user id route w = .ok (done, w')) :
    w'.ext.2.session user = none := by
  obtain ⟨-, ap, w₁, hap, hloop, hclose⟩ := tick_ok h
  have hstore : w₁.store.policy = w.store.policy := by
    rcases tickLoop_ok hloop with ⟨-, -, rfl⟩ | ⟨_, _, _, _, _, _, -, hrun, -, rfl⟩
    · rfl
    · rw [fire_store, (run_ok hrun).store]
      rfl
  exact session_of_closeSession (hstore.trans hpolicy) hclose

/-- Closing succeeds when no other router opened the session. -/
lemma sessionCloses_withPolicy (hpolicy : ∀ p, w.store.policy = some p → p = policy)
    (hself : ∀ ses, w.ext.2.session user = some ses → ses.router = self) :
    SessionCloses (withPolicy x policy self) w user := by
  intro p hp
  obtain rfl := hpolicy p hp
  simp only [withPolicy, if_true, Option.isSome_map]
  cases hses : w.ext.2.session user with
  | none =>
    simp only [Policy.endSession, hses]
    rfl
  | some ses =>
    have hrouter : (ses.router == self) = true := beq_iff_eq.mpr (hself ses hses)
    simp only [Policy.endSession, hses, hrouter, Bool.not_true, Bool.false_eq_true, if_false]
    rfl

/-- **Session safety**, over whole runs of the policy and ticks of a router that closes its
sessions there:

* from a state in which an account has no session, as the policy's deployment is, a call other
  than `tick` is admitted for it only after an allowlisted `tick` was admitted for it in the same
  ledger, with no successful `end_session` in between;
* an open session is closed only with the authorization of the router recorded in it;
* after a successful tick of the router the account has no session, and in every run from there
  a call other than `tick` is admitted for it only after another `tick` was.

**Proof sketch.** The first part is `Policy.since_tick`. The last is `session_of_tick`, which
puts the first part's starting state after every successful tick. -/
theorem session_safety :
    (∀ (t : Policy.Chain) (a : Address) (ops : List Policy.Op) auth c signers rule,
      t.state.session a = none → c.fnName ≠ .tick →
      Admits Policy.call (Transactional.run Policy.call t ops)
        (.enforce auth (.contract c) signers rule a) →
      Since Policy.call t ops
        (Policy.TickAdmitted a (Transactional.run Policy.call t ops).now)
        (Policy.SessionClosed a)) ∧
    (∀ auth a s s' ses, s.session a = some ses → Policy.endSession auth a s = .ok s' →
      auth ses.router = true) ∧
    ∀ (σ : Type) (x : Contracts (σ × Policy.State)) policy self user auth id route w done w',
      w.store.policy = some policy →
      tick (withPolicy x policy self) auth user id route w = .ok (done, w') →
      w'.ext.2.session user = none ∧
      ∀ (ops : List Policy.Op) auth c signers rule, c.fnName ≠ .tick →
        let t : Policy.Chain := ⟨w'.ext.2, w'.ledger.sequence⟩
        Admits Policy.call (Transactional.run Policy.call t ops)
          (.enforce auth (.contract c) signers rule user) →
        Since Policy.call t ops
          (Policy.TickAdmitted user (Transactional.run Policy.call t ops).now)
          (Policy.SessionClosed user) := by
  refine ⟨?_, ?_, ?_⟩
  · intro t a ops auth c signers rule hnone hc hadmits
    exact Policy.since_tick hnone ops hc hadmits
  · intro auth a s s' ses hses h
    exact Policy.router_of_endSession hses h
  · intro σ x policy self user auth id route w done w' hpolicy htick
    have hnone := session_of_tick hpolicy htick
    refine ⟨hnone, ?_⟩
    intro ops auth c signers rule hc t hadmits
    exact Policy.since_tick (t := t) hnone ops hc hadmits

/-- The contracts around the illiquid hub, next to the agent policy. -/
def agentContracts : Contracts (Unit × Policy.State) where
  answers := fun _ => Reads.illiquidHub.e
  withdraw := fun _ _ _ ws _ s => some (ws, s)
  supply := fun _ _ accountId _ _ s => some (accountId, s)
  repay := fun _ _ _ _ s => some s
  executeStrategy := fun _ _ totalIn _ s => some (totalIn, s)
  endSession := fun _ _ s => some s
  fromXdr := fun _ => none

/-- The router of the illiquid hub inside a tick that its agent opened. -/
def agentWorld : World (Unit × Policy.State) where
  store := { illiquidWorld.store with policy := some "policy" }
  ledger := illiquidWorld.ledger
  ext := ((), Policy.State.init.setSession "wallet" (some ⟨"router", 1000⟩))
  events := []
  calls := []

/-- There the tick moves the supply and closes the session; and in the policy's run of a tick
and a withdrawal, the withdrawal had the tick before it. -/
theorem session_safety_illiquidHub :
    (∃ done w', tick (withPolicy agentContracts "policy" "router") true "wallet" 1 none
        agentWorld = .ok (done, w') ∧
      agentWorld.ext.2.session "wallet" = some ⟨"router", 1000⟩ ∧
      w'.ext.2.session "wallet" = none) ∧
    Since Policy.call Policy.swapChain [Policy.agentEntry Policy.swapTick]
      (Policy.TickAdmitted "wallet" 100) (Policy.SessionClosed "wallet") := by
  obtain ⟨hsince, -, hclose⟩ := session_safety
  constructor
  · obtain ⟨done, w', htick⟩ : ∃ done w', tick (withPolicy agentContracts "policy" "router") true
        "wallet" 1 none agentWorld = .ok (done, w') := ⟨_, _, rfl⟩
    exact ⟨done, w', htick, rfl, (hclose _ _ _ _ _ _ _ _ _ _ _ rfl htick).1⟩
  · exact hsince Policy.swapChain "wallet" [Policy.agentEntry Policy.swapTick] (fun _ => true)
      Policy.slippedWithdraw [.external "verifier" [7]] ⟨1⟩ rfl (by decide) ⟨_, rfl⟩

/-! ## What a grant lets in during a tick -/

/-- **During a tick every grant lets other calls in**: with the parameters that `permissionsFor`
gives an autopilot stored for the rule, and room left in its window after a tick, no tree of calls
is all that is ever admitted before the tick's `end_session`. -/
theorem not_exclusive_of_grant {contracts : Core.PermissionContracts} {ap : Core.Autopilot}
    {perms : Core.AgentPermissions} {n maxCalls windowLedgers r : ℕ} {a : Address}
    {t : Policy.Chain} {tickOp : Policy.Op} (tree : List ContractContext)
    (hperms : Core.permissionsFor ap contracts = .ok perms)
    (htick : Policy.TickAdmitted a t.now t tickOp)
    (hp : (after Policy.call t tickOp).state.params a r =
      some (grantParams n perms maxCalls windowLedgers))
    (hroom : (Policy.windowAt (grantParams n perms maxCalls windowLedgers)
      (after Policy.call t tickOp).now ((after Policy.call t tickOp).state.window a r)).calls <
        maxCalls) :
    ∃ ops, Policy.MidTick a (after Policy.call t tickOp) ops ∧
      ¬ Policy.Exclusive tree a (after Policy.call t tickOp) ops := by
  by_contra hno
  push Not at hno
  have honly := Policy.onlyTicksLeft_of_exclusive (Policy.sessionOf_of_tickAdmitted htick) hno
  obtain ⟨c, f, hmem, hne, hnot⟩ := Core.exists_call_of_permissionsFor hperms
  exact hnot (honly r _ hp hroom (c, f) hmem hne).1

end Koul.Agent
