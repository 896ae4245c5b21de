import Koul.Policy.RateLimit

set_option relaxedAutoImplicit false
set_option autoImplicit false

/-!
# Sessions

A session is opened by an admitted `tick` and closed by the router that opened it; it does not
outlive its ledger. These are facts about whole runs of the policy: any accounts, rules and
contexts, any callers of `end_session`, and ledgers closing in between.

## Main definitions

* `Koul.Policy.Chain`, `Koul.Policy.Op`, `Koul.Policy.call` — the policy on a growing ledger.
* `Koul.Policy.TickAdmitted`, `Koul.Policy.SessionClosed` — what opens and closes a session.

## Main results

* `Koul.Policy.since_tick` — an admitted call other than `tick` had a `tick` before it in the
  same ledger and no close since.
* `Koul.Policy.countedWindow_run` — every stored window has counted a call.
-/

namespace Koul.Policy

open Transactional

/-- The policy and the ledger it runs in. -/
structure Chain where
  state : State
  now : ℕ

/-- A step of a run: a call of the policy, with the addresses that authorize it, or ledgers
closing. -/
inductive Op
  | enforce (auth : Address → Bool) (context : Context) (signers : List Signer)
      (rule : ContextRule) (smartAccount : Address)
  | endSession (auth : Address → Bool) (smartAccount : Address)
  | install (auth : Address → Bool) (params : KoulAgentParams) (rule : ContextRule)
      (smartAccount : Address)
  | uninstall (auth : Address → Bool) (rule : ContextRule) (smartAccount : Address)
  | advance (ledgers : ℕ)

/-- What a step makes of the policy's storage. -/
def Op.run (now : ℕ) (s : State) : Op → Except Err State
  | .enforce auth context signers rule a => Policy.enforce now auth context signers rule a s
  | .endSession auth a => Policy.endSession auth a s
  | .install auth params rule a => Policy.install auth params rule a s
  | .uninstall auth rule a => Policy.uninstall auth rule a s
  | .advance _ => .ok s

/-- The ledgers that a step closes. -/
def Op.ledgers : Op → ℕ
  | .advance n => n
  | _ => 0

/-- One step of a run. -/
def call (t : Chain) (op : Op) : Except Err Chain := do
  let s ← op.run t.now t.state
  .ok ⟨s, t.now + op.ledgers⟩

lemma call_ok {t t' : Chain} {op : Op} (h : call t op = .ok t') :
    op.run t.now t.state = .ok t'.state ∧ t'.now = t.now + op.ledgers := by
  obtain ⟨s, hs, h⟩ := bind_eq_ok_iff.mp h
  cases h
  exact ⟨hs, rfl⟩

/-- A step is admitted exactly when its call succeeds. -/
lemma admits_iff {t : Chain} {op : Op} :
    Admits call t op ↔ ∃ s, op.run t.now t.state = .ok s := by
  constructor
  · rintro ⟨t', ht'⟩
    exact ⟨t'.state, (call_ok ht').1⟩
  · rintro ⟨s, hs⟩
    exact ⟨⟨s, t.now + op.ledgers⟩, bind_eq_ok_iff.mpr ⟨s, hs, rfl⟩⟩

/-! ## Opening and closing -/

/-- The step is an allowlisted `tick` for account `a`, admitted in ledger `l`. -/
def TickAdmitted (a : Address) (l : ℕ) (t : Chain) (op : Op) : Prop :=
  t.now = l ∧ Admits call t op ∧ ∃ auth c signers rule p,
    op = .enforce auth (.contract c) signers rule a ∧ c.fnName = .tick ∧
      t.state.params a rule.id = some p ∧ p.allows c = true

/-- The step is a successful `end_session` for account `a`. -/
def SessionClosed (a : Address) (t : Chain) (op : Op) : Prop :=
  Admits call t op ∧ ∃ auth, op = .endSession auth a

/-- Account `a` has a session of ledger `l`. -/
def SessionOf (a : Address) (l : ℕ) (t : Chain) : Prop :=
  ∃ ses, t.state.session a = some ses ∧ ses.ledger = l

variable {a : Address} {l : ℕ} {t t' : Chain}

/-- What an admitted context does to the sessions: a `tick` opens its account's, any other
leaves them. -/
lemma session_of_enforce {now : ℕ} {auth : Address → Bool} {context : Context}
    {signers : List Signer} {rule : ContextRule} {b : Address} {s s' : State}
    (h : enforce now auth context signers rule b s = .ok s') :
    ∃ p c, s.params b rule.id = some p ∧ context = .contract c ∧ p.allows c = true ∧
      (c.fnName = .tick ∧ s'.session = (s.setSession b (some ⟨c.contract, now⟩)).session ∨
        c.fnName ≠ .tick ∧ s'.session = s.session ∧
          ∃ ses, s.session b = some ses ∧ ses.ledger = now) := by
  obtain ⟨-, -, p, c, s₁, w, hp, hc, hallows, hs₁, -, -, rfl⟩ := enforce_eq_ok_iff.mp h
  refine ⟨p, c, hp, hc, hallows, ?_⟩
  rcases enterSession_ok hs₁ with ⟨htick, rfl⟩ | ⟨hne, rfl, hopen⟩
  · exact .inl ⟨htick, rfl⟩
  · exact .inr ⟨hne, rfl, hopen⟩

/-- **What a step does to a session**: only an admitted `tick` of its ledger opens it, and no
successful `end_session` leaves it open. -/
lemma sessionOf_after (op : Op) (h : SessionOf a l (after call t op)) :
    TickAdmitted a l t op ∨ SessionOf a l t ∧ ¬ SessionClosed a t op := by
  cases hcall : call t op with
  | error e =>
    rw [after_of_error call hcall] at h
    refine .inr ⟨h, ?_⟩
    rintro ⟨⟨t', ht'⟩, -⟩
    rw [hcall] at ht'
    cases ht'
  | ok t' =>
    rw [after_of_ok call hcall] at h
    obtain ⟨ses, hses, rfl⟩ := h
    obtain ⟨hrun, -⟩ := call_ok hcall
    cases op with
    | enforce auth context signers rule b =>
      obtain ⟨p, c, hp, rfl, hallows, hsession⟩ := session_of_enforce hrun
      have hkeep : ¬ SessionClosed a t (.enforce auth (.contract c) signers rule b) :=
        fun ⟨_, _, hop⟩ => nomatch hop
      rcases hsession with ⟨htick, heq⟩ | ⟨-, heq, -⟩
      · rw [heq] at hses
        by_cases hab : a = b
        · subst hab
          obtain rfl : (⟨c.contract, t.now⟩ : Session) = ses := by
            simpa [State.setSession] using hses
          exact .inl ⟨rfl, ⟨t', hcall⟩, auth, c, signers, rule, p, rfl, htick, hp, hallows⟩
        · rw [State.setSession] at hses
          dsimp only at hses
          rw [if_neg hab] at hses
          exact .inr ⟨⟨ses, hses, rfl⟩, hkeep⟩
      · rw [heq] at hses
        exact .inr ⟨⟨ses, hses, rfl⟩, hkeep⟩
    | endSession auth b =>
      have hab : a ≠ b := by
        rintro rfl
        rw [session_of_endSession hrun] at hses
        cases hses
      have hkeep : ¬ SessionClosed a t (.endSession auth b) := by
        rintro ⟨-, auth', hop⟩
        cases hop
        exact hab rfl
      rcases endSession_ok hrun with ⟨-, heq⟩ | ⟨_, -, -, heq⟩
      · rw [heq] at hses
        exact .inr ⟨⟨ses, hses, rfl⟩, hkeep⟩
      · rw [heq, State.setSession] at hses
        dsimp only at hses
        rw [if_neg hab] at hses
        exact .inr ⟨⟨ses, hses, rfl⟩, hkeep⟩
    | install auth params rule b =>
      refine .inr ⟨⟨ses, ?_, rfl⟩, fun ⟨_, _, hop⟩ => nomatch hop⟩
      obtain ⟨-, -, -, -, -, heq⟩ := install_ok hrun
      rw [heq] at hses
      exact hses
    | uninstall auth rule b =>
      refine .inr ⟨⟨ses, ?_, rfl⟩, fun ⟨_, _, hop⟩ => nomatch hop⟩
      rw [(uninstall_ok hrun).2] at hses
      exact hses
    | advance n =>
      refine .inr ⟨⟨ses, ?_, rfl⟩, fun ⟨_, _, hop⟩ => nomatch hop⟩
      rw [← Except.ok.inj hrun] at hses
      exact hses

/-- **Sessions come from ticks**: from a state in which account `a` has no session, a call other
than `tick` is admitted for it only after a `tick` for it was admitted in the same ledger, with
no successful `end_session` in between.

**Proof sketch.** `enforce` admits such a call only in a session of the current ledger.
`sessionOf_after` is the step of the flag rule for "since". -/
theorem since_tick (hnone : t.state.session a = none) (ops : List Op) {auth : Address → Bool}
    {c : ContractContext} {signers : List Signer} {rule : ContextRule} (hc : c.fnName ≠ .tick)
    (h : Admits call (run call t ops) (.enforce auth (.contract c) signers rule a)) :
    Since call t ops (TickAdmitted a (run call t ops).now) (SessionClosed a) := by
  obtain ⟨s, hs⟩ := admits_iff.mp h
  obtain ⟨p, c', -, hcontext, -, hsession⟩ := session_of_enforce hs
  cases hcontext
  rcases hsession with ⟨htick, -⟩ | ⟨-, -, hopen⟩
  · exact absurd htick hc
  · have hstart : ¬ SessionOf a (run call t ops).now t := by
      rintro ⟨ses, hses, -⟩
      rw [hnone] at hses
      cases hses
    exact since_of_flag call hstart (fun t' op => sessionOf_after op) ops hopen

/-- Closing an open session takes the authorization of the router recorded in it. -/
lemma router_of_endSession {auth : Address → Bool} {s s' : State} {ses : Session}
    (hses : s.session a = some ses) (h : endSession auth a s = .ok s') :
    auth ses.router = true := by
  rcases endSession_ok h with ⟨hnone, -⟩ | ⟨ses', hses', hauth, -⟩
  · rw [hses] at hnone
    cases hnone
  · rw [hses] at hses'
    cases hses'
    exact hauth

/-! ## Stored windows -/

/-- A counted call is at least one. -/
lemma countCall_pos {p : KoulAgentParams} {now : ℕ} {w : Option WindowState} {w' : WindowState}
    (h : countCall p now w = .ok w') : 0 < w'.calls :=
  FixedWindow.counted_of_hit (countCall_eq_ok_iff.mp h) w'.counter rfl

/-- Every step keeps every stored window counted. -/
lemma countedWindow_call {op : Op} (hw : ∀ b r, CountedWindow b r t.state)
    (h : call t op = .ok t') : ∀ b r, CountedWindow b r t'.state := by
  obtain ⟨hrun, -⟩ := call_ok h
  intro b r w' hw'
  cases op with
  | enforce auth context signers rule a =>
    obtain ⟨-, -, p, c, s₁, w, -, -, -, hs₁, -, hcount, heq⟩ := enforce_eq_ok_iff.mp hrun
    rw [heq, State.counted, State.publish, State.setWindow, (enterSession_frame hs₁).2] at hw'
    dsimp only at hw'
    split_ifs at hw' with hb
    · cases hw'
      exact countCall_pos hcount
    · exact hw b r w' hw'
  | endSession auth a =>
    rcases endSession_ok hrun with ⟨-, heq⟩ | ⟨_, -, -, heq⟩
    · rw [heq] at hw'
      exact hw b r w' hw'
    · rw [heq] at hw'
      exact hw b r w' hw'
  | install auth params rule a =>
    obtain ⟨-, -, -, -, -, heq⟩ := install_ok hrun
    rw [heq] at hw'
    exact hw b r w' hw'
  | uninstall auth rule a =>
    rw [(uninstall_ok hrun).2, State.setWindow] at hw'
    dsimp only at hw'
    split_ifs at hw'
    exact hw b r w' hw'
  | advance n =>
    rw [← Except.ok.inj hrun] at hw'
    exact hw b r w' hw'

/-- **Stored windows have counted a call**, in every state reachable from the policy's
deployment. -/
theorem countedWindow_run (now : ℕ) (ops : List Op) :
    ∀ b r, CountedWindow b r (run call ⟨State.init, now⟩ ops).state := by
  refine run_invariant call (P := fun t => ∀ b r, CountedWindow b r t.state) ?_ ?_ ops
  · intro t op t' hw h
    exact countedWindow_call hw h
  · intro b r w hw
    cases hw

end Koul.Policy
