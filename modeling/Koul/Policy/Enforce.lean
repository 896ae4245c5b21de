import Koul.Lib.Transactional
import Koul.Soroban

set_option relaxedAutoImplicit false
set_option autoImplicit false

/-!
# The agent policy

`koul_agent_policy`: what an agent's key may do with a user's smart account. `auth` gives the
addresses whose authorization a call carries and `now` is the ledger's sequence number. Storage
never expires here; a count past the range of `u32`, which panics, is refused as rate limited.

## Main definitions

* `Koul.Policy.State` — the policy's storage.
* `Koul.Policy.enforce` — check one context of an authorization tree.
* `Koul.Policy.endSession` — close a smart account's session.
* `Koul.Policy.install`, `Koul.Policy.uninstall`.

## Main results

* `Koul.Policy.enforce_eq_ok_iff` — exactly what `enforce` admits, and what it stores.
* `Koul.Policy.endSession_ok` — what closing a session takes and leaves.
-/

namespace Koul.Policy

open Transactional

/-! ## Data -/

structure KoulAgentParams where
  accountId : ℕ
  allowedCalls : List (Address × Symbol)
  allowedTransferRecipients : List Address
  maxCallsPerWindow : ℕ
  windowLedgers : ℕ
deriving DecidableEq, Repr

structure WindowState where
  windowStart : ℕ
  calls : ℕ
deriving DecidableEq, Repr

/-- An open tick: which router opened it, in which ledger. -/
structure Session where
  router : Address
  ledger : ℕ
deriving DecidableEq, Repr

inductive KoulPolicyError
  | notInstalled
  | noSigners
  | notContractContext
  | callNotAllowed
  | transferRecipientNotAllowed
  | arity
  | rateLimited
  | badParams
  | accountNotAllowed
  | withdrawRecipientNotAllowed
  | noSession
  | senderNotAllowed
deriving DecidableEq, Repr

/-- How a call of the policy fails. -/
inductive Err
  | policy (e : KoulPolicyError)
  | auth
  | trap
deriving DecidableEq, Repr

inductive Event
  | koulEnforced (smartAccount : Address) (contextRuleId : ℕ) (contract : Address)
      (fnName : Symbol) (callsInWindow : ℕ)
  | koulInstalled (smartAccount : Address) (contextRuleId allowedCalls maxCallsPerWindow
      windowLedgers : ℕ)
deriving DecidableEq, Repr

/-- A signer of a context rule. -/
inductive Signer
  | delegated (a : Address)
  | external (verifier : Address) (key : Bytes)
deriving DecidableEq, Repr

/-- The part of a smart account's context rule that the policy reads. -/
structure ContextRule where
  id : ℕ
deriving DecidableEq, Repr

/-- The policy's storage, one field for each kind of key, and its events. -/
structure State where
  params : Address → ℕ → Option KoulAgentParams
  window : Address → ℕ → Option WindowState
  session : Address → Option Session
  events : List Event

namespace State

/-- The policy's storage when it is deployed. -/
def init : State := ⟨fun _ _ => none, fun _ _ => none, fun _ => none, []⟩

def setParams (s : State) (a : Address) (r : ℕ) (v : Option KoulAgentParams) : State :=
  { s with params := fun b q => if b = a ∧ q = r then v else s.params b q }

def setWindow (s : State) (a : Address) (r : ℕ) (v : Option WindowState) : State :=
  { s with window := fun b q => if b = a ∧ q = r then v else s.window b q }

def setSession (s : State) (a : Address) (v : Option Session) : State :=
  { s with session := fun b => if b = a then v else s.session b }

def publish (s : State) (ev : Event) : State := { s with events := s.events ++ [ev] }

end State

/-! ## Enforcement -/

/-- Panic with an error of the policy unless a check passes. -/
def require (c : Bool) (e : KoulPolicyError) : Except Err Unit :=
  if c then .ok () else .error (.policy e)

/-- Panic with an error of the policy unless a value is there. -/
def expect {α : Type} (o : Option α) (e : KoulPolicyError) : Except Err α :=
  match o with
  | some a => .ok a
  | none => .error (.policy e)

/-- An argument whose index the arity check has covered. -/
def arg (args : List Val) (i : ℕ) : Except Err Val :=
  match args[i]? with
  | some v => .ok v
  | none => .error .trap

/-- XOXNO controller calls carry the account id as their second argument. -/
def checkAccount (args : List Val) (accountId : ℕ) : Except Err Unit := do
  let v ← arg args 1
  let id ← expect v.toU64? .arity
  require (id == accountId) .accountNotAllowed

/-- The checks on a call's arguments, by its function name. -/
def checkArgs (p : KoulAgentParams) (smartAccount : Address) (fnName : Symbol)
    (args : List Val) : Except Err Unit :=
  if fnName = .transfer then do
    require (args.length == 3) .arity
    let v ← arg args 1
    let toAddr ← expect v.toAddress? .arity
    require (p.allowedTransferRecipients.any (· == toAddr)) .transferRecipientNotAllowed
  else if fnName = .withdraw then do
    require (args.length == 4) .arity
    checkAccount args p.accountId
    let v ← arg args 3
    if v.isVoid then .ok ()
    else do
      let toAddr ← expect v.toAddress? .arity
      require (toAddr == smartAccount) .withdrawRecipientNotAllowed
  else if fnName = .supply then do
    require (args.length == 4) .arity
    checkAccount args p.accountId
  else if fnName = .repay then do
    require (args.length == 3) .arity
    checkAccount args p.accountId
  else if fnName = .executeStrategy then do
    require (args.length == 3) .arity
    let v ← arg args 0
    let sender ← expect v.toAddress? .arity
    require (sender == smartAccount) .senderNotAllowed
  else .ok ()

def Context.asContract : Context → Except Err ContractContext
  | .contract c => .ok c
  | _ => .error (.policy .notContractContext)

/-- The call is in the allowlist. -/
def KoulAgentParams.allows (p : KoulAgentParams) (c : ContractContext) : Bool :=
  p.allowedCalls.any fun (a, f) => a == c.contract && f == c.fnName

/-- A `tick` opens the session; every other call needs one of this ledger. -/
def enterSession (now : ℕ) (c : ContractContext) (smartAccount : Address) (s : State) :
    Except Err State :=
  if c.fnName = .tick then .ok (s.setSession smartAccount (some ⟨c.contract, now⟩))
  else
    match s.session smartAccount with
    | some ses => if ses.ledger = now then .ok s else .error (.policy .noSession)
    | none => .error (.policy .noSession)

/-- The window that a call at `now` is counted in. -/
def windowAt (p : KoulAgentParams) (now : ℕ) (w : Option WindowState) : WindowState :=
  let w := w.getD ⟨now, 0⟩
  if now - w.windowStart ≥ p.windowLedgers then ⟨now, 0⟩ else w

/-- Count a call in its window. -/
def countCall (p : KoulAgentParams) (now : ℕ) (w : Option WindowState) :
    Except Err WindowState :=
  let w := windowAt p now w
  let w := { w with calls := w.calls + 1 }
  if w.calls > p.maxCallsPerWindow then .error (.policy .rateLimited) else .ok w

/-- Check one context of an authorization tree for a smart account. -/
def enforce (now : ℕ) (auth : Address → Bool) (context : Context)
    (authenticatedSigners : List Signer) (contextRule : ContextRule) (smartAccount : Address)
    (s : State) : Except Err State := do
  if !auth smartAccount then .error .auth
  else
    require (!authenticatedSigners.isEmpty) .noSigners
    let p ← expect (s.params smartAccount contextRule.id) .notInstalled
    let c ← Context.asContract context
    require (p.allows c) .callNotAllowed
    let s ← enterSession now c smartAccount s
    checkArgs p smartAccount c.fnName c.args
    let w ← countCall p now (s.window smartAccount contextRule.id)
    .ok ((s.setWindow smartAccount contextRule.id (some w)).publish
      (.koulEnforced smartAccount contextRule.id c.contract c.fnName w.calls))

/-- Attach the policy to a context rule. -/
def install (auth : Address → Bool) (installParams : KoulAgentParams) (contextRule : ContextRule)
    (smartAccount : Address) (s : State) : Except Err State := do
  if !auth smartAccount then .error .auth
  else
    require (!(installParams.accountId == 0 || installParams.allowedCalls.isEmpty ||
      installParams.maxCallsPerWindow == 0 || installParams.windowLedgers == 0)) .badParams
    .ok ((s.setParams smartAccount contextRule.id (some installParams)).publish
      (.koulInstalled smartAccount contextRule.id installParams.allowedCalls.length
        installParams.maxCallsPerWindow installParams.windowLedgers))

def uninstall (auth : Address → Bool) (contextRule : ContextRule) (smartAccount : Address)
    (s : State) : Except Err State :=
  if !auth smartAccount then .error .auth
  else .ok ((s.setParams smartAccount contextRule.id none).setWindow smartAccount
    contextRule.id none)

/-- Close the smart account's session. Without an open session there is nothing to close. -/
def endSession (auth : Address → Bool) (smartAccount : Address) (s : State) : Except Err State :=
  match s.session smartAccount with
  | none => .ok s
  | some ses =>
    if !auth ses.router then .error .auth else .ok (s.setSession smartAccount none)

/-! ## What the checks say -/

lemma require_eq_ok_iff {c : Bool} {e : KoulPolicyError} {u : Unit} :
    require c e = .ok u ↔ c = true := by
  cases c <;> simp [require]

lemma expect_eq_ok_iff {α : Type} {o : Option α} {e : KoulPolicyError} {a : α} :
    expect o e = .ok a ↔ o = some a := by
  cases o <;> simp [expect]

lemma arg_eq_ok_iff {args : List Val} {i : ℕ} {v : Val} : arg args i = .ok v ↔ args[i]? = some v := by
  rw [arg]
  cases args[i]? <;> simp

lemma toAddress?_eq_some_iff {v : Val} {a : Address} :
    v.toAddress? = some a ↔ v = .address a := by
  cases v <;> simp [Val.toAddress?]

lemma toU64?_eq_some_iff {v : Val} {n : ℕ} : v.toU64? = some n ↔ v = .u64 n := by
  cases v <;> simp [Val.toU64?]

lemma isVoid_iff {v : Val} : v.isVoid = true ↔ v = .void := by
  cases v <;> simp [Val.isVoid]

lemma checkAccount_eq_ok_iff {args : List Val} {n : ℕ} {u : Unit} :
    checkAccount args n = .ok u ↔ args[1]? = some (.u64 n) := by
  simp only [checkAccount, bind_eq_ok_iff, arg_eq_ok_iff, expect_eq_ok_iff, require_eq_ok_iff,
    toU64?_eq_some_iff, beq_iff_eq]
  constructor
  · rintro ⟨v, hv, id, rfl, rfl⟩
    exact hv
  · intro h
    exact ⟨_, h, n, rfl, rfl⟩

variable {p : KoulAgentParams} {a : Address} {args : List Val}

/-- An accepted transfer goes to an allowed recipient. -/
lemma checkArgs_transfer {u : Unit} : checkArgs p a .transfer args = .ok u ↔
    ∃ x y toAddr, args = [x, .address toAddr, y] ∧ toAddr ∈ p.allowedTransferRecipients := by
  simp only [checkArgs, if_true, bind_eq_ok_iff, arg_eq_ok_iff, expect_eq_ok_iff,
    require_eq_ok_iff, toAddress?_eq_some_iff, beq_iff_eq, List.any_eq_true, exists_eq_right,
    List.length_eq_three]
  constructor
  · rintro ⟨-, ⟨x, v, y, rfl⟩, v', hv, toAddr, rfl, hto⟩
    obtain rfl : v = .address toAddr := by simpa using hv
    exact ⟨x, y, toAddr, rfl, hto⟩
  · rintro ⟨x, y, toAddr, rfl, hto⟩
    exact ⟨(), ⟨x, _, y, rfl⟩, _, rfl, toAddr, rfl, hto⟩

/-- An accepted withdrawal is from the pinned account, to the wallet. -/
lemma checkArgs_withdraw {u : Unit} : checkArgs p a .withdraw args = .ok u ↔
    ∃ x y dest, args = [x, .u64 p.accountId, y, dest] ∧ (dest = .void ∨ dest = .address a) := by
  have hne : Symbol.withdraw ≠ .transfer := by decide
  simp only [checkArgs, hne, if_false, if_true, bind_eq_ok_iff, arg_eq_ok_iff,
    require_eq_ok_iff, checkAccount_eq_ok_iff, beq_iff_eq]
  constructor
  · rintro ⟨-, hlen, -, hid, dest, hdest, h⟩
    obtain ⟨x, v, y, d, rfl⟩ : ∃ x v y d, args = [x, v, y, d] := by
      match args, hlen with
      | [x, v, y, d], _ => exact ⟨x, v, y, d, rfl⟩
    obtain rfl : v = .u64 p.accountId := by simpa using hid
    obtain rfl : d = dest := by simpa using hdest
    refine ⟨x, y, d, rfl, ?_⟩
    split_ifs at h with hvoid
    · exact .inl (isVoid_iff.mp hvoid)
    · simp only [bind_eq_ok_iff, expect_eq_ok_iff, toAddress?_eq_some_iff, require_eq_ok_iff,
        beq_iff_eq] at h
      obtain ⟨toAddr, rfl, rfl⟩ := h
      exact .inr rfl
  · rintro ⟨x, y, dest, rfl, hdest⟩
    refine ⟨(), rfl, (), rfl, dest, rfl, ?_⟩
    rcases hdest with rfl | rfl
    · rfl
    · simp [Val.isVoid, Val.toAddress?, expect, require, bind, Except.bind]

/-- An accepted supply is to the pinned account. -/
lemma checkArgs_supply {u : Unit} : checkArgs p a .supply args = .ok u ↔
    args.length = 4 ∧ args[1]? = some (.u64 p.accountId) := by
  have h₁ : Symbol.supply ≠ .transfer := by decide
  have h₂ : Symbol.supply ≠ .withdraw := by decide
  simp [checkArgs, h₁, h₂, bind_eq_ok_iff, require_eq_ok_iff, checkAccount_eq_ok_iff]

/-- So is an accepted repayment. -/
lemma checkArgs_repay {u : Unit} : checkArgs p a .repay args = .ok u ↔
    args.length = 3 ∧ args[1]? = some (.u64 p.accountId) := by
  have h₁ : Symbol.repay ≠ .transfer := by decide
  have h₂ : Symbol.repay ≠ .withdraw := by decide
  have h₃ : Symbol.repay ≠ .supply := by decide
  simp [checkArgs, h₁, h₂, h₃, bind_eq_ok_iff, require_eq_ok_iff, checkAccount_eq_ok_iff]

/-- An accepted swap is sent by the wallet. -/
lemma checkArgs_executeStrategy {u : Unit} : checkArgs p a .executeStrategy args = .ok u ↔
    args.length = 3 ∧ args[0]? = some (.address a) := by
  have h₁ : Symbol.executeStrategy ≠ .transfer := by decide
  have h₂ : Symbol.executeStrategy ≠ .withdraw := by decide
  have h₃ : Symbol.executeStrategy ≠ .supply := by decide
  have h₄ : Symbol.executeStrategy ≠ .repay := by decide
  simp only [checkArgs, h₁, h₂, h₃, h₄, if_false, if_true, bind_eq_ok_iff, arg_eq_ok_iff,
    expect_eq_ok_iff, require_eq_ok_iff, toAddress?_eq_some_iff, beq_iff_eq]
  constructor
  · rintro ⟨-, hlen, v, hv, sender, rfl, rfl⟩
    exact ⟨hlen, hv⟩
  · rintro ⟨hlen, hv⟩
    exact ⟨(), hlen, _, hv, a, rfl, rfl⟩

/-- A tick's arguments are not checked. -/
lemma checkArgs_tick : checkArgs p a .tick args = .ok () := by
  have h₁ : Symbol.tick ≠ .transfer := by decide
  have h₂ : Symbol.tick ≠ .withdraw := by decide
  have h₃ : Symbol.tick ≠ .supply := by decide
  have h₄ : Symbol.tick ≠ .repay := by decide
  have h₅ : Symbol.tick ≠ .executeStrategy := by decide
  simp only [checkArgs, h₁, h₂, h₃, h₄, h₅, if_false]

lemma allows_iff {c : ContractContext} :
    p.allows c = true ↔ (c.contract, c.fnName) ∈ p.allowedCalls := by
  simp [KoulAgentParams.allows]

/-! ## What `enforce` admits -/

variable {now : ℕ} {auth : Address → Bool} {context : Context} {signers : List Signer}
  {rule : ContextRule} {s s' : State} {c : ContractContext}

/-- A tick opens the session. -/
lemma enterSession_tick (h : c.fnName = .tick) :
    enterSession now c a s = .ok (s.setSession a (some ⟨c.contract, now⟩)) := if_pos h

/-- Any other call passes in a session of this ledger. -/
lemma enterSession_open {ses : Session} (h : c.fnName ≠ .tick) (hses : s.session a = some ses)
    (hledger : ses.ledger = now) : enterSession now c a s = .ok s := by
  simp only [enterSession, if_neg h, hses, if_pos hledger]

/-- The session step stores a tick's session and nothing else. -/
lemma enterSession_ok (h : enterSession now c a s = .ok s') :
    c.fnName = .tick ∧ s' = s.setSession a (some ⟨c.contract, now⟩) ∨
      c.fnName ≠ .tick ∧ s' = s ∧ ∃ ses, s.session a = some ses ∧ ses.ledger = now := by
  unfold enterSession at h
  split_ifs at h with htick
  · cases h
    exact .inl ⟨htick, rfl⟩
  · split at h
    · next ses hses =>
      split_ifs at h with hledger
      cases h
      exact .inr ⟨htick, rfl, ses, hses, hledger⟩
    · cases h

/-- What an admitted context leaves stored: the session step and one call counted. -/
def State.counted (s : State) (a : Address) (rule : ContextRule) (c : ContractContext)
    (w : WindowState) : State :=
  (s.setWindow a rule.id (some w)).publish
    (.koulEnforced a rule.id c.contract c.fnName w.calls)

/-- Once every other check has passed, the rate limit decides. -/
lemma enforce_of_checks {s₁ : State} (hauth : auth a = true) (hsigners : signers ≠ [])
    (hp : s.params a rule.id = some p) (hallows : p.allows c = true)
    (hsession : enterSession now c a s = .ok s₁)
    (hargs : checkArgs p a c.fnName c.args = .ok ()) :
    enforce now auth (.contract c) signers rule a s =
      countCall p now (s₁.window a rule.id) >>= fun w => .ok (s₁.counted a rule c w) := by
  have hempty : signers.isEmpty = false := List.isEmpty_eq_false_iff.mpr hsigners
  simp only [enforce, hauth, hempty, Bool.not_true, Bool.false_eq_true, if_false, Bool.not_false,
    require, if_true, hp, expect, Context.asContract, hallows, hsession, hargs, bind, Except.bind]
  rfl

/-- **What `enforce` admits**: an authorized, signed, allowlisted call of an installed rule, in
a session or opening one, with accepted arguments, within the rate limit. -/
theorem enforce_eq_ok_iff : enforce now auth context signers rule a s = .ok s' ↔
    auth a = true ∧ signers ≠ [] ∧ ∃ p c s₁ w, s.params a rule.id = some p ∧
      context = .contract c ∧ p.allows c = true ∧ enterSession now c a s = .ok s₁ ∧
      checkArgs p a c.fnName c.args = .ok () ∧
      countCall p now (s₁.window a rule.id) = .ok w ∧ s' = s₁.counted a rule c w := by
  constructor
  · intro h
    unfold enforce at h
    split_ifs at h with hauth
    simp only [bind_eq_ok_iff, require_eq_ok_iff, expect_eq_ok_iff] at h
    obtain ⟨-, hsigners, p, hp, c, hc, -, hallows, s₁, hs₁, ⟨⟩, hargs, w, hw, h⟩ := h
    cases h
    refine ⟨by simpa using hauth, ?_, p, c, s₁, w, hp, ?_, hallows, hs₁, hargs, hw, rfl⟩
    · simpa using hsigners
    · cases context with
      | contract c' => cases hc; rfl
      | createContractHostFn => cases hc
      | createContractWithCtorHostFn => cases hc
  · rintro ⟨hauth, hsigners, p, c, s₁, w, hp, rfl, hallows, hs₁, hargs, hw, rfl⟩
    rw [enforce_of_checks hauth hsigners hp hallows hs₁ hargs, hw]
    rfl

/-- Installing stores the parameters, which name an account, a call and a limit. -/
lemma install_ok {params : KoulAgentParams} (h : install auth params rule a s = .ok s') :
    auth a = true ∧ params.accountId ≠ 0 ∧ params.allowedCalls ≠ [] ∧
      params.maxCallsPerWindow ≠ 0 ∧ params.windowLedgers ≠ 0 ∧
      s' = (s.setParams a rule.id (some params)).publish (.koulInstalled a rule.id
        params.allowedCalls.length params.maxCallsPerWindow params.windowLedgers) := by
  unfold install at h
  split_ifs at h with hauth
  obtain ⟨⟨⟩, hok, h⟩ := bind_eq_ok_iff.mp h
  simp only [require_eq_ok_iff, Bool.not_eq_true', Bool.or_eq_false_iff, beq_eq_false_iff_ne,
    List.isEmpty_eq_false_iff] at hok
  cases h
  exact ⟨by simpa using hauth, hok.1.1.1, hok.1.1.2, hok.1.2, hok.2, rfl⟩

/-- Uninstalling removes the rule's parameters and window. -/
lemma uninstall_ok (h : uninstall auth rule a s = .ok s') :
    auth a = true ∧ s' = (s.setParams a rule.id none).setWindow a rule.id none := by
  unfold uninstall at h
  split_ifs at h with hauth
  cases h
  exact ⟨by simpa using hauth, rfl⟩

/-- Closing a session takes the authorization of the router that opened it, and removes it. -/
lemma endSession_ok (h : endSession auth a s = .ok s') :
    s.session a = none ∧ s' = s ∨
      ∃ ses, s.session a = some ses ∧ auth ses.router = true ∧ s' = s.setSession a none := by
  unfold endSession at h
  split at h
  · next hses =>
    cases h
    exact .inl ⟨hses, rfl⟩
  · next ses hses =>
    split_ifs at h with hauth
    cases h
    exact .inr ⟨ses, hses, by simpa using hauth, rfl⟩

/-- After `end_session` there is no session. -/
lemma session_of_endSession (h : endSession auth a s = .ok s') : s'.session a = none := by
  rcases endSession_ok h with ⟨hnone, rfl⟩ | ⟨ses, -, -, rfl⟩
  · exact hnone
  · exact if_pos rfl

end Koul.Policy
