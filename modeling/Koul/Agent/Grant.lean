import Koul.Core.Permissions
import Koul.Policy.Enforce

set_option relaxedAutoImplicit false
set_option autoImplicit false

/-!
# The agent's grant

How a grant reaches the policy and is read back: the parameters that `buildGrantAgent` installs,
the parameters that the app reads of the policy, and `grantCovers`, which compares these with what
an autopilot needs.

## Main definitions

* `Koul.Agent.grantParams`, `Koul.Agent.buildGrantAgent` — the parameters of a new grant.
* `Koul.Agent.readAgentParams` — stored parameters as the app reads them.
* `Koul.Agent.grantCovers` — the stored parameters allow all that an autopilot needs.

## Main results

* `Koul.Agent.grantCovers_iff` — what a covering grant allows, on the policy's side.
* `Koul.Agent.grantCovers_grantParams` — a new grant covers its autopilot.
-/

namespace Koul.Agent

open Koul.Core Policy

/-! ## Giving a grant -/

/-- The limits that `buildGrantAgent` sets unless it is told otherwise. -/
def defaultMaxCalls : ℕ := 40

def defaultWindowLedgers : ℕ := 2000

/-- The policy parameters of a grant for one account. -/
def grantParams (accountId : ℕ) (perms : AgentPermissions) (maxCalls windowLedgers : ℕ) :
    KoulAgentParams where
  accountId := accountId
  allowedCalls := perms.allowedCalls
  allowedTransferRecipients := perms.transferRecipients
  maxCallsPerWindow := maxCalls
  windowLedgers := windowLedgers

/-- Why no grant is built. -/
inductive GrantError
  | badDays
  | permissions (e : PermissionError)
deriving DecidableEq, Repr

/-- The parameters of a new grant and the ledger it is valid until. `swapRouter` is the
aggregator of a configuration that names none. -/
def buildGrantAgent (contracts : PermissionContracts) (swapRouter : Address) (ap : Core.Autopilot)
    (days : ℤ) (ledger maxCalls windowLedgers : ℕ) : Except GrantError (KoulAgentParams × ℤ) :=
  if days < 1 ∨ days > 30 then .error .badDays
  else
    match permissionsFor ap
      { contracts with aggregator := some (contracts.aggregator.getD swapRouter) } with
    | .error e => .error (.permissions e)
    | .ok perms =>
      .ok (grantParams (bigInt ap.accountId) perms maxCalls windowLedgers, ledger + days * 17280)

/-! ## Reading a grant back -/

/-- Policy parameters as the app reads them: the account id and the names are texts. -/
structure AgentParams where
  accountId : String
  allowedCalls : List (String × String)
  transferRecipients : List String
  maxCallsPerWindow : ℕ
  windowLedgers : ℕ
deriving DecidableEq, Repr

def readAgentParams (raw : Option KoulAgentParams) : Option AgentParams :=
  raw.map fun p =>
    { accountId := toString p.accountId
      allowedCalls := p.allowedCalls.map fun (c, f) => (c, f.name)
      transferRecipients := p.allowedTransferRecipients
      maxCallsPerWindow := p.maxCallsPerWindow
      windowLedgers := p.windowLedgers }

/-- How a call is looked up. -/
def callKey (c f : String) : String := c ++ ":" ++ f

/-- The key already on the wallet allows everything that the rules need. -/
def grantCovers (contracts : PermissionContracts) (params : Option AgentParams)
    (ap : Core.Autopilot) : Except PermissionError Bool :=
  match params with
  | none => .ok false
  | some params =>
    if validateAutopilot ap ≠ [] then .ok false
    else if params.accountId ≠ ap.accountId then .ok false
    else do
      let needed ← permissionsFor ap contracts
      let calls := params.allowedCalls.map fun (c, f) => callKey c f
      .ok (needed.allowedCalls.all (fun (c, f) => calls.contains (callKey c f.name)) &&
        needed.transferRecipients.all fun r => params.transferRecipients.contains r)

/-! ## What a covering grant allows -/

/-- Only one split at a character leaves a text without it. -/
lemma append_cons_inj {α : Type} {a : α} {l₁ l₂ r₁ r₂ : List α} (h₁ : a ∉ r₁) (h₂ : a ∉ r₂)
    (h : l₁ ++ a :: r₁ = l₂ ++ a :: r₂) : l₁ = l₂ ∧ r₁ = r₂ := by
  rcases List.append_eq_append_iff.mp h with ⟨m, hl, hr⟩ | ⟨m, hl, hr⟩
  · cases m with
    | nil =>
      rw [List.append_nil] at hl
      exact ⟨hl.symm, (List.cons.inj hr).2⟩
    | cons b m =>
      obtain ⟨-, rfl⟩ := List.cons.inj hr
      exact absurd (List.mem_append_right _ List.mem_cons_self) h₁
  · cases m with
    | nil =>
      rw [List.append_nil] at hl
      exact ⟨hl, (List.cons.inj hr).2.symm⟩
    | cons b m =>
      obtain ⟨-, rfl⟩ := List.cons.inj hr
      exact absurd (List.mem_append_right _ List.mem_cons_self) h₂

/-- Looked up by their texts, calls are equal only when they are the same: no function name has a
colon. -/
lemma callKey_inj {c c' : Address} {f f' : Symbol} (h : callKey c f.name = callKey c' f'.name) :
    c = c' ∧ f = f' := by
  have hlist := congrArg String.toList h
  simp only [callKey, String.toList_append, List.append_assoc] at hlist
  obtain ⟨hc, hf⟩ := append_cons_inj f.colon_notMem f'.colon_notMem hlist
  exact ⟨String.toList_inj.mp hc, Symbol.ext (String.toList_inj.mp hf)⟩

variable {contracts : PermissionContracts} {ap : Core.Autopilot} {p : KoulAgentParams}

/-- The lookup of a call among the stored ones. -/
lemma contains_callKey_iff {calls : List (Address × Symbol)} {c : Address} {f : Symbol} :
    ((calls.map fun (c, f) => (c, f.name)).map fun (c, f) => callKey c f).contains
      (callKey c f.name) = true ↔ (c, f) ∈ calls := by
  rw [List.contains_iff_mem, List.map_map, List.mem_map]
  constructor
  · rintro ⟨⟨c', f'⟩, hmem, hkey⟩
    obtain ⟨rfl, rfl⟩ := callKey_inj hkey
    exact hmem
  · intro hmem
    exact ⟨(c, f), hmem, rfl⟩

/-- **A covering grant** is for a valid autopilot and its account, and allows every call and
every recipient that the autopilot needs. -/
theorem grantCovers_iff : grantCovers contracts (readAgentParams (some p)) ap = .ok true ↔
    permissionsFor ap contracts = .ok (unionOf ap contracts) ∧ toString p.accountId = ap.accountId ∧
      (∀ call ∈ (unionOf ap contracts).allowedCalls, call ∈ p.allowedCalls) ∧
      ∀ r ∈ (unionOf ap contracts).transferRecipients, r ∈ p.allowedTransferRecipients := by
  simp only [grantCovers, readAgentParams, Option.map_some]
  constructor
  · intro h
    split_ifs at h with herrors haccount
    · cases h
    · cases h
    · obtain ⟨perms, hperms, h⟩ := Transactional.bind_eq_ok_iff.mp h
      obtain ⟨-, -, rfl⟩ := permissionsFor_eq_ok_iff.mp hperms
      have hall := Except.ok.inj h
      rw [Bool.and_eq_true, List.all_eq_true, List.all_eq_true] at hall
      refine ⟨hperms, not_not.mp haccount, ?_, ?_⟩
      · rintro ⟨c, f⟩ hmem
        exact contains_callKey_iff.mp (hall.1 (c, f) hmem)
      · intro r hmem
        exact List.contains_iff_mem.mp (hall.2 r hmem)
  · rintro ⟨hperms, haccount, hcalls, hrecipients⟩
    have hvalid := (permissionsFor_eq_ok_iff.mp hperms).1
    rw [if_neg (not_not.mpr hvalid), if_neg (not_not.mpr haccount), hperms]
    show Except.ok _ = Except.ok true
    congr 1
    rw [Bool.and_eq_true, List.all_eq_true, List.all_eq_true]
    constructor
    · rintro ⟨c, f⟩ hmem
      exact contains_callKey_iff.mpr (hcalls (c, f) hmem)
    · intro r hmem
      exact List.contains_iff_mem.mpr (hrecipients r hmem)

/-- **A new grant covers** the autopilot it was given for. -/
theorem grantCovers_grantParams {perms : AgentPermissions}
    (h : permissionsFor ap contracts = .ok perms) (maxCalls windowLedgers : ℕ) :
    grantCovers contracts
      (readAgentParams (some (grantParams (bigInt ap.accountId) perms maxCalls windowLedgers)))
      ap = .ok true := by
  obtain ⟨hvalid, -, rfl⟩ := permissionsFor_eq_ok_iff.mp h
  rw [grantCovers_iff]
  exact ⟨h, repr_bigInt (isDecimal_accountId hvalid), fun _ hc => hc, fun _ hr => hr⟩

/-- What is installed is the grant of its autopilot. -/
theorem buildGrantAgent_ok {swapRouter : Address} {days validUntil : ℤ}
    {ledger maxCalls windowLedgers : ℕ}
    (h : buildGrantAgent contracts swapRouter ap days ledger maxCalls windowLedgers =
      .ok (p, validUntil)) :
    1 ≤ days ∧ days ≤ 30 ∧ validUntil = ledger + days * 17280 ∧ ∃ perms,
      permissionsFor ap
        { contracts with aggregator := some (contracts.aggregator.getD swapRouter) } = .ok perms ∧
      p = grantParams (bigInt ap.accountId) perms maxCalls windowLedgers := by
  unfold buildGrantAgent at h
  split_ifs at h with hdays
  split at h
  · cases h
  · next perms hperms =>
    cases h
    exact ⟨by omega, by omega, rfl, perms, hperms, rfl⟩

end Koul.Agent
