import Koul.Policy.Session
import Mathlib.Data.Set.Finite.Basic

set_option relaxedAutoImplicit false
set_option autoImplicit false

/-!
# What else is admitted during a tick

The policy's documentation says that the agent's key can only ask the router. A session is a flag
of the smart account, though: `enforce` does not know which authorization tree the context it is
shown belongs to. Here is what it admits between a tick's enforcement and its `end_session`.

## Main definitions

* `Koul.Policy.MidTick` — a run that neither closes the account's session nor its ledger.
* `Koul.Policy.Exclusive` — every other call admitted belongs to the tick's own tree.
* `Koul.Policy.OnlyTicksLeft` — no rule of the account lets anything but ticks pass.

## Main results

* `Koul.Policy.sessionOf_run` — the session stays open until the router closes it.
* `Koul.Policy.admits_iff_passes` — in an open session the other checks of `enforce` decide.
* `Koul.Policy.exclusive_iff` — exactly when nothing but the tick's tree is ever admitted.
-/

namespace Koul.Policy

open Transactional

/-- The step installs parameters for account `a`. -/
def Op.installs (a : Address) : Op → Prop
  | .install _ _ _ b => b = a
  | _ => False

/-- A run during a tick of account `a`: no step closes a ledger or the account's session, or
installs parameters for it. -/
def MidTick (a : Address) (t : Chain) (ops : List Op) : Prop :=
  ∀ pre op post, ops = pre ++ op :: post →
    op.ledgers = 0 ∧ ¬ SessionClosed a (run call t pre) op ∧ ¬ op.installs a

/-- Every call other than `tick` that the run admits for account `a` is one of `tree`. -/
def Exclusive (tree : List ContractContext) (a : Address) (t : Chain) (ops : List Op) : Prop :=
  ∀ pre op post, ops = pre ++ op :: post → ∀ auth c signers rule,
    op = .enforce auth (.contract c) signers rule a → c.fnName ≠ .tick →
      Admits call (run call t pre) op → c ∈ tree

/-- What `enforce` checks of a call apart from the session: authorization, a signer, the
allowlist and the arguments of the rule's parameters, and room in its window. -/
def Passes (now : ℕ) (auth : Address → Bool) (c : ContractContext) (signers : List Signer)
    (rule : ContextRule) (a : Address) (s : State) : Prop :=
  auth a = true ∧ signers ≠ [] ∧ ∃ p, s.params a rule.id = some p ∧ p.allows c = true ∧
    checkArgs p a c.fnName c.args = .ok () ∧
    (windowAt p now (s.window a rule.id)).calls < p.maxCallsPerWindow

/-- Parameters that let nothing but ticks pass: they allow no other call, apart from transfers
to no one. -/
def TicksOnly (p : KoulAgentParams) : Prop :=
  ∀ call ∈ p.allowedCalls, call.2 ≠ .tick →
    call.2 = .transfer ∧ p.allowedTransferRecipients = []

/-- Every rule of account `a` with room left in its window lets nothing but ticks pass. -/
def OnlyTicksLeft (a : Address) (t : Chain) : Prop :=
  ∀ r p, t.state.params a r = some p →
    (windowAt p t.now (t.state.window a r)).calls < p.maxCallsPerWindow → TicksOnly p

variable {a : Address} {t t' : Chain}

/-- In an open session the other checks decide. -/
lemma admits_iff_passes {auth : Address → Bool} {c : ContractContext} {signers : List Signer}
    {rule : ContextRule} (hopen : SessionOf a t.now t) (hc : c.fnName ≠ .tick) :
    Admits call t (.enforce auth (.contract c) signers rule a) ↔
      Passes t.now auth c signers rule a t.state := by
  obtain ⟨ses, hses, hledger⟩ := hopen
  rw [admits_iff]
  constructor
  · rintro ⟨s', hs'⟩
    obtain ⟨hauth, hsigners, p, c', s₁, w, hp, hcontext, hallows, hs₁, hargs, hw, -⟩ :=
      enforce_eq_ok_iff.mp hs'
    cases hcontext
    rw [(enterSession_frame hs₁).2] at hw
    exact ⟨hauth, hsigners, p, hp, hallows, hargs, countCall_ok_iff_lt.mp ⟨w, hw⟩⟩
  · rintro ⟨hauth, hsigners, p, hp, hallows, hargs, hroom⟩
    obtain ⟨w, hw⟩ := countCall_ok_iff_lt.mpr hroom
    exact ⟨_, enforce_eq_ok_iff.mpr ⟨hauth, hsigners, p, c, t.state, w, hp, rfl, hallows,
      enterSession_open hc hses hledger, hargs, hw, rfl⟩⟩

/-- An admitted tick leaves its account a session. -/
lemma sessionOf_of_tickAdmitted {op : Op} (h : TickAdmitted a t.now t op) :
    SessionOf a (after call t op).now (after call t op) := by
  obtain ⟨-, ⟨t', ht'⟩, auth, c, signers, rule, p, rfl, htick, -⟩ := h
  obtain ⟨hrun, hnow⟩ := call_ok ht'
  obtain ⟨-, c', -, hcontext, -, hsession⟩ := session_of_enforce hrun
  cases hcontext
  rw [after_of_ok call ht', hnow]
  rcases hsession with ⟨-, heq⟩ | ⟨hne, -⟩
  · refine ⟨⟨c.contract, t.now⟩, ?_, rfl⟩
    rw [heq]
    exact if_pos rfl
  · exact absurd htick hne

/-- **One step of a tick** keeps the session open. -/
lemma sessionOf_step {op : Op} (hopen : SessionOf a t.now t) (hledgers : op.ledgers = 0)
    (hclosed : ¬ SessionClosed a t op) :
    SessionOf a (after call t op).now (after call t op) := by
  cases hcall : call t op with
  | error e =>
    rw [after_of_error call hcall]
    exact hopen
  | ok t' =>
    rw [after_of_ok call hcall]
    obtain ⟨hrun, hnow⟩ := call_ok hcall
    rw [hnow, hledgers, Nat.add_zero]
    obtain ⟨ses, hses, hledger⟩ := hopen
    cases op with
    | enforce auth context signers rule b =>
      obtain ⟨p, c, -, -, -, hsession⟩ := session_of_enforce hrun
      rcases hsession with ⟨-, heq⟩ | ⟨-, heq, -⟩
      · by_cases hab : a = b
        · subst hab
          exact ⟨⟨c.contract, t.now⟩, by rw [heq]; exact if_pos rfl, rfl⟩
        · exact ⟨ses, by rw [heq]; exact (if_neg hab).trans hses, hledger⟩
      · exact ⟨ses, by rw [heq]; exact hses, hledger⟩
    | endSession auth b =>
      have hab : a ≠ b := by
        rintro rfl
        exact hclosed ⟨⟨t', hcall⟩, auth, rfl⟩
      rcases endSession_ok hrun with ⟨-, heq⟩ | ⟨_, -, -, heq⟩
      · exact ⟨ses, by rw [heq]; exact hses, hledger⟩
      · exact ⟨ses, by rw [heq]; exact (if_neg hab).trans hses, hledger⟩
    | install auth params rule b =>
      obtain ⟨-, -, -, -, -, heq⟩ := install_ok hrun
      exact ⟨ses, by rw [heq]; exact hses, hledger⟩
    | uninstall auth rule b =>
      exact ⟨ses, by rw [(uninstall_ok hrun).2]; exact hses, hledger⟩
    | advance n =>
      exact ⟨ses, by rw [← Except.ok.inj hrun]; exact hses, hledger⟩

/-- **The session stays open** until the router closes it. -/
theorem sessionOf_run {ops : List Op} (hopen : SessionOf a t.now t) (hmid : MidTick a t ops) :
    SessionOf a (run call t ops).now (run call t ops) := by
  induction ops using List.reverseRecOn with
  | nil => exact hopen
  | append_singleton ops op ih =>
    have hinit : MidTick a t ops := by
      rintro pre op' post rfl
      exact hmid pre op' (post ++ [op]) (by simp)
    obtain ⟨hledgers, hclosed, -⟩ := hmid ops op [] rfl
    rw [run_append, run_cons, run_nil]
    exact sessionOf_step (ih hinit) hledgers hclosed

/-- A run during a tick has only such runs before each of its steps. -/
lemma midTick_initial {ops pre rest : List Op} (hmid : MidTick a t ops) (h : ops = pre ++ rest) :
    MidTick a t pre := by
  rintro pre' op post rfl
  exact hmid pre' op (post ++ rest) (by rw [h]; simp)

/-- Calls presented to `enforce` close nothing and install nothing. -/
lemma midTick_of_enforce {ops : List Op} (h : ∀ op ∈ ops, ∃ auth context signers rule b,
    op = .enforce auth context signers rule b) : MidTick a t ops := by
  rintro pre op post rfl
  obtain ⟨auth, context, signers, rule, b, rfl⟩ :=
    h op (List.mem_append_right pre List.mem_cons_self)
  refine ⟨rfl, ?_, fun h => h⟩
  rintro ⟨-, auth', hop⟩
  cases hop

/-! ## What the rules of the account let pass -/

variable {p : KoulAgentParams}

/-- Under parameters for ticks only, no other call passes. -/
lemma not_passes_of_ticksOnly {now : ℕ} {auth : Address → Bool} {c : ContractContext}
    {signers : List Signer} {rule : ContextRule} {s : State} (hc : c.fnName ≠ .tick)
    (honly : ∀ p, s.params a rule.id = some p →
      (windowAt p now (s.window a rule.id)).calls < p.maxCallsPerWindow → TicksOnly p) :
    ¬ Passes now auth c signers rule a s := by
  rintro ⟨-, -, p, hp, hallows, hargs, hroom⟩
  obtain ⟨htransfer, hnone⟩ := honly p hp hroom _ (allows_iff.mp hallows) hc
  dsimp only at htransfer
  rw [htransfer] at hargs
  obtain ⟨x, y, recipient, -, hrecipient⟩ := checkArgs_transfer.mp hargs
  rw [hnone] at hrecipient
  cases hrecipient

/-- Arguments that the checks on a function accept, another list for each number. -/
def acceptedArgs (p : KoulAgentParams) (a : Address) (fnName : Symbol) (n : ℕ) : List Val :=
  if fnName = .transfer then [.u32 n, .address (p.allowedTransferRecipients.headD ""), .void]
  else if fnName = .executeStrategy then [.address a, .u32 n, .void]
  else if fnName = .repay then [.u32 n, .u64 p.accountId, .void]
  else [.u32 n, .u64 p.accountId, .void, .void]

lemma acceptedArgs_injective (fnName : Symbol) :
    Function.Injective (acceptedArgs p a fnName) := by
  intro n m h
  unfold acceptedArgs at h
  split_ifs at h <;> simpa using h

lemma checkArgs_acceptedArgs {fnName : Symbol} (n : ℕ)
    (hto : fnName = .transfer → p.allowedTransferRecipients ≠ []) :
    checkArgs p a fnName (acceptedArgs p a fnName n) = .ok () := by
  unfold acceptedArgs
  split_ifs with htransfer hstrategy hrepay
  · subst htransfer
    cases hrecipients : p.allowedTransferRecipients with
    | nil => exact absurd hrecipients (hto rfl)
    | cons r rs =>
      apply checkArgs_transfer.mpr
      refine ⟨_, _, r, rfl, ?_⟩
      rw [hrecipients]
      exact List.mem_cons_self
  · subst hstrategy
    apply checkArgs_executeStrategy.mpr
    exact ⟨rfl, rfl⟩
  · subst hrepay
    apply checkArgs_repay.mpr
    exact ⟨rfl, rfl⟩
  · by_cases hwithdraw : fnName = .withdraw
    · subst hwithdraw
      apply checkArgs_withdraw.mpr
      exact ⟨_, _, _, rfl, .inl rfl⟩
    · by_cases hsupply : fnName = .supply
      · subst hsupply
        apply checkArgs_supply.mpr
        exact ⟨rfl, rfl⟩
      · -- the arguments of any other function are not checked
        unfold checkArgs
        rw [if_neg htransfer, if_neg hwithdraw, if_neg hsupply, if_neg hrepay, if_neg hstrategy]

/-- A tree has finitely many calls, so some arguments that the checks accept are not in it. -/
lemma exists_args_notMem (tree : List ContractContext) (contract : Address) {fnName : Symbol}
    (hto : fnName = .transfer → p.allowedTransferRecipients ≠ []) :
    ∃ args, checkArgs p a fnName args = .ok () ∧
      (⟨contract, fnName, args⟩ : ContractContext) ∉ tree := by
  have hinj : Function.Injective fun n =>
      (⟨contract, fnName, acceptedArgs p a fnName n⟩ : ContractContext) := by
    intro n m h
    apply acceptedArgs_injective fnName
    exact congrArg ContractContext.args h
  obtain ⟨c, ⟨n, rfl⟩, hn⟩ :=
    (Set.infinite_range_of_injective hinj).exists_notMem_finite tree.finite_toSet
  exact ⟨_, checkArgs_acceptedArgs n hto, hn⟩

/-- **One step of a tick** lets no more pass than before: a window fills up, and only an install
changes what a rule allows. -/
lemma onlyTicksLeft_step {op : Op} (honly : OnlyTicksLeft a t) (hledgers : op.ledgers = 0)
    (hinstalls : ¬ op.installs a) : OnlyTicksLeft a (after call t op) := by
  cases hcall : call t op with
  | error e =>
    rw [after_of_error call hcall]
    exact honly
  | ok t' =>
    rw [after_of_ok call hcall]
    obtain ⟨hrun, hnow⟩ := call_ok hcall
    rw [hledgers, Nat.add_zero] at hnow
    intro r p hp hroom
    rw [hnow] at hroom
    cases op with
    | enforce auth context signers rule b =>
      obtain ⟨-, -, p', c, s₁, w, hp', -, -, hs₁, -, hw, heq⟩ := enforce_eq_ok_iff.mp hrun
      obtain ⟨hparams, hwindow⟩ := enterSession_frame hs₁
      rw [heq, counted_params, hparams] at hp
      by_cases hself : a = b ∧ r = rule.id
      · -- the rule that the call was counted for had room before it
        obtain ⟨rfl, rfl⟩ := hself
        obtain rfl : p' = p := Option.some.inj (hp'.symm.trans hp)
        rw [hwindow] at hw
        exact honly _ _ hp (countCall_ok_iff_lt.mp ⟨w, hw⟩)
      · have hsame : t'.state.window a r = t.state.window a r := by
          rw [heq, ← hwindow]
          exact if_neg hself
        rw [hsame] at hroom
        exact honly r p hp hroom
    | endSession auth b =>
      rcases endSession_ok hrun with ⟨-, heq⟩ | ⟨_, -, -, heq⟩
      · rw [heq] at hp hroom
        exact honly r p hp hroom
      · rw [heq] at hp hroom
        exact honly r p hp hroom
    | install auth params rule b =>
      obtain ⟨-, -, -, -, -, heq⟩ := install_ok hrun
      have hab : ¬ (a = b ∧ r = rule.id) := by
        rintro ⟨hab, -⟩
        exact hinstalls hab.symm
      have hsame : t'.state.params a r = t.state.params a r := by
        rw [heq]
        exact if_neg hab
      rw [hsame] at hp
      rw [heq] at hroom
      exact honly r p hp hroom
    | uninstall auth rule b =>
      rw [(uninstall_ok hrun).2] at hp hroom
      by_cases hself : a = b ∧ r = rule.id
      · rw [show ((t.state.setParams b rule.id none).setWindow b rule.id none).params a r = none
          from if_pos hself] at hp
        cases hp
      · have hparams : t.state.params a r = some p := (if_neg hself).symm.trans hp
        have hwindow : ((t.state.setParams b rule.id none).setWindow b rule.id none).window a r =
            t.state.window a r := if_neg hself
        rw [hwindow] at hroom
        exact honly r p hparams hroom
    | advance n =>
      rw [← Except.ok.inj hrun] at hp hroom
      exact honly r p hp hroom

/-- During a tick the rules of the account never let more pass than right after it. -/
theorem onlyTicksLeft_run {ops : List Op} (honly : OnlyTicksLeft a t) (hmid : MidTick a t ops) :
    OnlyTicksLeft a (run call t ops) := by
  induction ops using List.reverseRecOn with
  | nil => exact honly
  | append_singleton ops op ih =>
    obtain ⟨hledgers, -, hinstalls⟩ := hmid ops op [] rfl
    rw [run_append, run_cons, run_nil]
    exact onlyTicksLeft_step (ih (midTick_initial hmid rfl)) hledgers hinstalls

/-- In an open session a rule that lets another call pass lets one pass that is not in the tree,
and that call alone is a run. -/
lemma onlyTicksLeft_of_exclusive {tree : List ContractContext} (hopen : SessionOf a t.now t)
    (hexcl : ∀ ops, MidTick a t ops → Exclusive tree a t ops) : OnlyTicksLeft a t := by
  intro r p hp hroom entry hentry hne
  by_contra hpasses
  obtain ⟨contract, fnName⟩ := entry
  have hto : fnName = .transfer → p.allowedTransferRecipients ≠ [] := by
    intro htransfer hnone
    exact hpasses ⟨htransfer, hnone⟩
  obtain ⟨args, hargs, hforeign⟩ := exists_args_notMem (a := a) tree contract hto
  let c : ContractContext := ⟨contract, fnName, args⟩
  let op : Op := .enforce (fun _ => true) (.contract c) [.delegated a] ⟨r⟩ a
  have hadmits : Admits call t op := by
    apply (admits_iff_passes hopen hne).mpr
    exact ⟨rfl, by simp, p, hp, allows_iff.mpr hentry, hargs, hroom⟩
  have hmid : MidTick a t [op] := by
    apply midTick_of_enforce
    intro op' hop'
    exact ⟨_, _, _, _, _, List.mem_singleton.mp hop'⟩
  exact hforeign (hexcl [op] hmid [] op [] rfl _ c _ _ rfl hne hadmits)

/-- When only ticks are left to pass, a run admits no other call. -/
lemma exclusive_of_onlyTicksLeft {tree : List ContractContext} {ops : List Op}
    (hopen : SessionOf a t.now t) (honly : OnlyTicksLeft a t) (hmid : MidTick a t ops) :
    Exclusive tree a t ops := by
  intro pre op post hops auth c signers rule hop hc hadmits
  have hinit := midTick_initial hmid hops
  have hpre := sessionOf_run hopen hinit
  rw [hop] at hadmits
  have hpasses := (admits_iff_passes hpre hc).mp hadmits
  exact absurd hpasses (not_passes_of_ticksOnly hc (onlyTicksLeft_run honly hinit rule.id))

/-- **Exclusivity**: in every run between a tick's enforcement and its `end_session` the calls
admitted belong to the tick's tree exactly when, after the tick, no rule of the account with room
left in its window lets anything but ticks pass.

**Proof sketch.** `sessionOf_run` keeps the session open throughout, so the session check refuses
nothing and the other checks decide (`admits_iff_passes`). Rules that let only ticks pass go on to
do so (`onlyTicksLeft_run`); of any other rule, some call is not in the tree
(`exists_args_notMem`). -/
theorem exclusive_iff {tree : List ContractContext} {tickOp : Op}
    (htick : TickAdmitted a t.now t tickOp) :
    (∀ ops, MidTick a (after call t tickOp) ops → Exclusive tree a (after call t tickOp) ops) ↔
      OnlyTicksLeft a (after call t tickOp) := by
  have hopen := sessionOf_of_tickAdmitted htick
  constructor
  · intro hexcl
    exact onlyTicksLeft_of_exclusive hopen hexcl
  · intro honly ops hmid
    exact exclusive_of_onlyTicksLeft hopen honly hmid

/-! ## A withdrawal slipped into a swap's tick -/

/-- What a grant for a withdrawal rule and a swap rule allows. -/
def swapParams : KoulAgentParams where
  accountId := 12
  allowedCalls := [("router", .tick), ("controller", .withdraw),
    ("aggregator", .executeStrategy), ("usdc", .transfer)]
  allowedTransferRecipients := ["aggregator"]
  maxCallsPerWindow := 40
  windowLedgers := 2000

def swapChain : Chain := ⟨State.init.setParams "wallet" 1 (some swapParams), 100⟩

/-- A call presented for the wallet with a signature of the agent's key. -/
def agentEntry (c : ContractContext) : Op :=
  .enforce (fun _ => true) (.contract c) [.external "verifier" [7]] ⟨1⟩ "wallet"

def swapTick : ContractContext := ⟨"router", .tick, [.address "wallet", .u32 1, .bytes [0]]⟩

/-- What the tick's swap of 1 USDC calls. -/
def swapTree : List ContractContext :=
  [⟨"aggregator", .executeStrategy, [.address "wallet", .i128 10000000, .bytes [0]]⟩,
    ⟨"usdc", .transfer, [.address "wallet", .address "aggregator", .i128 10000000]⟩]

/-- A withdrawal of the keeper's own choosing. -/
def slippedWithdraw : ContractContext :=
  ⟨"controller", .withdraw, [.address "wallet", .u64 12, .vec [.i128 990000000],
    .address "wallet"]⟩

lemma swapTick_admitted :
    TickAdmitted "wallet" swapChain.now swapChain (agentEntry swapTick) :=
  ⟨rfl, ⟨_, rfl⟩, _, _, _, _, swapParams, rfl, rfl, rfl, by decide⟩

/-- A run of entries of the agent's closes nothing. -/
lemma midTick_entries (t : Chain) (cs : List ContractContext) :
    MidTick a t (cs.map agentEntry) := by
  apply midTick_of_enforce
  intro op hop
  obtain ⟨c, -, rfl⟩ := List.mem_map.mp hop
  exact ⟨_, _, _, _, _, rfl⟩

/-- Not every call admitted during a tick is one of the tick's tree: the withdrawal is admitted
while the swap's session is open. -/
theorem exclusive_slippedWithdraw :
    ¬ ∀ tree a t tickOp ops, TickAdmitted a t.now t tickOp →
      MidTick a (after call t tickOp) ops → Exclusive tree a (after call t tickOp) ops := by
  intro h
  have hexcl := h swapTree "wallet" swapChain (agentEntry swapTick)
    ([slippedWithdraw].map agentEntry) swapTick_admitted (midTick_entries _ _)
  have hmem := hexcl [] _ [] rfl _ slippedWithdraw _ _ rfl (by decide) ⟨_, rfl⟩
  simp [swapTree, slippedWithdraw] at hmem

/-- A grant for ticks alone, as no rule that moves anything has. -/
def ticksOnlyParams : KoulAgentParams := { swapParams with allowedCalls := [("router", .tick)] }

/-- Under it nothing at all is admitted during a tick. -/
theorem exclusive_iff_ticksOnly :
    let t : Chain := ⟨State.init.setParams "wallet" 1 (some ticksOnlyParams), 100⟩
    ∀ ops, MidTick "wallet" (after call t (agentEntry swapTick)) ops →
      Exclusive [] "wallet" (after call t (agentEntry swapTick)) ops := by
  intro t
  have htick : TickAdmitted "wallet" t.now t (agentEntry swapTick) :=
    ⟨rfl, ⟨_, rfl⟩, _, _, _, _, ticksOnlyParams, rfl, rfl, rfl, by decide⟩
  apply (exclusive_iff htick).mpr
  intro r p hp _ entry hentry hne
  have hparams : (after call t (agentEntry swapTick)).state.params "wallet" r =
      t.state.params "wallet" r := rfl
  have hr : r = 1 := by
    by_contra hr
    rw [hparams, show t.state.params "wallet" r = none from if_neg fun h => hr h.2] at hp
    cases hp
  subst hr
  cases hp
  obtain rfl := List.mem_singleton.mp hentry
  exact absurd rfl hne

end Koul.Policy
