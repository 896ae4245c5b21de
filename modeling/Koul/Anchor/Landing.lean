import Koul.Anchor.Submit

set_option relaxedAutoImplicit false
set_option autoImplicit false

/-!
# Landing accounts

An ownerless account for one transfer: the sponsor creates it, the landing key signs a forward and
a cleanup (and an abort) in advance, and the lock makes their hashes the account's signers, so that
the key alone signs for nothing more. Then the key is wiped.

## Main definitions

* `Koul.Anchor.createLandingAccount` — the whole sequence, with its retries and error paths.
* `Koul.Anchor.forwardTx`, `cleanupTx`, `abortTx`, `lockTx` — the transactions it builds.

## Main results

* `Koul.Anchor.signed_of_created` — what the landing key signs in a run that returns a plan.
* `Koul.Anchor.confirmed_of_created` — the lock of a returned plan has landed.

## Design

The arguments that the SDK checks beyond the range of an amount (strkeys, memo texts) are taken to
be well formed. `assertNoSecret` reads the plan only and is left out.
-/

namespace Koul.Anchor

open Stellar (Tx Envelope Asset SorobanData Operation Options)
open Interleaving Interleaving.Prog

structure LandingInput where
  usdc : Asset
  usdcContract : Address
  kind : Option LandingKind
  /-- Whether the caller passes the hook. -/
  beforeLock : Bool
  /-- In stroops. -/
  feeBufferXlm : Option ℤ
  abortable : Bool
deriving DecidableEq, Repr

/-! ## The transactions -/

/-- `TransactionBuilder.build`: the source's next sequence number, and a fee for each operation. -/
def buildTx (source : Address) (sequence baseFee : ℕ) (operations : List Operation)
    (maxTime : Option ℕ) : Tx where
  source := source
  sequence := sequence + 1
  fee := baseFee * operations.length
  operations := operations
  maxTime := maxTime

/-- The limit of a trustline that is opened without one. -/
def maxLimit : ℤ := 9223372036854775807

/-- A: the sponsored creation, with the trustline. -/
def createTx (sponsor landing : Address) (input : LandingInput) (now sequence : ℕ) : Tx :=
  buildTx sponsor sequence 1000
    [{ body := .beginSponsoring landing },
     { body := .createAccount landing (input.feeBufferXlm.getD 0) },
     { body := .changeTrust input.usdc maxLimit, source := some landing },
     { body := .endSponsoring, source := some landing }]
    (some (now + 300))

/-- The trustline is dropped, and the account is merged into the sponsor. -/
def mergeOps (sponsor : Address) (usdc : Asset) (source : Option Address) : List Operation :=
  [{ body := .changeTrust usdc 0, source := source },
   { body := .accountMerge sponsor, source := source }]

/-- The anchor refused before anything was locked. -/
def undoTx (sponsor landing : Address) (input : LandingInput) (now sequence : ℕ) : Tx :=
  buildTx sponsor sequence 1000 (mergeOps sponsor input.usdc (some landing)) (some (now + 300))

def transferOp (usdcContract source destination : Address) (amount : ℤ) : Operation :=
  { body := .transfer usdcContract source destination amount }

/-- The zero-amount transfer that is simulated for its footprint. -/
def probeTx (landing : Address) (sequence : ℕ) (input : LandingInput) (destination : Address)
    (now : ℕ) : Tx :=
  buildTx landing sequence 100 [transferOp input.usdcContract landing destination 0]
    (some (now + 3600))

/-- The simulated resources, padded. -/
def padded (sim : Simulated) : SorobanData where
  footprint := sim.transactionData.footprint
  -- in doubles the products round up to these exact ones
  instructions := min ((13 * sim.transactionData.instructions + 9) / 10 + 200000) 100000000
  diskReadBytes := (3 * sim.transactionData.diskReadBytes + 1) / 2 + 1000
  writeBytes := (3 * sim.transactionData.writeBytes + 1) / 2 + 1000
  resourceFee := sim.minResourceFee * 3 / 2 + 200000

def sorobanForward (landing : Address) (sequence : ℕ) (input : LandingInput)
    (destination : Address) (amount : ℤ) (sim : Simulated) : Tx :=
  let tx := buildTx landing sequence 100
    [transferOp input.usdcContract landing destination amount] none
  { tx with sorobanData := some (padded sim), fee := tx.fee + (padded sim).resourceFee }

def classicForward (landing : Address) (sequence : ℕ) (input : LandingInput)
    (treasury : Address) (memoId : String) (amount : ℤ) : Tx :=
  let tx := buildTx landing sequence 1000 [{ body := .payment treasury input.usdc amount }] none
  { tx with memo := .id memoId }

/-- B: sequence number `seq + 2`. -/
def cleanupTx (sponsor landing : Address) (seq : ℕ) (input : LandingInput) : Tx :=
  buildTx landing (seq + 1) 1000 (mergeOps sponsor input.usdc none) none

/-- B: sequence number `seq + 1`, the forward's. -/
def abortTx (sponsor landing : Address) (seq : ℕ) (input : LandingInput) : Tx :=
  buildTx landing seq 1000 (mergeOps sponsor input.usdc none) none

/-- A transaction's hash is added to the account's signers. -/
def preAuthOp (hash : Tx → ℕ) (landing : Address) (tx : Tx) : Operation :=
  { body := .setOptions { signer := some (.preAuthTx (hash tx), 1) }, source := some landing }

/-- Two signatures for everything: a hash, and the landing key's. -/
def lockOptions : Options where
  masterWeight := some 1
  lowThreshold := some 2
  medThreshold := some 2
  highThreshold := some 2

/-- C: the lock. -/
def lockTx (hash : Tx → ℕ) (sponsor landing : Address) (forward cleanup : Tx) (abort : Option Tx)
    (now sequence : ℕ) : Tx :=
  buildTx sponsor sequence 1000
    ([{ body := .beginSponsoring landing }, preAuthOp hash landing forward,
      preAuthOp hash landing cleanup] ++ abort.toList.map (preAuthOp hash landing) ++
     [{ body := .setOptions lockOptions, source := some landing },
      { body := .endSponsoring, source := some landing }])
    (some (now + 300))

/-! ## The sequence -/

/-- The amounts that a contract call takes. -/
def i128Range (amount : ℤ) : Bool :=
  -170141183460469231731687303715884105728 ≤ amount &&
    amount ≤ 170141183460469231731687303715884105727

/-- Soroban forward: footprint from a zero-amount simulation, resources padded. -/
def buildSorobanForward (landing : Address) (seq : ℕ) (input : LandingInput)
    (destination : Address) (amount : ℤ) : Server Tx := do
  let now ← tell .clock
  let sim ← Thrower.ask
    (.simulateTransaction (probeTx landing seq input destination now)) rethrow
  match sim with
  | .error error =>
    throw (.landing .simulationFailed s!"forward footprint simulation failed: {error}")
  | .ok sim =>
    if i128Range amount then return sorobanForward landing seq input destination amount sim
    else throw (.thrown "TypeError")

/-- An amount of a classic payment is positive and fits into 63 bits, or the SDK throws. -/
def buildClassicForward (landing : Address) (seq : ℕ) (input : LandingInput)
    (treasury : Address) (memoId : String) (amount : ℤ) : Server Tx :=
  if 0 < amount ∧ amount ≤ maxLimit then
    return classicForward landing seq input treasury memoId amount
  else throw (.thrown "TypeError")

def buildForward (landing : Address) (seq : ℕ) (input : LandingInput) : LandingKind → Server Tx
  | .onramp destinationContract amountStroops =>
    buildSorobanForward landing seq input destinationContract amountStroops
  | .offramp treasury memoId amountStroops =>
    buildClassicForward landing seq input treasury memoId amountStroops

/-- If the account is there, its creation landed. -/
def accountExists (landing : Address) : Server Bool :=
  tryCatch (do let _ ← getAccount landing; return true) fun _ => return false

/-- The landing key signs each transaction in turn. -/
def signAll : List Tx → Server Unit
  | [] => return
  | tx :: txs => do
    tell (.sign tx)
    signAll txs

/-- What the hook's `sign` does not refuse: challenges have the sequence number 0. -/
def challenges (hook : Hook) : List Tx := hook.asked.filter fun tx => tx.sequence = 0

/-- Merges the account back, and gives up on any error. -/
def mergeBack (sponsor landing : Address) (input : LandingInput) : Server Unit :=
  tryCatch
    (do
      let sequence ← getAccount sponsor
      let now ← tell .clock
      let undo := undoTx sponsor landing input now sequence
      tell (.sign undo)
      let _ ← submit ⟨undo, [sponsor, landing]⟩ none)
    fun _ => return

/-- A½: what the forward is for, and how many challenges were signed to learn it. -/
def learnKind (sponsor landing : Address) (input : LandingInput) :
    Server (Option LandingKind × ℕ) :=
  if input.beforeLock then do
    let hook ← tell (.beforeLock landing)
    signAll (challenges hook)
    match hook.outcome with
    | .ok kind => return (some kind, (challenges hook).length)
    | .error e =>
      mergeBack sponsor landing input
      throw e
  else return (input.kind, 0)

/-- From the creation to the wiped key. -/
def setUp (hash : Tx → ℕ) (sponsor landing : Address) (input : LandingInput) :
    Server LandingPlan := do
  let created ← submitSponsored sponsor landing (createTx sponsor landing input)
    (some (accountExists landing)) 3
  let (kind, challengesSigned) ← learnKind sponsor landing input
  match kind with
  | none =>
    throw (submitFailed "landing kind missing: pass `kind` or a `beforeLock` that returns it")
  | some kind =>
    let seq ← getAccount landing
    let forward ← buildForward landing seq input kind
    let cleanup := cleanupTx sponsor landing seq input
    let abort := if input.abortable then some (abortTx sponsor landing seq input) else none
    signAll ([forward, cleanup] ++ abort.toList)
    let locked ← submitSponsored sponsor landing (lockTx hash sponsor landing forward cleanup abort)
      none 3
    tell .wipe
    return {
      publicKey := landing
      kind := kind.type
      amountStroops := kind.amountStroops
      createTxHash := created.hash
      lockTxHash := locked.hash
      forwardTxXdr := ⟨forward, [landing]⟩
      forwardTxHash := hash forward
      cleanupTxXdr := ⟨cleanup, [landing]⟩
      cleanupTxHash := hash cleanup
      sponsorFeesStroops := created.fee + locked.fee
      challengesSigned := challengesSigned
      abortTxXdr := abort.map (⟨·, [landing]⟩)
      abortTxHash := abort.map hash }

/-- The sponsor's landing account for one transfer: on any error the key is wiped too. -/
def createLandingAccount (hash : Tx → ℕ) (sponsor landing : Address) (input : LandingInput) :
    Server LandingPlan :=
  tryCatch (setUp hash sponsor landing input) fun e => do
    tell .wipe
    throw e

/-! ## What the key signs -/

/-- Every transaction that was signed, in order. -/
def signedIn (h : Heard Cmd.Reply) : List Tx :=
  h.filterMap fun m => match m.1 with
    | .sign tx => some tx
    | _ => none

/-- A command signs only what satisfies `Q`. -/
def Signs (Q : Tx → Prop) : Cmd → Prop
  | .sign tx => Q tx
  | _ => True

section Signs

variable {Q Q' : Tx → Prop} {h : Heard Cmd.Reply}

lemma Signs.mono {c : Cmd} (hc : Signs Q c) (hQ : ∀ tx, Q tx → Q' tx) : Signs Q' c := by
  cases c with
  | sign tx => exact hQ tx hc
  | _ => exact trivial

/-- What was signed is what the commands sign. -/
lemma forall_mem_signedIn (hsigns : ∀ m ∈ h, Signs Q m.1) : ∀ tx ∈ signedIn h, Q tx := by
  intro tx htx
  obtain ⟨⟨c, r⟩, hm, hc⟩ := List.mem_filterMap.mp htx
  have := hsigns _ hm
  cases c <;> simp only [Option.some.injEq, reduceCtorEq] at hc
  obtain rfl := hc
  exact this

variable {landed : Option (Server Bool)}

lemma sends_sign {tx : Tx} (htx : Q tx) : Sends (Signs Q) (tell (.sign tx)).run :=
  Thrower.sends_ask (P := Signs Q) htx

lemma sends_attemptSponsored {sponsor landing : Address} {build : ℕ → ℕ → Tx}
    (hbuild : ∀ now sequence, Q (build now sequence))
    (hlanded : ∀ check, landed = some check → Sends (Signs Q) check.run) :
    Sends (Signs Q) (attemptSponsored sponsor landing build landed).run := by
  apply Thrower.sends_bind (Thrower.sends_ask trivial)
  intro sequence
  apply Thrower.sends_bind (Thrower.sends_ask trivial)
  intro now
  apply Thrower.sends_bind (sends_sign (hbuild now sequence))
  intro signed
  apply Thrower.sends_bind
  · apply Thrower.sends_tryCatch
    · exact Thrower.sends_bind (sends_submit trivial (fun _ _ => trivial) hlanded)
        fun _ => trivial
    · intro e
      exact trivial
  · intro out
    exact trivial

/-- A sponsored submission signs only what it builds. -/
lemma sends_submitSponsored {sponsor landing : Address} {build : ℕ → ℕ → Tx} {attempts : ℕ}
    (hbuild : ∀ now sequence, Q (build now sequence))
    (hlanded : ∀ check, landed = some check → Sends (Signs Q) check.run) :
    Sends (Signs Q) (submitSponsored sponsor landing build landed attempts).run := by
  induction attempts with
  | zero => exact trivial
  | succ attempts ih =>
    apply Thrower.sends_bind (sends_attemptSponsored hbuild hlanded)
    rintro ⟨fee, out⟩
    cases out with
    | ok s => exact trivial
    | error e =>
      dsimp only
      split_ifs
      · exact trivial
      · exact Thrower.sends_bind (Thrower.sends_ask trivial) fun _ => ih

lemma sends_accountExists {landing : Address} :
    ∀ check, some (accountExists landing) = some check → Sends (Signs Q) check.run := by
  rintro check ⟨⟩
  apply Thrower.sends_tryCatch
  · exact Thrower.sends_bind (Thrower.sends_ask trivial) fun _ => trivial
  · exact fun _ => trivial

lemma sends_signAll {txs : List Tx} (htxs : ∀ tx ∈ txs, Q tx) :
    Sends (Signs Q) (signAll txs).run := by
  induction txs with
  | nil => exact trivial
  | cons tx txs ih =>
    apply Thrower.sends_bind (sends_sign (htxs tx List.mem_cons_self))
    intro signed
    exact ih fun tx' htx' => htxs tx' (List.mem_cons_of_mem tx htx')

end Signs

/-! ## What a run that returns a plan has heard -/

section Returns

variable {h : Heard Cmd.Reply} {sponsor landing : Address} {input : LandingInput}
  {build : ℕ → ℕ → Tx}

lemma confirmed_of_attempt {fee : ℕ} {s : Submitted}
    (hret : Returns (attemptSponsored sponsor landing build none).run h (.ok (fee, .ok s))) :
    ∃ now sequence, Confirmed h ⟨build now sequence, [sponsor, landing]⟩ s.hash := by
  unfold attemptSponsored at hret
  obtain ⟨h₁, sequence, h₂, rfl, -, hret₂⟩ := Thrower.returns_bind_ok.mp hret
  obtain ⟨h₃, now, h₄, rfl, -, hret₄⟩ := Thrower.returns_bind_ok.mp hret₂
  obtain ⟨h₅, -, h₆, rfl, -, hret₆⟩ := Thrower.returns_bind_ok.mp hret₄
  obtain ⟨h₇, out, h₈, rfl, htry, hend⟩ := Thrower.returns_bind_ok.mp hret₆
  obtain ⟨rfl, hout⟩ := hend
  obtain rfl : out = .ok s := (Prod.mk.inj (Except.ok.inj hout)).2
  rcases Thrower.returns_tryCatch.mp htry with ⟨out, hout, hbody⟩ | ⟨h₁, e, h₂, -, -, hend⟩
  · obtain rfl := Except.ok.inj hout
    obtain ⟨h₉, s', h₁₀, rfl, hsubmit, hend⟩ := Thrower.returns_bind_ok.mp hbody
    obtain ⟨rfl, hs⟩ := hend
    obtain rfl : s' = s := Except.ok.inj (Except.ok.inj hs)
    refine ⟨now, sequence, (confirmed_of_submit hsubmit).mono fun m hm => ?_⟩
    simp [hm]
  · obtain ⟨-, hs⟩ := hend
    cases Except.ok.inj hs

/-- **A sponsored submission that succeeds** is confirmed, for one of the transactions it built. -/
lemma confirmed_of_submitSponsored {attempts : ℕ} {s : Sponsored}
    (hret : Returns (submitSponsored sponsor landing build none attempts).run h (.ok s)) :
    ∃ now sequence, Confirmed h ⟨build now sequence, [sponsor, landing]⟩ s.hash := by
  induction attempts generalizing h with
  | zero => simp [submitSponsored] at hret
  | succ attempts ih =>
    unfold submitSponsored at hret
    obtain ⟨h₁, ⟨fee, out⟩, h₂, rfl, hattempt, hnext⟩ := Thrower.returns_bind_ok.mp hret
    cases out with
    | ok s' =>
      obtain ⟨rfl, hs⟩ := hnext
      obtain rfl := Except.ok.inj hs
      rw [List.append_nil]
      exact confirmed_of_attempt hattempt
    | error e =>
      dsimp only at hnext
      split_ifs at hnext with hgive
      · simp at hnext
      · obtain ⟨h₃, -, h₄, rfl, -, hagain⟩ := Thrower.returns_bind_ok.mp hnext
        obtain ⟨now, sequence, hconf⟩ := ih hagain
        exact ⟨now, sequence, hconf.mono fun m hm => by simp [hm]⟩

/-- The kind that a forward is built for: the caller's, or what the hook returned. -/
def Planned (input : LandingInput) (landing : Address) (h : Heard Cmd.Reply)
    (kind : LandingKind) : Prop :=
  if input.beforeLock then ∃ asked, ⟨.beforeLock landing, ⟨asked, .ok kind⟩⟩ ∈ h
  else input.kind = some kind

lemma Planned.mono {h' : Heard Cmd.Reply} {kind : LandingKind} (hp : Planned input landing h kind)
    (hsub : ∀ m ∈ h, m ∈ h') : Planned input landing h' kind := by
  unfold Planned at hp ⊢
  split_ifs at hp ⊢
  · obtain ⟨asked, hm⟩ := hp
    exact ⟨asked, hsub _ hm⟩
  · exact hp

lemma returns_learnKind {kind : LandingKind} {n : ℕ}
    (hret : Returns (learnKind sponsor landing input).run h (.ok (some kind, n))) :
    Planned input landing h kind ∧ ∀ m ∈ h, Signs (fun tx => tx.sequence = 0) m.1 := by
  unfold learnKind at hret
  unfold Planned
  split_ifs at hret with hhook
  · rw [if_pos hhook]
    obtain ⟨h₁, hook, h₂, rfl, hask, hret₂⟩ := Thrower.returns_bind_ok.mp hret
    rw [returns_tell] at hask
    subst hask
    obtain ⟨h₃, signed, h₄, rfl, hsign, hret₄⟩ := Thrower.returns_bind_ok.mp hret₂
    obtain ⟨asked, outcome⟩ := hook
    cases outcome with
    | ok kind' =>
      obtain ⟨rfl, hkind⟩ := hret₄
      obtain ⟨hkind, -⟩ := Prod.mk.inj (Except.ok.inj hkind)
      obtain rfl := Option.some.inj hkind
      refine ⟨⟨asked, by simp⟩, ?_⟩
      have hzero : ∀ tx ∈ challenges ⟨asked, .ok kind'⟩, tx.sequence = 0 := by
        intro tx htx
        simpa using (List.mem_filter.mp htx).2
      have hsigns := (sends_signAll hzero).of_mem hsign
      intro m hm
      rw [List.append_nil, List.singleton_append, List.mem_cons] at hm
      rcases hm with rfl | hm
      · exact trivial
      · exact hsigns m hm
    | error e =>
      obtain ⟨h₅, -, h₆, rfl, -, hthrow⟩ := Thrower.returns_bind_ok.mp hret₄
      simp at hthrow
  · rw [if_neg hhook]
    obtain ⟨rfl, hkind⟩ := hret
    exact ⟨(Prod.mk.inj (Except.ok.inj hkind)).1, by simp⟩

/-- The forward that pays a kind's amount to its destination. -/
def IsForward (landing : Address) (seq : ℕ) (input : LandingInput) (forward : Tx) :
    LandingKind → Prop
  | .onramp destinationContract amountStroops => ∃ sim,
    forward = sorobanForward landing seq input destinationContract amountStroops sim
  | .offramp treasury memoId amountStroops =>
    forward = classicForward landing seq input treasury memoId amountStroops

lemma IsForward.source {seq : ℕ} {kind : LandingKind} {forward : Tx}
    (hf : IsForward landing seq input forward kind) : forward.source = landing := by
  cases kind with
  | onramp destinationContract amountStroops =>
    obtain ⟨sim, rfl⟩ := hf
    rfl
  | offramp treasury memoId amountStroops =>
    obtain rfl := hf
    rfl

lemma IsForward.sequence {seq : ℕ} {kind : LandingKind} {forward : Tx}
    (hf : IsForward landing seq input forward kind) : forward.sequence = seq + 1 := by
  cases kind with
  | onramp destinationContract amountStroops =>
    obtain ⟨sim, rfl⟩ := hf
    rfl
  | offramp treasury memoId amountStroops =>
    obtain rfl := hf
    rfl

lemma returns_buildForward {seq : ℕ} {kind : LandingKind} {forward : Tx}
    (hret : Returns (buildForward landing seq input kind).run h (.ok forward)) :
    IsForward landing seq input forward kind := by
  cases kind with
  | onramp destinationContract amountStroops =>
    unfold buildForward buildSorobanForward at hret
    obtain ⟨h₁, now, h₂, rfl, -, hret₂⟩ := Thrower.returns_bind_ok.mp hret
    obtain ⟨h₃, sim, h₄, rfl, -, hend⟩ := Thrower.returns_bind_ok.mp hret₂
    cases sim with
    | error e => simp at hend
    | ok sim =>
      dsimp only at hend
      split_ifs at hend with hrange
      · exact ⟨sim, (Except.ok.inj hend.2).symm⟩
      · simp at hend
  | offramp treasury memoId amountStroops =>
    simp only [buildForward, buildClassicForward] at hret
    split_ifs at hret with hrange
    · exact (Except.ok.inj hret.2).symm
    · simp at hret

lemma sends_buildForward {Q : Tx → Prop} {seq : ℕ} {kind : LandingKind} :
    Sends (Signs Q) (buildForward landing seq input kind).run := by
  cases kind with
  | onramp destinationContract amountStroops =>
    apply Thrower.sends_bind (Thrower.sends_ask trivial)
    intro now
    apply Thrower.sends_bind (Thrower.sends_ask trivial)
    intro sim
    cases sim with
    | error e => exact trivial
    | ok sim =>
      dsimp only
      split_ifs <;> exact trivial
  | offramp treasury memoId amountStroops =>
    simp only [buildForward, buildClassicForward]
    split_ifs <;> exact trivial

/-- What the landing key may sign: the creation and the lock, challenges, and the transactions
signed in advance. -/
def Signed (hash : Tx → ℕ) (sponsor landing : Address) (input : LandingInput)
    (forward cleanup : Tx) (abort : Option Tx) (tx : Tx) : Prop :=
  (∃ now sequence, tx = createTx sponsor landing input now sequence) ∨
    (∃ now sequence, tx = lockTx hash sponsor landing forward cleanup abort now sequence) ∨
    tx.sequence = 0 ∨ tx ∈ [forward, cleanup] ++ abort.toList

/-- What a returned plan says of the run that returned it. -/
structure Created (hash : Tx → ℕ) (sponsor landing : Address) (input : LandingInput)
    (h : Heard Cmd.Reply) (plan : LandingPlan) (kind : LandingKind) (seq : ℕ) (forward : Tx)
    (abort : Option Tx) : Prop where
  planned : Planned input landing h kind
  plan_kind : plan.kind = kind.type
  plan_amount : plan.amountStroops = kind.amountStroops
  seq_heard : ⟨.getAccount landing, .ok seq⟩ ∈ h
  forward_of : IsForward landing seq input forward kind
  abort_eq : abort = if input.abortable then some (abortTx sponsor landing seq input) else none
  plan_forward : plan.forwardTxXdr = ⟨forward, [landing]⟩
  plan_cleanup : plan.cleanupTxXdr = ⟨cleanupTx sponsor landing seq input, [landing]⟩
  plan_abort : plan.abortTxXdr = abort.map (⟨·, [landing]⟩)
  wiped : ∃ h', h = h' ++ [⟨.wipe, ()⟩]
  locked : ∃ now sequence, Confirmed h
    ⟨lockTx hash sponsor landing forward (cleanupTx sponsor landing seq input) abort now sequence,
      [sponsor, landing]⟩ plan.lockTxHash
  signed : ∀ tx ∈ signedIn h,
    Signed hash sponsor landing input forward (cleanupTx sponsor landing seq input) abort tx

/-- **A returned plan**: its envelopes pay what was planned, the lock with their hashes has landed,
and the key has signed nothing else for the account.

**Proof sketch.** The sequence is taken apart command by command. Each part signs only what it
builds: the creation and the lock their own attempts, the hook challenges only. -/
theorem created {hash : Tx → ℕ} {plan : LandingPlan}
    (hret : Returns (createLandingAccount hash sponsor landing input).run h (.ok plan)) :
    ∃ kind seq forward abort,
      Created hash sponsor landing input h plan kind seq forward abort := by
  unfold createLandingAccount at hret
  rcases Thrower.returns_tryCatch.mp hret with ⟨p, hp, hbody⟩ | ⟨h₁, e, h₂, -, -, hthrow⟩
  swap
  · obtain ⟨h₃, -, h₄, -, -, hthrow⟩ := Thrower.returns_bind_ok.mp hthrow
    simp at hthrow
  obtain rfl := Except.ok.inj hp
  unfold setUp at hbody
  obtain ⟨h₁, created, h₂, rfl, hcreate, hret₂⟩ := Thrower.returns_bind_ok.mp hbody
  obtain ⟨h₃, ⟨kind, challengesSigned⟩, h₄, rfl, hlearn, hret₄⟩ := Thrower.returns_bind_ok.mp hret₂
  cases kind with
  | none => simp at hret₄
  | some kind =>
    obtain ⟨h₅, seq, h₆, rfl, hseq, hret₆⟩ := Thrower.returns_bind_ok.mp hret₄
    obtain ⟨h₇, forward, h₈, rfl, hforward, hret₈⟩ := Thrower.returns_bind_ok.mp hret₆
    obtain ⟨h₉, signed, h₁₀, rfl, hsign, hret₁₀⟩ := Thrower.returns_bind_ok.mp hret₈
    obtain ⟨h₁₁, locked, h₁₂, rfl, hlock, hret₁₂⟩ := Thrower.returns_bind_ok.mp hret₁₀
    obtain ⟨h₁₃, wiped, h₁₄, rfl, hwipe, hend⟩ := Thrower.returns_bind_ok.mp hret₁₂
    obtain ⟨rfl, hplan⟩ := hend
    obtain rfl := Except.ok.inj hplan
    obtain ⟨hplanned, hchallenges⟩ := returns_learnKind hlearn
    obtain ⟨now, sequence, hconf⟩ := confirmed_of_submitSponsored hlock
    rw [returns_getAccount] at hseq
    subst hseq
    have hwiped := returns_tell.mp hwipe
    refine ⟨kind, seq, forward, _, {
      planned := hplanned.mono fun m hm => by simp [hm]
      plan_kind := rfl
      plan_amount := rfl
      seq_heard := by simp
      forward_of := returns_buildForward hforward
      abort_eq := rfl
      plan_forward := rfl
      plan_cleanup := rfl
      plan_abort := rfl
      wiped := ⟨h₁ ++ (h₃ ++ ([⟨.getAccount landing, .ok seq⟩] ++ (h₇ ++ (h₉ ++ h₁₁)))), by
        simp [hwiped]⟩
      locked := ⟨now, sequence, hconf.mono fun m hm => by simp [hm]⟩
      signed := forall_mem_signedIn fun m hm => ?_ }⟩
    simp only [List.mem_append] at hm
    rcases hm with hm | hm | hm | hm | hm | hm | hm | hm
    · refine (sends_submitSponsored ?_ sends_accountExists).of_mem hcreate m hm
      exact fun now sequence => .inl ⟨now, sequence, rfl⟩
    · exact (hchallenges m hm).mono fun tx htx => .inr (.inr (.inl htx))
    · obtain rfl := List.mem_singleton.mp hm
      exact trivial
    · exact sends_buildForward.of_mem hforward m hm
    · refine (sends_signAll ?_).of_mem hsign m hm
      exact fun tx htx => .inr (.inr (.inr htx))
    · refine (sends_submitSponsored ?_ (by simp)).of_mem hlock m hm
      exact fun now sequence => .inr (.inl ⟨now, sequence, rfl⟩)
    · rw [hwiped, List.mem_singleton] at hm
      rw [hm]
      exact trivial
    · cases hm

/-- The forward and the cleanup of a returned plan are different envelopes. -/
lemma Created.forward_ne_cleanup {hash : Tx → ℕ} {plan : LandingPlan} {kind : LandingKind}
    {seq : ℕ} {forward : Tx} {abort : Option Tx}
    (hc : Created hash sponsor landing input h plan kind seq forward abort) :
    plan.forwardTxXdr ≠ plan.cleanupTxXdr := by
  intro hsame
  rw [hc.plan_forward, hc.plan_cleanup] at hsame
  have hsequence := hc.forward_of.sequence
  rw [(Envelope.mk.inj hsame).1] at hsequence
  simp [cleanupTx, buildTx] at hsequence

end Returns

end Koul.Anchor
