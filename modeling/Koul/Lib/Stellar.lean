import Mathlib.Tactic.Ring

set_option relaxedAutoImplicit false
set_option autoImplicit false

/-!
# An account of the Stellar ledger

The rules by which transactions reach one account, `self`: a transaction of its own applies at its
next sequence number only, and every operation on it needs signers whose weights reach the
operation's threshold. A hash added as a signer signs the transaction it is the hash of, once.
A transaction that is included and fails uses up its sequence number and its hash all the same.

Other accounts are not modelled: a transaction of another source meets that account's own rules,
and an operation may fail for reasons outside (`fails`). Transactions are submitted by anyone; the
keys that signed one are part of its envelope.

## Main definitions

* `Stellar.Tx`, `Stellar.Envelope` — a transaction, and with the keys that signed it.
* `Stellar.Account` — sequence number, signers, thresholds and trustlines.
* `Stellar.Net.submit` — what submitting an envelope does to the account.
* `Stellar.Net.step` — one step of the ledger: a submission, a payment in, a closing ledger, or
  the account's creation.

## Main results

* `Stellar.Net.exists_signer_of_authorized`, `self_mem_of_authorized` — who authorized an
  operation.
* `Stellar.Net.submit_keeps` — what every operation of an envelope keeps, its submission keeps.
-/

namespace Stellar

/-- An account or a contract, by its strkey text. -/
abbrev Address := String

structure Asset where
  code : String
  issuer : Address
deriving DecidableEq, Repr

/-- What can sign for an account beside its master key. -/
inductive SignerKey
  | ed25519 (key : Address)
  | preAuthTx (hash : ℕ)
deriving DecidableEq, Repr

structure Options where
  masterWeight : Option ℕ := none
  lowThreshold : Option ℕ := none
  medThreshold : Option ℕ := none
  highThreshold : Option ℕ := none
  signer : Option (SignerKey × ℕ) := none
deriving DecidableEq, Repr

inductive OpBody
  | createAccount (destination : Address) (startingBalance : ℤ)
  | payment (destination : Address) (asset : Asset) (amount : ℤ)
  /-- A token contract's `transfer`, with the source account's own authorization. -/
  | transfer (contract source destination : Address) (amount : ℤ)
  /-- A limit of zero removes the trustline. -/
  | changeTrust (asset : Asset) (limit : ℤ)
  | setOptions (options : Options)
  | accountMerge (destination : Address)
  | beginSponsoring (sponsored : Address)
  | endSponsoring
  | bumpSequence (target : ℕ)
  /-- Any other operation, by a name of its own. -/
  | other (name : ℕ)
deriving DecidableEq, Repr

/-- An operation; without a source it is the transaction's. -/
structure Operation where
  body : OpBody
  source : Option Address := none
deriving DecidableEq, Repr

inductive Memo
  | none
  | id (text : String)
deriving DecidableEq, Repr

/-- The footprint of a contract call, and its resources. -/
structure SorobanData where
  footprint : ℕ
  instructions : ℕ
  diskReadBytes : ℕ
  writeBytes : ℕ
  resourceFee : ℕ
deriving DecidableEq, Repr

structure Tx where
  source : Address
  sequence : ℕ
  fee : ℕ
  operations : List Operation
  memo : Memo := .none
  /-- No bound when there is none. -/
  maxTime : Option ℕ := none
  sorobanData : Option SorobanData := none
deriving DecidableEq, Repr

structure Envelope where
  tx : Tx
  signedBy : List Address
deriving DecidableEq, Repr

inductive Level
  | low | medium | high
deriving DecidableEq, Repr

/-- The threshold an operation needs. An operation that is not spelled out may need the least. -/
def OpBody.level : OpBody → Level
  | .setOptions _ => .high
  | .accountMerge _ => .high
  | .bumpSequence _ => .low
  | .other _ => .low
  | _ => .medium

structure Account where
  sequence : ℕ
  masterWeight : ℕ
  lowThreshold : ℕ
  medThreshold : ℕ
  highThreshold : ℕ
  signers : List (SignerKey × ℕ)
  trustlines : List (Asset × ℤ)
deriving DecidableEq, Repr

def Account.threshold (a : Account) : Level → ℕ
  | .low => a.lowThreshold
  | .medium => a.medThreshold
  | .high => a.highThreshold

/-- The account as `createAccount` leaves it. -/
def Account.fresh (sequence : ℕ) (trustlines : List (Asset × ℤ)) : Account where
  sequence := sequence
  masterWeight := 1
  lowThreshold := 0
  medThreshold := 0
  highThreshold := 0
  signers := []
  trustlines := trustlines

/-- What left the account. -/
structure Outflow where
  destination : Address
  asset : Asset
  amount : ℤ
deriving DecidableEq, Repr

/-- The account and what left it, while a transaction's operations run. -/
structure Effect where
  account : Option Account
  outflows : List Outflow
deriving DecidableEq, Repr

/-- The first sequence number of an account created in a ledger. -/
def startingSequence (ledger : ℕ) : ℕ := ledger * 4294967296

lemma startingSequence_le_succ {ledger : ℕ} :
    startingSequence ledger ≤ startingSequence (ledger + 1) := by
  unfold startingSequence
  exact Nat.mul_le_mul_right _ (Nat.le_succ ledger)

/-- The network around the account `self`: its hash function, the asset of each token contract,
and what the operations that are not spelled out do. -/
structure Net where
  self : Address
  hash : Tx → ℕ
  assetOf : Address → Option Asset
  effects : ℕ → Account → Effect

/-- What a key of the account weighs for an envelope: a hash signs the transaction it is the hash
of. -/
def SignerKey.matches (hash : Tx → ℕ) (env : Envelope) : SignerKey → Bool
  | .ed25519 key => env.signedBy.contains key
  | .preAuthTx h => h == hash env.tx

namespace Net

variable (net : Net)

/-- The weights of an envelope's valid signers. -/
def weight (a : Account) (env : Envelope) : ℕ :=
  (if net.self ∈ env.signedBy then a.masterWeight else 0) +
    ((a.signers.filter fun s => s.1.matches net.hash env).map Prod.snd).sum

/-- The signers reach the threshold, and there is one. -/
def authorized (a : Account) (env : Envelope) (level : Level) : Bool :=
  0 < net.weight a env && a.threshold level ≤ net.weight a env

/-- The account that an operation of a transaction is on. -/
def sourceOf (tx : Tx) (op : Operation) : Address := op.source.getD tx.source

/-- Every operation on the account is signed for. -/
def opsAuthorized (a : Account) (env : Envelope) : Bool :=
  env.tx.operations.all fun op =>
    sourceOf env.tx op != net.self || net.authorized a env op.body.level

/-- An envelope that the ledger includes. -/
def valid (a : Account) (env : Envelope) (now : ℕ) : Bool :=
  env.tx.maxTime.all (now ≤ ·) && net.opsAuthorized a env &&
    if env.tx.source = net.self then
      env.tx.sequence == a.sequence + 1 && net.authorized a env .low
    -- accounts count from zero up, so the sequence number zero is never the next one
    else 0 < env.tx.sequence

/-- A trustline with its balance changed. -/
def setBalance (trustlines : List (Asset × ℤ)) (asset : Asset) (balance : ℤ) :
    List (Asset × ℤ) :=
  trustlines.map fun t => if t.1 = asset then (asset, balance) else t

/-- An amount of an asset leaves the account. -/
def pay (a : Account) (asset : Asset) (destination : Address) (amount : ℤ) : Option Effect :=
  match a.trustlines.lookup asset with
  | none => none
  | some balance =>
    if amount < 0 ∨ balance < amount then none
    else if destination = net.self then some { account := some a, outflows := [] }
    else some {
      account := some { a with trustlines := setBalance a.trustlines asset (balance - amount) }
      outflows := [{ destination := destination, asset := asset, amount := amount }] }

/-- The account with options set. A signer of weight zero is removed. -/
def setOptions (a : Account) (o : Options) : Account :=
  { a with
    masterWeight := o.masterWeight.getD a.masterWeight
    lowThreshold := o.lowThreshold.getD a.lowThreshold
    medThreshold := o.medThreshold.getD a.medThreshold
    highThreshold := o.highThreshold.getD a.highThreshold
    signers := match o.signer with
      | none => a.signers
      | some (key, w) =>
        let others := a.signers.filter fun s => s.1 != key
        if w = 0 then others else others ++ [(key, w)] }

/-- An operation on the account, `none` when it fails. -/
def applyOp (ledger : ℕ) (a : Account) : OpBody → Option Effect
  | .payment destination asset amount =>
    if amount = 0 then none else net.pay a asset destination amount
  | .transfer contract source destination amount =>
    match net.assetOf contract with
    | none => some { account := some a, outflows := [] }
    | some asset =>
      if source = net.self then net.pay a asset destination amount
      else some { account := some a, outflows := [] }
  | .changeTrust asset limit =>
    match a.trustlines.lookup asset with
    | none =>
      if limit = 0 then none
      else some { account := some { a with trustlines := a.trustlines ++ [(asset, 0)] },
                  outflows := [] }
    | some balance =>
      if limit ≠ 0 then if limit < balance then none else some { account := some a, outflows := [] }
      else if balance ≠ 0 then none
      else some {
        account := some { a with trustlines := a.trustlines.filter fun t => t.1 != asset }
        outflows := [] }
  | .setOptions o => some { account := some (setOptions a o), outflows := [] }
  | .accountMerge _ =>
    -- a merge at a sequence number that a new account could start from is too far
    if a.trustlines ≠ [] ∨ startingSequence ledger ≤ a.sequence then none
    else some { account := none, outflows := [] }
  | .bumpSequence target =>
    some { account := some { a with sequence := max a.sequence target }, outflows := [] }
  | .other name => some (net.effects name a)
  | .createAccount _ _ => some { account := some a, outflows := [] }
  | .beginSponsoring _ => some { account := some a, outflows := [] }
  | .endSponsoring => some { account := some a, outflows := [] }

/-- An operation of a transaction: one on the account needs it to be there. -/
def applyNext (ledger : ℕ) (tx : Tx) (e : Effect) (op : Operation) : Option Effect :=
  if sourceOf tx op = net.self then
    match e.account with
    | none => none
    | some a => (net.applyOp ledger a op.body).map fun e' =>
        { account := e'.account, outflows := e.outflows ++ e'.outflows }
  else some e

/-- The operations of a transaction, all or none. -/
def applyOps (ledger : ℕ) (tx : Tx) (a : Account) : Option Effect :=
  tx.operations.foldlM (net.applyNext ledger tx) { account := some a, outflows := [] }

/-- The account once a transaction is included: its own uses up its sequence number, and a hash
that signed is spent. -/
def included (a : Account) (env : Envelope) : Account :=
  { a with
    sequence := if env.tx.source = net.self then env.tx.sequence else a.sequence
    signers := a.signers.filter fun s => s.1 != .preAuthTx (net.hash env.tx) }

/-- **Submitting an envelope**: nothing if it is not valid; otherwise its operations run, all or
none. -/
def submit (ledger now : ℕ) (a : Account) (env : Envelope) (fails : Bool) : Option Effect :=
  if net.valid a env now then
    match if fails then none else net.applyOps ledger env.tx (net.included a env) with
    | some e => some e
    | none => some { account := some (net.included a env), outflows := [] }
  else none

end Net

/-- The ledger, as far as the account goes. -/
structure World where
  account : Option Account
  ledger : ℕ
  now : ℕ
  /-- The account's own transactions that were included, in order. -/
  applied : List Tx
  outflows : List Outflow
deriving DecidableEq, Repr

inductive Act
  | submit (env : Envelope) (fails : Bool)
  /-- Anyone pays the account. -/
  | credit (asset : Asset) (amount : ℕ)
  | close (seconds : ℕ)
  /-- Anyone creates the account, when it is not there. -/
  | create
deriving DecidableEq, Repr

namespace Net

variable (net : Net)

def step (w : World) : Act → World
  | .submit env fails =>
    match w.account with
    | none => w
    | some a =>
      match net.submit w.ledger w.now a env fails with
      | none => w
      | some e => { w with
          account := e.account
          applied := if env.tx.source = net.self then w.applied ++ [env.tx] else w.applied
          outflows := w.outflows ++ e.outflows }
  | .credit asset amount =>
    match w.account with
    | none => w
    | some a =>
      match a.trustlines.lookup asset with
      | none => w
      | some balance =>
        { w with account := some { a with
            trustlines := setBalance a.trustlines asset (balance + amount) } }
  | .close seconds => { w with ledger := w.ledger + 1, now := w.now + seconds }
  | .create =>
    match w.account with
    | some _ => w
    | none => { w with account := some (Account.fresh (startingSequence w.ledger) []) }

/-- The ledger after a sequence of steps. -/
def run (w : World) (acts : List Act) : World := acts.foldl net.step w

/-- An envelope that can exist: the account's key has signed only what is in the list. -/
def Feasible (signed : List Tx) : Act → Prop
  | .submit env _ => net.self ∈ env.signedBy → env.tx ∈ signed
  | _ => True

/-! ## Signers and thresholds -/

section Signers

variable {net} {a : Account} {env : Envelope}

/-- Without a signer that matches, only the master key counts. -/
lemma weight_of_forall (h : ∀ s ∈ a.signers, s.1.matches net.hash env = false) :
    net.weight a env = if net.self ∈ env.signedBy then a.masterWeight else 0 := by
  have hnone : (a.signers.filter fun s => s.1.matches net.hash env) = [] := by
    rw [List.filter_eq_nil_iff]
    intro s hs
    rw [h s hs]
    simp
  unfold weight
  rw [hnone]
  simp

/-- An authorization that the master key alone does not give comes from a signer. -/
lemma exists_signer_of_authorized {level : Level} (h : net.authorized a env level = true)
    (hlt : a.masterWeight < a.threshold level) :
    ∃ s ∈ a.signers, s.1.matches net.hash env = true := by
  by_contra hnone
  push Not at hnone
  have hweight := weight_of_forall fun s hs => by simpa using hnone s hs
  simp only [authorized, Bool.and_eq_true, decide_eq_true_eq] at h
  split_ifs at hweight <;> omega

/-- What signs for an account without signers is its master key. -/
lemma self_mem_of_authorized {level : Level} (h : net.authorized a env level = true)
    (hnone : ∀ s ∈ a.signers, s.1.matches net.hash env = false) : net.self ∈ env.signedBy := by
  by_contra hnot
  have hweight := weight_of_forall hnone
  rw [if_neg hnot] at hweight
  simp only [authorized, Bool.and_eq_true, decide_eq_true_eq] at h
  omega

end Signers

/-! ## What operations and submissions keep -/

/-- The account is still there, with `I`, and nothing left it. -/
def Keeps (I : Account → Prop) (e : Effect) : Prop :=
  e.outflows = [] ∧ ∃ a, e.account = some a ∧ I a

/-- An operation on the account keeps `I`. -/
def OpKeeps (ledger : ℕ) (I : Account → Prop) (body : OpBody) : Prop :=
  ∀ a e, I a → net.applyOp ledger a body = some e → Keeps I e

section Keeps

variable {net} {ledger now : ℕ} {a : Account} {env : Envelope} {e : Effect} {fails : Bool}
  {I : Account → Prop}

lemma foldlM_keeps {tx : Tx} {ops : List Operation} {e₀ : Effect}
    (hops : ∀ op ∈ ops, sourceOf tx op = net.self → net.OpKeeps ledger I op.body)
    (h₀ : Keeps I e₀) (h : ops.foldlM (net.applyNext ledger tx) e₀ = some e) : Keeps I e := by
  induction ops generalizing e₀ with
  | nil =>
    obtain rfl : e₀ = e := by simpa using h
    exact h₀
  | cons op ops ih =>
    rw [List.foldlM_cons] at h
    obtain ⟨e₁, hop, hrest⟩ := Option.bind_eq_some_iff.mp h
    refine ih (fun op' hop' => hops op' (List.mem_cons_of_mem op hop')) ?_ hrest
    unfold applyNext at hop
    split_ifs at hop with hself
    · obtain ⟨hout, a, hacc, hI⟩ := h₀
      rw [hacc] at hop
      obtain ⟨e₂, happly, rfl⟩ := Option.map_eq_some_iff.mp hop
      obtain ⟨hout₂, a', hacc', hI'⟩ := hops op List.mem_cons_self hself a e₂ hI happly
      exact ⟨by rw [hout, hout₂]; rfl, a', hacc', hI'⟩
    · obtain rfl := Option.some.inj hop
      exact h₀

/-- A submission does something only to a valid envelope: its operations run, or it is included
and fails. -/
lemma submit_cases (h : net.submit ledger now a env fails = some e) :
    net.valid a env now = true ∧
      (e = { account := some (net.included a env), outflows := [] } ∨
        net.applyOps ledger env.tx (net.included a env) = some e) := by
  unfold submit at h
  by_cases hvalid : net.valid a env now = true
  · rw [if_pos hvalid] at h
    refine ⟨hvalid, ?_⟩
    cases hrun : (if fails then none else net.applyOps ledger env.tx (net.included a env)) with
    | none =>
      rw [hrun] at h
      exact .inl (Option.some.inj h).symm
    | some e' =>
      rw [hrun] at h
      obtain rfl := Option.some.inj h
      split_ifs at hrun
      exact .inr hrun
  · rw [if_neg hvalid] at h
    cases h

/-- **What a submission keeps**: if the included account has `I` and every operation on it keeps
`I`, so does the submission, whether it fails or not. -/
theorem submit_keeps (h : net.submit ledger now a env fails = some e)
    (hI : I (net.included a env))
    (hops : ∀ op ∈ env.tx.operations, sourceOf env.tx op = net.self →
      net.OpKeeps ledger I op.body) : Keeps I e := by
  obtain ⟨-, rfl | hrun⟩ := submit_cases h
  · exact ⟨rfl, _, rfl, hI⟩
  · exact foldlM_keeps hops ⟨rfl, _, rfl, hI⟩ hrun

lemma included_sequence_own (hown : env.tx.source = net.self) :
    (net.included a env).sequence = env.tx.sequence := if_pos hown

lemma included_sequence_other (hother : env.tx.source ≠ net.self) :
    (net.included a env).sequence = a.sequence := if_neg hother

/-- A valid envelope is signed for, on each operation on the account. -/
lemma valid.authorized_op (h : net.valid a env now = true) {op : Operation}
    (hop : op ∈ env.tx.operations) (hself : sourceOf env.tx op = net.self) :
    net.authorized a env op.body.level = true := by
  simp only [valid, Bool.and_eq_true] at h
  have hall := List.all_eq_true.mp h.1.2 op hop
  simpa [hself] using hall

/-- The account's own transaction is at its next sequence number, and signed for. -/
lemma valid.own (h : net.valid a env now = true) (hown : env.tx.source = net.self) :
    env.tx.sequence = a.sequence + 1 ∧ net.authorized a env .low = true := by
  simp only [valid, Bool.and_eq_true, if_pos hown, beq_iff_eq] at h
  exact h.2

lemma valid.pos (h : net.valid a env now = true) : 0 < env.tx.sequence := by
  by_cases hown : env.tx.source = net.self
  · have := (valid.own h hown).1
    omega
  · simp only [valid, Bool.and_eq_true, if_neg hown, decide_eq_true_eq] at h
    exact h.2

/-- A payment leaves everything but the trustlines alone, and pays once at most. -/
lemma pay_eq_some {asset : Asset} {destination : Address} {amount : ℤ}
    (h : net.pay a asset destination amount = some e) :
    (∃ trustlines, e.account = some { a with trustlines := trustlines }) ∧
      (e.outflows = [] ∨
        e.outflows = [{ destination := destination, asset := asset, amount := amount }]) := by
  unfold pay at h
  split at h
  · cases h
  · split_ifs at h
    · obtain rfl := Option.some.inj h
      exact ⟨⟨a.trustlines, rfl⟩, .inl rfl⟩
    · obtain rfl := Option.some.inj h
      exact ⟨⟨_, rfl⟩, .inr rfl⟩

/-- A changed trustline leaves everything else alone. -/
lemma changeTrust_eq_some {asset : Asset} {limit : ℤ}
    (h : net.applyOp ledger a (.changeTrust asset limit) = some e) :
    ∃ trustlines, e = { account := some { a with trustlines := trustlines }, outflows := [] } := by
  unfold applyOp at h
  dsimp only at h
  split at h
  · split_ifs at h
    exact ⟨_, (Option.some.inj h).symm⟩
  · split_ifs at h
    · exact ⟨a.trustlines, (Option.some.inj h).symm⟩
    · exact ⟨_, (Option.some.inj h).symm⟩

/-- A merged account is gone, and starts again past its sequence number. -/
lemma accountMerge_eq_some {destination : Address}
    (h : net.applyOp ledger a (.accountMerge destination) = some e) :
    e = { account := none, outflows := [] } ∧ a.sequence < startingSequence ledger := by
  unfold applyOp at h
  dsimp only at h
  split_ifs at h with hstay
  push Not at hstay
  exact ⟨(Option.some.inj h).symm, hstay.2⟩

/-- An operation on the account. -/
lemma applyNext_self {tx : Tx} {op : Operation} {outflows : List Outflow}
    (hself : sourceOf tx op = net.self) :
    net.applyNext ledger tx { account := some a, outflows := outflows } op =
      (net.applyOp ledger a op.body).map fun e =>
        { account := e.account, outflows := outflows ++ e.outflows } := by
  unfold applyNext
  rw [if_pos hself]

lemma applyNext_other {tx : Tx} {op : Operation} (hother : sourceOf tx op ≠ net.self) :
    net.applyNext ledger tx e op = some e := by
  unfold applyNext
  rw [if_neg hother]

/-- An operation without a source, of the account's own transaction, is on the account. -/
lemma applyNext_own {tx : Tx} {body : OpBody} {outflows : List Outflow}
    (hown : tx.source = net.self) :
    net.applyNext ledger tx { account := some a, outflows := outflows } { body := body } =
      (net.applyOp ledger a body).map fun e =>
        { account := e.account, outflows := outflows ++ e.outflows } :=
  applyNext_self (by simpa [sourceOf] using hown)

/-- A transaction of the account's own with one operation does that operation. -/
lemma applyOps_singleton {tx : Tx} {body : OpBody} (hown : tx.source = net.self)
    (hops : tx.operations = [{ body := body }])
    (h : net.applyOps ledger tx a = some e) : net.applyOp ledger a body = some e := by
  unfold applyOps at h
  rw [hops, List.foldlM_cons, applyNext_own hown] at h
  obtain ⟨e₁, hop, hrest⟩ := Option.bind_eq_some_iff.mp h
  obtain rfl : e₁ = e := by simpa using hrest
  obtain ⟨e₂, happly, rfl⟩ := Option.map_eq_some_iff.mp hop
  exact happly

end Keeps

end Net

end Stellar
