import Koul.Anchor.Landing

set_option relaxedAutoImplicit false
set_option autoImplicit false

/-!
# A locked landing account

What can happen to a landing account once its lock has landed, whoever submits what: its own
transactions are the forward or the abort, and then the cleanup; and nothing leaves it but by the
forward.

Until it is merged away, the account's thresholds are above its key's weight, so a transaction of
its own is one whose hash is a signer; each of these has one sequence number. Once merged away, it
can be created again by anyone, with its key in force; but then its sequence number is past every
transaction that the key has ever signed for it.

## Main definitions

* `Koul.Anchor.Safe` — what the owner of the transfer counts on.
* `Koul.Anchor.Inv` — the invariant of the ledger that carries it.

## Main results

* `Koul.Anchor.Inv.step` — every step of the ledger keeps the invariant.
* `Koul.Anchor.landing_cannot_redirect` — every plan that `createLandingAccount` returns is safe.
-/

namespace Koul.Anchor

open Stellar Interleaving Interleaving.Prog

/-! ## Guarded accounts -/

/-- Every signer of the account is the hash of one of the transactions. -/
def Guarded (hash : Tx → ℕ) (pre : List Tx) (a : Account) : Prop :=
  ∀ s ∈ a.signers, ∃ tx ∈ pre, s.1 = .preAuthTx (hash tx)

/-- No other transaction has the hash of one of these. -/
def Binding (hash : Tx → ℕ) (pre : List Tx) : Prop :=
  ∀ tx ∈ pre, ∀ tx', hash tx' = hash tx → tx' = tx

/-- The account's key alone signs for nothing. -/
structure Locked (a : Account) : Prop where
  masterWeight : a.masterWeight = 1
  lowThreshold : a.lowThreshold = 2
  medThreshold : a.medThreshold = 2
  highThreshold : a.highThreshold = 2

section Guarded

variable {net : Net} {pre : List Tx} {a : Account} {env : Envelope} {ledger now : ℕ}

lemma Locked.lt_threshold (hl : Locked a) (level : Level) : a.masterWeight < a.threshold level := by
  have := hl.masterWeight
  have := hl.lowThreshold
  have := hl.medThreshold
  have := hl.highThreshold
  cases level <;> simp only [Account.threshold] <;> omega

/-- A signer that matches is the hash of the envelope's transaction. -/
lemma Guarded.mem_of_matches (hbind : Binding net.hash pre) (hg : Guarded net.hash pre a)
    {s : SignerKey × ℕ} (hs : s ∈ a.signers) (hm : s.1.matches net.hash env = true) :
    env.tx ∈ pre := by
  obtain ⟨tx, htx, hkey⟩ := hg s hs
  rw [hkey] at hm
  have heq : net.hash tx = net.hash env.tx := by simpa [SignerKey.matches] using hm
  rw [hbind tx htx env.tx heq.symm]
  exact htx

lemma Guarded.included (hg : Guarded net.hash pre a) :
    Guarded net.hash pre (net.included a env) := by
  intro s hs
  exact hg s (List.mem_of_mem_filter hs)

lemma Locked.included (hl : Locked a) : Locked (net.included a env) :=
  ⟨hl.masterWeight, hl.lowThreshold, hl.medThreshold, hl.highThreshold⟩

/-- What a locked account authorizes is a transaction whose hash is a signer. -/
lemma Locked.mem_of_authorized (hbind : Binding net.hash pre) (hg : Guarded net.hash pre a)
    (hl : Locked a) {level : Level} (h : net.authorized a env level = true) : env.tx ∈ pre := by
  obtain ⟨s, hs, hm⟩ := Net.exists_signer_of_authorized h (hl.lt_threshold level)
  exact hg.mem_of_matches hbind hs hm

/-- What any guarded account authorizes is such a transaction, or signed by its key. -/
lemma Guarded.mem_or_signed (hbind : Binding net.hash pre) (hg : Guarded net.hash pre a)
    {level : Level} (h : net.authorized a env level = true) :
    env.tx ∈ pre ∨ net.self ∈ env.signedBy := by
  by_cases hnone : ∀ s ∈ a.signers, s.1.matches net.hash env = false
  · exact .inr (Net.self_mem_of_authorized h hnone)
  · push Not at hnone
    obtain ⟨s, hs, hm⟩ := hnone
    exact .inl (hg.mem_of_matches hbind hs (by simpa using hm))

/-- The operations of a creation and of a lock. -/
def SetsUp (hash : Tx → ℕ) (pre : List Tx) : OpBody → Prop
  | .setOptions o => ∀ key w, o.signer = some (key, w) → ∃ tx ∈ pre, key = .preAuthTx (hash tx)
  | .createAccount _ _ => True
  | .changeTrust _ _ => True
  | .beginSponsoring _ => True
  | .endSponsoring => True
  | _ => False

/-- Setting up an account leaves it guarded, where it is, and with what it has. -/
lemma SetsUp.keeps {body : OpBody} {n : ℕ} (hb : SetsUp net.hash pre body) :
    net.OpKeeps ledger (fun a => Guarded net.hash pre a ∧ n ≤ a.sequence) body := by
  rintro a e ⟨hg, hn⟩ happly
  cases body with
  | setOptions o =>
    obtain rfl := Option.some.inj happly
    refine ⟨rfl, _, rfl, ?_, hn⟩
    intro s hs
    cases hsigner : o.signer with
    | none =>
      simp only [Net.setOptions, hsigner] at hs
      exact hg s hs
    | some keyed =>
      obtain ⟨key, w⟩ := keyed
      simp only [Net.setOptions, hsigner] at hs
      split_ifs at hs with hw
      · exact hg s (List.mem_of_mem_filter hs)
      · rcases List.mem_append.mp hs with hs | hs
        · exact hg s (List.mem_of_mem_filter hs)
        · obtain rfl := List.mem_singleton.mp hs
          exact hb key w hsigner
  | changeTrust asset limit =>
    obtain ⟨trustlines, rfl⟩ := Net.changeTrust_eq_some happly
    exact ⟨rfl, _, rfl, hg, hn⟩
  | createAccount destination startingBalance =>
    obtain rfl := Option.some.inj happly
    exact ⟨rfl, _, rfl, hg, hn⟩
  | beginSponsoring sponsored =>
    obtain rfl := Option.some.inj happly
    exact ⟨rfl, _, rfl, hg, hn⟩
  | endSponsoring =>
    obtain rfl := Option.some.inj happly
    exact ⟨rfl, _, rfl, hg, hn⟩
  | payment destination asset amount => exact hb.elim
  | transfer contract source destination amount => exact hb.elim
  | accountMerge destination => exact hb.elim
  | bumpSequence target => exact hb.elim
  | other name => exact hb.elim

end Guarded

/-! ## The transactions of a plan -/

/-- The transactions whose hashes a lock makes signers. -/
def preAuthorized (forward cleanup : Tx) (abort : Option Tx) : List Tx :=
  [forward, cleanup] ++ abort.toList

section Plan

variable {net : Net} {sponsor : Address} {input : LandingInput} {kind : LandingKind} {seq : ℕ}
  {forward : Tx} {abort : Option Tx} {ledger : ℕ} {a : Account} {e : Effect} {tx : Tx}

/-- The forward pays the planned amount to the planned destination, and does nothing else. -/
lemma IsForward.effect (hf : IsForward net.self seq input forward kind)
    (h : net.applyOps ledger forward a = some e) :
    (∃ trustlines, e.account = some { a with trustlines := trustlines }) ∧
      (e.outflows = [] ∨ ∃ asset, e.outflows =
        [{ destination := kind.destination, asset := asset, amount := kind.amountStroops }]) := by
  have hsource := hf.source
  cases kind with
  | onramp destinationContract amountStroops =>
    obtain ⟨sim, rfl⟩ := hf
    have happly := Net.applyOps_singleton hsource rfl h
    simp only [Net.applyOp, if_pos] at happly
    split at happly
    · obtain rfl := Option.some.inj happly
      exact ⟨⟨a.trustlines, rfl⟩, .inl rfl⟩
    · obtain ⟨hacc, hout⟩ := Net.pay_eq_some happly
      exact ⟨hacc, hout.imp_right fun hout => ⟨_, hout⟩⟩
  | offramp treasury memoId amountStroops =>
    obtain rfl := hf
    have happly := Net.applyOps_singleton hsource rfl h
    simp only [Net.applyOp] at happly
    split_ifs at happly
    obtain ⟨hacc, hout⟩ := Net.pay_eq_some happly
    exact ⟨hacc, hout.imp_right fun hout => ⟨_, hout⟩⟩

/-- A cleanup or an abort merges the account away, and pays nothing. -/
lemma merge_effect (hown : tx.source = net.self)
    (hops : tx.operations = mergeOps sponsor input.usdc none)
    (h : net.applyOps ledger tx a = some e) :
    e.account = none ∧ e.outflows = [] ∧ a.sequence < startingSequence ledger := by
  unfold Net.applyOps mergeOps at *
  rw [hops, List.foldlM_cons, Net.applyNext_own hown] at h
  obtain ⟨e₁, htrust, hrest⟩ := Option.bind_eq_some_iff.mp h
  obtain ⟨e₂, happly, rfl⟩ := Option.map_eq_some_iff.mp htrust
  obtain ⟨trustlines, rfl⟩ := Net.changeTrust_eq_some happly
  rw [List.foldlM_cons, Net.applyNext_own hown] at hrest
  obtain ⟨e₃, hmerge, hlast⟩ := Option.bind_eq_some_iff.mp hrest
  obtain ⟨e₄, happly, rfl⟩ := Option.map_eq_some_iff.mp hmerge
  obtain ⟨rfl, hfar⟩ := Net.accountMerge_eq_some happly
  obtain rfl := Option.some.inj hlast
  exact ⟨rfl, rfl, hfar⟩

/-- The transactions of a plan, as they were built. -/
structure Built (net : Net) (sponsor : Address) (input : LandingInput) (kind : LandingKind)
    (seq : ℕ) (forward cleanup : Tx) (abort : Option Tx) : Prop where
  forward_of : IsForward net.self seq input forward kind
  cleanup_eq : cleanup = cleanupTx sponsor net.self seq input
  abort_eq : ∀ tx, abort = some tx → tx = abortTx sponsor net.self seq input

variable {cleanup : Tx}

lemma mem_preAuthorized :
    tx ∈ preAuthorized forward cleanup abort ↔
      tx = forward ∨ tx = cleanup ∨ abort = some tx := by
  simp [preAuthorized]

lemma Built.source (hb : Built net sponsor input kind seq forward cleanup abort)
    (htx : tx ∈ preAuthorized forward cleanup abort) : tx.source = net.self := by
  rcases mem_preAuthorized.mp htx with rfl | rfl | habort
  · exact hb.forward_of.source
  · rw [hb.cleanup_eq]
    rfl
  · rw [hb.abort_eq tx habort]
    rfl

/-- Two of the transactions compete for one sequence number; the cleanup has the next. -/
lemma Built.sequence (hb : Built net sponsor input kind seq forward cleanup abort)
    (htx : tx ∈ preAuthorized forward cleanup abort) :
    tx.sequence = seq + 1 ∧ (tx = forward ∨ abort = some tx) ∨
      tx.sequence = seq + 2 ∧ tx = cleanup := by
  rcases mem_preAuthorized.mp htx with rfl | rfl | habort
  · exact .inl ⟨hb.forward_of.sequence, .inl rfl⟩
  · refine .inr ⟨?_, rfl⟩
    rw [hb.cleanup_eq]
    rfl
  · refine .inl ⟨?_, .inr habort⟩
    rw [hb.abort_eq tx habort]
    rfl

/-- Only the forward pays; the others merge the account away. -/
lemma Built.effect (hb : Built net sponsor input kind seq forward cleanup abort)
    (htx : tx ∈ preAuthorized forward cleanup abort)
    (h : net.applyOps ledger tx a = some e) :
    (e.account = none ∧ e.outflows = [] ∧ a.sequence < startingSequence ledger) ∨
      (∃ trustlines, e.account = some { a with trustlines := trustlines }) ∧
        (e.outflows = [] ∨ tx = forward ∧ ∃ asset, e.outflows =
          [{ destination := kind.destination, asset := asset, amount := kind.amountStroops }]) := by
  have hsource := hb.source htx
  rcases mem_preAuthorized.mp htx with rfl | rfl | habort
  · obtain ⟨hacc, hout⟩ := hb.forward_of.effect h
    exact .inr ⟨hacc, hout.imp_right fun hout => ⟨rfl, hout⟩⟩
  · have hops : tx.operations = mergeOps sponsor input.usdc none := by
      rw [hb.cleanup_eq]
      rfl
    exact .inl (merge_effect hsource hops h)
  · have hops : tx.operations = mergeOps sponsor input.usdc none := by
      rw [hb.abort_eq tx habort]
      rfl
    exact .inl (merge_effect hsource hops h)

/-- The sponsor's transactions that the key signed only set the account up. -/
lemma Signed.setsUp {hash : Tx → ℕ} {landing : Address}
    (hs : Signed hash sponsor landing input forward cleanup abort tx)
    (hpos : 0 < tx.sequence) (hpre : tx ∉ preAuthorized forward cleanup abort) :
    ∀ op ∈ tx.operations, SetsUp hash (preAuthorized forward cleanup abort) op.body := by
  rcases hs with ⟨now, sequence, rfl⟩ | ⟨now, sequence, rfl⟩ | hzero | hmem
  · intro op hop
    simp only [createTx, buildTx, List.mem_cons, List.not_mem_nil, or_false] at hop
    rcases hop with rfl | rfl | rfl | rfl <;> exact trivial
  · intro op hop
    have hkey : ∀ tx' ∈ preAuthorized forward cleanup abort,
        SetsUp hash (preAuthorized forward cleanup abort) (preAuthOp hash landing tx').body := by
      rintro tx' htx' key w hsigner
      obtain ⟨rfl, -⟩ := Prod.mk.inj (Option.some.inj hsigner)
      exact ⟨tx', htx', rfl⟩
    simp only [lockTx, buildTx, List.mem_append, List.mem_cons, List.not_mem_nil, or_false,
      List.mem_map, Option.mem_toList] at hop
    rcases hop with ((rfl | rfl | rfl) | ⟨tx', htx', rfl⟩) | rfl | rfl
    · exact trivial
    · exact hkey forward (mem_preAuthorized.mpr (.inl rfl))
    · exact hkey cleanup (mem_preAuthorized.mpr (.inr (.inl rfl)))
    · exact hkey tx' (mem_preAuthorized.mpr (.inr (.inr htx')))
    · rintro key w ⟨⟩
    · exact trivial
  · omega
  · exact absurd hmem hpre

/-! ## The ledger around a locked account -/

/-- Nothing applied yet, or one of the two that compete, or the cleanup after it. -/
def History (forward cleanup : Tx) (abort : Option Tx) (applied : List Tx) : Prop :=
  applied = [] ∨ ∃ x, (x = forward ∨ abort = some x) ∧ (applied = [x] ∨ applied = [x, cleanup])

/-- Nothing left the account, or the planned amount to the planned destination, by the forward. -/
def Paid (kind : LandingKind) (forward : Tx) (w : World) : Prop :=
  w.outflows = [] ∨ forward ∈ w.applied ∧ ∃ asset, w.outflows =
    [{ destination := kind.destination, asset := asset, amount := kind.amountStroops }]

/-- The account is locked at the sequence number of what it has applied, or past every sequence
number of the plan. -/
def Held (seq : ℕ) (applied : List Tx) (a : Account) : Prop :=
  Locked a ∧ a.sequence = seq + applied.length ∨ seq + 2 ≤ a.sequence

structure Inv (net : Net) (kind : LandingKind) (seq : ℕ) (forward cleanup : Tx)
    (abort : Option Tx) (w : World) : Prop where
  history : History forward cleanup abort w.applied
  paid : Paid kind forward w
  guarded : ∀ a, w.account = some a →
    Guarded net.hash (preAuthorized forward cleanup abort) a ∧ Held seq w.applied a
  gone : w.account = none → seq + 2 ≤ startingSequence w.ledger

section Inv

variable {w : World} {env : Envelope} {fails : Bool} {signed : List Tx}

/-- A transaction of the account's own that is valid is the plan's next one. -/
lemma Inv.next (hbind : Binding net.hash (preAuthorized forward cleanup abort))
    (hne : sponsor ≠ net.self)
    (hb : Built net sponsor input kind seq forward cleanup abort)
    (hsigned : ∀ tx ∈ signed, Signed net.hash sponsor net.self input forward cleanup abort tx)
    (hi : Inv net kind seq forward cleanup abort w) (ha : w.account = some a)
    (hf : net.Feasible signed (.submit env fails)) (hown : env.tx.source = net.self)
    (hvalid : net.valid a env w.now = true) :
    env.tx ∈ preAuthorized forward cleanup abort ∧ Locked a ∧
      env.tx.sequence = seq + w.applied.length + 1 := by
  obtain ⟨hguarded, hheld⟩ := hi.guarded a ha
  obtain ⟨hseq, hauth⟩ := Net.valid.own hvalid hown
  rcases hheld with ⟨hlocked, hat⟩ | hpast
  · exact ⟨hlocked.mem_of_authorized hbind hguarded hauth, hlocked, by omega⟩
  · exfalso
    have hpre : env.tx ∉ preAuthorized forward cleanup abort := by
      intro hmem
      rcases hb.sequence hmem with ⟨hs, -⟩ | ⟨hs, -⟩ <;> omega
    rcases hguarded.mem_or_signed hbind hauth with hmem | hself
    · exact hpre hmem
    · rcases hsigned env.tx (hf hself) with ⟨_, _, htx⟩ | ⟨_, _, htx⟩ | hzero | hmem
      · exact hne (by rw [← hown, htx]; rfl)
      · exact hne (by rw [← hown, htx]; rfl)
      · omega
      · exact hpre hmem

/-- The plan's next transaction goes on with the history; the forward can only begin it. -/
lemma History.next (hb : Built net sponsor input kind seq forward cleanup abort)
    {applied : List Tx} (hh : History forward cleanup abort applied)
    (htx : tx ∈ preAuthorized forward cleanup abort)
    (hseq : tx.sequence = seq + applied.length + 1) :
    History forward cleanup abort (applied ++ [tx]) ∧ (tx = forward → applied = []) := by
  have hforward := hb.forward_of.sequence
  rcases hh with rfl | ⟨x, hx, rfl | rfl⟩
  · rcases hb.sequence htx with ⟨-, hfirst⟩ | ⟨hs, -⟩
    · exact ⟨.inr ⟨tx, hfirst, .inl rfl⟩, fun _ => rfl⟩
    · simp only [List.length_nil] at hseq
      omega
  · simp only [List.length_cons, List.length_nil] at hseq
    rcases hb.sequence htx with ⟨hs, -⟩ | ⟨-, rfl⟩
    · omega
    · refine ⟨.inr ⟨x, hx, .inr rfl⟩, ?_⟩
      rintro rfl
      omega
  · simp only [List.length_cons, List.length_nil] at hseq
    rcases hb.sequence htx with ⟨hs, -⟩ | ⟨hs, -⟩ <;> omega

/-- **The account's own transactions** keep the invariant.

**Proof sketch.** What is valid is the plan's next transaction, so the history goes on. Its
sequence number is used up whether it fails or not; if it merges the account away, then into a
ledger past that number. -/
lemma Inv.submit_own (hbind : Binding net.hash (preAuthorized forward cleanup abort))
    (hne : sponsor ≠ net.self)
    (hb : Built net sponsor input kind seq forward cleanup abort)
    (hsigned : ∀ tx ∈ signed, Signed net.hash sponsor net.self input forward cleanup abort tx)
    (hi : Inv net kind seq forward cleanup abort w) (ha : w.account = some a)
    (hf : net.Feasible signed (.submit env fails)) (hown : env.tx.source = net.self)
    (hsub : net.submit w.ledger w.now a env fails = some e) :
    Inv net kind seq forward cleanup abort
      { w with account := e.account
               applied := w.applied ++ [env.tx]
               outflows := w.outflows ++ e.outflows } := by
  obtain ⟨hvalid, hrun⟩ := Net.submit_cases hsub
  obtain ⟨hmem, hlocked, hseq⟩ := hi.next hbind hne hb hsigned ha hf hown hvalid
  obtain ⟨hhistory, hfirst⟩ := hi.history.next hb hmem hseq
  have hguarded := (hi.guarded a ha).1
  have hincluded : (net.included a env).sequence = seq + (w.applied ++ [env.tx]).length := by
    rw [Net.included_sequence_own hown, List.length_append, List.length_singleton]
    omega
  -- the account that stays keeps its signers and thresholds, at the next sequence number
  have hstays : ∀ trustlines, Guarded net.hash (preAuthorized forward cleanup abort)
      { net.included a env with trustlines := trustlines } ∧
      Held seq (w.applied ++ [env.tx]) { net.included a env with trustlines := trustlines } := by
    intro trustlines
    have hl : Locked (net.included a env) := hlocked.included
    exact ⟨hguarded.included, .inl ⟨⟨hl.1, hl.2, hl.3, hl.4⟩, hincluded⟩⟩
  have hnothing : e.outflows = [] → Paid kind forward
      { w with account := e.account
               applied := w.applied ++ [env.tx]
               outflows := w.outflows ++ e.outflows } := by
    intro hout
    unfold Paid
    rw [hout, List.append_nil]
    exact hi.paid.imp_right fun ⟨hpaid, hasset⟩ => ⟨List.mem_append_left _ hpaid, hasset⟩
  rcases hrun with rfl | happly
  · refine ⟨hhistory, hnothing rfl, ?_, nofun⟩
    rintro a' ⟨⟩
    exact hstays a.trustlines
  · rcases hb.effect hmem happly with ⟨hnone, hout, hfar⟩ | ⟨⟨trustlines, hacc⟩, hout⟩
    · refine ⟨hhistory, hnothing hout, ?_, ?_⟩
      · intro a' ha'
        rw [show e.account = some a' from ha'] at hnone
        cases hnone
      · intro _
        rw [hincluded, List.length_append, List.length_singleton] at hfar
        show seq + 2 ≤ startingSequence w.ledger
        omega
    · refine ⟨hhistory, ?_, ?_, ?_⟩
      · rcases hout with hout | ⟨hforward, asset, hout⟩
        · exact hnothing hout
        · -- the forward begins the history, so nothing left the account before
          have hempty := hfirst hforward
          have hbefore : w.outflows = [] := by
            rcases hi.paid with hnil | ⟨hmem, -⟩
            · exact hnil
            · rw [hempty] at hmem
              cases hmem
          refine .inr ⟨by simp [hforward], asset, ?_⟩
          show w.outflows ++ e.outflows = _
          rw [hbefore, hout]
          rfl
      · intro a' ha'
        rw [show e.account = some a' from ha'] at hacc
        obtain rfl := Option.some.inj hacc
        exact hstays trustlines
      · intro hnone
        rw [show e.account = none from hnone] at hacc
        cases hacc

/-- An envelope of another source that is valid does nothing to the account but set it up, and
only if the key signed it. -/
lemma Inv.foreign_setsUp (hbind : Binding net.hash (preAuthorized forward cleanup abort))
    (hb : Built net sponsor input kind seq forward cleanup abort)
    (hsigned : ∀ tx ∈ signed, Signed net.hash sponsor net.self input forward cleanup abort tx)
    (hguarded : Guarded net.hash (preAuthorized forward cleanup abort) a)
    (hf : net.Feasible signed (.submit env fails)) (hforeign : env.tx.source ≠ net.self)
    (hvalid : net.valid a env w.now = true) {op : Operation} (hop : op ∈ env.tx.operations)
    (hself : Net.sourceOf env.tx op = net.self) :
    ¬ Locked a ∧ SetsUp net.hash (preAuthorized forward cleanup abort) op.body := by
  have hauth := Net.valid.authorized_op hvalid hop hself
  have hpre : env.tx ∉ preAuthorized forward cleanup abort :=
    fun hmem => hforeign (hb.source hmem)
  refine ⟨fun hlocked => hpre (hlocked.mem_of_authorized hbind hguarded hauth), ?_⟩
  rcases hguarded.mem_or_signed hbind hauth with hmem | hkey
  · exact absurd hmem hpre
  · exact (hsigned env.tx (hf hkey)).setsUp (Net.valid.pos hvalid) hpre op hop

/-- **Transactions of other accounts** keep the invariant: a locked account authorizes none of
their operations, and one that was created again only those that set it up. -/
lemma Inv.submit_foreign (hbind : Binding net.hash (preAuthorized forward cleanup abort))
    (hb : Built net sponsor input kind seq forward cleanup abort)
    (hsigned : ∀ tx ∈ signed, Signed net.hash sponsor net.self input forward cleanup abort tx)
    (hi : Inv net kind seq forward cleanup abort w) (ha : w.account = some a)
    (hf : net.Feasible signed (.submit env fails)) (hforeign : env.tx.source ≠ net.self)
    (hsub : net.submit w.ledger w.now a env fails = some e) :
    Inv net kind seq forward cleanup abort
      { w with account := e.account, outflows := w.outflows ++ e.outflows } := by
  obtain ⟨hvalid, -⟩ := Net.submit_cases hsub
  obtain ⟨hguarded, hheld⟩ := hi.guarded a ha
  have hsequence := Net.included_sequence_other (a := a) hforeign
  have hkeeps : Net.Keeps (fun a => Guarded net.hash (preAuthorized forward cleanup abort) a ∧
      Held seq w.applied a) e := by
    rcases hheld with ⟨hlocked, hat⟩ | hpast
    · refine Net.submit_keeps hsub ⟨hguarded.included, .inl ⟨hlocked.included, ?_⟩⟩ ?_
      · omega
      · intro op hop hself
        have hset := Inv.foreign_setsUp hbind hb hsigned hguarded hf hforeign hvalid hop hself
        exact absurd hlocked hset.1
    · have hpast' : Net.Keeps (fun a => Guarded net.hash (preAuthorized forward cleanup abort) a ∧
          seq + 2 ≤ a.sequence) e := by
        refine Net.submit_keeps hsub ⟨hguarded.included, by omega⟩ ?_
        intro op hop hself
        have hset := Inv.foreign_setsUp hbind hb hsigned hguarded hf hforeign hvalid hop hself
        exact hset.2.keeps
      obtain ⟨hout, a', ha', hg, hs⟩ := hpast'
      exact ⟨hout, a', ha', hg, .inr hs⟩
  obtain ⟨hout, a', ha', hg, hh⟩ := hkeeps
  refine ⟨hi.history, ?_, ?_, ?_⟩
  · unfold Paid
    rw [hout, List.append_nil]
    exact hi.paid
  · intro a'' ha''
    rw [show e.account = some a'' from ha''] at ha'
    obtain rfl := Option.some.inj ha'
    exact ⟨hg, hh⟩
  · intro hnone
    rw [show e.account = none from hnone] at ha'
    cases ha'

/-- **Every step of the ledger keeps the invariant.** -/
theorem Inv.step (hbind : Binding net.hash (preAuthorized forward cleanup abort))
    (hne : sponsor ≠ net.self)
    (hb : Built net sponsor input kind seq forward cleanup abort)
    (hsigned : ∀ tx ∈ signed, Signed net.hash sponsor net.self input forward cleanup abort tx)
    (hi : Inv net kind seq forward cleanup abort w) {act : Act} (hf : net.Feasible signed act) :
    Inv net kind seq forward cleanup abort (net.step w act) := by
  cases act with
  | submit env fails =>
    unfold Net.step
    cases ha : w.account with
    | none => exact hi
    | some a =>
      cases hsub : net.submit w.ledger w.now a env fails with
      | none =>
        dsimp only
        rw [hsub]
        exact hi
      | some e =>
        dsimp only
        rw [hsub]
        by_cases hown : env.tx.source = net.self
        · dsimp only
          rw [if_pos hown]
          exact hi.submit_own hbind hne hb hsigned ha hf hown hsub
        · dsimp only
          rw [if_neg hown]
          exact hi.submit_foreign hbind hb hsigned ha hf hown hsub
  | credit asset amount =>
    unfold Net.step
    cases ha : w.account with
    | none => exact hi
    | some a =>
      cases hline : a.trustlines.lookup asset with
      | none =>
        dsimp only
        rw [hline]
        exact hi
      | some balance =>
        dsimp only
        rw [hline]
        obtain ⟨hg, hh⟩ := hi.guarded a ha
        refine ⟨hi.history, hi.paid, ?_, nofun⟩
        rintro a' ⟨⟩
        exact ⟨hg, hh.imp_left fun ⟨hl, hs⟩ => ⟨⟨hl.1, hl.2, hl.3, hl.4⟩, hs⟩⟩
  | close seconds =>
    refine ⟨hi.history, hi.paid, hi.guarded, fun hnone => ?_⟩
    exact (hi.gone hnone).trans startingSequence_le_succ
  | create =>
    unfold Net.step
    cases ha : w.account with
    | some a => exact hi
    | none =>
      refine ⟨hi.history, hi.paid, ?_, nofun⟩
      rintro a' ⟨⟩
      refine ⟨?_, .inr (hi.gone ha)⟩
      rintro s hs
      cases hs

/-- The invariant over a run. -/
theorem Inv.run (hbind : Binding net.hash (preAuthorized forward cleanup abort))
    (hne : sponsor ≠ net.self)
    (hb : Built net sponsor input kind seq forward cleanup abort)
    (hsigned : ∀ tx ∈ signed, Signed net.hash sponsor net.self input forward cleanup abort tx)
    (hi : Inv net kind seq forward cleanup abort w) {acts : List Act}
    (hf : ∀ act ∈ acts, net.Feasible signed act) :
    Inv net kind seq forward cleanup abort (net.run w acts) := by
  induction acts generalizing w with
  | nil => exact hi
  | cons act acts ih =>
    have hstep := hi.step hbind hne hb hsigned (hf act List.mem_cons_self)
    exact ih hstep fun act' hact' => hf act' (List.mem_cons_of_mem act hact')

end Inv

/-! ## The lock -/

/-- A hash that is added leaves the account guarded and where it is. -/
lemma Guarded.preAuthOp {pre : List Tx} (hg : Guarded net.hash pre a) (htx : tx ∈ pre) :
    ∃ a', Guarded net.hash pre a' ∧ a'.sequence = a.sequence ∧
      net.applyOp ledger a (preAuthOp net.hash net.self tx).body =
        some { account := some a', outflows := [] } := by
  have hset : SetsUp net.hash pre (Anchor.preAuthOp net.hash net.self tx).body := by
    rintro key w hsigner
    obtain ⟨rfl, -⟩ := Prod.mk.inj (Option.some.inj hsigner)
    exact ⟨tx, htx, rfl⟩
  have hkeeps : net.OpKeeps ledger
      (fun a' => Guarded net.hash pre a' ∧ a.sequence ≤ a'.sequence) _ := hset.keeps
  obtain ⟨-, a', ha', hg', -⟩ := hkeeps a _ ⟨hg, Nat.le_refl _⟩ rfl
  obtain rfl := Option.some.inj ha'
  exact ⟨_, hg', rfl, rfl⟩

/-- All hashes that the lock adds. -/
lemma foldlM_preAuthOp (ledger : ℕ) (lock : Tx) {pre txs : List Tx} (htxs : ∀ tx ∈ txs, tx ∈ pre)
    (hg : Guarded net.hash pre a) :
    ∃ a', Guarded net.hash pre a' ∧ a'.sequence = a.sequence ∧
      (txs.map (preAuthOp net.hash net.self)).foldlM (net.applyNext ledger lock)
        { account := some a, outflows := [] } = some { account := some a', outflows := [] } := by
  induction txs generalizing a with
  | nil => exact ⟨a, hg, rfl, rfl⟩
  | cons tx txs ih =>
    obtain ⟨a₁, hg₁, hs₁, happly⟩ := hg.preAuthOp (htxs tx List.mem_cons_self)
    obtain ⟨a', hg', hs', hfold⟩ := ih (fun t ht => htxs t (List.mem_cons_of_mem tx ht)) hg₁
    refine ⟨a', hg', hs'.trans hs₁, ?_⟩
    rw [List.map_cons, List.foldlM_cons, Net.applyNext_self rfl, happly]
    exact hfold

/-- **The lock** leaves an account guarded and locked, at the sequence number it had. -/
lemma lockTx_applies (ledger now sequence : ℕ) (hne : sponsor ≠ net.self)
    (hg : Guarded net.hash (preAuthorized forward cleanup abort) a) :
    ∃ a', Guarded net.hash (preAuthorized forward cleanup abort) a' ∧ Locked a' ∧
      a'.sequence = a.sequence ∧
      net.applyOps ledger (lockTx net.hash sponsor net.self forward cleanup abort now sequence) a =
        some { account := some a', outflows := [] } := by
  obtain ⟨a₁, hg₁, hs₁, hfold⟩ := foldlM_preAuthOp ledger
    (lockTx net.hash sponsor net.self forward cleanup abort now sequence) (fun tx htx => htx) hg
  refine ⟨Net.setOptions a₁ lockOptions, hg₁, ⟨rfl, rfl, rfl, rfl⟩, hs₁, ?_⟩
  have hops : (lockTx net.hash sponsor net.self forward cleanup abort now sequence).operations =
      { body := .beginSponsoring net.self } ::
        ((preAuthorized forward cleanup abort).map (preAuthOp net.hash net.self) ++
          [{ body := .setOptions lockOptions, source := some net.self },
           { body := .endSponsoring, source := some net.self }]) := by
    simp [lockTx, buildTx, preAuthorized]
  have hbegin : net.applyNext ledger
      (lockTx net.hash sponsor net.self forward cleanup abort now sequence)
      { account := some a, outflows := [] } { body := .beginSponsoring net.self } =
        some { account := some a, outflows := [] } := Net.applyNext_other hne
  unfold Net.applyOps
  rw [hops, List.foldlM_cons, hbegin, Option.bind_eq_bind, Option.bind_some,
    List.foldlM_append, hfold, Option.bind_eq_bind, Option.bind_some, List.foldlM_cons,
    Net.applyNext_self rfl]
  show List.foldlM _ (Effect.mk (some (Net.setOptions a₁ lockOptions)) []) _ = _
  rw [List.foldlM_cons, Net.applyNext_self rfl]
  rfl

/-- The account right before the lock, which lands. -/
structure AboutToLock (net : Net) (seq : ℕ) (lock : Envelope) (w : World) : Prop where
  account : ∃ trustlines, w.account = some (Account.fresh seq trustlines) ∧
    net.valid (Account.fresh seq trustlines) lock w.now = true
  applied : w.applied = []
  outflows : w.outflows = []

/-- The invariant holds once the lock has landed. -/
lemma Inv.lock (hne : sponsor ≠ net.self) {now sequence : ℕ} {signedBy : List Address} {w : World}
    (hw : AboutToLock net seq
      ⟨lockTx net.hash sponsor net.self forward cleanup abort now sequence, signedBy⟩ w) :
    Inv net kind seq forward cleanup abort (net.step w (.submit
      ⟨lockTx net.hash sponsor net.self forward cleanup abort now sequence, signedBy⟩ false)) := by
  obtain ⟨⟨trustlines, ha, hvalid⟩, happlied, hout⟩ := hw
  have hempty : Guarded net.hash (preAuthorized forward cleanup abort)
      (net.included (Account.fresh seq trustlines)
        ⟨lockTx net.hash sponsor net.self forward cleanup abort now sequence, signedBy⟩) := by
    rintro s hs
    cases hs
  obtain ⟨a', hg, hl, hs, happly⟩ := lockTx_applies w.ledger now sequence hne hempty
  have hown : (lockTx net.hash sponsor net.self forward cleanup abort now sequence).source ≠
    net.self := hne
  have hseq : a'.sequence = seq := hs.trans (Net.included_sequence_other hown)
  unfold Net.step Net.submit
  simp only [ha, hvalid, if_true, Bool.false_eq_true, if_false, happly, if_neg hown]
  refine ⟨.inl happlied, .inl ?_, ?_, nofun⟩
  · show w.outflows ++ [] = []
    rw [hout]
    rfl
  · rintro a'' ⟨⟩
    refine ⟨hg, .inl ⟨hl, ?_⟩⟩
    show a'.sequence = seq + w.applied.length
    rw [hseq, happlied]
    rfl

end Plan

/-! ## Safety -/

/-- The transactions that a plan's envelopes hold. -/
def LandingPlan.transactions (plan : LandingPlan) : List Tx :=
  preAuthorized plan.forwardTxXdr.tx plan.cleanupTxXdr.tx (plan.abortTxXdr.map (·.tx))

/-- **A landing account that was not redirected**: only the plan's transactions applied, each at
most once, and not both the forward and the abort; what left the account left by the forward, the
planned amount to the planned destination; and the cleanup came after the forward or the abort. -/
structure Safe (plan : LandingPlan) (kind : LandingKind) (w : World) : Prop where
  only : ∀ tx ∈ w.applied, tx ∈ plan.transactions
  once : w.applied.Nodup
  exclusive : plan.forwardTxXdr.tx ∈ w.applied →
    ∀ abort, plan.abortTxXdr = some abort → abort.tx ∉ w.applied
  paid : w.outflows = [] ∨ plan.forwardTxXdr.tx ∈ w.applied ∧ ∃ asset, w.outflows =
    [{ destination := kind.destination, asset := asset, amount := kind.amountStroops }]
  cleanup_after : ∀ before after, w.applied = before ++ plan.cleanupTxXdr.tx :: after →
    plan.forwardTxXdr.tx ∈ before ∨ ∃ abort, plan.abortTxXdr = some abort ∧ abort.tx ∈ before

section Safe

variable {net : Net} {sponsor : Address} {input : LandingInput} {kind : LandingKind} {seq : ℕ}
  {forward cleanup : Tx} {abort : Option Tx} {w : World}

/-- A forward is not an abort. -/
lemma Built.forward_ne (hb : Built net sponsor input kind seq forward cleanup abort)
    (habort : abort = some forward) : False := by
  have hlength : forward.operations.length = 2 := by
    rw [hb.abort_eq forward habort]
    rfl
  have hf := hb.forward_of
  cases kind with
  | onramp destinationContract amountStroops =>
    obtain ⟨sim, rfl⟩ := hf
    cases hlength
  | offramp treasury memoId amountStroops =>
    obtain rfl := hf
    cases hlength

lemma Built.cleanup_ne (hb : Built net sponsor input kind seq forward cleanup abort) {x : Tx}
    (hx : x = forward ∨ abort = some x) : x ≠ cleanup := by
  rintro rfl
  have hcleanup : x.sequence = seq + 2 := by
    rw [hb.cleanup_eq]
    rfl
  rcases hx with rfl | habort
  · have := hb.forward_of.sequence
    omega
  · rw [hb.abort_eq x habort] at hcleanup
    change seq + 1 = seq + 2 at hcleanup
    omega

/-- One of the two that compete begins the history, and only the cleanup can follow. -/
lemma History.head {applied : List Tx} (hh : History forward cleanup abort applied) :
    applied = [] ∨ ∃ x rest, (x = forward ∨ abort = some x) ∧ applied = x :: rest ∧
      ∀ y ∈ rest, y = cleanup := by
  rcases hh with hnil | ⟨x, hx, hone | htwo⟩
  · exact .inl hnil
  · exact .inr ⟨x, [], hx, hone, by simp⟩
  · exact .inr ⟨x, [cleanup], hx, htwo, by simp⟩

/-- What the invariant says of a plan. -/
lemma Inv.safe (hb : Built net sponsor input kind seq forward cleanup abort)
    (hi : Inv net kind seq forward cleanup abort w) {plan : LandingPlan}
    (hforward : plan.forwardTxXdr.tx = forward) (hcleanup : plan.cleanupTxXdr.tx = cleanup)
    (habort : plan.abortTxXdr.map (·.tx) = abort) : Safe plan kind w := by
  subst hforward hcleanup habort
  refine ⟨?_, ?_, ?_, hi.paid, ?_⟩
  · intro tx htx
    rcases hi.history with hnil | ⟨x, hx, hone | htwo⟩
    · rw [hnil] at htx
      cases htx
    · rw [hone, List.mem_singleton] at htx
      rw [htx]
      exact mem_preAuthorized.mpr (hx.imp_right .inr)
    · rw [htwo, List.mem_pair] at htx
      rcases htx with rfl | rfl
      · exact mem_preAuthorized.mpr (hx.imp_right .inr)
      · exact mem_preAuthorized.mpr (.inr (.inl rfl))
  · rcases hi.history with hnil | ⟨x, hx, hone | htwo⟩
    · rw [hnil]
      exact List.nodup_nil
    · rw [hone]
      exact List.nodup_singleton x
    · rw [htwo, List.nodup_cons, List.mem_singleton]
      exact ⟨hb.cleanup_ne hx, List.nodup_singleton _⟩
  · intro hforward abort habort hmem
    rcases hi.history.head with hnil | ⟨x, rest, hx, hcons, hrest⟩
    · rw [hnil] at hmem
      cases hmem
    · have habort' : plan.abortTxXdr.map (·.tx) = some abort.tx := by rw [habort]; rfl
      -- neither of the two is the cleanup, so both are the head
      have hhead : ∀ y, (y = plan.forwardTxXdr.tx ∨ plan.abortTxXdr.map (·.tx) = some y) →
          y ∈ w.applied → y = x := by
        intro y hy hmem
        rw [hcons, List.mem_cons] at hmem
        exact hmem.resolve_right fun hmem => hb.cleanup_ne hy (hrest y hmem)
      have hsame : abort.tx = plan.forwardTxXdr.tx :=
        (hhead _ (.inr habort') hmem).trans (hhead _ (.inl rfl) hforward).symm
      exact hb.forward_ne (by rw [habort', hsame])
  · intro before after happlied
    rcases hi.history.head with hnil | ⟨x, rest, hx, hcons, -⟩
    · rw [hnil] at happlied
      simp at happlied
    · rw [hcons] at happlied
      cases before with
      | nil => exact absurd (List.cons.inj happlied).1 (hb.cleanup_ne hx)
      | cons y before =>
        obtain ⟨rfl, -⟩ := List.cons.inj happlied
        rcases hx with rfl | habort
        · exact .inl List.mem_cons_self
        · obtain ⟨abort, hplan, rfl⟩ := Option.map_eq_some_iff.mp habort
          exact .inr ⟨abort, hplan, List.mem_cons_self⟩

end Safe

/-! ## A withdrawal of two USDC -/

def twoUsdc : LandingInput where
  usdc := ⟨"USDC", "GISSUER"⟩
  usdcContract := "CUSDC"
  kind := some (.offramp "GTREASURY" "415114909797" 20000000)
  beforeLock := false
  feeBufferXlm := none
  abortable := false

def twoUsdcForward : Tx := classicForward "GLANDING" 7 twoUsdc "GTREASURY" "415114909797" 20000000

def twoUsdcCleanup : Tx := cleanupTx "GSPONSOR" "GLANDING" 7 twoUsdc

/-- A network that tells the forward and the cleanup from all else. -/
def twoUsdcNet : Net where
  self := "GLANDING"
  hash tx := if tx = twoUsdcForward then 1 else if tx = twoUsdcCleanup then 2 else 0
  assetOf _ := none
  effects _ a := { account := some a, outflows := [] }

def twoUsdcPlan : LandingPlan where
  publicKey := "GLANDING"
  kind := .offramp
  amountStroops := 20000000
  createTxHash := ⟨"c0", by decide⟩
  lockTxHash := ⟨"10", by decide⟩
  forwardTxXdr := ⟨twoUsdcForward, ["GLANDING"]⟩
  forwardTxHash := 1
  cleanupTxXdr := ⟨twoUsdcCleanup, ["GLANDING"]⟩
  cleanupTxHash := 2
  sponsorFeesStroops := 9000
  challengesSigned := 0
  abortTxXdr := none
  abortTxHash := none

/-- A run that returns the plan: the node takes both sponsored transactions, and confirms them. -/
lemma returns_twoUsdcPlan : ∃ h,
    Returns (createLandingAccount twoUsdcNet.hash "GSPONSOR" "GLANDING" twoUsdc).run h
      (.ok twoUsdcPlan) := by
  let createTx := createTx "GSPONSOR" "GLANDING" twoUsdc 1000 41
  let lock := lockTx twoUsdcNet.hash "GSPONSOR" "GLANDING" twoUsdcForward twoUsdcCleanup none 1010 42
  let created : Sent := ⟨.pending, ⟨"c0", by decide⟩, "", ""⟩
  let locked : Sent := ⟨.pending, ⟨"10", by decide⟩, "", ""⟩
  refine ⟨[⟨.getAccount "GSPONSOR", .ok 41⟩, ⟨.clock, (1000 : ℕ)⟩, ⟨.sign createTx, ()⟩,
    ⟨.sendTransaction ⟨createTx, ["GSPONSOR", "GLANDING"]⟩, .ok created⟩,
    ⟨.pollTransaction created.hash 20, .ok ⟨.success, 9⟩⟩, ⟨.getAccount "GLANDING", .ok 7⟩,
    ⟨.sign twoUsdcForward, ()⟩, ⟨.sign twoUsdcCleanup, ()⟩,
    ⟨.getAccount "GSPONSOR", .ok 42⟩, ⟨.clock, (1010 : ℕ)⟩, ⟨.sign lock, ()⟩,
    ⟨.sendTransaction ⟨lock, ["GSPONSOR", "GLANDING"]⟩, .ok locked⟩,
    ⟨.pollTransaction locked.hash 20, .ok ⟨.success, 11⟩⟩, ⟨.wipe, ()⟩], ?_⟩
  iterate 14 refine returns_call_cons.mpr ?_
  exact returns_done.mpr ⟨rfl, rfl⟩

lemma binding_twoUsdcPlan : Binding twoUsdcNet.hash twoUsdcPlan.transactions := by
  intro tx htx tx' heq
  have hmem : tx = twoUsdcForward ∨ tx = twoUsdcCleanup := List.mem_pair.mp htx
  rcases hmem with rfl | rfl
  · rw [show twoUsdcNet.hash twoUsdcForward = 1 by decide] at heq
    by_contra hne
    rw [show twoUsdcNet.hash tx' = _ from if_neg hne] at heq
    split_ifs at heq
    omega
  · rw [show twoUsdcNet.hash twoUsdcCleanup = 2 by decide] at heq
    by_contra hne
    unfold twoUsdcNet at heq
    dsimp only at heq
    split_ifs at heq
    omega

/-! ## Every plan -/

/-- **Landing accounts cannot be redirected.** Whatever a landing account's creation was answered,
if it returns a plan, then from its lock on the account is safe: in any order and repetition in
which anyone submits any transactions, pays the account, and even creates it again. A transaction
counts as applied once it is included, even if it fails.

The node's answers count where the claim cannot do without: the account's sequence number, and that
the lock landed. No other transaction has the hash of one of the plan's; the landing key has signed
what it was asked to sign in the run, before it was wiped.

**Proof sketch.** `created` takes the run apart; `Inv.lock` starts the invariant and `Inv.run`
carries it on. -/
theorem landing_cannot_redirect {net : Net} {sponsor : Address} {input : LandingInput}
    {h : Heard Cmd.Reply} {plan : LandingPlan}
    (hret : Returns (createLandingAccount net.hash sponsor net.self input).run h (.ok plan))
    (hne : sponsor ≠ net.self) (hbind : Binding net.hash plan.transactions) :
    ∃ kind seq now sequence, ∃ lock : Envelope,
      Planned input net.self h kind ∧ plan.kind = kind.type ∧
      plan.amountStroops = kind.amountStroops ∧
      ⟨.getAccount net.self, .ok seq⟩ ∈ h ∧
      lock.tx = lockTx net.hash sponsor net.self plan.forwardTxXdr.tx plan.cleanupTxXdr.tx
        (plan.abortTxXdr.map (·.tx)) now sequence ∧
      Confirmed h lock plan.lockTxHash ∧
      (∃ h', h = h' ++ [⟨.wipe, ()⟩]) ∧
      ∀ w, AboutToLock net seq lock w → ∀ acts, (∀ act ∈ acts, net.Feasible (signedIn h) act) →
        Safe plan kind (net.run w (.submit lock false :: acts)) := by
  obtain ⟨kind, seq, forward, abort, hc⟩ := created hret
  obtain ⟨now, sequence, hconf⟩ := hc.locked
  have hforward : plan.forwardTxXdr.tx = forward := by rw [hc.plan_forward]
  have hcleanup : plan.cleanupTxXdr.tx = cleanupTx sponsor net.self seq input := by
    rw [hc.plan_cleanup]
  have habort : plan.abortTxXdr.map (·.tx) = abort := by
    rw [hc.plan_abort, Option.map_map]
    exact Option.map_id'
  have hb : Built net sponsor input kind seq forward (cleanupTx sponsor net.self seq input)
      abort := by
    refine ⟨hc.forward_of, rfl, fun tx htx => ?_⟩
    rw [hc.abort_eq] at htx
    split_ifs at htx
    exact (Option.some.inj htx).symm
  refine ⟨kind, seq, now, sequence, _, hc.planned, hc.plan_kind, hc.plan_amount, hc.seq_heard,
    ?_, hconf, hc.wiped, ?_⟩
  · rw [hforward, hcleanup, habort]
  · intro w hw acts hf
    unfold LandingPlan.transactions at hbind
    rw [hforward, hcleanup, habort] at hbind
    have hlock : Inv net kind seq forward _ abort _ := Inv.lock hne hw
    exact (hlock.run hbind hne hb hc.signed hf).safe hb hforward hcleanup habort

theorem landing_cannot_redirect_twoUsdc : ∃ h,
    Returns (createLandingAccount twoUsdcNet.hash "GSPONSOR" "GLANDING" twoUsdc).run h
      (.ok twoUsdcPlan) ∧
    ∃ kind seq now sequence, ∃ lock : Envelope,
      Planned twoUsdc "GLANDING" h kind ∧ twoUsdcPlan.kind = kind.type ∧
      twoUsdcPlan.amountStroops = kind.amountStroops ∧
      ⟨.getAccount "GLANDING", .ok seq⟩ ∈ h ∧
      lock.tx = lockTx twoUsdcNet.hash "GSPONSOR" "GLANDING" twoUsdcForward twoUsdcCleanup none
        now sequence ∧
      Confirmed h lock twoUsdcPlan.lockTxHash ∧
      (∃ h', h = h' ++ [⟨.wipe, ()⟩]) ∧
      ∀ w, AboutToLock twoUsdcNet seq lock w →
        ∀ acts, (∀ act ∈ acts, twoUsdcNet.Feasible (signedIn h) act) →
          Safe twoUsdcPlan kind (twoUsdcNet.run w (.submit lock false :: acts)) := by
  obtain ⟨h, hret⟩ := returns_twoUsdcPlan
  exact ⟨h, hret, landing_cannot_redirect hret (by decide) binding_twoUsdcPlan⟩

end Koul.Anchor
