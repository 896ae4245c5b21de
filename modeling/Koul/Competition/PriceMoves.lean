import Koul.Competition.ExactlyOnce
import Mathlib.Algebra.Order.BigOperators.Group.Finset

set_option relaxedAutoImplicit false
set_option autoImplicit false

/-!
# What scores at constant prices

A wallet's holdings change by its transfers, and its position in lending by those of its transfers
that supply, withdraw, borrow or repay. At constant prices its score then changes by what its
transactions inside the wallet gain above the edge that is counted for them.

## Main definitions

* `Koul.Competition.Indexer.World` — a scene with the wallet's holdings and the lending transfers.
* `Koul.Competition.Indexer.World.valueAt` — what the wallet holds after a ledger, in USD.
* `Koul.Competition.Indexer.World.Fair` — a transaction that gains no more than its edge.
* `Koul.Competition.Indexer.Scored` — the scorings reached from a first one.

## Main results

* `Koul.Competition.Indexer.World.valueAt_cut` — the value changes by the gains of the moves.
* `Koul.Competition.Indexer.World.fair_iff` — fair is exactly a gain no larger than the edge.
* `Koul.Competition.Indexer.pnl_never_rises` — where every run meets the condition, the score never
  exceeds the first one.
* `Koul.Competition.Indexer.swap_into_lending_scores` — a swap above the oracle price scores when its
  proceeds are supplied in the same transaction.
-/

namespace Koul.Competition.Indexer

/-! ## The world -/

/-- What a transfer of USDC with XOXNO does to the position there. -/
inductive Lending
  | supply
  | withdraw
  | borrow
  | repay
deriving DecidableEq, Repr

/-- Money comes in from a withdrawal and a loan. -/
def Lending.incoming : Lending → Bool
  | withdraw | borrow => true
  | supply | repay => false

/-- The change of what is supplied. -/
def Lending.supplied (amount : ℤ) : Lending → ℤ
  | supply => amount
  | withdraw => -amount
  | borrow | repay => 0

/-- The change of what is borrowed. -/
def Lending.borrowed (amount : ℤ) : Lending → ℤ
  | borrow => amount
  | repay => -amount
  | supply | withdraw => 0

/-- A transfer of the wallet, and what it does in lending. -/
structure Move where
  transfer : Transfer
  lending : Option Lending
deriving DecidableEq, Repr

/-- What a move does to what is supplied above what is borrowed. -/
def Move.net (m : Move) : ℤ :=
  m.lending.elim 0 (Lending.supplied m.transfer.amount) -
    m.lending.elim 0 (Lending.borrowed m.transfer.amount)

/-- A scene, the wallet of an entry, what it held before the start, and which of its transfers move
its position in lending: transfers of USDC with a contract that is not a smart wallet. -/
structure World extends Scene where
  wallet : String
  excludeTokens : List String
  tokens_eq : tokens = ALL_TOKENS.filter fun t => t.symbol ∉ excludeTokens
  marked : List (Event × Option Lending)
  log_eq : log = marked.map Prod.fst
  lending_usdc : ∀ m ∈ marked, ∀ op, m.2 = some op → ∀ t,
    readTransfer tokens wallet m.1 = some (some t) →
      t.token = USDC_TESTNET ∧ t.incoming = op.incoming ∧ t.where_ isWallet = .internal
  openingBalance : ScoredToken → ℤ
  openingSupplied : ℤ
  openingBorrowed : ℤ

namespace World

variable (w : World)

/-- The wallet's moves in a range, in the order of the log. -/
def moves (lo hi : ℤ) : List Move :=
  (w.marked.filter fun m => isTransfer w.setup.toEnv w.tokens w.wallet m.1 && m.1.within lo hi).filterMap
    fun m => (readTransfer w.tokens w.wallet m.1).join.map fun t => ⟨t, m.2⟩

/-- The wallet's balance of a token after a ledger. -/
def balanceAt (ledger : ℤ) (t : ScoredToken) : ℤ :=
  w.openingBalance t +
    (((w.moves w.startLedger ledger).filter (·.transfer.token = t)).map (·.transfer.signed)).sum

/-- What the wallet has supplied after a ledger. -/
def suppliedAt (ledger : ℤ) : ℤ :=
  w.openingSupplied + ((w.moves w.startLedger ledger).map fun m =>
    m.lending.elim 0 (Lending.supplied m.transfer.amount)).sum

/-- What the wallet has borrowed after a ledger. -/
def borrowedAt (ledger : ℤ) : ℤ :=
  w.openingBorrowed + ((w.moves w.startLedger ledger).map fun m =>
    m.lending.elim 0 (Lending.borrowed m.transfer.amount)).sum

/-- An amount of a token in USD. -/
def worth (t : ScoredToken) (amount : ℤ) : ℚ := units amount t.decimals * (priceOf t w.prices).getD 0

/-- What the wallet holds after a ledger, in USD. -/
def valueAt (ledger : ℤ) : ℚ :=
  units (w.suppliedAt ledger - w.borrowedAt ledger) 7 +
    (w.tokens.map fun t => w.worth t (w.balanceAt ledger t)).sum

/-- What a move brings the wallet. -/
def signedUsd (m : Move) : ℚ :=
  if m.transfer.incoming then m.transfer.usd w.prices else -m.transfer.usd w.prices

/-- What a move adds to what the wallet holds: one with lending only changes where it is. -/
def gain (m : Move) : ℚ := if m.lending.isSome then 0 else w.signedUsd m

variable {w}

lemma nodup_symbols : (w.tokens.map (·.symbol)).Nodup := by
  have hall : (ALL_TOKENS.map (·.symbol)).Nodup := by decide
  rw [w.tokens_eq]
  exact hall.sublist (List.filter_sublist.map _)

lemma nodup_ids : (w.tokens.map (·.id)).Nodup := by
  have hall : (ALL_TOKENS.map (·.id)).Nodup := by decide
  rw [w.tokens_eq]
  exact hall.sublist (List.filter_sublist.map _)

/-- The transfers of the moves are those of the scene. -/
lemma map_transfer_moves (lo hi : ℤ) :
    (w.moves lo hi).map (·.transfer) = w.transfers w.wallet lo hi := by
  rw [moves, Scene.transfers, Scene.transferEvents, w.log_eq, transfersIn, List.filter_map,
    List.map_filterMap, List.filterMap_map]
  apply List.filterMap_congr
  intro m _
  simp only [Function.comp_apply, Option.map_map]
  exact Option.map_id'

lemma exists_of_mem_moves {lo hi : ℤ} {m : Move} (hm : m ∈ w.moves lo hi) :
    ∃ e, (e, m.lending) ∈ w.marked ∧
      readTransfer w.tokens w.wallet e = some (some m.transfer) := by
  obtain ⟨e, he, hread⟩ := List.mem_filterMap.mp hm
  obtain ⟨t, ht, rfl⟩ := Option.map_eq_some_iff.mp hread
  exact ⟨e.1, (List.mem_filter.mp he).1, Option.join_eq_some_iff.mp ht⟩

lemma token_mem {lo hi : ℤ} {m : Move} (hm : m ∈ w.moves lo hi) : m.transfer.token ∈ w.tokens := by
  obtain ⟨e, -, hread⟩ := exists_of_mem_moves hm
  exact (readTransfer_spec hread).2.2

lemma moves_cut {lo mid hi : ℤ} (hlo : lo ≤ mid + 1) (hhi : mid ≤ hi) :
    w.moves lo hi = w.moves lo mid ++ w.moves (mid + 1) hi := by
  have hsorted : w.marked.Pairwise fun a b => a.1.ledger ≤ b.1.ledger := by
    have h := w.inOrder
    rw [w.log_eq, List.pairwise_map] at h
    exact h
  have hcut := Paged.filter_range_cut hsorted
    (fun m => isTransfer w.setup.toEnv w.tokens w.wallet m.1) hlo hhi
  exact (congrArg (List.filterMap _) hcut).trans List.filterMap_append

/-! ## The value along the log -/

lemma units_add (a b : ℤ) (decimals : ℕ) : units (a + b) decimals = units a decimals + units b decimals := by
  rw [units, units, units, Int.cast_add, add_div]

lemma units_neg (a : ℤ) (decimals : ℕ) : units (-a) decimals = -units a decimals := by
  rw [units, units, Int.cast_neg, neg_div]

lemma units_sum (l : List ℤ) (decimals : ℕ) :
    units l.sum decimals = (l.map fun a => units a decimals).sum := by
  induction l with
  | nil => simp [units]
  | cons a l ih => rw [List.sum_cons, units_add, ih, List.map_cons, List.sum_cons]

lemma worth_add (t : ScoredToken) (a b : ℤ) : w.worth t (a + b) = w.worth t a + w.worth t b := by
  rw [worth, worth, worth, units_add, add_mul]

lemma worth_sum (t : ScoredToken) (l : List ℤ) : w.worth t l.sum = (l.map (w.worth t)).sum := by
  induction l with
  | nil => simp [worth, units]
  | cons a l ih => rw [List.sum_cons, worth_add, ih, List.map_cons, List.sum_cons]

lemma worth_signed (m : Move) : w.worth m.transfer.token m.transfer.signed = w.signedUsd m := by
  rw [worth, signedUsd, Transfer.signed, Transfer.usd]
  split
  · rfl
  · rw [units_neg, neg_mul]

/-- A move with lending takes from the balance what it adds to the position. -/
lemma net_add_signed {lo hi : ℤ} {m : Move} (hm : m ∈ w.moves lo hi) :
    units m.net 7 + w.signedUsd m = w.gain m := by
  cases hl : m.lending with
  | none =>
    have hnet : m.net = 0 := by simp [Move.net, hl]
    rw [hnet, gain, hl]
    simp [units]
  | some op =>
    obtain ⟨e, hmem, hread⟩ := exists_of_mem_moves hm
    obtain ⟨htoken, hincoming, -⟩ := w.lending_usdc _ hmem op hl _ hread
    have hnet : m.net = -m.transfer.signed := by
      simp only [Move.net, hl, Option.elim_some, Transfer.signed, hincoming]
      cases op <;> simp [Lending.supplied, Lending.borrowed, Lending.incoming]
    have hworth : w.signedUsd m = units m.transfer.signed 7 := by
      rw [← worth_signed, worth, htoken]
      exact mul_one _
    rw [hnet, units_neg, hworth, neg_add_cancel, gain, hl]
    rfl

/-- Token by token, the moves bring what they bring. -/
lemma sum_worth_tokens {lo hi : ℤ} :
    (w.tokens.map fun t => w.worth t
      (((w.moves lo hi).filter (·.transfer.token = t)).map (·.transfer.signed)).sum).sum =
      ((w.moves lo hi).map w.signedUsd).sum := by
  have hnodup : w.tokens.Nodup := List.Nodup.of_map _ nodup_ids
  have htoken : ∀ t ∈ w.tokens, w.worth t
      (((w.moves lo hi).filter (·.transfer.token = t)).map (·.transfer.signed)).sum =
      (((w.moves lo hi).filter (·.transfer.token = t)).map w.signedUsd).sum := by
    intro t _
    rw [worth_sum, List.map_map]
    congr 1
    apply List.map_congr_left
    intro m hm
    obtain rfl : m.transfer.token = t := by simpa using (List.mem_filter.mp hm).2
    exact worth_signed m
  rw [List.map_congr_left htoken, ← List.sum_toFinset _ hnodup]
  exact Grouped.sum_filter_key (fun m : Move => m.transfer.token) w.signedUsd
    fun m hm => List.mem_toFinset.mpr (token_mem hm)

/-- **The value** changes by the gains of the moves.

**Proof sketch.** The balances and the position are sums over the moves. A move with lending adds to
the position what it takes from the balance of USDC; every other move brings its worth. -/
theorem valueAt_cut {mid hi : ℤ} (hmid : w.startLedger ≤ mid + 1) (hhi : mid ≤ hi) :
    w.valueAt hi = w.valueAt mid + ((w.moves (mid + 1) hi).map w.gain).sum := by
  have hcut : w.moves w.startLedger hi =
      w.moves w.startLedger mid ++ w.moves (mid + 1) hi := moves_cut hmid hhi
  have hbalance : ∀ t, w.balanceAt hi t = w.balanceAt mid t +
      (((w.moves (mid + 1) hi).filter (·.transfer.token = t)).map (·.transfer.signed)).sum := by
    intro t
    rw [balanceAt, balanceAt, hcut, List.filter_append, List.map_append, List.sum_append, add_assoc]
  have hposition : w.suppliedAt hi - w.borrowedAt hi = w.suppliedAt mid - w.borrowedAt mid +
      ((w.moves (mid + 1) hi).map Move.net).sum := by
    have hnet : ((w.moves (mid + 1) hi).map Move.net).sum +
        ((w.moves (mid + 1) hi).map fun m =>
          m.lending.elim 0 (Lending.borrowed m.transfer.amount)).sum =
        ((w.moves (mid + 1) hi).map fun m =>
          m.lending.elim 0 (Lending.supplied m.transfer.amount)).sum := by
      rw [← List.sum_map_add]
      simp only [Move.net, sub_add_cancel]
    rw [suppliedAt, borrowedAt, suppliedAt, borrowedAt, hcut, List.map_append, List.map_append,
      List.sum_append, List.sum_append, ← hnet]
    ring
  have hgain : ((w.moves (mid + 1) hi).map w.gain).sum =
      units ((w.moves (mid + 1) hi).map Move.net).sum 7 +
        ((w.moves (mid + 1) hi).map w.signedUsd).sum := by
    rw [units_sum, List.map_map, ← List.sum_map_add]
    congr 1
    apply List.map_congr_left
    intro m hm
    exact (net_add_signed hm).symm
  have htokens : (w.tokens.map fun t => w.worth t (w.balanceAt hi t)).sum =
      (w.tokens.map fun t => w.worth t (w.balanceAt mid t)).sum +
        ((w.moves (mid + 1) hi).map w.signedUsd).sum := by
    rw [← sum_worth_tokens, ← List.sum_map_add]
    congr 1
    apply List.map_congr_left
    intro t _
    rw [hbalance, worth_add]
  rw [valueAt, valueAt, hposition, units_add, htokens, hgain]
  ring

/-! ## Transactions -/

variable (w)

/-- What moves of one direction, with lending or without, are worth. -/
def sideUsd (incoming lending : Bool) (ms : List Move) : ℚ :=
  ((ms.filter fun m => m.transfer.incoming = incoming && m.lending.isSome = lending).map fun m =>
    m.transfer.usd w.prices).sum

/-- A transaction's moves inside the wallet that gain no more than its edge: outside lending they
bring no more than they take, or the transaction is counted as a swap that was overpaid and lends no
more than it draws from lending. -/
def Fair (ms : List Move) : Prop :=
  w.sideUsd true false ms ≤ w.sideUsd false false ms ∨
  (2 ≤ (ms.map (·.transfer.token.symbol)).toFinset.card ∧
    0 < w.sideUsd false true ms + w.sideUsd false false ms ∧
    w.sideUsd false true ms + w.sideUsd false false ms <
      w.sideUsd true true ms + w.sideUsd true false ms ∧
    w.sideUsd false true ms ≤ w.sideUsd true true ms)

/-- The moves inside the wallet of one transaction. -/
def txMoves (lo hi : ℤ) (hash : String) : List Move :=
  ((w.moves lo hi).filter fun m => m.transfer.where_ w.isWallet = .internal).filter
    (·.transfer.txHash = hash)

/-- What the code sums up of a transaction. -/
def txTotals (ms : List Move) : TxMoves :=
  (ms.map fun m => m.transfer.insideMove w.prices).foldl TxMoves.push TxMoves.zero

variable {w}

lemma sideUsd_cons (incoming lending : Bool) (m : Move) (ms : List Move) :
    w.sideUsd incoming lending (m :: ms) =
      (if m.transfer.incoming = incoming ∧ m.lending.isSome = lending then m.transfer.usd w.prices
        else 0) + w.sideUsd incoming lending ms := by
  by_cases h : m.transfer.incoming = incoming ∧ m.lending.isSome = lending
  · rw [sideUsd, List.filter_cons_of_pos (by simpa using h), if_pos h, List.map_cons, List.sum_cons]
    rfl
  · rw [sideUsd, List.filter_cons_of_neg (by simpa using h), if_neg h, zero_add]
    rfl

/-- The gain is what comes in outside lending, less what goes out. -/
lemma sum_gain (ms : List Move) :
    (ms.map w.gain).sum = w.sideUsd true false ms - w.sideUsd false false ms := by
  induction ms with
  | nil => simp [sideUsd]
  | cons m ms ih =>
    rw [List.map_cons, List.sum_cons, ih, sideUsd_cons, sideUsd_cons, gain, signedUsd]
    cases m.transfer.incoming <;> cases m.lending.isSome <;> simp <;> ring

/-- A sum over the moves of one direction is its two sides together. -/
lemma read_txTotals {read : TxMoves → ℚ} {incoming : Bool} (hzero : read TxMoves.zero = 0)
    (hstep : ∀ (t : TxMoves) (m : InsideMove),
      read (t.push m) = read t + if m.incoming = incoming then m.usd else 0) (ms : List Move) :
    read (w.txTotals ms) = w.sideUsd incoming true ms + w.sideUsd incoming false ms := by
  rw [txTotals, Grouped.read_foldl hstep, List.map_map, hzero, zero_add]
  induction ms with
  | nil => simp [sideUsd]
  | cons m ms ih =>
    rw [List.map_cons, List.sum_cons, ih, sideUsd_cons, sideUsd_cons]
    simp only [Function.comp_apply, Transfer.insideMove]
    by_cases hdirection : m.transfer.incoming = incoming
    · cases m.lending.isSome <;> simp [hdirection] <;> ring
    · simp [hdirection]

lemma txTotals_inUsd (ms : List Move) :
    (w.txTotals ms).inUsd = w.sideUsd true true ms + w.sideUsd true false ms := by
  refine read_txTotals (show TxMoves.inUsd TxMoves.zero = 0 from rfl) ?_ ms
  intro t m
  cases hi : m.incoming <;> simp [TxMoves.push, hi]

lemma txTotals_outUsd (ms : List Move) :
    (w.txTotals ms).outUsd = w.sideUsd false true ms + w.sideUsd false false ms := by
  refine read_txTotals (show TxMoves.outUsd TxMoves.zero = 0 from rfl) ?_ ms
  intro t m
  cases hi : m.incoming <;> simp [TxMoves.push, hi]

lemma txTotals_tokens (ms : List Move) :
    (w.txTotals ms).tokens = (ms.map (·.transfer.token.symbol)).toFinset := by
  induction ms using List.reverseRecOn with
  | nil => rfl
  | append_singleton ms m ih =>
    rw [txTotals, List.map_append, List.foldl_append, List.map_append, List.toFinset_append, ← ih]
    show insert m.transfer.token.symbol (w.txTotals ms).tokens = _
    ext token
    simp

/-- **Fair** is exactly a gain no larger than the edge that is counted. -/
theorem fair_iff (ms : List Move) : w.Fair ms ↔ (ms.map w.gain).sum ≤ (w.txTotals ms).edge := by
  rw [Fair, sum_gain, TxMoves.edge, TxMoves.overpaid, txTotals_tokens, txTotals_inUsd,
    txTotals_outUsd]
  by_cases hcard : 2 ≤ (ms.map (·.transfer.token.symbol)).toFinset.card
  · by_cases hover : 0 < w.sideUsd false true ms + w.sideUsd false false ms ∧
        w.sideUsd false true ms + w.sideUsd false false ms <
          w.sideUsd true true ms + w.sideUsd true false ms
    · rw [if_pos (by simpa [hcard] using hover)]
      constructor
      · rintro (h | ⟨-, -, -, h⟩)
        · linarith [hover.2]
        · linarith
      · intro h
        exact .inr ⟨hcard, hover.1, hover.2, by linarith⟩
    · rw [if_neg (by simpa [hcard] using hover)]
      constructor
      · rintro (h | ⟨-, hout, hin, -⟩)
        · linarith
        · exact absurd ⟨hout, hin⟩ hover
      · intro h
        exact .inl (by linarith)
  · rw [if_neg (by simp [hcard])]
    constructor
    · rintro (h | ⟨h, -⟩)
      · linarith
      · exact absurd h hcard
    · intro h
      exact .inl (by linarith)

/-! ## A pass and the value -/

/-- What comes in from outside, less what goes out. -/
lemma sum_signedUsd (l : List Move) : (l.map w.signedUsd).sum =
    (((l.map (·.transfer)).filter (·.incoming)).map (·.usd w.prices)).sum -
      (((l.map (·.transfer)).filter (!·.incoming)).map (·.usd w.prices)).sum := by
  induction l with
  | nil => simp
  | cons m l ih =>
    rw [List.map_cons, List.sum_cons, ih, signedUsd, List.map_cons, List.filter_cons,
      List.filter_cons]
    cases m.transfer.incoming <;> simp <;> ring

/-- A move with outside money is not one with lending. -/
lemma gain_external {lo hi : ℤ} {m : Move} (hm : m ∈ w.moves lo hi)
    (hwhere : m.transfer.where_ w.isWallet = .external) : w.gain m = w.signedUsd m := by
  cases hl : m.lending with
  | none => rw [gain, hl]; rfl
  | some op =>
    obtain ⟨e, hmem, hread⟩ := exists_of_mem_moves hm
    obtain ⟨-, -, hinternal⟩ := w.lending_usdc _ hmem op hl _ hread
    rw [hinternal] at hwhere
    cases hwhere

/-- The moves with outside money gain what a pass nets. -/
lemma sum_gain_external (lo hi : ℤ) :
    (((w.moves lo hi).filter fun m => m.transfer.where_ w.isWallet = .external).map w.gain).sum =
      (w.onePass w.wallet lo hi).inUsd - (w.onePass w.wallet lo hi).outUsd := by
  have hgain : ((w.moves lo hi).filter fun m => m.transfer.where_ w.isWallet = .external).map w.gain =
      ((w.moves lo hi).filter fun m => m.transfer.where_ w.isWallet = .external).map
        w.signedUsd := by
    apply List.map_congr_left
    intro m hm
    obtain ⟨hm, hwhere⟩ := List.mem_filter.mp hm
    exact gain_external hm (by simpa using hwhere)
  have houtside : outsideOf w.isWallet (w.transfers w.wallet lo hi) =
      ((w.moves lo hi).filter fun m => m.transfer.where_ w.isWallet = .external).map
        (·.transfer) := by
    rw [← map_transfer_moves, outsideOf, List.filter_map]
    rfl
  rw [hgain, sum_signedUsd, ← houtside]
  rfl

/-- The edge of a pass is that of its transactions. -/
lemma swapEdgeUsd_eq (lo hi : ℤ) : (w.onePass w.wallet lo hi).swapEdgeUsd =
    ∑ hash ∈ (((w.moves lo hi).filter fun m => m.transfer.where_ w.isWallet = .internal).map
      (·.transfer.txHash)).toFinset, (w.txTotals (w.txMoves lo hi hash)).edge := by
  have hinside : insideOf w.prices w.isWallet (w.transfers w.wallet lo hi) =
      ((w.moves lo hi).filter fun m => m.transfer.where_ w.isWallet = .internal).map fun m =>
        m.transfer.insideMove w.prices := by
    rw [← map_transfer_moves, insideOf, List.filter_map, List.map_map]
    rfl
  show (insideMoves (insideOf w.prices w.isWallet (w.transfers w.wallet lo hi))
    (w.fired w.wallet lo hi)).swapEdgeUsd = _
  rw [insideMoves_swapEdgeUsd, hinside, Grouped.total, List.map_map]
  apply Finset.sum_congr rfl
  intro hash _
  rw [Grouped.group, List.filter_map]
  rfl

/-- **A fair range** gains no more than a pass over it nets, edge included.

**Proof sketch.** The moves with outside money gain exactly what comes in less what goes out; those
inside the wallet gain, transaction by transaction, no more than the edge. -/
theorem sum_gain_le {lo hi : ℤ} (hfair : ∀ hash, w.Fair (w.txMoves lo hi hash)) :
    ((w.moves lo hi).map w.gain).sum ≤ (w.onePass w.wallet lo hi).inUsd -
      (w.onePass w.wallet lo hi).outUsd + (w.onePass w.wallet lo hi).swapEdgeUsd := by
  have hsplit : ((w.moves lo hi).map w.gain).sum =
      (((w.moves lo hi).filter fun m => m.transfer.where_ w.isWallet = .external).map w.gain).sum +
      (((w.moves lo hi).filter fun m => m.transfer.where_ w.isWallet = .internal).map
        w.gain).sum := by
    have hkinds : ∀ m ∈ w.moves lo hi,
        m.transfer.where_ w.isWallet ∈ ({.external, .internal} : Finset Where) := by
      intro m _
      cases m.transfer.where_ w.isWallet <;> decide
    rw [← Grouped.sum_filter_key (fun m : Move => m.transfer.where_ w.isWallet) w.gain hkinds]
    exact Finset.sum_pair (by decide)
  have hinternal : (((w.moves lo hi).filter fun m => m.transfer.where_ w.isWallet = .internal).map
      w.gain).sum ≤ (w.onePass w.wallet lo hi).swapEdgeUsd := by
    have hhashes : ∀ m ∈ (w.moves lo hi).filter fun m => m.transfer.where_ w.isWallet = .internal,
        m.transfer.txHash ∈ (((w.moves lo hi).filter fun m =>
          m.transfer.where_ w.isWallet = .internal).map (·.transfer.txHash)).toFinset :=
      fun m hm => List.mem_toFinset.mpr (List.mem_map.mpr ⟨m, hm, rfl⟩)
    rw [swapEdgeUsd_eq, ← Grouped.sum_filter_key (fun m : Move => m.transfer.txHash) w.gain hhashes]
    apply Finset.sum_le_sum
    intro hash _
    exact (fair_iff _).mp (hfair hash)
  rw [hsplit, sum_gain_external]
  linarith

end World

/-! ## Scorings -/

/-- A run of the indexer over the entry: what it is called with, what it reads for the entry, the
entrant's record, and the ledgers the RPC holds. -/
structure Round where
  run : RunArgs
  reads : Reads
  entrant : EntrantRecord
  heldFrom : ℤ
  heldTo : ℤ

namespace World

variable (w : World)

/-- The run of the entry. -/
def index (s : Round) (prev : Option EntryState) : Option EntryRun :=
  indexEntry w.setup.toEnv (w.log.filter (Event.within s.heldFrom s.heldTo)) s.run s.reads s.entrant prev

/-- A run over the world's wallet under its settings, prices and classification, by an RPC that holds
the ledgers from the oldest to the latest the run is told of. -/
structure Runs (s : Round) : Prop extends SameScene w.toScene w.wallet s.run where
  wallet : s.entrant.wallet = w.wallet
  heldFrom : s.heldFrom ≤ s.run.oldest
  heldTo : s.run.latest ≤ s.heldTo

/-- The last ledger that is read once the run has read on from a state. -/
def readLedger (s : Round) (state : EntryState) : ℤ :=
  if max (state.toLedger + 1) s.run.oldest ≤ s.run.end_ then s.run.end_ else state.toLedger

/-- The tokens the wallet has been seen to move, those of the run's transfers included. -/
def seenIn (s : Round) (state : EntryState) : List String :=
  state.tokensSeen.getD [] ++ (w.transfers w.wallet (max (state.toLedger + 1) s.run.oldest)
    s.run.end_).map (·.token.symbol)

/-- What the run reads of each token and of the position in lending, against what the wallet held
after the last ledger that is read. -/
structure Counts (le : ℚ → ℚ → Prop) (s : Round) (state : EntryState) : Prop where
  tokens : ∀ t ∈ w.tokens, le (w.worth t (w.balanceAt (readLedger s state) t))
    (w.worth t (balanceOf s.run s.reads w.wallet (w.seenIn s state) t))
  position : ∀ supplied borrowed,
    readPosition s.reads (findAccount s.reads state).accountId = some (supplied, borrowed) →
      le (units (w.suppliedAt (readLedger s state) - w.borrowedAt (readLedger s state)) 7)
        (units (supplied - borrowed) 7)

/-- **The condition** on a run: a first scoring misses nothing the wallet held after the last ledger
it has read; a later one has read every ledger, counts no more than the wallet held after the last,
and every transaction it has read is fair. -/
def Meets (prev : Option EntryState) (s : Round) : Prop :=
  match prev with
  | none => w.Counts (· ≤ ·) s (EntryState.blank s.run.config)
  | some state => s.run.oldest ≤ state.toLedger + 1 ∧ w.Counts (· ≥ ·) s state ∧
      ∀ hash, w.Fair (w.txMoves (state.toLedger + 1) s.run.end_ hash)

/-- What is read is exactly what the wallet held after the last ledger that is read, and no ledger is
lost. -/
def ReadsExactly (prev : Option EntryState) (s : Round) : Prop :=
  s.run.oldest ≤ (prev.getD (EntryState.blank s.run.config)).toLedger + 1 ∧
    w.Counts (· = ·) s (prev.getD (EntryState.blank s.run.config))

end World

/-- The scorings reached from a first one by runs that meet `ok`, each from a state that was
reached: the first score, a state, and its score. -/
inductive Scored (w : World) (ok : Option EntryState → Round → Prop) :
    EntrantScore → EntryState → EntrantScore → Prop
  | first {s : Round} {r : EntryRun} (hs : w.Runs s) (hok : ok none s)
      (h : w.index s none = some r) : Scored w ok r.score r.state r.score
  | next {first : EntrantScore} {state : EntryState} {score : EntrantScore} {s : Round}
      {r : EntryRun} (hprev : Scored w ok first state score) (hs : w.Runs s)
      (hok : ok (some state) s) (h : w.index s (some state) = some r) :
      Scored w ok first r.state r.score

namespace World

variable {w : World}

lemma transfers_empty {lo hi : ℤ} (h : hi < lo) : w.transfers w.wallet lo hi = [] := by
  have hempty : w.transferEvents w.wallet lo hi = [] := by
    rw [Scene.transferEvents, List.filter_eq_nil_iff]
    intro e _ hmatch
    rw [Bool.and_eq_true, Scene.within_iff] at hmatch
    omega
  rw [Scene.transfers, hempty]
  rfl

/-- What reading the flows leaves of a state. -/
lemma flows_frame {s : Round} (hs : w.Runs s) {state state' : EntryState} {newFlows : List Flow}
    (h : readFlows w.setup.toEnv (w.log.filter (Event.within s.heldFrom s.heldTo)) s.run s.reads
      s.entrant.wallet state = some (state', newFlows)) :
    state'.toLedger = readLedger s state ∧ state'.openingUsd = state.openingUsd ∧
      state'.accountId = state.accountId ∧ state'.accountCheckedAt = state.accountCheckedAt ∧
      ∀ token, token ∈ state'.tokensSeen.getD [] ↔ token ∈ w.seenIn s state := by
  rw [hs.wallet] at h
  rw [readLedger]
  rcases readFlows_spec h with ⟨hlt, rfl⟩ | ⟨hle, hread⟩
  · rw [if_neg (not_le.mpr hlt), seenIn, transfers_empty hlt]
    exact ⟨rfl, rfl, rfl, rfl, fun token => by simp⟩
  · have hend : s.run.end_ ≤ s.run.latest := min_le_left _ _
    have hperm := transfers_walletActivity nodup_ids hs.toSameScene
      (le_trans hs.heldFrom (le_max_right (state.toLedger + 1) s.run.oldest))
      (le_trans hend hs.heldTo)
    rw [if_pos hle]
    refine ⟨hread.toLedger, hread.openingUsd, hread.accountId, hread.accountCheckedAt, ?_⟩
    intro token
    rw [hread.tokensSeen, seenIn, List.mem_append, List.mem_map]
    simp only [hperm.mem_iff]

lemma balanceOf_congr {run : RunArgs} {reads : Reads} {wallet : String} {seen seen' : List String}
    (h : ∀ token, token ∈ seen ↔ token ∈ seen') (t : ScoredToken) :
    balanceOf run reads wallet seen t = balanceOf run reads wallet seen' t := by
  rw [balanceOf, balanceOf]
  simp only [h]

lemma findAccount_congr {reads : Reads} {s s' : EntryState} (hid : s.accountId = s'.accountId)
    (hchecked : s.accountCheckedAt = s'.accountCheckedAt) :
    (findAccount reads s).accountId = (findAccount reads s').accountId := by
  rw [findAccount, findAccount, hid, hchecked]
  split
  · cases reads.positionNft with
    | none => exact hid
    | some nft => rfl
  · exact hid

/-- The value a run counts. -/
lemma value_eq {run : RunArgs} (hsame : SameScene w.toScene w.wallet run) {held : Holdings}
    {balance : ScoredToken → ℤ} (htokens : held.tokens = run.tokens.map fun t =>
      (t.symbol, balance t)) :
    (valueUsd held run.tokens run.prices).usd = units (held.supplied - held.borrowed) 7 +
      (w.tokens.map fun t => w.worth t (balance t)).sum := by
  rw [valueUsd_usd, hsame.tokens]
  congr 2
  apply List.map_congr_left
  intro t ht
  have hnodup : (held.tokens.map Prod.fst).Nodup := by
    rw [htokens, hsame.tokens, List.map_map]
    exact nodup_symbols
  have hmem : (t.symbol, balance t) ∈ held.tokens := by
    rw [htokens, hsame.tokens]
    exact List.mem_map.mpr ⟨t, ht, rfl⟩
  rw [tokenUsd, worth, hsame.prices t ht, Grouped.get?_of_mem hnodup hmem]
  rfl

/-- What counts token by token counts in all. -/
lemma Counts.value {le : ℚ → ℚ → Prop} (hzero : le 0 0)
    (hadd : ∀ a b c d, le a b → le c d → le (a + c) (b + d)) {s : Round} (hs : w.Runs s)
    {state state' account : EntryState} {newFlows : List Flow} {held : Holdings}
    (hcounts : w.Counts le s state)
    (hflows : readFlows w.setup.toEnv (w.log.filter (Event.within s.heldFrom s.heldTo)) s.run
      s.reads s.entrant.wallet state = some (state', newFlows))
    (hheld : holdings s.run s.reads s.entrant.wallet state' = some (held, account)) :
    le (w.valueAt state'.toLedger) (valueUsd held s.run.tokens s.run.prices).usd := by
  obtain ⟨hledger, -, hid, hchecked, hseen⟩ := flows_frame hs hflows
  obtain ⟨-, htokens, hposition⟩ := holdings_spec hheld
  have hsum : ∀ (l : List ScoredToken) (f g : ScoredToken → ℚ), (∀ t ∈ l, le (f t) (g t)) →
      le (l.map f).sum (l.map g).sum := by
    intro l f g h
    induction l with
    | nil => exact hzero
    | cons t l ih =>
      exact hadd _ _ _ _ (h t List.mem_cons_self)
        (ih fun t' ht' => h t' (List.mem_cons_of_mem t ht'))
  rw [value_eq hs.toSameScene htokens, valueAt, hledger]
  apply hadd
  · apply hcounts.position
    rw [findAccount_congr hid.symm hchecked.symm]
    exact hposition
  · apply hsum
    intro t ht
    rw [hs.wallet, balanceOf_congr hseen]
    exact hcounts.tokens t ht

/-- Where the readings are the holdings, they count them either way. -/
lemma Counts.of_eq {le : ℚ → ℚ → Prop} (hle : ∀ a, le a a) {s : Round} {state : EntryState}
    (htokens : ∀ t ∈ w.tokens, w.balanceAt (readLedger s state) t =
      balanceOf s.run s.reads w.wallet (w.seenIn s state) t)
    (hposition : readPosition s.reads (findAccount s.reads state).accountId =
      some (w.suppliedAt (readLedger s state), w.borrowedAt (readLedger s state))) :
    w.Counts le s state := by
  constructor
  · intro t ht
    rw [htokens t ht]
    exact hle _
  · intro supplied borrowed h
    obtain ⟨rfl, rfl⟩ := Prod.mk.inj (Option.some.inj (hposition.symm.trans h))
    exact hle _

/-- What came in net, without the opening value. -/
def netUsd (state : EntryState) : ℚ := state.inUsd - state.outUsd + state.swapEdgeUsd

/-- What the wallet holds above what came in is no more than the first score and the opening value. -/
structure Bound (w : World) (first : EntrantScore) (state : EntryState) : Prop where
  from_start : w.startLedger ≤ state.toLedger + 1
  opening : ∃ opening, state.openingUsd = some opening ∧
    w.valueAt state.toLedger - netUsd state ≤ first.pnlUsd + opening

lemma netUsd_same {s s' : EntryState} (h : SameTotals s s') : netUsd s' = netUsd s := by
  rw [netUsd, netUsd, h.inUsd, h.outUsd, h.swapEdgeUsd]

/-- **The first scoring** misses nothing. -/
lemma bound_first {s : Round} {r : EntryRun} (hs : w.Runs s) (hok : w.Meets none s)
    (h : w.index s none = some r) : Bound w r.score r.state := by
  obtain ⟨state, newFlows, held, account, hflows, hheld, hsame, -, hopen, hpnl⟩ := indexEntry_spec h
  simp only [Option.getD_none] at hflows
  have hcounted := Counts.value le_rfl (fun _ _ _ _ => add_le_add) hs hok hflows hheld
  obtain ⟨hledger, hnone, -⟩ := flows_frame hs hflows
  obtain ⟨opening, hopening⟩ : ∃ opening, r.state.openingUsd = some opening := by
    have haccount : account.openingUsd = none := by
      rw [(holdings_spec hheld).1, findAccount_openingUsd, hnone]
      rfl
    rw [hopen, fixOpening, haccount]
    exact ⟨_, rfl⟩
  constructor
  · rw [hsame.toLedger, hledger, readLedger]
    have hstart := hs.startLedger
    have hblank : (EntryState.blank s.run.config).toLedger = s.run.config.startLedger - 1 := rfl
    split
    · next hle =>
      have hlo := le_trans (le_max_left _ _) hle
      omega
    · omega
  · refine ⟨opening, hopening, ?_⟩
    rw [hopening, Option.getD_some] at hpnl
    rw [hsame.toLedger, netUsd_same hsame, hpnl, netUsd]
    linarith

/-- **A later run**: the value rises by no more than what the pass over the range nets. -/
lemma bound_next {first : EntrantScore} {state : EntryState} {s : Round} {r : EntryRun}
    (hbound : Bound w first state) (hs : w.Runs s) (hok : w.Meets (some state) s)
    (h : w.index s (some state) = some r) :
    Bound w first r.state ∧ r.score.pnlUsd ≤ first.pnlUsd := by
  obtain ⟨state', newFlows, held, account, hflows, hheld, hsame, -, hopen, hpnl⟩ :=
    indexEntry_spec h
  simp only [Option.getD_some] at hflows
  obtain ⟨holdest, hcounts, hfair⟩ := hok
  have hcounted : (valueUsd held s.run.tokens s.run.prices).usd ≤ w.valueAt state'.toLedger :=
    @Counts.value w (· ≥ ·) le_rfl (fun _ _ _ _ h h' => add_le_add h h') s hs _ _ _ _ _ hcounts
      hflows hheld
  obtain ⟨-, hopening', -⟩ := flows_frame hs hflows
  obtain ⟨opening, hopening, hvalue⟩ := hbound.opening
  have hkept : r.state.openingUsd = some opening := by
    have haccount : account.openingUsd = some opening := by
      rw [(holdings_spec hheld).1, findAccount_openingUsd, hopening', hopening]
    rw [hopen, fixOpening_of_some haccount, haccount]
  -- the bound holds of the state the flows were read into
  have hread : w.startLedger ≤ state'.toLedger + 1 ∧
      w.valueAt state'.toLedger - netUsd state' ≤ first.pnlUsd + opening := by
    have hstart := hbound.from_start
    rw [hs.wallet] at hflows
    rcases readFlows_spec hflows with ⟨-, rfl⟩ | ⟨hle, hread⟩
    · exact ⟨hstart, hvalue⟩
    · rw [max_eq_left holdest] at hle hread
      have hend : s.run.end_ ≤ s.run.latest := min_le_left _ _
      have hto := le_trans hend hs.heldTo
      have hfrom := le_trans hs.heldFrom holdest
      have htotals := hread.totals
      rw [onePass_walletActivity nodup_ids hs.toSameScene hfrom hto] at htotals
      have hin : state'.inUsd = _ := congrArg Totals.inUsd htotals
      have hout : state'.outUsd = _ := congrArg Totals.outUsd htotals
      have hedge : state'.swapEdgeUsd = _ := congrArg Totals.swapEdgeUsd htotals
      simp only [Totals.merge, EntryState.totals] at hin hout hedge
      have hgain := sum_gain_le hfair
      have hcut := valueAt_cut hstart (by omega : state.toLedger ≤ s.run.end_)
      rw [hread.toLedger]
      refine ⟨by omega, ?_⟩
      rw [netUsd] at hvalue ⊢
      rw [hcut, hin, hout, hedge]
      linarith
  refine ⟨⟨hsame.toLedger ▸ hread.1, opening, hkept, ?_⟩, ?_⟩
  · rw [hsame.toLedger, netUsd_same hsame]
    exact hread.2
  · rw [hkept, Option.getD_some] at hpnl
    have hvalue' := hread.2
    rw [netUsd] at hvalue'
    linarith

end World

/-- **Only price moves score** where every run meets the condition: no score is above the first.

**Proof sketch.** What the wallet holds above what came in net (outside money and edge) does not
rise: over the range of a run the value changes by the gains of the moves, those with outside money
gain what comes in net, and a fair transaction gains no more than the edge counted for it. The first
run counts at least what the wallet holds, a later one at most, and the opening value stays. -/
theorem pnl_never_rises {w : World} {first : EntrantScore} {state : EntryState}
    {score : EntrantScore} (h : Scored w w.Meets first state score) :
    score.pnlUsd ≤ first.pnlUsd := by
  have hboth : World.Bound w first state ∧ score.pnlUsd ≤ first.pnlUsd := by
    induction h with
    | first hs hok h => exact ⟨World.bound_first hs hok h, le_rfl⟩
    | next hprev hs hok h ih => exact World.bound_next ih.1 hs hok h
  exact hboth.2

/-! ### A wallet that swaps above the oracle price -/

/-- What the RPC reads for the example's runs: every feed has a price, XLM is at 17 cents. The account
that supplied is found once there is one. -/
def pricedReads (latest usdc xlm supplied : ℤ) : RunReads :=
  { exampleReads latest usdc xlm with
    readOracle := fun feed => if feed = "XLM" then some (17, 2) else some (1, 0)
    entry := fun _ => {
      answered := true
      tokenBalance := fun _ => some 0
      positionNft := some (if supplied = 0 then none else some 7)
      hubAmounts := fun _ => some [(supplied, 0), (0, 0)]
      autopilots := some []
      checkNow := 1800000000500 + 900000 * latest
      foundNow := 1800000000600 + 900000 * latest
      now := 1800000000700 + 900000 * latest } }

/-- 100 USDC and 10,000 XLM. Two swaps of 100 XLM above the oracle price: one alone, one whose 30 USDC
are supplied in the same transaction. -/
def swappingWorld : World where
  setup := exampleSetup
  log := [transferEvent 1005 "c3" XLM "CAAA1" "CPOOL" 1000000000,
    transferEvent 1005 "c3" USDC_TESTNET "CPOOL" "CAAA1" 200000000,
    transferEvent 1010 "d4" XLM "CAAA1" "CPOOL" 1000000000,
    transferEvent 1010 "d4" USDC_TESTNET "CPOOL" "CAAA1" 300000000,
    transferEvent 1010 "d4" USDC_TESTNET "CAAA1" "CXOXNO" 300000000]
  inOrder := by decide
  oneLedger := by decide
  startLedger := 1000
  tokens := tokensOf exampleConfig
  prices := pricesOf (pricedReads 0 0 0 0) (tokensOf exampleConfig)
  isWallet _ := false
  wallet := "CAAA1"
  excludeTokens := []
  tokens_eq := rfl
  marked := [(transferEvent 1005 "c3" XLM "CAAA1" "CPOOL" 1000000000, none),
    (transferEvent 1005 "c3" USDC_TESTNET "CPOOL" "CAAA1" 200000000, none),
    (transferEvent 1010 "d4" XLM "CAAA1" "CPOOL" 1000000000, none),
    (transferEvent 1010 "d4" USDC_TESTNET "CPOOL" "CAAA1" 300000000, none),
    (transferEvent 1010 "d4" USDC_TESTNET "CAAA1" "CXOXNO" 300000000, some .supply)]
  log_eq := rfl
  lending_usdc := by
    intro m hm op hop t ht
    simp only [List.mem_cons, List.not_mem_nil, or_false] at hm
    rcases hm with rfl | rfl | rfl | rfl | rfl
    · cases hop
    · cases hop
    · cases hop
    · cases hop
    · obtain rfl := Option.some.inj hop
      have hread : readTransfer (tokensOf exampleConfig) "CAAA1"
          (transferEvent 1010 "d4" USDC_TESTNET "CAAA1" "CXOXNO" 300000000) =
            some (some ⟨1010, "d4", USDC_TESTNET, false, 300000000, "CXOXNO"⟩) := by decide +kernel
      obtain rfl := Option.some.inj (Option.some.inj (hread.symm.trans ht))
      decide +kernel
  openingBalance t :=
    if t = USDC_TESTNET then 1000000000 else if t = XLM then 100000000000 else 0
  openingSupplied := 0
  openingBorrowed := 0

def swappingRound (latest usdc xlm supplied : ℤ) : Round where
  run := runArgs (pricedReads latest usdc xlm supplied) exampleConfig
    [⟨"CAAA1", "trader1", "t1@example.com", 1000, some 1000, none, none⟩]
  reads := (pricedReads latest usdc xlm supplied).entry "CAAA1"
  entrant := ⟨"CAAA1", "trader1", "t1@example.com", 1000, some 1000, none, none⟩
  heldFrom := 900
  heldTo := latest + 1

lemma swappingRound_runs (latest usdc xlm supplied : ℤ) :
    swappingWorld.Runs (swappingRound latest usdc xlm supplied) := by
  refine ⟨⟨rfl, rfl, fun t _ => rfl, ?_⟩, rfl, ?_, ?_⟩
  · intro t _
    have hnone : (swappingRound latest usdc xlm supplied).run.isWallet = fun _ => false := by
      funext c
      simp [swappingRound, runArgs, isWallet, pricedReads, exampleReads]
    rw [hnone]
    rfl
  · exact (by decide : (900 : ℤ) ≤ 900 + 1)
  · show latest ≤ latest + 1
    omega

/-- The first scoring: nothing has moved yet. -/
def swappingFirst : EntryRun :=
  (swappingWorld.index (swappingRound 1001 1000000000 100000000000 0) none).get (by decide +kernel)

lemma index_swappingFirst :
    swappingWorld.index (swappingRound 1001 1000000000 100000000000 0) none = some swappingFirst :=
  (Option.some_get _).symm

/-- The first scoring reads exactly what the wallet holds. -/
lemma counts_swappingFirst {le : ℚ → ℚ → Prop} (hle : ∀ a, le a a) :
    swappingWorld.Counts le (swappingRound 1001 1000000000 100000000000 0)
      (EntryState.blank exampleConfig) :=
  World.Counts.of_eq hle (by decide +kernel) (by decide +kernel)

/-- The run after the first swap. -/
def swappingFair : EntryRun :=
  (swappingWorld.index (swappingRound 1006 1200000000 99000000000 0)
    (some swappingFirst.state)).get (by decide +kernel)

/-- A swap above the oracle price does not score: its edge is counted. -/
theorem pnl_never_rises_fair : swappingFair.score.swapEdgeUsd = 3 ∧
    swappingFair.score.pnlUsd ≤ swappingFirst.score.pnlUsd := by
  have hfair : ∀ hash, swappingWorld.Fair (swappingWorld.txMoves 1002 1006 hash) := by
    intro hash
    by_cases hhash : hash = "c3"
    · subst hhash
      exact .inr (by decide +kernel)
    · have hnone : swappingWorld.txMoves 1002 1006 hash = [] := by
        have hall : ∀ m ∈ swappingWorld.moves 1002 1006, m.transfer.txHash = "c3" := by
          decide +kernel
        rw [World.txMoves, List.filter_eq_nil_iff]
        intro m hm hmatch
        rw [decide_eq_true_eq, hall m (List.mem_filter.mp hm).1] at hmatch
        exact hhash hmatch.symm
      rw [hnone]
      exact .inl le_rfl
  have hfirst : Scored swappingWorld swappingWorld.Meets _ _ _ :=
    .first (swappingRound_runs 1001 1000000000 100000000000 0)
      (counts_swappingFirst le_refl) index_swappingFirst
  have hcounts : swappingWorld.Counts (· ≥ ·) (swappingRound 1006 1200000000 99000000000 0)
      swappingFirst.state :=
    @World.Counts.of_eq swappingWorld (· ≥ ·) (fun _ => le_rfl) _ _ (by decide +kernel)
      (by decide +kernel)
  have holdest : (swappingRound 1006 1200000000 99000000000 0).run.oldest ≤
      swappingFirst.state.toLedger + 1 := by decide +kernel
  have hledger : swappingFirst.state.toLedger = 1001 := by decide +kernel
  refine ⟨by decide +kernel, pnl_never_rises (hfirst.next
    (swappingRound_runs 1006 1200000000 99000000000 0) ⟨holdest, hcounts, ?_⟩
    (Option.some_get _).symm)⟩
  rw [hledger]
  exact hfair

/-- A swap whose proceeds are supplied in the same transaction scores: the supply counts as a side of
the swap and hides its edge. -/
theorem swap_into_lending_scores : ∃ (w : World) (first : EntrantScore) (state : EntryState)
    (score : EntrantScore), Scored w w.ReadsExactly first state score ∧
      (∀ t ∈ w.tokens, (priceOf t w.prices).isSome) ∧ first.pnlUsd < score.pnlUsd := by
  obtain ⟨last, hlast⟩ : ∃ last, swappingWorld.index
      (swappingRound 1011 1200000000 98000000000 300000000) (some swappingFirst.state) =
        some last := Option.isSome_iff_exists.mp (by decide +kernel)
  have hfirst : Scored swappingWorld swappingWorld.ReadsExactly _ _ _ :=
    .first (swappingRound_runs 1001 1000000000 100000000000 0)
      ⟨by decide +kernel, counts_swappingFirst Eq.refl⟩ index_swappingFirst
  have hcounts : swappingWorld.Counts (· = ·)
      (swappingRound 1011 1200000000 98000000000 300000000) swappingFirst.state :=
    World.Counts.of_eq Eq.refl (by decide +kernel) (by decide +kernel)
  have hscored := hfirst.next (swappingRound_runs 1011 1200000000 98000000000 300000000)
    ⟨by decide +kernel, hcounts⟩ hlast
  refine ⟨swappingWorld, _, _, _, hscored, by decide +kernel, ?_⟩
  have hpnl : (swappingWorld.index (swappingRound 1011 1200000000 98000000000 300000000)
      (some swappingFirst.state)).map (·.score.pnlUsd) = some 13 := by decide +kernel
  rw [hlast] at hpnl
  have hthirteen : last.score.pnlUsd = 13 := Option.some.inj hpnl
  have hzero : swappingFirst.score.pnlUsd = 0 := by decide +kernel
  rw [hthirteen, hzero]
  norm_num

end Koul.Competition.Indexer
