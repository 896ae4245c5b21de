import Koul.Competition.Entry
import Koul.Core.Schema
import Koul.Lib.Chunks
import Koul.Lib.Grouped
import Mathlib.Data.List.Sort

set_option relaxedAutoImplicit false
set_option autoImplicit false

/-!
# How an entry is scored

The pure functions of `core/src/competition.ts`, in exact arithmetic: US dollars are rational
numbers, and a price that is there is finite.

## Main definitions

* `Koul.Competition.valueUsd` — the wallet's value at given prices.
* `Koul.Competition.counterpartyKind` — outside money or a move inside the wallet.
* `Koul.Competition.insideMoves` — the moves inside the wallet by transaction.
* `Koul.Competition.flagsFor`, `Koul.Competition.rank` — the flags of an entry, and the board.

## Main results

* `Koul.Competition.valueUsd_usd` — at prices for every token the value is a plain sum.
* `Koul.Competition.insideMoves_swapEdgeUsd`, `Koul.Competition.insideMoves_manualTxs` — what the
  moves add up to, transaction by transaction.
* `Koul.Competition.chunkBySize_eq` — requests are filled greedily.
-/

namespace Koul.Competition

/-! ## Tokens, holdings and prices -/

/-- One token the scoring values; no `feed` means it is worth $1 (USDC). -/
structure ScoredToken where
  symbol : String
  id : String
  decimals : ℕ
  feed : Option String
deriving DecidableEq, Repr

def USDC_TESTNET : ScoredToken :=
  ⟨"USDC", "CBIELTK6YBZJU5UP2WWQEUCYKLPU6AUNZ2BQ4WWFEIE3USCIHMXQDAMA", 7, none⟩

def SWAP_TOKENS : List ScoredToken :=
  [⟨"XLM", "CDLZFC3SYJYDZT7K67VZ75HPJVIEUVNIXF47ZG2FB2RMQQVU2HHGCYSC", 7, some "XLM"⟩,
    ⟨"ETH", "CAEXCVZUCB6FGYKU6YAEUJMVCLS74SPSQ2TTEOLJ27A3C6C627OQON47", 7, some "ETH"⟩,
    ⟨"SOL", "CBVJ6GYJJ55ALTHN32OJEFGUZWWTMDFGIBCM42SPYQ4GWLKX2XARAP2N", 7, some "SOL"⟩,
    ⟨"XRP", "CBSUHSWWZS5MEAGET6ES7UWI5A4QEVABXP6XJXB4XIUMRKMBIN7MJZ5D", 7, some "XRP"⟩,
    ⟨"wBTC", "CBWPLT4YJFXFNDCZFUMCZZQ7UBM2FDIAXQNCM24NZODJDSJNUNMQ63PF", 8, some "BTC"⟩,
    ⟨"BTC", "CAOWDS3FQ4RKAY3LP7EBRAN7QO2ZFPNXH2ITT47FSTEXPDZRNQHEQFS2", 7, some "BTC"⟩,
    ⟨"USDT", "CDWFJXIZZFJ2CVGSAPZ5GWVEYCGDYE65XD2R7S4PWEDP2NFDWKNL4SWD", 7, some "USDT"⟩,
    ⟨"EURC", "CCIMRLN4JLJTGU62FG7IQUP4X5IIAFPBTJQ5AHBM7QQJDVXBJGN632PZ", 7, some "EURC"⟩]

def ALL_TOKENS : List ScoredToken := USDC_TESTNET :: SWAP_TOKENS

structure Holdings where
  /-- Base units per token symbol, USDC included as idle USDC. -/
  tokens : List (String × ℤ)
  /-- XOXNO positions in USDC base units (7 decimals). -/
  supplied : ℤ
  borrowed : ℤ
deriving DecidableEq, Repr

/-- USD per whole token, by Reflector feed symbol. -/
abbrev Prices : Type := String → Option ℚ

def units (amount : ℤ) (decimals : ℕ) : ℚ := amount / 10 ^ decimals

def priceOf (t : ScoredToken) (prices : Prices) : Option ℚ :=
  match t.feed with
  | none => some 1
  | some feed => prices feed

/-- An amount in USD, and the tokens that had no price. -/
structure Valued where
  usd : ℚ
  unpriced : List String
deriving DecidableEq, Repr

/-- A token of the wallet added to its value. -/
def addToken (h : Holdings) (prices : Prices) (v : Valued) (t : ScoredToken) : Valued :=
  let amount := (Grouped.get? t.symbol h.tokens).getD 0
  if amount = 0 then v
  else match priceOf t prices with
    | none => { v with unpriced := v.unpriced ++ [t.symbol] }
    | some price => { v with usd := v.usd + units amount t.decimals * price }

/-- The wallet's value in USD. A token without a price counts as 0 and is listed in `unpriced`. -/
def valueUsd (h : Holdings) (tokens : List ScoredToken) (prices : Prices) : Valued :=
  tokens.foldl (addToken h prices) ⟨units (h.supplied - h.borrowed) 7, []⟩

/-- What a token adds to the value. -/
def tokenUsd (h : Holdings) (prices : Prices) (t : ScoredToken) : ℚ :=
  units ((Grouped.get? t.symbol h.tokens).getD 0) t.decimals * (priceOf t prices).getD 0

lemma addToken_usd (h : Holdings) (prices : Prices) (v : Valued) (t : ScoredToken) :
    (addToken h prices v t).usd = v.usd + tokenUsd h prices t := by
  rw [addToken, tokenUsd]
  by_cases hzero : (Grouped.get? t.symbol h.tokens).getD 0 = 0
  · rw [if_pos hzero, hzero]
    simp [units]
  · rw [if_neg hzero]
    cases priceOf t prices with
    | none => simp
    | some price => rfl

/-- **The value** is the sum of what the tokens add, above the position in lending. -/
theorem valueUsd_usd (h : Holdings) (tokens : List ScoredToken) (prices : Prices) :
    (valueUsd h tokens prices).usd =
      units (h.supplied - h.borrowed) 7 + (tokens.map (tokenUsd h prices)).sum :=
  Grouped.read_foldl (addToken_usd h prices) _ tokens

/-- A token of the basket added to its value. -/
def addBasket (tokens : List ScoredToken) (prices : Prices) (v : Valued) (e : String × ℚ) : Valued :=
  match tokens.find? (·.symbol = e.1) with
  | none => v
  | some t =>
    if e.2 = 0 then v
    else match priceOf t prices with
      | none => { v with unpriced := v.unpriced ++ [e.1] }
      | some price => { v with usd := v.usd + e.2 * price }

/-- The starting basket in USD. A token the scoring does not value counts 0; one without a price is
listed. -/
def basketUsd (basket : List (String × ℚ)) (tokens : List ScoredToken) (prices : Prices) : Valued :=
  basket.foldl (addBasket tokens prices) ⟨0, []⟩

/-- Outside money for the capital check: the opening value no flow explains plus every token that
came in from outside minus what went out, all at the opening prices. -/
def outsideUsd (moved : List (String × ℤ)) (openingUsd : ℚ) (tokens : List ScoredToken)
    (prices : Prices) : ℚ :=
  moved.foldl (fun usd e =>
    match tokens.find? (·.symbol = e.1) with
    | none => usd
    | some t =>
      match priceOf t prices with
      | none => usd
      | some price => usd + units e.2 t.decimals * price)
    openingUsd

/-- Below this, an unexplained opening value is interest or rounding. -/
def OPENING_TOLERANCE_USD : ℚ := 1

/-- What the first scoring fixes for the capital check: the value no flow explains, flows at the
opening prices; 0 under `OPENING_TOLERANCE_USD`. -/
def capitalOpening (value : ℚ) (moved : List (String × ℤ)) (swapEdgeUsd : ℚ)
    (tokens : List ScoredToken) (prices : Prices) : ℚ :=
  let unexplained := value - outsideUsd moved 0 tokens prices - swapEdgeUsd
  if unexplained > OPENING_TOLERANCE_USD then unexplained else 0

def BASKET_TOLERANCE : ℚ := 1 / 100

def BASKET_SLACK_USD : ℚ := 1

/-- Outside money and the basket, both in USD at the entry's opening prices. -/
structure CapitalCheck where
  outsideUsd : ℚ
  basketUsd : ℚ
deriving DecidableEq, Repr

/-- Rules that read the team's mock FX oracle. -/
def fxRules (autopilots : List (Option Core.Autopilot)) : ℕ :=
  autopilots.foldl (fun n ap =>
    n + match ap with
      | none => 0
      | some ap => (ap.rules.filter fun r => r.conditions.any fun c =>
          match c with
          | .fxPrice .. => true
          | _ => false).length)
    0

/-! ## Flows and moves -/

inductive Where
  | external
  | internal
deriving DecidableEq, Repr

def startsWith (s : String) (c : Char) : Bool := s.toList.head? = some c

/-- Who a transfer was with, from the wallet's side: a classic account or another smart wallet is
outside money, any other contract is a protocol. -/
def counterpartyKind (address : String) (isSmartWallet : String → Bool) : Where :=
  if startsWith address 'G' || startsWith address 'M' then .external
  else if isSmartWallet address then .external
  else .internal

/-- One transfer with outside money; `amount` and `usd` are positive for what came in. -/
structure Flow where
  ledger : ℤ
  txHash : String
  token : String
  amount : ℤ
  usd : ℚ
  counterparty : String
deriving DecidableEq, Repr

/-- One transfer of a scored token with a protocol, from the wallet's side. -/
structure InsideMove where
  txHash : String
  token : String
  incoming : Bool
  amount : ℤ
  usd : ℚ
deriving DecidableEq, Repr

/-- What one transaction moved inside the wallet. -/
structure TxMoves where
  outUsd : ℚ
  inUsd : ℚ
  tokens : Finset String
deriving DecidableEq

def TxMoves.zero : TxMoves := ⟨0, 0, ∅⟩

def TxMoves.push (t : TxMoves) (m : InsideMove) : TxMoves where
  outUsd := if m.incoming then t.outUsd else t.outUsd + m.usd
  inUsd := if m.incoming then t.inUsd + m.usd else t.inUsd
  tokens := insert m.token t.tokens

/-- What a transaction moved does not depend on the order of its moves. -/
instance TxMoves.push_comm : RightCommutative TxMoves.push where
  right_comm t m m' := by
    rcases m with ⟨_, token, incoming, _, usd⟩
    rcases m' with ⟨_, token', incoming', _, usd'⟩
    cases incoming <;> cases incoming' <;>
      simp [TxMoves.push, Finset.insert_comm token token', add_right_comm]

/-- The moves by transaction. -/
def byTx (moves : List InsideMove) : List (String × TxMoves) :=
  Grouped.byKey InsideMove.txHash TxMoves.push TxMoves.zero moves

/-- A transaction the autopilot did not fire that swapped. -/
def TxMoves.manual (fired : List String) (hash : String) (t : TxMoves) : Bool :=
  hash ∉ fired && 2 ≤ t.tokens.card

/-- A token out and a different one back, for more than went out. -/
def TxMoves.overpaid (t : TxMoves) : Bool :=
  2 ≤ t.tokens.card && (t.outUsd > 0 && t.inUsd > t.outUsd)

structure Moved where
  manualTxs : ℕ
  swapEdgeUsd : ℚ
deriving DecidableEq, Repr

/-- What a swap paid above what went out; a swap that paid less is a real loss. -/
def TxMoves.edge (t : TxMoves) : ℚ := if t.overpaid then t.inUsd - t.outUsd else 0

/-- A transaction added to the sums. -/
def Moved.add (fired : List String) (r : Moved) (e : String × TxMoves) : Moved where
  manualTxs := r.manualTxs + if e.2.manual fired e.1 then 1 else 0
  swapEdgeUsd := r.swapEdgeUsd + e.2.edge

/-- Sorts the moves inside the wallet by transaction: the transactions the autopilot did not fire,
and what swaps paid above what went out. -/
def insideMoves (moves : List InsideMove) (fired : List String) : Moved :=
  (byTx moves).foldl (Moved.add fired) ⟨0, 0⟩

/-- **The edge** is summed over the transactions. -/
theorem insideMoves_swapEdgeUsd (moves : List InsideMove) (fired : List String) :
    (insideMoves moves fired).swapEdgeUsd =
      Grouped.total (fun _ t => t.edge) InsideMove.txHash TxMoves.push TxMoves.zero moves := by
  have hadd : ∀ (r : Moved) (e : String × TxMoves),
      (r.add fired e).swapEdgeUsd = r.swapEdgeUsd + e.2.edge := fun r e => rfl
  rw [insideMoves, Grouped.read_foldl hadd, zero_add, byTx]
  exact Grouped.sum_byKey (fun _ (t : TxMoves) => t.edge) moves

/-- **The moves by hand** are counted over the transactions. -/
theorem insideMoves_manualTxs (moves : List InsideMove) (fired : List String) :
    (insideMoves moves fired).manualTxs =
      Grouped.total (fun hash t => if t.manual fired hash then 1 else 0) InsideMove.txHash
        TxMoves.push TxMoves.zero moves := by
  have hadd : ∀ (r : Moved) (e : String × TxMoves),
      (r.add fired e).manualTxs = r.manualTxs + if e.2.manual fired e.1 then 1 else 0 :=
    fun r e => rfl
  rw [insideMoves, Grouped.read_foldl hadd, zero_add, byTx]
  exact Grouped.sum_byKey (fun hash (t : TxMoves) => if t.manual fired hash then 1 else 0) moves

/-! ## Entries -/

structure EntryTotals where
  /-- External money in minus external money out, the opening value and the swap edge. -/
  netInUsd : ℚ
  inUsd : ℚ
  outUsd : ℚ
  manualTxs : ℕ
deriving DecidableEq, Repr

/-- The indexer's running totals per entry. -/
structure EntryState extends EntryTotals where
  /-- The last ledger its events were read through. -/
  toLedger : ℤ
  lastHistoryAt : ℤ
  flows : ℕ
  swapEdgeUsd : ℚ
  /-- The wallet's XOXNO account; `some none` while it has none. -/
  accountId : Option (Option ℕ)
  accountCheckedAt : Option ℤ
  tokensSeen : Option (List String)
  /-- `none` (NaN) until the first scoring. -/
  openingUsd : Option ℚ
  openingPrices : Option Prices
  capitalOpeningUsd : Option ℚ
  /-- Net outside base units per token symbol, each kept as its decimal text. -/
  outsideUnits : Option (List (String × ℤ))
  fxSeenLedger : Option ℤ
  historyPoints : Option ℕ

/-- The capital check for an entry with a starting basket, once its opening prices are fixed. -/
def capitalCheck (state : EntryState) (basket : Option (List (String × ℚ)))
    (tokens : List ScoredToken) : Option CapitalCheck :=
  match basket, state.openingPrices with
  | some basket, some openingPrices => some {
      outsideUsd := Competition.outsideUsd (state.outsideUnits.getD [])
        (state.capitalOpeningUsd.getD 0) tokens openingPrices
      basketUsd := (Competition.basketUsd basket tokens openingPrices).usd }
  | _, _ => none

structure Scored where
  pnlUsd : ℚ
  returnPct : Option ℚ
deriving DecidableEq, Repr

def score (value netInUsd : ℚ) : Scored :=
  let pnlUsd := value - netInUsd
  ⟨pnlUsd, if netInUsd > 0 then some (pnlUsd / netInUsd * 100) else none⟩

/-- What the indexer stores per entry after each run. -/
structure EntrantScore extends EntryTotals where
  wallet : String
  handle : String
  valueUsd : ℚ
  pnlUsd : ℚ
  returnPct : Option ℚ
  unpriced : List String
  swapEdgeUsd : ℚ
  flagged : Bool
  flagReasons : List String
  ledger : ℤ
  updatedAt : ℤ
deriving DecidableEq, Repr

/-- `toFixed(2)`: the nearest number of cents, the larger of two, with two decimals. From 10 ^ 21 on
it is the number's own text. -/
def toFixed2 (numberText : ℚ → String) (x : ℚ) : String :=
  let cents := ⌊|x| * 100 + 1 / 2⌋.toNat
  if |x| < 10 ^ 21 then
    (if x < 0 then "-" else "") ++ toString (cents / 100) ++ "." ++ toString (cents / 10 % 10) ++
      toString (cents % 10)
  else numberText x

/-- Why an entry is flagged; `numberText` is a number in a template string. -/
def flagsFor (numberText : ℚ → String) (totals : EntryTotals) (swapEdgeUsd : ℚ)
    (config : CompetitionConfig) (capital : Option CapitalCheck) (fx : Bool) : List String :=
  (if config.autopilotOnly && totals.manualTxs > 0 then
    [toString totals.manualTxs ++ " move" ++ (if totals.manualTxs = 1 then "" else "s") ++
      " not made by the autopilot"]
  else []) ++
  (match capital with
  | some check =>
    if check.outsideUsd > check.basketUsd * (1 + BASKET_TOLERANCE) + BASKET_SLACK_USD then
      ["added capital: " ++ toFixed2 numberText check.outsideUsd ++
        " USD in at opening prices, starting basket worth " ++ toFixed2 numberText check.basketUsd]
    else []
  | none =>
    let capital := totals.netInUsd - swapEdgeUsd
    if capital > config.startingCapitalUsd + 1 / 100 then
      ["added capital: " ++ toFixed2 numberText capital ++ " USD in, " ++
        numberText config.startingCapitalUsd ++ " allowed"]
    else []) ++
  (if fx then ["a rule on USD/TRY, a test price the team sets"] else [])

/-! ## The board -/

/-- A return no higher than another; one that is not there is the lowest. -/
def atMost : Option ℚ → Option ℚ → Bool
  | none, _ => true
  | some _, none => false
  | some a, some b => a ≤ b

/-- Best return first, entries without a return last; ties, after rounding to four decimals, share a
rank. -/
def rank {T : Type} (returnPct : T → Option ℚ) (flagged : T → Bool) (rows : List T) :
    List (T × Option ℕ) :=
  let sorted := rows.insertionSort fun a b => atMost (returnPct b) (returnPct a)
  let ranked := sorted.foldl (fun (s : Option ℚ × ℕ × ℕ × List (T × Option ℕ)) r =>
    let (last, lastRank, counted, out) := s
    match flagged r, returnPct r with
    | false, some pct =>
      let rounded : ℚ := ⌊pct * 10000 + 1 / 2⌋ / 10000
      let rankNow := if some rounded ≠ last then counted + 1 else lastRank
      (some rounded, rankNow, counted + 1, out ++ [(r, some rankNow)])
    | _, _ => (last, lastRank, counted, out ++ [(r, none)]))
    (none, 0, 0, [])
  ranked.2.2.2

structure LeaderboardRow where
  rank : Option ℕ
  handle : String
  wallet : String
  valueUsd : ℚ
  pnlUsd : ℚ
  returnPct : Option ℚ
  flagged : Bool
deriving DecidableEq, Repr

structure HistoryPoint where
  at_ : ℤ
  valueUsd : ℚ
  returnPct : Option ℚ
deriving DecidableEq, Repr

/-! ## The store's budget -/

def HISTORY_POINTS : ℕ := 3000

def FLOW_POINTS : ℕ := 500

def HISTORY_PUSHES_PER_DAY : ℕ := 7200

def HOUR_MS : ℕ := 3600000

/-- How often each entry gets a history point. -/
def historyEveryMs (entries : ℕ) : ℕ :=
  max HOUR_MS ((entries * 24 * HOUR_MS + (HISTORY_PUSHES_PER_DAY - 1)) / HISTORY_PUSHES_PER_DAY)

def REQUEST_MAX_BYTES : ℕ := 400000

section Chunks

variable {T K : Type*} [AddCommMonoid K] [LinearOrder K]

/-- An item added to the groups: the finished ones, the one being filled and its size. -/
def addItem (bytes : T → K) (maxBytes : K) (s : List (List T) × List T × K) (item : T) :
    List (List T) × List T × K :=
  let n := bytes item
  if s.2.1 ≠ [] ∧ s.2.2 + n > maxBytes then (s.1 ++ [s.2.1], [item], n)
  else (s.1, s.2.1 ++ [item], s.2.2 + n)

/-- Items in order, in groups whose sizes add up to at most `maxBytes`; an item larger than that goes
alone. -/
def chunkBySize (items : List T) (bytes : T → K) (maxBytes : K) : List (List T) :=
  let s := items.foldl (addItem bytes maxBytes) ([], [], 0)
  if s.2.1 ≠ [] then s.1 ++ [s.2.1] else s.1

/-- An item that the group has no room for closes it. -/
lemma addItem_of_lt {bytes : T → K} {maxBytes : K} {group : List T} {item : T} (hne : group ≠ [])
    (h : maxBytes < Chunks.total bytes group + bytes item) (out : List (List T)) :
    addItem bytes maxBytes (out, group, Chunks.total bytes group) item =
      (out ++ [group], [item], Chunks.total bytes [item]) := by
  rw [addItem, if_pos ⟨hne, h⟩, Chunks.total_singleton]

/-- Any other joins it. -/
lemma addItem_of_not_lt {bytes : T → K} {maxBytes : K} {group : List T} {item : T}
    (h : ¬ maxBytes < Chunks.total bytes group + bytes item) (out : List (List T)) :
    addItem bytes maxBytes (out, group, Chunks.total bytes group) item =
      (out, group ++ [item], Chunks.total bytes (group ++ [item])) := by
  rw [addItem, if_neg fun hc => h hc.2, Chunks.total_append, Chunks.total_singleton]

/-- Going on from a group that has items, with what it adds up to, packs the items into it. -/
lemma foldl_addItem (bytes : T → K) (maxBytes : K) (items : List T) (out : List (List T))
    {group : List T} (hne : group ≠ []) :
    let s := items.foldl (addItem bytes maxBytes) (out, group, Chunks.total bytes group)
    s.2.1 ≠ [] ∧ s.1 ++ [s.2.1] = out ++ Chunks.pack maxBytes bytes group items := by
  induction items generalizing out group with
  | nil => exact ⟨hne, rfl⟩
  | cons item items ih =>
    rw [List.foldl_cons, Chunks.pack]
    by_cases h : maxBytes < Chunks.total bytes group + bytes item
    · rw [addItem_of_lt hne h, if_pos h]
      have hrest := ih (out ++ [group]) (List.cons_ne_nil item [])
      rw [List.append_assoc, List.singleton_append] at hrest
      exact hrest
    · rw [addItem_of_not_lt h, if_neg h]
      exact ih out (by simp)

/-- **The loop makes the greedy division.** -/
theorem chunkBySize_eq (items : List T) (bytes : T → K) (maxBytes : K) :
    chunkBySize items bytes maxBytes = Chunks.chunk maxBytes bytes items := by
  cases items with
  | nil => rfl
  | cons item items =>
    have hfirst : addItem bytes maxBytes ([], [], 0) item =
        ([], [item], Chunks.total bytes [item]) := by
      rw [addItem, if_neg fun hc => hc.1 rfl, zero_add, Chunks.total_singleton]
      rfl
    obtain ⟨hne, heq⟩ := foldl_addItem bytes maxBytes items [] (List.cons_ne_nil item [])
    rw [chunkBySize, List.foldl_cons, hfirst]
    exact (if_pos hne).trans heq

/-- **The groups** are the items in order. -/
theorem flatten_chunkBySize (items : List T) (bytes : T → K) (maxBytes : K) :
    (chunkBySize items bytes maxBytes).flatten = items := by
  rw [chunkBySize_eq, Chunks.flatten_chunk]

end Chunks

end Koul.Competition
