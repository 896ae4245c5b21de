import Koul.Competition.Scoring
import Koul.Lib.Paged

set_option relaxedAutoImplicit false
set_option autoImplicit false

/-!
# The indexer's run over one entry

`keeper/scripts/competition.ts` up to `indexEntry`: the events of a range, what of them is a transfer
of the wallet, what the wallet holds, and an entry's run. The RPC holds a stretch of the log and
answers a page at a time; whatever else a run reads from the chain is given to it.

## Main definitions

* `Koul.Competition.events` — every event that matches in a range, in windows and pages.
* `Koul.Competition.walletActivity` — the wallet's transfers, and where its autopilot fired.
* `Koul.Competition.readFlows`, `Koul.Competition.holdings` — the parts of an entry's run.
* `Koul.Competition.indexEntry` — an entry's run.

## Main results

* `Koul.Competition.events_eq` — reading in windows and pages finds every event once.
* `Koul.Competition.transfers_perm`, `Koul.Competition.mem_fired` — what the activity is.
* `Koul.Competition.indexEntry_state` — what a run makes of an entry's totals.
-/

namespace Koul.Competition

/-! ## Events -/

/-- A topic of an event; of the other values only the text `String` makes of them is used. -/
inductive Topic
  | symbol (s : String)
  | address (a : String)
  | other (text : String)
deriving DecidableEq, Repr

/-- `String` of the topic's native value. -/
def Topic.text : Topic → String
  | .symbol s => s
  | .address a => a
  | .other text => text

/-- The value of an event: an amount, a record with an amount, or something else. -/
inductive EventValue
  | int (n : ℤ)
  | record (amount : ℤ)
  | other
deriving DecidableEq, Repr

structure Event where
  ledger : ℤ
  txHash : String
  contractId : String
  topics : List Topic
  value : EventValue
deriving DecidableEq, Repr

/-- A part of a topic filter: a value, `*` or `**`. -/
inductive Segment
  | is (t : Topic)
  | any
  | rest
deriving DecidableEq, Repr

def matchesTopics : List Segment → List Topic → Bool
  | [.rest], _ => true
  | .is t :: ss, t' :: ts => t = t' && matchesTopics ss ts
  | .any :: ss, _ :: ts => matchesTopics ss ts
  | [], [] => true
  | _, _ => false

/-- An event filter of the RPC; one without contracts matches those of every contract. -/
structure EventFilter where
  contractIds : List String
  topics : List Segment
deriving DecidableEq, Repr

def EventFilter.matches (f : EventFilter) (e : Event) : Bool :=
  (f.contractIds.isEmpty || e.contractId ∈ f.contractIds) && matchesTopics f.topics e.topics

/-- An event that one of the filters matches. -/
def matchesAny (filters : List EventFilter) (e : Event) : Bool := filters.any (·.matches e)

/-- An event in a range of ledgers. -/
def Event.within (lo hi : ℤ) (e : Event) : Bool := decide (lo ≤ e.ledger) && decide (e.ledger ≤ hi)

def WINDOW : ℤ := 5000

def PAGE : ℕ := 200

/-- Every event matching `filters` in a range. The RPC's first answer of a window ends before the
ledger after it, the ones by cursor have no end. -/
def events (rpc : List Event) (lo hi : ℤ) (filters : List EventFilter) : List Event :=
  (Paged.windows WINDOW hi (hi + 1 - lo).toNat lo).flatMap fun w =>
    Paged.follow (matchesAny filters) (fun e => decide (e.ledger ≤ w.2)) PAGE rpc.length
      (Paged.page (fun e => matchesAny filters e &&
        (decide (w.1 ≤ e.ledger) && decide (e.ledger < w.2 + 1))) PAGE rpc)

/-- **Events**: on a log in ledger order they are the matching events of the range, in order. -/
theorem events_eq {rpc : List Event} (hsorted : rpc.Pairwise fun a b => a.ledger ≤ b.ledger)
    (lo hi : ℤ) (filters : List EventFilter) :
    events rpc lo hi filters = rpc.filter fun e => matchesAny filters e && e.within lo hi := by
  show _ = rpc.filter fun e =>
    matchesAny filters e && (decide (lo ≤ e.ledger) && decide (e.ledger ≤ hi))
  rw [← Paged.flatMap_windows hsorted (matchesAny filters) (by decide : 0 < WINDOW)
    (show hi < lo + ((hi + 1 - lo).toNat : ℤ) by omega), events]
  apply List.flatMap_congr
  intro w _
  have hend : (fun e : Event => matchesAny filters e &&
      (decide (w.1 ≤ e.ledger) && decide (e.ledger < w.2 + 1))) = fun e =>
        matchesAny filters e && (decide (w.1 ≤ e.ledger) && decide (e.ledger ≤ w.2)) := by
    funext e
    rw [decide_eq_decide.mpr Int.lt_add_one_iff]
  rw [hend]
  apply Paged.follow_page (by decide)
  · exact Paged.pairwise_since hsorted w.1
  · exact Paged.pairwise_le hsorted w.2

/-! ## The wallet's activity -/

/-- What comes from outside `src`: the router the process is set up with, and the text of a number in
a template string. -/
structure Env where
  ROUTER : String
  numberText : ℚ → String

/-- Consecutive groups of `n`. -/
def groups {T : Type} (xs : List T) (n : ℕ) : List (List T) :=
  (List.range ((xs.length + (n - 1)) / n)).map fun i => (xs.drop (i * n)).take n

lemma flatten_groups {T : Type} (xs : List T) {n : ℕ} (hn : 0 < n) : (groups xs n).flatten = xs := by
  have htake : ∀ k, ((List.range k).map fun i => (xs.drop (i * n)).take n).flatten =
      xs.take (k * n) := by
    intro k
    induction k with
    | zero => simp
    | succ k ih =>
      rw [List.range_succ, List.map_append, List.flatten_append, ih, Nat.succ_mul, List.take_add]
      simp
  rw [groups, htake, List.take_of_length_le]
  have hdiv := Nat.lt_div_mul_add (a := xs.length + (n - 1)) hn
  omega

lemma ne_nil_of_mem_groups {T : Type} {xs g : List T} {n : ℕ} (hn : 0 < n) (hg : g ∈ groups xs n) :
    g ≠ [] := by
  obtain ⟨i, hi, rfl⟩ := List.mem_map.mp hg
  have hlt : i * n < xs.length := by
    have hle := Nat.div_mul_le_self (xs.length + (n - 1)) n
    have hmul := Nat.mul_le_mul_right n (Nat.succ_le_of_lt (List.mem_range.mp hi))
    rw [Nat.succ_mul] at hmul
    omega
  intro hnil
  have hlen := congrArg List.length hnil
  rw [List.length_take, List.length_drop, List.length_nil] at hlen
  omega

/-- A request that names groups names no empty one, and its list is not empty either. -/
lemma isEmpty_of_groups_eq_cons {T : Type} {xs first : List T} {rest : List (List T)} {n : ℕ}
    (hn : 0 < n) (h : groups xs n = first :: rest) :
    (∀ g ∈ first :: rest, g.isEmpty = false) ∧ xs.isEmpty = false := by
  have hne : ∀ g ∈ first :: rest, g ≠ [] := fun g hg => ne_nil_of_mem_groups hn (h ▸ hg)
  refine ⟨fun g hg => List.isEmpty_eq_false_iff.mpr (hne g hg), ?_⟩
  rw [List.isEmpty_eq_false_iff, ← flatten_groups xs hn, h, List.flatten_cons]
  intro hnil
  exact hne first List.mem_cons_self (List.append_eq_nil_iff.mp hnil).1

/-- The autopilot's runs for the wallet. -/
def firedFilter (env : Env) (wallet : String) : EventFilter :=
  ⟨[env.ROUTER], [.is (.symbol "fired"), .is (.address wallet), .rest]⟩

/-- The transfers from and to the wallet and the mints to it, of a group of tokens. -/
def transferFilters (wallet : String) (g : List String) : List EventFilter :=
  [⟨g, [.is (.symbol "transfer"), .is (.address wallet), .rest]⟩,
    ⟨g, [.is (.symbol "transfer"), .any, .is (.address wallet), .rest]⟩,
    ⟨g, [.is (.symbol "mint"), .is (.address wallet), .rest]⟩]

structure Activity where
  transfers : List Event
  fired : List String

/-- The events of `walletActivity`. Up to five filters a request: the router's runs ride along with
the first group of tokens. -/
def allEvents (env : Env) (rpc : List Event) (ids : List String) (wallet : String) (lo hi : ℤ) :
    List Event :=
  match groups ids 5 with
  | [] => events rpc lo hi (transferFilters wallet [] ++ [firedFilter env wallet])
  | first :: rest =>
    events rpc lo hi (transferFilters wallet first ++ [firedFilter env wallet]) ++
      rest.flatMap fun g => events rpc lo hi (transferFilters wallet g)

/-- The wallet's transfers and mints of the scored tokens, and the transactions in which its autopilot
fired. -/
def walletActivity (env : Env) (rpc : List Event) (tokens : List ScoredToken) (wallet : String)
    (lo hi : ℤ) : Activity :=
  let all := allEvents env rpc (tokens.map (·.id)) wallet lo hi
  { transfers := all.filter fun e => e.contractId ≠ env.ROUTER
    fired := (all.filter fun e => e.contractId = env.ROUTER).map (·.txHash) }

/-- An event with the topics of a transfer of the wallet. -/
def isTransferOf (wallet : String) (e : Event) : Bool :=
  matchesAny (transferFilters wallet []) e

/-- A transfer of the wallet, of one of the tokens. -/
def isTransfer (env : Env) (tokens : List ScoredToken) (wallet : String) (e : Event) : Bool :=
  e.contractId ≠ env.ROUTER && matchesAny (transferFilters wallet (tokens.map (·.id))) e

/-- A run of the wallet's autopilot. -/
def isRun (env : Env) (tokens : List ScoredToken) (wallet : String) (e : Event) : Bool :=
  e.contractId = env.ROUTER && ((firedFilter env wallet).matches e ||
    matchesAny (transferFilters wallet (tokens.map (·.id))) e)

lemma matchesAny_transferFilters (wallet : String) (g : List String) (e : Event) :
    matchesAny (transferFilters wallet g) e =
      ((g.isEmpty || decide (e.contractId ∈ g)) && isTransferOf wallet e) := by
  simp only [isTransferOf, matchesAny, transferFilters, EventFilter.matches, List.any_cons,
    List.any_nil, List.isEmpty_nil, Bool.true_or, Bool.true_and, Bool.or_false]
  rw [Bool.and_or_distrib_left, Bool.and_or_distrib_left]

lemma matchesAny_append (fs fs' : List EventFilter) (e : Event) :
    matchesAny (fs ++ fs') e = (matchesAny fs e || matchesAny fs' e) :=
  List.any_append

/-- The requests' events: the runs, and the transfers of any group. -/
lemma mem_allEvents (env : Env) {rpc : List Event}
    (hsorted : rpc.Pairwise fun a b => a.ledger ≤ b.ledger) (ids : List String) (wallet : String)
    (lo hi : ℤ) (e : Event) : e ∈ allEvents env rpc ids wallet lo hi ↔
      e ∈ rpc ∧ e.within lo hi ∧ ((firedFilter env wallet).matches e ∨
        matchesAny (transferFilters wallet ids) e) := by
  have hone : matchesAny [firedFilter env wallet] e = (firedFilter env wallet).matches e :=
    Bool.or_false _
  have hflat := flatten_groups ids (by decide : 0 < 5)
  rw [allEvents]
  cases hgroups : groups ids 5 with
  | nil =>
    rw [hgroups, List.flatten_nil] at hflat
    rw [← hflat, events_eq hsorted, List.mem_filter, matchesAny_append, hone]
    simp only [Bool.and_eq_true, Bool.or_eq_true]
    tauto
  | cons first rest =>
    have hmatch : matchesAny (transferFilters wallet ids) e = true ↔
        ∃ g ∈ first :: rest, matchesAny (transferFilters wallet g) e = true := by
      obtain ⟨hne, hids⟩ := isEmpty_of_groups_eq_cons (by decide) hgroups
      simp only [matchesAny_transferFilters, hids, Bool.false_or, Bool.and_eq_true,
        decide_eq_true_eq]
      rw [← hflat, hgroups, List.mem_flatten]
      constructor
      · rintro ⟨⟨g, hg, hmem⟩, htopics⟩
        exact ⟨g, hg, by simp only [hne g hg, hmem, decide_true, Bool.or_true], htopics⟩
      · rintro ⟨g, hg, hmem, htopics⟩
        rw [hne g hg, Bool.false_or, decide_eq_true_eq] at hmem
        exact ⟨⟨g, hg, hmem⟩, htopics⟩
    rw [List.mem_append, List.mem_flatMap, events_eq hsorted, List.mem_filter, matchesAny_append,
      hone, hmatch, List.exists_mem_cons_iff]
    simp only [events_eq hsorted, List.mem_filter, Bool.and_eq_true, Bool.or_eq_true]
    constructor
    · rintro (⟨hmem, hfirst | hrun, hwithin⟩ | ⟨g, hg, hmem, hg', hwithin⟩)
      · exact ⟨hmem, hwithin, .inr (.inl hfirst)⟩
      · exact ⟨hmem, hwithin, .inl hrun⟩
      · exact ⟨hmem, hwithin, .inr (.inr ⟨g, hg, hg'⟩)⟩
    · rintro ⟨hmem, hwithin, hrun | hfirst | ⟨g, hg, hg'⟩⟩
      · exact .inl ⟨hmem, .inr hrun, hwithin⟩
      · exact .inl ⟨hmem, .inl hfirst, hwithin⟩
      · exact .inr ⟨g, hg, hmem, hg', hwithin⟩

/-- **The fired transactions** are those of the runs in the range. -/
theorem mem_fired (env : Env) {rpc : List Event}
    (hsorted : rpc.Pairwise fun a b => a.ledger ≤ b.ledger) (tokens : List ScoredToken)
    (wallet : String) (lo hi : ℤ) (hash : String) :
    hash ∈ (walletActivity env rpc tokens wallet lo hi).fired ↔
      ∃ e ∈ rpc, e.within lo hi ∧ isRun env tokens wallet e ∧ e.txHash = hash := by
  simp only [walletActivity, List.mem_map, List.mem_filter, mem_allEvents env hsorted, isRun,
    Bool.and_eq_true, Bool.or_eq_true, decide_eq_true_eq]
  constructor
  · rintro ⟨e, ⟨⟨hmem, hwithin, hmatch⟩, hrouter⟩, heq⟩
    exact ⟨e, hmem, hwithin, ⟨hrouter, hmatch⟩, heq⟩
  · rintro ⟨e, hmem, hwithin, ⟨hrouter, hmatch⟩, heq⟩
    exact ⟨e, ⟨⟨hmem, hwithin, hmatch⟩, hrouter⟩, heq⟩

lemma firedFilter_ne {env : Env} {wallet : String} {e : Event} (h : e.contractId ≠ env.ROUTER) :
    (firedFilter env wallet).matches e = false := by
  simp [firedFilter, EventFilter.matches, h]

/-- **The transfers** are those of the range, in some order. -/
theorem transfers_perm (env : Env) {rpc : List Event}
    (hsorted : rpc.Pairwise fun a b => a.ledger ≤ b.ledger) {tokens : List ScoredToken}
    (hids : (tokens.map (·.id)).Nodup) (wallet : String) (lo hi : ℤ) :
    (walletActivity env rpc tokens wallet lo hi).transfers.Perm
      (rpc.filter fun e => isTransfer env tokens wallet e && e.within lo hi) := by
  have hflat := flatten_groups (tokens.map (·.id)) (by decide : 0 < 5)
  -- one request's transfers: the router's runs are left out
  have hrequest : ∀ (g : List String) (fs : List EventFilter),
      (∀ e : Event, e.contractId ≠ env.ROUTER → matchesAny fs e = false) →
      ((events rpc lo hi (transferFilters wallet g ++ fs)).filter fun e =>
        e.contractId ≠ env.ROUTER) = rpc.filter fun e =>
          (decide (e.contractId ≠ env.ROUTER) && isTransferOf wallet e && e.within lo hi) &&
            (g.isEmpty || decide (e.contractId ∈ g)) := by
    intro g fs hfs
    rw [events_eq hsorted, List.filter_filter]
    apply List.filter_congr
    intro e _
    by_cases hne : e.contractId ≠ env.ROUTER
    · rw [matchesAny_append, hfs e hne, Bool.or_false, matchesAny_transferFilters,
        decide_eq_true hne, Bool.true_and, Bool.true_and]
      rw [Bool.and_assoc, Bool.and_comm]
    · rw [decide_eq_false hne, Bool.false_and, Bool.false_and, Bool.false_and, Bool.false_and]
  have hfired : ∀ e : Event, e.contractId ≠ env.ROUTER →
      matchesAny [firedFilter env wallet] e = false := by
    intro e hne
    rw [matchesAny, List.any_cons, firedFilter_ne hne]
    rfl
  have htarget : ∀ gs : List (List String), (tokens.map (·.id)) = gs.flatten →
      (rpc.filter fun e => isTransfer env tokens wallet e && e.within lo hi) = rpc.filter fun e =>
        (decide (e.contractId ≠ env.ROUTER) && isTransferOf wallet e && e.within lo hi) &&
          (gs.flatten.isEmpty || decide (e.contractId ∈ gs.flatten)) := by
    intro gs hgs
    apply List.filter_congr
    intro e _
    rw [isTransfer, matchesAny_transferFilters, hgs]
    generalize (gs.flatten.isEmpty || decide (e.contractId ∈ gs.flatten)) = b
    cases b <;> simp
  rw [htarget _ hflat.symm]
  show (List.filter _ (allEvents env rpc (tokens.map (·.id)) wallet lo hi)).Perm _
  rw [allEvents]
  cases hgroups : groups (tokens.map (·.id)) 5 with
  | nil => exact List.Perm.of_eq (hrequest [] _ hfired)
  | cons first rest =>
    obtain ⟨hne, hsome⟩ := isEmpty_of_groups_eq_cons (by decide) hgroups
    have hnone : (first :: rest).flatten.isEmpty = false := by
      rw [← hgroups, hflat, hsome]
    have hrest : ∀ g ∈ rest, ((events rpc lo hi (transferFilters wallet g)).filter fun e =>
        e.contractId ≠ env.ROUTER) = rpc.filter fun e =>
          (decide (e.contractId ≠ env.ROUTER) && isTransferOf wallet e && e.within lo hi) &&
            decide (e.contractId ∈ g) := by
      intro g hg
      have h := hrequest g [] fun _ _ => rfl
      rw [List.append_nil, hne g (List.mem_cons_of_mem _ hg)] at h
      exact h
    have hnodup : (first :: rest).flatten.Nodup := by
      rw [← hgroups, hflat]
      exact hids
    have hperm := Paged.perm_groups (fun e : Event => e.contractId) hnodup
      (fun e => decide (e.contractId ≠ env.ROUTER) && isTransferOf wallet e && e.within lo hi) rpc
    rw [List.filter_append, hrequest first _ hfired, List.filter_flatMap, hnone,
      hne first List.mem_cons_self, List.flatMap_congr hrest]
    simpa only [Bool.false_or, List.flatMap_cons] using hperm

/-! ## Transfers -/

/-- A transfer of a scored token, from the wallet's side. -/
structure Transfer where
  ledger : ℤ
  txHash : String
  token : ScoredToken
  incoming : Bool
  amount : ℤ
  counterparty : String
deriving DecidableEq, Repr

/-- The amount an event's value holds; reading any other value throws. -/
def amountOf : EventValue → Option ℤ
  | .int n => some n
  | .record amount => some amount
  | .other => none

/-- The text of a topic that may be missing. -/
def topicText (e : Event) (i : ℕ) : String :=
  match e.topics[i]? with
  | some t => t.text
  | none => "undefined"

/-- Sender and receiver; a mint has no sender. -/
def sides (e : Event) : Option String × String :=
  if e.topics[0]? = some (.symbol "mint") then (none, topicText e 1)
  else (some (topicText e 1), topicText e 2)

/-- What an event moved: nothing when it is of another token or from the wallet to itself, and
`none` when its amount cannot be read, which fails the entry's run. -/
def readTransfer (tokens : List ScoredToken) (wallet : String) (e : Event) :
    Option (Option Transfer) :=
  match tokens.find? (·.id = e.contractId) with
  | none => some none
  | some token =>
    let fromAddr := (sides e).1
    let toAddr := (sides e).2
    let incoming := decide (toAddr = wallet)
    if incoming && decide (fromAddr = some wallet) then some none
    else match amountOf e.value with
      | none => none
      | some amount => some (some {
          ledger := e.ledger
          txHash := e.txHash
          token := token
          incoming := incoming
          amount := amount
          counterparty := (if incoming then fromAddr else some toAddr).getD "mint" })

/-- A transfer has its event's ledger and transaction, and is of a scored token. -/
lemma readTransfer_spec {tokens : List ScoredToken} {wallet : String} {e : Event} {t : Transfer}
    (h : readTransfer tokens wallet e = some (some t)) :
    t.ledger = e.ledger ∧ t.txHash = e.txHash ∧ t.token ∈ tokens := by
  rw [readTransfer] at h
  cases htoken : tokens.find? (·.id = e.contractId) with
  | none => rw [htoken] at h; cases h
  | some token =>
    simp only [htoken] at h
    split at h
    · cases h
    · cases hamount : amountOf e.value with
      | none => rw [hamount] at h; cases h
      | some amount =>
        simp only [hamount, Option.some.injEq] at h
        subst h
        exact ⟨rfl, rfl, List.mem_of_find?_eq_some htoken⟩

/-- Outside money or a protocol, by the counterparty. -/
def Transfer.where_ (isWallet : String → Bool) (t : Transfer) : Where :=
  if t.counterparty = "mint" then .external else counterpartyKind t.counterparty isWallet

/-- A transfer's worth, whichever way it went. -/
def Transfer.usd (prices : Prices) (t : Transfer) : ℚ :=
  units t.amount t.token.decimals * (priceOf t.token prices).getD 0

/-- The amount from the wallet's side: + in, - out. -/
def Transfer.signed (t : Transfer) : ℤ := if t.incoming then t.amount else -t.amount

def Transfer.flow (prices : Prices) (t : Transfer) : Flow where
  ledger := t.ledger
  txHash := t.txHash
  token := t.token.symbol
  amount := t.signed
  usd := if t.incoming then t.usd prices else -t.usd prices
  counterparty := t.counterparty

def Transfer.insideMove (prices : Prices) (t : Transfer) : InsideMove where
  txHash := t.txHash
  token := t.token.symbol
  incoming := t.incoming
  amount := t.amount
  usd := t.usd prices

/-- What the loop over the transfers keeps: the entry's state, the new flows, the moves inside. -/
structure Sorted where
  state : EntryState
  newFlows : List Flow
  inside : List InsideMove

/-- The state after a transfer with outside money. -/
def EntryState.addOutside (prices : Prices) (state : EntryState) (t : Transfer) : EntryState :=
  { state with
    inUsd := if t.incoming then state.inUsd + t.usd prices else state.inUsd
    outUsd := if t.incoming then state.outUsd else state.outUsd + t.usd prices
    outsideUnits :=
      let outside := state.outsideUnits.getD []
      some (Grouped.set t.token.symbol
        ((Grouped.get? t.token.symbol outside).getD 0 + t.signed) outside) }

/-- The token noted as one the wallet has moved. -/
def EntryState.see (state : EntryState) (token : ScoredToken) : EntryState :=
  { state with
    tokensSeen :=
      let seen := state.tokensSeen.getD []
      some (if token.symbol ∈ seen then seen else seen ++ [token.symbol]) }

/-- One transfer: outside money is a flow, the rest moves inside the wallet. -/
def Sorted.add (prices : Prices) (isWallet : String → Bool) (s : Sorted) (t : Transfer) : Sorted :=
  let state := s.state.see t.token
  match t.where_ isWallet with
  | .external => { s with
      state := state.addOutside prices t
      newFlows := s.newFlows ++ [t.flow prices] }
  | .internal => { s with
      state := state
      inside := s.inside ++ [t.insideMove prices] }

/-! ## An entry's run -/

/-- What `indexEntry` is called with for every entry of a run, and what the process keeps for the run:
the settings, the scored tokens, the wasm hashes of the counterparties, and what the run has read for
all entries at once. -/
structure RunArgs where
  config : CompetitionConfig
  tokens : List ScoredToken
  latest : ℤ
  oldest : ℤ
  prices : Prices
  isWallet : String → Bool
  /-- Balances by the text `token:wallet`. -/
  sac : String → Option ℤ
  sacTokens : List String
  runAt : ℤ
  historyEvery : ℕ

/-- What the run reads for one entry alone; `none` for a read that fails. -/
structure Reads where
  /-- The event requests were answered. -/
  answered : Bool
  tokenBalance : String → Option ℤ
  positionNft : Option (Option ℕ)
  /-- Collateral and debt per hub, by account. -/
  hubAmounts : ℕ → Option (List (ℤ × ℤ))
  autopilots : Option (List (Option Core.Autopilot))
  /-- The clock before the position is looked up, after it, and at the score. -/
  checkNow : ℤ
  foundNow : ℤ
  now : ℤ

/-- The state of a new entry. -/
def EntryState.blank (config : CompetitionConfig) : EntryState where
  netInUsd := 0
  inUsd := 0
  outUsd := 0
  manualTxs := 0
  toLedger := config.startLedger - 1
  lastHistoryAt := 0
  flows := 0
  swapEdgeUsd := 0
  accountId := none
  accountCheckedAt := none
  tokensSeen := none
  openingUsd := none
  openingPrices := none
  capitalOpeningUsd := none
  outsideUnits := none
  fxSeenLedger := none
  historyPoints := none

/-- The last ledger a run reads: the latest, or the end of the competition. -/
def RunArgs.end_ (run : RunArgs) : ℤ := min run.latest (run.config.endLedger.getD run.latest)

/-- The transfers among events; `none` when one cannot be read. -/
def readTransfers (tokens : List ScoredToken) (wallet : String) (es : List Event) :
    Option (List Transfer) :=
  (es.mapM (readTransfer tokens wallet)).map fun ts => ts.filterMap id

/-- The transfers since the state's last ledger, sorted into its totals; the new flows beside it. -/
def readFlows (env : Env) (rpc : List Event) (run : RunArgs) (reads : Reads) (wallet : String)
    (state : EntryState) : Option (EntryState × List Flow) :=
  let lo := max (state.toLedger + 1) run.oldest
  if lo ≤ run.end_ then
    if reads.answered then
      let activity := walletActivity env rpc run.tokens wallet lo run.end_
      match readTransfers run.tokens wallet activity.transfers with
      | none => none
      | some transfers =>
        let opened := { state with outsideUnits := some (state.outsideUnits.getD []) }
        let s := transfers.foldl (Sorted.add run.prices run.isWallet) ⟨opened, [], []⟩
        let moved := insideMoves s.inside activity.fired
        some ({ s.state with
          manualTxs := s.state.manualTxs + moved.manualTxs
          swapEdgeUsd := s.state.swapEdgeUsd + moved.swapEdgeUsd
          toLedger := run.end_
          flows := s.state.flows + s.newFlows.length }, s.newFlows)
    else none
  else some (state, [])

def ACCOUNT_RECHECK_MS : ℤ := 10 * 60000

/-- A token's balance: built-in tokens were read for all entries at once, a custom token is only read
for a wallet that has moved it. -/
def balanceOf (run : RunArgs) (reads : Reads) (wallet : String) (tokensSeen : List String)
    (t : ScoredToken) : ℤ :=
  if t.id ∈ run.sacTokens then (run.sac (t.id ++ ":" ++ wallet)).getD 0
  else if t.symbol ∈ tokensSeen then (reads.tokenBalance t.id).getD 0
  else 0

/-- The state after the wallet's XOXNO account was looked up, where it is time to. -/
def findAccount (reads : Reads) (state : EntryState) : EntryState :=
  if state.accountId = none ∨ state.accountId = some none ∧
      reads.checkNow - state.accountCheckedAt.getD 0 > ACCOUNT_RECHECK_MS then
    match reads.positionNft with
    | some nft => { state with accountId := some nft, accountCheckedAt := some reads.foundNow }
    | none => state
  else state

/-- What an account has supplied and borrowed over its hubs; nothing without an account. -/
def readPosition (reads : Reads) (accountId : Option (Option ℕ)) : Option (ℤ × ℤ) :=
  match accountId with
  | some (some id) =>
    (reads.hubAmounts id).map fun hubs => ((hubs.map Prod.fst).sum, (hubs.map Prod.snd).sum)
  | _ => some (0, 0)

/-- What the wallet holds, and the state with its account. -/
def holdings (run : RunArgs) (reads : Reads) (wallet : String) (state : EntryState) :
    Option (Holdings × EntryState) :=
  let tokens := run.tokens.map fun t =>
    (t.symbol, balanceOf run reads wallet (state.tokensSeen.getD []) t)
  let state := findAccount reads state
  (readPosition reads state.accountId).map fun position =>
    (⟨tokens, position.1, position.2⟩, state)

/-- The first scoring fixes the opening value and its prices. -/
def fixOpening (run : RunArgs) (value : ℚ) (state : EntryState) : EntryState :=
  match state.openingUsd with
  | some _ => state
  | none =>
    let unexplained := value - (state.inUsd - state.outUsd + state.swapEdgeUsd)
    { state with
      openingUsd := some (if unexplained > OPENING_TOLERANCE_USD then unexplained else 0)
      openingPrices := some run.prices
      capitalOpeningUsd := some (capitalOpening value (state.outsideUnits.getD [])
        state.swapEdgeUsd run.tokens run.prices) }

/-- The state with what came in net: outside money, the opening value and the edge. -/
def EntryState.withNet (state : EntryState) : EntryState :=
  { state with
    netInUsd := state.inUsd - state.outUsd + state.openingUsd.getD 0 + state.swapEdgeUsd }

/-- Whether the wallet's autopilots carry a rule on the mock FX oracle, kept once seen; a failed read
changes nothing. -/
def checkFx (reads : Reads) (latest : ℤ) (state : EntryState) : EntryState :=
  match state.fxSeenLedger, reads.autopilots with
  | none, some autopilots =>
    if fxRules autopilots > 0 then { state with fxSeenLedger := some latest } else state
  | _, _ => state

/-- The lists an entry has in the store. -/
inductive ListKey
  | flows (wallet : String)
  | history (wallet : String)
deriving DecidableEq, Repr

/-- A value of a list, kept as its JSON text. -/
inductive ListItem
  | flow (f : Flow)
  | point (p : HistoryPoint)
deriving DecidableEq, Repr

/-- The list commands an entry's run needs. -/
inductive Command
  | lpush (key : ListKey) (items : List ListItem)
  | rpush (key : ListKey) (item : ListItem)
  | ltrim (key : ListKey) (start stop : ℤ)
deriving DecidableEq, Repr

/-- One push for all the run's flows, trimmed once the list can be over its length. -/
def flowCommands (wallet : String) (state : EntryState) (newFlows : List Flow) : List Command :=
  if newFlows = [] then []
  else .lpush (.flows wallet) ((newFlows.drop (newFlows.length - FLOW_POINTS)).map .flow) ::
    if state.flows > FLOW_POINTS then [.ltrim (.flows wallet) 0 (FLOW_POINTS - 1)] else []

/-- A history point, where one is due. -/
def historyCommands (wallet : String) (run : RunArgs) (point : HistoryPoint) (state : EntryState) :
    List Command × EntryState :=
  if run.runAt - state.lastHistoryAt ≥ run.historyEvery then
    let points := state.historyPoints.getD 0 + 1
    (.rpush (.history wallet) (.point point) ::
      (if points > HISTORY_POINTS then [.ltrim (.history wallet) (-HISTORY_POINTS) (-1)] else []),
    { state with historyPoints := some points, lastHistoryAt := run.runAt })
  else ([], state)

/-- One entry's run: its score, its state after the run, and the list pushes it needs. -/
structure EntryRun where
  score : EntrantScore
  state : EntryState
  lists : List Command

/-- Scores one entry from its state after the last finished run; `none` when the run fails. -/
def indexEntry (env : Env) (rpc : List Event) (run : RunArgs) (reads : Reads) (rec : EntrantRecord)
    (prev : Option EntryState) : Option EntryRun :=
  match readFlows env rpc run reads rec.wallet (prev.getD (EntryState.blank run.config)) with
  | none => none
  | some (state, newFlows) =>
    match holdings run reads rec.wallet state with
    | none => none
    | some (h, state) =>
      let value := valueUsd h run.tokens run.prices
      let state := (fixOpening run value.usd state).withNet
      let scored := score value.usd state.netInUsd
      let state := if run.latest ≤ run.end_ then checkFx reads run.latest state else state
      let flagReasons := flagsFor env.numberText state.toEntryTotals state.swapEdgeUsd run.config
        (capitalCheck state run.config.startingBasket run.tokens) state.fxSeenLedger.isSome
      let history := historyCommands rec.wallet run ⟨reads.now, value.usd, scored.returnPct⟩ state
      some {
        score := {
          wallet := rec.wallet
          handle := rec.handle
          valueUsd := value.usd
          pnlUsd := scored.pnlUsd
          returnPct := scored.returnPct
          netInUsd := state.netInUsd
          inUsd := state.inUsd
          outUsd := state.outUsd
          manualTxs := state.manualTxs
          unpriced := value.unpriced
          swapEdgeUsd := state.swapEdgeUsd
          flagged := flagReasons ≠ []
          flagReasons := flagReasons
          ledger := run.latest
          updatedAt := reads.now }
        state := history.2
        lists := flowCommands rec.wallet state newFlows ++ history.1 }

/-! ## What a run leaves of the totals -/

/-- The totals over the wallet's transfers are the same in both states. -/
structure SameTotals (s s' : EntryState) : Prop where
  toLedger : s'.toLedger = s.toLedger
  inUsd : s'.inUsd = s.inUsd
  outUsd : s'.outUsd = s.outUsd
  outsideUnits : s'.outsideUnits = s.outsideUnits
  manualTxs : s'.manualTxs = s.manualTxs
  swapEdgeUsd : s'.swapEdgeUsd = s.swapEdgeUsd
  flows : s'.flows = s.flows

namespace SameTotals

lemma refl (s : EntryState) : SameTotals s s := ⟨rfl, rfl, rfl, rfl, rfl, rfl, rfl⟩

lemma trans {s s' s'' : EntryState} (h : SameTotals s s') (h' : SameTotals s' s'') :
    SameTotals s s'' where
  toLedger := h'.toLedger.trans h.toLedger
  inUsd := h'.inUsd.trans h.inUsd
  outUsd := h'.outUsd.trans h.outUsd
  outsideUnits := h'.outsideUnits.trans h.outsideUnits
  manualTxs := h'.manualTxs.trans h.manualTxs
  swapEdgeUsd := h'.swapEdgeUsd.trans h.swapEdgeUsd
  flows := h'.flows.trans h.flows

end SameTotals

lemma findAccount_same (reads : Reads) (s : EntryState) : SameTotals s (findAccount reads s) := by
  rw [findAccount]
  split
  · cases reads.positionNft with
    | none => exact SameTotals.refl s
    | some nft => exact ⟨rfl, rfl, rfl, rfl, rfl, rfl, rfl⟩
  · exact SameTotals.refl s

lemma findAccount_openingUsd (reads : Reads) (s : EntryState) :
    (findAccount reads s).openingUsd = s.openingUsd := by
  rw [findAccount]
  split
  · cases reads.positionNft <;> rfl
  · rfl

lemma holdings_spec {run : RunArgs} {reads : Reads} {wallet : String} {s s' : EntryState}
    {h : Holdings} (hh : holdings run reads wallet s = some (h, s')) :
    s' = findAccount reads s ∧
      h.tokens = run.tokens.map (fun t =>
        (t.symbol, balanceOf run reads wallet (s.tokensSeen.getD []) t)) ∧
      readPosition reads (findAccount reads s).accountId = some (h.supplied, h.borrowed) := by
  obtain ⟨position, hposition, heq⟩ := Option.map_eq_some_iff.mp hh
  obtain ⟨rfl, rfl⟩ := Prod.mk.inj heq
  exact ⟨rfl, rfl, hposition⟩

lemma fixOpening_same (run : RunArgs) (value : ℚ) (s : EntryState) :
    SameTotals s (fixOpening run value s) := by
  rw [fixOpening]
  cases s.openingUsd with
  | some opening => exact SameTotals.refl s
  | none => exact ⟨rfl, rfl, rfl, rfl, rfl, rfl, rfl⟩

/-- Once fixed, the opening value stays. -/
lemma fixOpening_of_some {run : RunArgs} {value : ℚ} {s : EntryState} {opening : ℚ}
    (h : s.openingUsd = some opening) : fixOpening run value s = s := by
  rw [fixOpening, h]

lemma withNet_same (s : EntryState) : SameTotals s s.withNet := ⟨rfl, rfl, rfl, rfl, rfl, rfl, rfl⟩

lemma checkFx_same (reads : Reads) (latest : ℤ) (s : EntryState) :
    SameTotals s (checkFx reads latest s) := by
  rw [checkFx]
  split
  · split
    · exact ⟨rfl, rfl, rfl, rfl, rfl, rfl, rfl⟩
    · exact SameTotals.refl s
  · exact SameTotals.refl s

lemma checkFx_openingUsd (reads : Reads) (latest : ℤ) (s : EntryState) :
    (checkFx reads latest s).openingUsd = s.openingUsd := by
  rw [checkFx]
  split
  · split <;> rfl
  · rfl

lemma historyCommands_same (wallet : String) (run : RunArgs) (point : HistoryPoint)
    (s : EntryState) : SameTotals s (historyCommands wallet run point s).2 := by
  rw [historyCommands]
  split
  · exact ⟨rfl, rfl, rfl, rfl, rfl, rfl, rfl⟩
  · exact SameTotals.refl s

lemma historyCommands_openingUsd (wallet : String) (run : RunArgs) (point : HistoryPoint)
    (s : EntryState) : (historyCommands wallet run point s).2.openingUsd = s.openingUsd := by
  rw [historyCommands]
  split <;> rfl

/-- **An entry's run** leaves the totals that reading the transfers made; the score is the value of
what the wallet holds above what came in, the opening value and the edge. -/
theorem indexEntry_spec {env : Env} {rpc : List Event} {run : RunArgs} {reads : Reads}
    {rec : EntrantRecord} {prev : Option EntryState} {r : EntryRun}
    (h : indexEntry env rpc run reads rec prev = some r) :
    ∃ state newFlows held account,
      readFlows env rpc run reads rec.wallet (prev.getD (EntryState.blank run.config)) =
        some (state, newFlows) ∧
      holdings run reads rec.wallet state = some (held, account) ∧
      SameTotals state r.state ∧ r.score.wallet = rec.wallet ∧
      r.state.openingUsd =
        (fixOpening run (valueUsd held run.tokens run.prices).usd account).openingUsd ∧
      r.score.pnlUsd = (valueUsd held run.tokens run.prices).usd -
        (state.inUsd - state.outUsd + r.state.openingUsd.getD 0 + state.swapEdgeUsd) := by
  rw [indexEntry] at h
  cases hflows : readFlows env rpc run reads rec.wallet
      (prev.getD (EntryState.blank run.config)) with
  | none => rw [hflows] at h; cases h
  | some res =>
    obtain ⟨state, newFlows⟩ := res
    rw [hflows] at h
    cases hheld : holdings run reads rec.wallet state with
    | none => simp only [hheld] at h; cases h
    | some res =>
      obtain ⟨held, account⟩ := res
      simp only [hheld, Option.some.injEq] at h
      have haccount : SameTotals state account :=
        (holdings_spec hheld).1 ▸ findAccount_same reads state
      have hopen := (haccount.trans
        (fixOpening_same run (valueUsd held run.tokens run.prices).usd account)).trans
          (withNet_same _)
      refine ⟨state, newFlows, held, account, rfl, hheld, ?_, ?_, ?_, ?_⟩
      · subst h
        apply SameTotals.trans ?_ (historyCommands_same _ _ _ _)
        split
        · exact hopen.trans (checkFx_same _ _ _)
        · exact hopen
      · subst h
        rfl
      · subst h
        simp only [historyCommands_openingUsd]
        split
        · rw [checkFx_openingUsd]
          rfl
        · rfl
      · subst h
        have hin := hopen.inUsd
        have hout := hopen.outUsd
        have hedge := hopen.swapEdgeUsd
        simp only [EntryState.withNet] at hin hout hedge
        simp only [historyCommands_openingUsd, score, EntryState.withNet, hin, hout, hedge]
        split
        · rw [checkFx_openingUsd]
        · rfl

end Koul.Competition
