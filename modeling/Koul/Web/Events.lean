import Koul.Core.Read

set_option relaxedAutoImplicit false
set_option autoImplicit false

/-!
# The wallet's events

`web/lib/data/events.ts` of the web app: everything that touched the wallet, in windows of ledgers
aligned to fixed boundaries, from the newest back, with two requests a window. No window is kept from
an earlier read. The three readers of events of the repository are compared here: this one, `readFired`
of `@koul/core` and `events` of the indexer.

## Main definitions

* `Koul.Events.walletRow` — the row of an event.
* `Koul.Events.readWindow`, `Koul.Events.readWalletEvents` — one window, and the whole read.
* `Koul.Events.Event.seen` — an event as the indexer has it.

## Main results

* `Koul.Events.flatMap_walletWindows` — the windows of a read are its range.
* `Koul.Events.readWalletEvents_perm_iff` — a read finds every event exactly when each window is
  covered.
* `Koul.Events.windows_complete_iff` — when the three readers lose nothing.
-/

namespace Koul.Events

open Competition (Topic Segment)

/-! ## Rows -/

inductive WalletEventKind
  | fired | swapped | autopilot_set | autopilot_cleared | koul_installed | context_rule_removed
  | transfer
deriving DecidableEq, Repr

def WalletEventKind.ofName (name : String) : Option WalletEventKind :=
  if name = "fired" then some .fired
  else if name = "swapped" then some .swapped
  else if name = "autopilot_set" then some .autopilot_set
  else if name = "autopilot_cleared" then some .autopilot_cleared
  else if name = "koul_installed" then some .koul_installed
  else if name = "context_rule_removed" then some .context_rule_removed
  else if name = "transfer" then some .transfer
  else none

structure WalletEvent where
  id : String
  kind : WalletEventKind
  ledger : ℤ
  time : Js
  txHash : String
  /-- Decoded event value, shape by kind. -/
  value : List (String × Js)
  /-- For transfers: the two parties. -/
  sender : Option String
  receiver : Option String
deriving Repr

/-- What the language gives: `Date.parse`, `Number` of a topic's native value, `localeCompare`. -/
structure Env where
  parse : String → Js
  number : Option Topic → Js
  localeCompare : String → String → ℤ

def decodeValue : EventValue → List (String × Js)
  | .record fields => fields
  | .plain native => [("amount", native)]

/-- `String` of a topic's native value, empty when there is none. -/
def topicText (e : Event) (i : ℕ) : String := (e.topics[i]?).elim "" Topic.text

/-- The row of an event. The smart account puts the removed rule's id in the second topic and nothing
in the value; Router v1 emitted `fired` without a kind, and those are not autopilot runs. -/
def walletRow (env : Env) (e : Event) : Option WalletEvent :=
  match WalletEventKind.ofName (topicText e 0) with
  | none => none
  | some kind =>
    let value := if kind = .context_rule_removed then [("rule", env.number e.topics[1]?)]
      else decodeValue e.value
    let row : WalletEvent :=
      { id := e.id
        kind := kind
        ledger := e.ledger
        time := if e.ledgerClosedAt = "" then .number 0 else env.parse e.ledgerClosedAt
        txHash := e.txHash
        value := value
        sender := if kind = .transfer then some (topicText e 1) else none
        receiver := if kind = .transfer then some (topicText e 2) else none }
    match kind, Js.field value "kind" with
    | .fired, .string _ => some row
    | .fired, _ => none
    | _, _ => some row

/-! ## Windows -/

def WINDOW : ℤ := 5000

def PAGE : ℕ := 200

/-- Ledgers kept clear of the node's oldest one. -/
def EDGE : ℤ := 12

/-- How many windows are asked for at once. -/
def PARALLEL : ℕ := 6

structure Contracts where
  router : String
  policy : String
  usdc : String

/-- The filters of the first request of a window. -/
def koulFilters (contracts : Contracts) (address : String) : List EventFilter :=
  let topic (name : String) (s : Segment) : List Segment := [.is (.symbol name), s]
  let wallet : Segment := .is (.address address)
  [⟨[contracts.router], [topic "fired" wallet, topic "swapped" wallet,
      topic "autopilot_set" wallet, topic "autopilot_cleared" wallet]⟩,
    ⟨[contracts.policy], [topic "koul_installed" wallet]⟩,
    ⟨[address], [topic "context_rule_removed" .any]⟩]

/-- The filters of its second request. -/
def transferFilters (contracts : Contracts) (address : String) : List EventFilter :=
  [⟨[contracts.usdc], [[.is (.symbol "transfer"), .is (.address address), .any, .any],
    [.is (.symbol "transfer"), .any, .is (.address address), .any]]⟩]

/-- One request of a window, page by page. -/
def page (env : Env) (log : List Event) (filters : List EventFilter) (w : ℤ × ℤ)
    (out : List WalletEvent) : List WalletEvent :=
  readRange (walletRow env) filters PAGE log none w out

/-- One window, both requests. -/
def readWindow (env : Env) (contracts : Contracts) (log : List Event) (address : String)
    (w : ℤ × ℤ) : List WalletEvent :=
  let chunk := page env log (koulFilters contracts address) w []
  page env log (transferFilters contracts address) w chunk

/-- The starts of the windows from one back, down to the one that has the oldest ledger. -/
def starts (oldest : ℤ) : ℕ → ℤ → List ℤ
  | 0, _ => []
  | fuel + 1, start =>
    if start + WINDOW > oldest then start :: starts oldest fuel (start - WINDOW) else []

/-- The ledgers of a window that are asked for. The node forgets one ledger every few seconds, so the
window with its oldest one is asked for from where its memory starts by then, clear of the edge; there
may be nothing left of it. -/
def windowOf (latest oldest fresh start : ℤ) : Option (ℤ × ℤ) :=
  let lo := max oldest start
  let hi := min latest (start + WINDOW - 1)
  if lo = oldest then
    let lo := max lo (fresh + EDGE)
    if lo > hi then none else some (lo, hi)
  else some (lo, hi)

/-- A batch's windows in turn; one that slipped stops the walk. -/
def pushBatch : List (Option (List WalletEvent)) → List WalletEvent → List WalletEvent × Bool
  | [], out => (out, false)
  | none :: _, out => (out, true)
  | some rows :: rest, out => pushBatch rest (out ++ rows)

/-- The batches in turn, until the limit is reached or a window slipped. -/
def readBatches (read : ℤ → Option (List WalletEvent)) (limit : Option ℕ) :
    List (List ℤ) → List WalletEvent → List WalletEvent
  | [], out => out
  | batch :: rest, out =>
    if below limit out.length then
      let pushed := pushBatch (batch.map read) out
      if pushed.2 then pushed.1 else readBatches read limit rest pushed.1
    else out

/-- Newest first, then by id. -/
def compareEvents (env : Env) (a b : WalletEvent) : ℤ :=
  if b.ledger - a.ledger ≠ 0 then b.ledger - a.ledger else env.localeCompare b.id a.id

structure WalletEvents where
  events : List WalletEvent
  oldestLedger : ℤ
  latestLedger : ℤ

def oldestOf (oldestLedger : Option ℤ) : ℤ := max 1 (oldestLedger.getD 1 + 1)

/-- Newest first; no limit is `Infinity`. The node's oldest ledger is asked for again by the window that
has it. -/
def readWalletEvents (env : Env) (contracts : Contracts) (log : List Event) (address : String)
    (latest : ℤ) (oldestLedger freshLedger : Option ℤ) (limit : Option ℕ) : WalletEvents :=
  let oldest := oldestOf oldestLedger
  let fresh := freshLedger.getD 1 + 1
  let start := latest / WINDOW * WINDOW
  let all := starts oldest (start + WINDOW - oldest).toNat start
  let read (start : ℤ) :=
    (windowOf latest oldest fresh start).map (readWindow env contracts log address)
  let out := readBatches read limit (Competition.groups all PARALLEL) []
  let sorted := out.mergeSort fun a b => decide (compareEvents env a b ≤ 0)
  { events := limit.elim sorted sorted.take
    oldestLedger := oldest
    latestLedger := latest }

/-! ## The walk -/

/-- What comes before the first that is missing. -/
def untilNone {β : Type} : List (Option β) → List β
  | some b :: rest => b :: untilNone rest
  | _ => []

lemma untilNone_append {β : Type} (xs ys : List (Option β)) :
    untilNone (xs ++ ys) =
      if xs.any Option.isNone then untilNone xs else untilNone xs ++ untilNone ys := by
  induction xs with
  | nil => rfl
  | cons x xs ih =>
    cases x with
    | none => rfl
    | some b =>
      simp only [List.cons_append, untilNone, ih, List.any_cons, Option.isNone_some,
        Bool.false_or]
      split <;> rfl

lemma untilNone_map {β γ : Type} (g : β → γ) (xs : List (Option β)) :
    untilNone (xs.map (Option.map g)) = (untilNone xs).map g := by
  induction xs with
  | nil => rfl
  | cons x xs ih =>
    cases x with
    | none => rfl
    | some b => simp only [List.map_cons, Option.map_some, untilNone, ih]

lemma pushBatch_eq (rs : List (Option (List WalletEvent))) (out : List WalletEvent) :
    pushBatch rs out = (out ++ (untilNone rs).flatten, rs.any Option.isNone) := by
  induction rs generalizing out with
  | nil => simp [pushBatch, untilNone]
  | cons r rs ih =>
    cases r with
    | none => simp [pushBatch, untilNone]
    | some rows => simp [pushBatch, untilNone, ih]

/-- Without a limit the batches are the windows in turn, up to one that slipped. -/
lemma readBatches_eq (read : ℤ → Option (List WalletEvent)) (bs : List (List ℤ))
    (out : List WalletEvent) :
    readBatches read none bs out = out ++ (untilNone (bs.flatten.map read)).flatten := by
  induction bs generalizing out with
  | nil => simp [readBatches, untilNone]
  | cons b bs ih =>
    have hbelow : below none out.length = true := rfl
    rw [readBatches, if_pos hbelow, pushBatch_eq, List.flatten_cons, List.map_append,
      untilNone_append]
    dsimp only
    split
    · rfl
    · rw [ih, List.flatten_append, List.append_assoc]

/-- The windows of a read, newest first. -/
def walletWindows (latest oldest fresh : ℤ) : List (ℤ × ℤ) :=
  let start := latest / WINDOW * WINDOW
  untilNone ((starts oldest (start + WINDOW - oldest).toNat start).map
    (windowOf latest oldest fresh))

/-- The first ledger of a read: the node's oldest one, clear of the edge, or the start of the window
after it where that one slipped. -/
def walletFrom (oldest fresh : ℤ) : ℤ :=
  min (max oldest (fresh + EDGE)) (oldest / WINDOW * WINDOW + WINDOW)

/-- How many of some windows hold a ledger. -/
def holding (t : ℤ) (ws : List (ℤ × ℤ)) : ℕ :=
  ws.countP fun w => decide (w.1 ≤ t) && decide (t ≤ w.2)

lemma holding_cons (t : ℤ) (w : ℤ × ℤ) (ws : List (ℤ × ℤ)) :
    holding t (w :: ws) = holding t ws + if w.1 ≤ t ∧ t ≤ w.2 then 1 else 0 := by
  simp only [holding, List.countP_cons, Bool.and_eq_true, decide_eq_true_eq]

/-- The windows from the one that starts `k` windows after the lowest. -/
lemma holding_starts {latest oldest base : ℤ} (fresh t : ℤ) (hlow : base ≤ oldest)
    (hhigh : oldest < base + WINDOW) (k : ℕ) {fuel : ℕ} (hfuel : k < fuel)
    (hle : base + k * WINDOW ≤ latest) :
    holding t (untilNone ((starts oldest fuel (base + k * WINDOW)).map
      (windowOf latest oldest fresh))) =
        if min (max oldest (fresh + EDGE)) (base + WINDOW) ≤ t ∧
          t ≤ min latest (base + k * WINDOW + WINDOW - 1) then 1 else 0 := by
  have hW : WINDOW = 5000 := rfl
  simp only [hW] at hhigh hle ⊢
  induction k generalizing fuel with
  | zero =>
    obtain ⟨fuel, rfl⟩ := Nat.exists_eq_succ_of_ne_zero (Nat.pos_iff_ne_zero.mp hfuel)
    -- nothing lies below the lowest window
    have hrest : starts oldest fuel (base + (0 : ℕ) * 5000 - 5000) = [] := by
      cases fuel with
      | zero => rfl
      | succ fuel => rw [starts, hW, if_neg (by omega)]
    have hlo : max oldest (base + (0 : ℕ) * 5000) = oldest := by omega
    rw [starts, hW, if_pos (by omega), hrest, List.map_cons, List.map_nil, windowOf, hW, hlo,
      if_pos rfl]
    dsimp only
    by_cases hslip : max oldest (fresh + EDGE) > min latest (base + (0 : ℕ) * 5000 + 5000 - 1)
    · rw [if_pos hslip, if_neg (by omega)]
      rfl
    · rw [if_neg hslip, untilNone, holding_cons]
      show 0 + _ = _
      rw [Nat.zero_add]
      refine if_congr ?_ rfl rfl
      dsimp only
      omega
  | succ k ih =>
    obtain ⟨fuel, rfl⟩ := Nat.exists_eq_succ_of_ne_zero (Nat.ne_of_gt (Nat.zero_lt_of_lt hfuel))
    have hprev : base + (k + 1 : ℕ) * 5000 - 5000 = base + k * 5000 := by push_cast; omega
    have hlo : max oldest (base + (k + 1 : ℕ) * 5000) = base + (k + 1 : ℕ) * 5000 := by omega
    rw [starts, hW, if_pos (by omega), hprev, List.map_cons, windowOf, hW, hlo,
      if_neg (by omega), untilNone, holding_cons, ih (by omega) (by omega)]
    split <;> split <;> split <;> omega

/-- **The windows**: a ledger of the range is in one of them, any other in none. -/
lemma holding_walletWindows (latest oldest fresh t : ℤ) :
    holding t (walletWindows latest oldest fresh) =
      if walletFrom oldest fresh ≤ t ∧ t ≤ latest then 1 else 0 := by
  have hW : WINDOW = 5000 := rfl
  rw [walletWindows, walletFrom]
  by_cases hle : oldest / WINDOW * WINDOW ≤ latest
  · rw [hW] at hle
    obtain ⟨k, hk⟩ : ∃ k : ℕ,
        latest / WINDOW * WINDOW = oldest / WINDOW * WINDOW + k * WINDOW := by
      refine ⟨(latest / 5000 - oldest / 5000).toNat, ?_⟩
      rw [hW]
      omega
    rw [hk, holding_starts fresh t]
    · refine if_congr ?_ rfl rfl
      rw [hW] at hk ⊢
      omega
    · rw [hW]
      omega
    · rw [hW]
      omega
    · rw [hW] at hk ⊢
      omega
    · rw [hW] at hk ⊢
      omega
  · have hnone : starts oldest (latest / WINDOW * WINDOW + WINDOW - oldest).toNat
        (latest / WINDOW * WINDOW) = [] := by
      cases (latest / WINDOW * WINDOW + WINDOW - oldest).toNat with
      | zero => rfl
      | succ fuel =>
        rw [hW] at hle
        rw [starts, hW, if_neg (by omega)]
    rw [hnone, hW]
    rw [hW] at hle
    show 0 = _
    rw [if_neg (by omega)]

/-! ## What a read finds -/

/-- The filters of a window's requests. -/
def walletFilters (contracts : Contracts) (address : String) : List (List EventFilter) :=
  [koulFilters contracts address, transferFilters contracts address]

/-- The rows of a range. -/
def walletIn (env : Env) (contracts : Contracts) (log : List Event) (address : String)
    (lo hi : ℤ) : List WalletEvent :=
  (eventsIn (walletFilters contracts address).flatten log lo hi).filterMap (walletRow env)

/-- No event matches both requests: the second is for transfers. -/
lemma matchesAny_transferFilters {contracts : Contracts} {address : String} {e : Event}
    (h : matchesAny (koulFilters contracts address) e) :
    matchesAny (transferFilters contracts address) e = false := by
  cases htopics : e.topics with
  | nil =>
    simp [matchesAny, koulFilters, EventFilter.matches, htopics, Competition.matchesTopics] at h
  | cons t ts =>
    have ht : t ≠ .symbol "transfer" := by
      rintro rfl
      simp [matchesAny, koulFilters, EventFilter.matches, htopics, Competition.matchesTopics] at h
    simp [matchesAny, transferFilters, EventFilter.matches, htopics, Competition.matchesTopics,
      ht.symm]

/-- The rows of two requests that no event matches both of are those of both at once. -/
lemma eventsIn_append_perm {fs gs : List EventFilter}
    (h : ∀ e : Event, matchesAny fs e → matchesAny gs e = false) (log : List Event) (lo hi : ℤ) :
    (eventsIn fs log lo hi ++ eventsIn gs log lo hi).Perm (eventsIn (fs ++ gs) log lo hi) := by
  have hparts := Paged.flatMap_filter_perm [fs, gs]
    (fun fs (e : Event) => matchesAny fs e && (decide (lo ≤ e.ledger) && decide (e.ledger ≤ hi)))
    (fun e => matchesAny (fs ++ gs) e && (decide (lo ≤ e.ledger) && decide (e.ledger ≤ hi))) log ?_
  · simpa only [List.flatMap_cons, List.flatMap_nil, List.append_nil, eventsIn] using hparts
  · intro e _
    have hboth := h e
    have hany : matchesAny (fs ++ gs) e = (matchesAny fs e || matchesAny gs e) := List.any_append
    rw [hany, List.countP_cons, List.countP_cons, List.countP_nil]
    cases hf : matchesAny fs e with
    | true =>
      rw [hboth hf]
      simp
    | false => simp

/-- **The windows of a read** are its range. -/
lemma flatMap_walletWindows (env : Env) (contracts : Contracts) (log : List Event)
    (address : String) (latest oldest fresh : ℤ) :
    ((walletWindows latest oldest fresh).flatMap fun w =>
        (walletFilters contracts address).flatMap fun fs =>
          (eventsIn fs log w.1 w.2).filterMap (walletRow env)).Perm
      (walletIn env contracts log address (walletFrom oldest fresh) latest) := by
  have hwindow : ∀ w ∈ walletWindows latest oldest fresh,
      ((walletFilters contracts address).flatMap fun fs =>
        (eventsIn fs log w.1 w.2).filterMap (walletRow env)).Perm
      ((eventsIn (walletFilters contracts address).flatten log w.1 w.2).filterMap
        (walletRow env)) := by
    intro w _
    rw [← List.filterMap_flatMap]
    apply List.Perm.filterMap
    simpa only [walletFilters, List.flatMap_cons, List.flatMap_nil, List.flatten_cons,
      List.flatten_nil, List.append_nil] using
      eventsIn_append_perm (fun _ => matchesAny_transferFilters) log w.1 w.2
  refine (List.Perm.flatMap_left _ hwindow).trans ?_
  rw [← List.filterMap_flatMap, walletIn]
  apply List.Perm.filterMap
  apply Paged.flatMap_filter_perm
  intro e _
  have hheld := holding_walletWindows latest oldest fresh e.ledger
  cases hm : matchesAny (walletFilters contracts address).flatten e with
  | true =>
    simpa only [Bool.true_and, holding, Bool.and_eq_true, decide_eq_true_eq] using hheld
  | false => simp

/-- A window's rows are those of its requests in turn. -/
lemma readWindow_eq (env : Env) (contracts : Contracts) {log : List Event}
    (hsorted : log.Pairwise fun a b => a.ledger ≤ b.ledger) (address : String) (w : ℤ × ℤ) :
    readWindow env contracts log address w = (walletFilters contracts address).flatMap fun fs =>
      page env log fs w [] := by
  have hpage : ∀ fs out, page env log fs w out = out ++ page env log fs w [] := by
    intro fs out
    rw [page, page, readRange_eq hsorted (by decide), readRange_eq hsorted (by decide),
      List.nil_append]
  rw [readWindow, hpage (transferFilters contracts address)]
  simp only [walletFilters, List.flatMap_cons, List.flatMap_nil, List.append_nil]

/-- **The wallet's events** are all found, each once, exactly when every window is covered for each
of its requests. -/
theorem readWalletEvents_perm_iff (env : Env) (contracts : Contracts) {log : List Event}
    (hsorted : log.Pairwise fun a b => a.ledger ≤ b.ledger) (address : String) (latest : ℤ)
    (oldestLedger freshLedger : Option ℤ) :
    let oldest := oldestOf oldestLedger
    let fresh := freshLedger.getD 1 + 1
    (readWalletEvents env contracts log address latest oldestLedger freshLedger none).events.Perm
        (walletIn env contracts log address (walletFrom oldest fresh) latest) ↔
      ∀ w ∈ walletWindows latest oldest fresh, ∀ fs ∈ walletFilters contracts address,
        Covered (walletRow env) fs PAGE log w := by
  intro oldest fresh
  have hpage : ∀ w, ∀ fs ∈ walletFilters contracts address,
      (page env log fs w []).Sublist ((eventsIn fs log w.1 w.2).filterMap (walletRow env)) :=
    fun w fs _ => readRange_sublist hsorted (by decide) w
  have hread : (readWalletEvents env contracts log address latest oldestLedger freshLedger
      none).events.Perm ((walletWindows latest oldest fresh).flatMap
        (readWindow env contracts log address)) := by
    refine (List.mergeSort_perm _ _).trans (List.Perm.of_eq ?_)
    have hmap := untilNone_map (readWindow env contracts log address)
      ((starts oldest (latest / WINDOW * WINDOW + WINDOW - oldest).toNat
        (latest / WINDOW * WINDOW)).map (windowOf latest oldest fresh))
    rw [List.map_map] at hmap
    rw [readBatches_eq, List.nil_append, Competition.flatten_groups _ (by decide)]
    exact congrArg List.flatten hmap
  rw [← (flatMap_walletWindows env contracts log address latest oldest fresh).congr_right,
    hread.congr_left, List.flatMap_congr fun w _ => readWindow_eq env contracts hsorted address w,
    Paged.flatMap_perm_iff fun w _ => Paged.flatMap_sublist (hpage w)]
  refine forall₂_congr fun w _ => (Paged.flatMap_eq_iff (hpage w)).trans ?_
  exact forall₂_congr fun fs _ => readRange_eq_iff hsorted (by decide) w

/-! ## The three readers -/

/-- The event as the indexer has it. -/
def Event.seen (e : Event) : Competition.Event where
  ledger := e.ledger
  txHash := e.txHash
  contractId := e.contractId
  topics := e.topics
  value :=
    match e.value with
    | .plain (.bigint n) => .int n
    | .plain _ => .other
    | .record fields =>
      match Js.field fields "amount" with
      | .bigint n => .record n
      | _ => .other

/-- The indexer's events, whose first request of a window ends with the ledger after it. -/
lemma events_seen {log : List Event} (hsorted : log.Pairwise fun a b => a.ledger ≤ b.ledger)
    (lo hi : ℤ) (filters : List Competition.EventFilter) :
    Competition.events (log.map Event.seen) lo hi filters =
      (log.filter fun e => Competition.matchesAny filters e.seen && e.seen.within lo hi).map
        Event.seen := by
  rw [Competition.events_eq (List.pairwise_map.mpr hsorted), List.filter_map]
  rfl

/-- **Event windows**: on a log in ledger order the three readers find every matching event of their
ranges once exactly when each window of the first two is covered.

**Proof sketch.** The indexer's requests end one ledger after the window, so it always finds all. The
other two end with the window's last ledger, which the RPC leaves out, and meet that ledger only by the
cursor of a full page. -/
theorem windows_complete_iff (env : Env) (contracts : Contracts) {log : List Event}
    (hsorted : log.Pairwise fun a b => a.ledger ≤ b.ledger) (health : Health) (latestLedger : ℤ)
    (user : String) (startLedger : ℤ) (address : String) (latest : ℤ)
    (oldestLedger freshLedger : Option ℤ) :
    let range := ledgerRange health latestLedger
    let oldest := oldestOf oldestLedger
    let fresh := freshLedger.getD 1 + 1
    ((readFired log health latestLedger contracts.router user startLedger none).Perm
        (firedIn log contracts.router user (max startLedger range.2) range.1) ∧
      (readWalletEvents env contracts log address latest oldestLedger freshLedger
          none).events.Perm
        (walletIn env contracts log address (walletFrom oldest fresh) latest) ∧
      ∀ (lo hi : ℤ) (filters : List Competition.EventFilter),
        Competition.events (log.map Event.seen) lo hi filters =
          (log.filter fun e => Competition.matchesAny filters e.seen && e.seen.within lo hi).map
            Event.seen) ↔
      (∀ w ∈ firedWindows range.1 range.2 startLedger,
        Covered (firedRow user) (firedFilters contracts.router user) EVENT_PAGE log w) ∧
      ∀ w ∈ walletWindows latest oldest fresh, ∀ fs ∈ walletFilters contracts address,
        Covered (walletRow env) fs PAGE log w := by
  intro range oldest fresh
  have hfired := readFired_perm_iff hsorted health latestLedger contracts.router user startLedger
  have hwallet := readWalletEvents_perm_iff env contracts hsorted address latest oldestLedger
    freshLedger
  constructor
  · rintro ⟨hf, hw, -⟩
    exact ⟨hfired.mp hf, hwallet.mp hw⟩
  · rintro ⟨hf, hw⟩
    exact ⟨hfired.mpr hf, hwallet.mpr hw, fun lo hi filters => events_seen hsorted lo hi filters⟩

/-- A run of a wallet's autopilot in some ledger. -/
def runIn (ledger : ℤ) : Event where
  id := "0042945412218241024-0000000001"
  ledger := ledger
  ledgerClosedAt := "2026-10-01T12:00:00Z"
  txHash := "f1"
  contractId := "CROUTER"
  topics := [.symbol "fired", .address "CWALLET"]
  value := .record [("autopilot_id", .bigint 1), ("rule_index", .number 0),
    ("kind", .string "MoveSupply"), ("amount", .bigint 50000000)]

def testContracts : Contracts := ⟨"CROUTER", "CPOLICY", "CUSDC"⟩

def testEnv : Env := ⟨fun _ => .number 0, fun _ => .undefined, fun a b => if a < b then -1 else 1⟩

theorem windows_complete_iff_opening :
    (readFired [runIn 5001] ⟨some 10003, some 1⟩ 10003 "CROUTER" "CWALLET" 5000 none).Perm
        (firedIn [runIn 5001] "CROUTER" "CWALLET" 5000 10003) ∧
      (readWalletEvents testEnv testContracts [runIn 5001] "CWALLET" 10003 (some 1) (some 1)
          none).events.Perm
        (walletIn testEnv testContracts [runIn 5001] "CWALLET" 14 10003) := by
  have hfired : ∀ w ∈ firedWindows 10003 2 5000, w.2 ≠ 5001 := by decide +kernel
  have hwallet : ∀ w ∈ walletWindows 10003 2 2, w.2 ≠ 5001 := by decide +kernel
  have hall := (windows_complete_iff testEnv testContracts
    (List.pairwise_singleton (fun a b : Event => a.ledger ≤ b.ledger) (runIn 5001))
    ⟨some 10003, some 1⟩ 10003 "CWALLET" 5000 "CWALLET" 10003 (some 1) (some 1)).mpr
    ⟨fun w hw => .inr ?_, fun w hw fs _ => .inr ?_⟩
  · exact ⟨hall.1, hall.2.1⟩
  · intro e he _ _ hlast
    rw [List.mem_singleton.mp he] at hlast
    exact absurd hlast.symm (hfired w hw)
  · intro e he _ _ hlast
    rw [List.mem_singleton.mp he] at hlast
    exact absurd hlast.symm (hwallet w hw)

/-- A run in the last ledger of a window that has closed: neither reader finds it. -/
theorem closing_run_lost :
    ¬ (readFired [runIn 9999] ⟨some 10003, some 1⟩ 10003 "CROUTER" "CWALLET" 5000 none).Perm
        (firedIn [runIn 9999] "CROUTER" "CWALLET" 5000 10003) ∧
      ¬ (readWalletEvents testEnv testContracts [runIn 9999] "CWALLET" 10003 (some 1) (some 1)
          none).events.Perm
        (walletIn testEnv testContracts [runIn 9999] "CWALLET" 14 10003) := by
  constructor
  · intro hperm
    exact absurd hperm.length_eq (by decide +kernel)
  · intro hperm
    have hlength := hperm.length_eq
    rw [readWalletEvents] at hlength
    dsimp only [Option.elim_none] at hlength
    rw [List.length_mergeSort] at hlength
    exact absurd hlength (by decide +kernel)

end Koul.Events
