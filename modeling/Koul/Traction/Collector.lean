import Koul.Competition.Indexer
import Koul.Lib.Crew
import Koul.Lib.Js
import Koul.Lib.Padded
import Koul.Traction.Ledger

set_option relaxedAutoImplicit false
set_option autoImplicit false

/-!
# The traction collector

`keeper/scripts/traction.ts`: a run reads the stored state, the router's events since its cursor and the
router's views, and writes the next state in one pipeline. With it the rest of
`packages/core/src/traction.ts`: `cursorLedger`, `routerEvent` and `snapshotOf`.

## Main definitions

* `Koul.Traction.Place` — a place in the RPC's events, which its ids and its cursors name.
* `Koul.Traction.routerEvent` — a router event from its decoded topics and body.
* `Koul.Traction.Collector.Cmd` — what a run asks the world for.
* `Koul.Traction.Collector.run` — a run.

## Main results

* `Koul.Traction.cursorLedger_text` — the ledger of a cursor.
* `Koul.Traction.utf16_text_lt` — ids are in the order of the places.
* `Koul.Traction.routerEvent_published` — every event of the router is read as what it says.
-/

namespace Koul.Traction

open Interleaving Interleaving.Prog
open Competition (Prices)

/-! ## Places -/

/-- A place in the RPC's events: the operation's number, of which the high 32 bits are its ledger, and
the event's index in it. -/
structure Place where
  toid : ℕ
  index : ℕ
  toid_lt : toid < 10 ^ 19
  index_lt : index < 10 ^ 10
deriving DecidableEq

namespace Place

/-- The id of an event, or a cursor, of this place. -/
def text (p : Place) : String :=
  String.ofList (Padded.digits 19 p.toid ++ '-' :: Padded.digits 10 p.index)

def ledger (p : Place) : ℕ := p.toid / 2 ^ 32

/-- The order of the places. -/
def key (p : Place) : ℕ := p.toid * 10 ^ 10 + p.index

lemma ledger_le_of_key_le {p q : Place} (h : p.key ≤ q.key) : p.ledger ≤ q.ledger := by
  have hp := p.index_lt
  have hq := q.index_lt
  unfold key at h
  exact Nat.div_le_div_right (by omega)

lemma key_lt_of_ledger_lt {p q : Place} (h : p.ledger < q.ledger) : p.key < q.key := by
  by_contra hle
  exact absurd (ledger_le_of_key_le (not_lt.mp hle)) (not_le.mpr h)

end Place

/-- The ledger that a paging token points at; `BigInt` throws on a text that is no number. -/
def cursorLedger (cursor : String) : Option ℤ :=
  (Js.toBigInt (String.ofList (cursor.toList.takeWhile (· ≠ '-')))).map (· / 2 ^ 32)

/-- **The ledger of a cursor.** -/
theorem cursorLedger_text (p : Place) : cursorLedger p.text = some (p.ledger : ℤ) := by
  have hhead : p.text.toList.takeWhile (· ≠ '-') = Padded.digits 19 p.toid := by
    rw [Place.text, String.toList_ofList, List.takeWhile_append_of_pos]
    · simp
    · intro c hc
      have hdigit := Padded.isDigit_of_mem_digits hc
      refine decide_eq_true ?_
      rintro rfl
      exact absurd hdigit (by decide)
  rw [cursorLedger, hhead, Js.toBigInt_of_isDigit, String.toList_ofList,
    Padded.ofDigitChars_digits]
  · simp [Place.ledger]
  · rw [String.toList_ofList]
    exact Padded.digits_ne_nil 19 p.toid
  · intro c hc
    rw [String.toList_ofList] at hc
    exact Padded.isDigit_of_mem_digits hc

lemma utf16_text (p : Place) :
    utf16 p.text = Padded.codes 19 p.toid ++ 45 :: Padded.codes 10 p.index := by
  have hascii : ∀ cs : List Char, (∀ c ∈ cs, c.isDigit = true ∨ c = '-') →
      (cs.flatMap fun c => if c.toNat < 0x10000 then [c.toNat]
        else [0xd800 + (c.toNat - 0x10000) / 0x400, 0xdc00 + (c.toNat - 0x10000) % 0x400]) =
      cs.map Char.toNat := by
    intro cs hcs
    rw [List.map_eq_flatMap]
    refine List.flatMap_congr fun c hc => if_pos ?_
    rcases hcs c hc with hdigit | rfl
    · have := (Js.toNat_of_isDigit hdigit).2
      omega
    · decide
  rw [utf16, Place.text, String.toList_ofList, hascii, List.map_append, List.map_cons,
    Padded.map_toNat_digits (by decide) p.toid_lt, Padded.map_toNat_digits (by decide) p.index_lt]
  · rfl
  · intro c hc
    rcases List.mem_append.mp hc with hc | hc
    · exact .inl (Padded.isDigit_of_mem_digits hc)
    · rcases List.mem_cons.mp hc with rfl | hc
      · exact .inr rfl
      · exact .inl (Padded.isDigit_of_mem_digits hc)

/-- **The order of the ids**: of two events the earlier one has the smaller id. -/
theorem utf16_text_lt {p q : Place} (h : p.key < q.key) : utf16 p.text < utf16 q.text := by
  have hp := p.index_lt
  have hq := q.index_lt
  rw [utf16_text, utf16_text]
  unfold Place.key at h
  rcases lt_or_ge p.toid q.toid with hlt | hge
  · exact Padded.codes_append_lt hlt q.toid_lt _ _
  · have heq : p.toid = q.toid := by omega
    rw [heq]
    apply Padded.append_lt_append
    refine List.cons_lt_cons_iff.mpr (.inr ⟨rfl, ?_⟩)
    have hcodes := Padded.codes_append_lt (n := p.index) (m := q.index) (by omega) hq [] []
    simpa only [List.append_nil] using hcodes

/-! ## The router's events -/

/-- Why a run fails. -/
inductive Failure
  /-- The error of an answer. -/
  | answer (message : String)
  /-- A value that a conversion throws on. -/
  | value
  /-- A time that no date has. -/
  | date
  /-- The stored traction is for another router. -/
  | router (stored : String)
  /-- A rebuild would lose events from then on; nothing when there is no event. -/
  | loses (first : Option ℚ)
  /-- The events have no end after so many pages. -/
  | noEnd (pages : ℕ)
deriving DecidableEq, Repr

/-- `Number` of a count. -/
def count : Js → Except Failure ℕ
  | .number q => if q.den = 1 ∧ 0 ≤ q.num then .ok q.num.toNat else .error .value
  | .bigint z => if 0 ≤ z then .ok z.toNat else .error .value
  | _ => .error .value

/-- `BigInt` of a value. -/
def bigInt : Js → Except Failure ℤ
  | .bigint z => .ok z
  | .number q => if q.den = 1 then .ok q.num else .error .value
  | .bool b => .ok (if b then 1 else 0)
  | .string s => (Js.toBigInt s).elim (.error .value) .ok
  | _ => .error .value

/-- `String` of a value. -/
def text (v : Js) : Except Failure String := v.toText.elim (.error .value) .ok

/-- A router event from its decoded topics and body, or nothing for anything else. The router names its
events after the structs, with the user as the second topic. -/
def routerEvent (id : String) (time : ℚ) (topics : List Js) (value : Js) (tx : Option String) :
    Except Failure (Option RouterEvent) :=
  match (topics[1]? : Option Js), value with
  | some (.string user), .object v =>
    let event (body : EventBody) : Option RouterEvent := some ⟨id, time, user, body⟩
    match (topics[0]? : Option Js) with
    | some (.string name) =>
      if name = "autopilot_set" then do
        let autopilotId ← count (Js.field v "autopilot_id")
        let rules ← count (Js.field v "rules")
        return event (.autopilot_set autopilotId rules)
      else if name = "autopilot_cleared" then do
        let autopilotId ← count (Js.field v "autopilot_id")
        return event (.autopilot_cleared autopilotId)
      else if name = "fired" then
        match Js.field v "kind" with
        | .string kind =>
          if own : kind ∉ inherited then do
            let amount ← bigInt (Js.field v "amount")
            return event (.fired ⟨kind, own⟩ amount (tx.filter (· ≠ "")))
          else .error .value
        -- Router v1 emitted `Fired` without a kind, not an autopilot run
        | _ => .ok none
      else if name = "swapped" then do
        let tokenIn ← text (Js.field v "token_in")
        let tokenOut ← text (Js.field v "token_out")
        let amountIn ← bigInt (Js.field v "amount_in")
        let amountOut ← bigInt (Js.field v "amount_out")
        return event (.swapped tokenIn tokenOut amountIn amountOut)
      else .ok none
    | _ => .ok none
  | _, _ => .ok none

/-- The native values of what the router publishes: its topics and its body. -/
def published (address : Address → String) : Router.Event → List Js × Js
  | .fired user autopilotId ruleIndex kind amount fromHub toHub observed =>
    ([.string "fired", .string (address user)], .object
      [("amount", .bigint amount), ("autopilot_id", .number autopilotId),
        ("from_hub", .number fromHub), ("kind", .string kind.name),
        ("observed", .array (observed.map .bigint)), ("rule_index", .number ruleIndex),
        ("to_hub", .number toHub)])
  | .swapped user autopilotId ruleIndex tokenIn tokenOut amountIn amountOut minOut =>
    ([.string "swapped", .string (address user)], .object
      [("amount_in", .bigint amountIn), ("amount_out", .bigint amountOut),
        ("autopilot_id", .number autopilotId), ("min_out", .bigint minOut),
        ("rule_index", .number ruleIndex), ("token_in", .string (address tokenIn)),
        ("token_out", .string (address tokenOut))])
  | .autopilotSet user autopilotId accountId rules =>
    ([.string "autopilot_set", .string (address user)], .object
      [("account_id", .bigint accountId), ("autopilot_id", .number autopilotId),
        ("rules", .number rules)])
  | .autopilotCleared user autopilotId =>
    ([.string "autopilot_cleared", .string (address user)], .object
      [("autopilot_id", .number autopilotId)])

/-- What an event of the router says. -/
def Says (address : Address → String) (tx : Option String) (user : String) (body : EventBody) :
    Router.Event → Prop
  | .fired who _ _ kind amount _ _ _ => user = address who ∧
      ∃ own : kind.name ∉ inherited, body = .fired ⟨kind.name, own⟩ amount (tx.filter (· ≠ ""))
  | .swapped who _ _ tokenIn tokenOut amountIn amountOut _ => user = address who ∧
      body = .swapped (address tokenIn) (address tokenOut) amountIn amountOut
  | .autopilotSet who autopilotId _ rules => user = address who ∧
      body = .autopilot_set autopilotId rules
  | .autopilotCleared who autopilotId => user = address who ∧ body = .autopilot_cleared autopilotId

lemma count_natCast (n : ℕ) : count (.number n) = .ok n := by simp [count]

/-- **Every event of the router** is read as what it says. -/
theorem routerEvent_published (address : Address → String) (id : String) (time : ℚ)
    (tx : Option String) {ev : Router.Event}
    (hown : ∀ kind ∈ firedKinds [ev], kind.name ∉ inherited) :
    ∃ user body, routerEvent id time (published address ev).1 (published address ev).2 tx =
      .ok (some ⟨id, time, user, body⟩) ∧ Says address tx user body ev := by
  cases ev with
  | fired user autopilotId ruleIndex kind amount fromHub toHub observed =>
    have own : kind.name ∉ inherited := hown kind (List.mem_singleton.mpr rfl)
    refine ⟨_, .fired ⟨kind.name, own⟩ amount (tx.filter (· ≠ "")), ?_, rfl, own, rfl⟩
    simp only [routerEvent, published, Js.field, bigInt]
    exact dif_pos own
  | swapped user autopilotId ruleIndex tokenIn tokenOut amountIn amountOut minOut =>
    refine ⟨_, .swapped (address tokenIn) (address tokenOut) amountIn amountOut, ?_, rfl, rfl⟩
    simp [routerEvent, published, Js.field, List.lookup_cons, bigInt, text, Js.toText]
    rfl
  | autopilotSet user autopilotId accountId rules =>
    refine ⟨_, .autopilot_set autopilotId rules, ?_, rfl, rfl⟩
    simp [routerEvent, published, Js.field, List.lookup_cons, count_natCast]
    rfl
  | autopilotCleared user autopilotId =>
    refine ⟨_, .autopilot_cleared autopilotId, ?_, rfl, rfl⟩
    simp [routerEvent, published, Js.field, count_natCast]

/-! ## The snapshot -/

/-- A wallet's live counts, added to those of its group. -/
def LiveCounts.add (c : LiveCounts) (live : Live) : LiveCounts where
  users := if live.autopilots > 0 then c.users + 1 else c.users
  autopilots := c.autopilots + live.autopilots
  rules := c.rules + live.rules

def snapshotOf (s : TractionState) (team : Finset String) (time : ℚ) (ledger : ℕ) :
    TractionSnapshot :=
  s.wallets.foldl (fun out w =>
      match side (groupOf w team) with
      | .organic => { out with organic := out.organic.add w.live }
      | .team => { out with team := out.team.add w.live })
    { time := time, ledger := ledger, organic := ⟨0, 0, 0⟩, team := ⟨0, 0, 0⟩ }

namespace Collector

/-! ## What a run asks for -/

/-- An event as the RPC answers it, its values decoded. -/
structure LogEvent where
  place : Place
  /-- `Date.parse` of the time its ledger closed. -/
  time : ℚ
  topics : List Js
  value : Js
  txHash : String

def LogEvent.read (e : LogEvent) : Except Failure (Option RouterEvent) :=
  routerEvent e.place.text e.time e.topics e.value (some e.txHash)

/-- Where the events are read from. -/
inductive From
  | cursor (cursor : String)
  | startLedger (ledger : ℕ)
deriving DecidableEq, Repr

structure Page where
  events : List LogEvent
  cursor : String
  latestLedger : ℕ

structure Health where
  oldestLedger : Option ℕ
  /-- In seconds. -/
  oldestLedgerCloseTime : Option ℕ
deriving DecidableEq, Repr

/-- A command of the pipeline. -/
inductive StoreCmd
  | sadd (wallets : List String)
  | set (state : TractionState)
  | lpush (snapshot : TractionSnapshot)
  | ltrim (stop : ℤ)

inductive Cmd
  /-- `GET` of the state and `SMEMBERS` of the team. -/
  | state
  | team
  | getHealth
  /-- The router's events, at most `PAGE` at once. -/
  | getEvents (start : From)
  /-- The price of a feed; none when it does not answer. -/
  | readOracle (feed : String)
  | now
  | listUsers
  | listIds (user : String)
  /-- The number of rules of an autopilot; none when its id is unknown. -/
  | readAutopilot (user : String) (id : ℕ)
  | pipeline (commands : List StoreCmd)

@[reducible] def Cmd.Reply : Cmd → Type
  | state => Except String (Option TractionState)
  | team => Except String (Option (List String))
  | getHealth => Except String Health
  | getEvents _ => Except String Page
  | readOracle _ => Option ℚ
  | now => ℚ
  | listUsers => Except String (List String)
  | listIds _ => Except String (List ℕ)
  | readAutopilot _ _ => Except String (Option ℕ)
  | pipeline _ => Except String (List (Option String))

abbrev Run (α : Type) : Type := Thrower Cmd.Reply Failure α

/-- An answer, or its error thrown. -/
def rethrow {α : Type} (r : Except String α) : Except Failure α := r.mapError .answer

def lift {α : Type} (r : Except Failure α) : Run α := ExceptT.mk (.done r)

def ledgerOf (cursor : String) : Except Failure ℤ := (cursorLedger cursor).elim (.error .value) .ok

/-! ## The events -/

/-- A week of ledgers is about 13 windows; this only stops a cursor that never reaches the tip. -/
def MAX_PAGES : ℕ := 5000

/-- What a read of the events brings. -/
structure Read where
  events : List RouterEvent
  cursor : String
  latest : ℕ
  pages : ℕ

/-- The page brings nothing and its cursor has reached the latest ledger. -/
def atTip (res : Page) : Except Failure Bool :=
  if res.events = [] then (ledgerOf res.cursor).map fun ledger => decide ((res.latestLedger : ℤ) ≤ ledger)
  else .ok false

/-- The pages from one on, with `left` more allowed. The RPC scans a bounded stretch of ledgers at a
time and answers short, or empty, while more remain, so a short page proves nothing: the read goes on by
cursor until the tip, or until the cursor stays where it is. -/
def readPages : ℕ → Page → List RouterEvent → Run Read
  | left, res, events => do
    let found ← lift (res.events.mapM LogEvent.read)
    let events := events ++ found.reduceOption
    let ended ← lift (atTip res)
    if ended then return ⟨events, res.cursor, res.latestLedger, MAX_PAGES - left⟩
    else
      match left with
      | 0 => throw (.noEnd MAX_PAGES)
      | left + 1 =>
        let next ← Thrower.ask (.getEvents (.cursor res.cursor)) rethrow
        if next.events = [] ∧ next.cursor = res.cursor then
          return ⟨events, next.cursor, next.latestLedger, MAX_PAGES - left⟩
        else readPages left next events

/-- Every router event after `start` up to the latest ledger. -/
def readEvents (start : From) : Run Read := do
  let res ← Thrower.ask (.getEvents start) rethrow
  readPages (MAX_PAGES - 1) res []

/-- Feeds that a swap's input or output can need a price from. -/
def TRACTION_FEEDS : List String :=
  KNOWN.foldl (fun feeds t => t.feed.elim feeds (pushNew feeds)) []

/-- The price of every feed; one that does not answer is left out. -/
def prices : Run Prices :=
  TRACTION_FEEDS.foldlM (fun out feed => do
    let price ← Thrower.ask (.readOracle feed) .ok
    return Function.update out feed price) fun _ => none

/-! ## The views -/

def PARALLEL : ℕ := 8

/-- The items in some order. -/
def someOrder {α : Type} (xs : List α) : Prog Cmd.Reply (List α) :=
  anyOf (.done xs) (xs.permutations'.map .done)

def setLive (user : String) (live : Live) (m : LiveMap) : LiveMap where
  entries := Grouped.set user live m.entries
  nodup := by
    have hnodup := m.nodup
    rw [Grouped.map_fst_set]
    split_ifs with hmem
    · exact hnodup
    · refine List.nodup_append.mpr ⟨hnodup, List.nodup_singleton user, ?_⟩
      rintro a ha b hb rfl
      exact hmem (List.mem_singleton.mp hb ▸ ha)

/-- The autopilots and rules of a user, from the views. -/
def liveOf (user : String) : Run Live := do
  let ids ← Thrower.ask (.listIds user) rethrow
  let answers ← ids.mapM fun id => Thrower.ask (.readAutopilot user id) rethrow
  let rules := answers.reduceOption
  return ⟨rules.length, rules.sum⟩

/-- The counts that a wallet had. -/
def liveBefore (prev : TractionState) (user : String) : Live :=
  (((indexOf user prev.wallets).bind (prev.wallets[·]?)).map (·.live)).getD ⟨0, 0⟩

/-- Autopilots and rules stored now for every user, in groups that are read at the same time. A wallet
whose views fail keeps its last count. -/
def liveCounts (prev : TractionState) : Run LiveMap := do
  let users ← Thrower.ask .listUsers rethrow
  (Competition.groups users PARALLEL).foldlM (fun live group => do
    let group ← (liftM (someOrder group) : Run (List String))
    group.foldlM (fun live user => do
      let counts ← tryCatch (liveOf user) fun _ => pure (liveBefore prev user)
      return setLive user counts live) live) ⟨[], List.nodup_nil⟩

/-! ## A run -/

structure Options where
  dry : Bool
  rebuild : Bool
deriving DecidableEq, Repr

/-- The oldest ledger that is asked for. -/
def Health.oldest (health : Health) : ℕ := health.oldestLedger.getD 1 + 1

/-- A rebuild starts from nothing: it must not lose events that the RPC keeps no more. -/
def checkRebuild (was : TractionState) (health : Health) : Except Failure Unit :=
  let first := (was.wallets.flatMap fun w => [w.firstSeen, w.lastTrade]).reduceOption.min?
  let closed : ℚ := health.oldestLedgerCloseTime.getD 0 * 1000
  if closed = 0 ∨ first.any (· < closed) then .error (.loses first) else .ok ()

/-- When the history begins, unless it has: where the RPC's memory does, or now. -/
def beginHistory (historyFrom : Option ℚ) (health : Health) : Run ℚ :=
  match historyFrom, health.oldestLedgerCloseTime with
  | some time, _ => pure time
  | none, some closed => pure ((closed : ℚ) * 1000)
  | none, none => Thrower.ask .now .ok

/-- From the oldest ledger that is kept. -/
def fromOldest (state : TractionState) (health : Health) : Run (From × TractionState) := do
  let historyFrom ← beginHistory state.historyFrom health
  return (.startLedger health.oldest, { state with historyFrom := some historyFrom })

/-- From the cursor, where the RPC still keeps its ledger. On the first run, or when there was none for
seven days, from the oldest ledger, with what was missed recorded. -/
def startFrom (prev : TractionState) (health : Health) : Run (From × TractionState) :=
  match prev.cursor.filter (· ≠ "") with
  | none => fromOldest prev health
  | some cursor => do
    let ledger ← lift (ledgerOf cursor)
    if (health.oldest : ℤ) ≤ ledger then return (.cursor cursor, prev)
    else fromOldest { prev with gaps := prev.gaps ++ [(ledger.toNat, health.oldest - 1)] } health

def isSwap (e : RouterEvent) : Bool :=
  match e.body with
  | .swapped _ _ _ _ => true
  | _ => false

/-- The prices that the swaps of a read need. -/
def pricesFor (read : Read) : Run Prices :=
  if read.events.any isSwap then prices else pure fun _ => none

def SNAPSHOT_POINTS : ℤ := 24 * 60

/-- The commands of the pipeline. -/
def commands (team : List String) (state : TractionState) (snapshot : TractionSnapshot) :
    List StoreCmd :=
  let unseeded := TEAM_WALLETS.filter (· ∉ team)
  (if unseeded = [] then [] else [.sadd unseeded]) ++
    [.set state, .lpush snapshot, .ltrim (SNAPSHOT_POINTS - 1)]

/-- The state that a run stores. -/
def next (state : TractionState) (read : Read) (live : LiveMap) (now : ℚ) : TractionState :=
  { applyLive state live with
    cursor := some read.cursor
    toLedger := read.latest
    updatedAt := now }

/-- A run. It reads what the store holds with `exec`: a failed read stops the run, and never looks like
a first run. -/
def run (parse : String → Option ℚ) (router : String) (options : Options) : Run Unit := do
  let stored ← Thrower.ask .state rethrow
  let team ← Thrower.ask .team rethrow
  let team := team.getD []
  let prev := if options.rebuild then emptyTraction router else stored.getD (emptyTraction router)
  if prev.router ≠ router then throw (.router prev.router)
  else
    let health ← Thrower.ask .getHealth rethrow
    lift (if options.rebuild then stored.elim (.ok ()) (checkRebuild · health) else .ok ())
    let (start, state) ← startFrom prev health
    let read ← readEvents start
    let p ← pricesFor read
    let now ← Thrower.ask .now .ok
    let state ← lift ((applyEvents state read.events p now).elim (.error .date) .ok)
    let live ← liveCounts state
    let state := next state read live now
    let snapshot := snapshotOf state team.toFinset now read.latest
    -- the numbers of the run's last line
    lift ((tractionSummary parse state [snapshot] team.toFinset [] now).elim (.error .date)
      fun _ => .ok ())
    if options.dry then return
    else
      Thrower.ask (.pipeline (commands team state snapshot)) fun r => (rethrow r).map fun _ => ()

end Collector

end Koul.Traction
