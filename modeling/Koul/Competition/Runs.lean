import Koul.Competition.Indexer

set_option relaxedAutoImplicit false
set_option autoImplicit false

/-!
# Runs of the indexer

`loadEntries` and `run` of `keeper/scripts/competition.ts`, over what the process keeps between runs
and what the store holds. A run is a list of effects, each done or not done as a whole; a run that
fails has done some first effects of it. A process that restarts has nothing kept.

## Main definitions

* `Koul.Competition.Indexer.Memory`, `Koul.Competition.Indexer.Store` — what is kept, what is stored.
* `Koul.Competition.Indexer.run` — the effects of a run.
* `Koul.Competition.Indexer.step` — a run that stops somewhere, a restart, or a registration.

## Main results

* `Koul.Competition.Indexer.totals_of_apply`, `Koul.Competition.Indexer.states_of_apply` — where the
  totals come from, effect by effect.
-/

namespace Koul.Competition.Indexer

/-! ## The process and the store -/

/-- Verified records, each entry's state after its last finished run, and its last score. -/
structure Memory where
  records : String → Option EntrantRecord
  states : String → Option EntryState
  lastScores : String → Option EntrantScore
  lastConfig : Option String

def Memory.empty : Memory := ⟨fun _ => none, fun _ => none, fun _ => none, none⟩

/-- The store's keys of the competition. The settings are their text, the strings what they hold. -/
structure Store where
  config : Option String
  entrants : List String
  entrant : String → Option EntrantRecord
  totals : String → Option EntryState
  score : String → Option EntrantScore
  lists : ListKey → List ListItem
  board : Option (List LeaderboardRow)
  updatedAt : Option ℤ

structure Process where
  memory : Memory
  store : Store

/-- What a run reads from the chain. -/
structure RunReads where
  latestLedger : ℤ
  oldestLedger : Option ℤ
  /-- How far the RPC has come past `latestLedger` when it is asked for events. -/
  later : ℕ
  /-- Price and decimals by feed; `none` for a read that fails or finds nothing. -/
  readOracle : String → Option (ℤ × ℕ)
  /-- The wasm hash of a contract, as cached; `none` for a built-in one or a read that failed. -/
  wasmHash : String → Option String
  /-- The balances of built-in tokens; nothing when the read failed. -/
  sac : String → Option ℤ
  started : ℤ
  finished : ℤ
  entry : String → Reads

/-! ## Effects -/

/-- A key and its value, as one MSET writes it. -/
inductive Pair
  | score (wallet : String) (score : EntrantScore)
  | totals (wallet : String) (state : EntryState)
  | board (rows : List LeaderboardRow)
  | updatedAt (time : ℤ)

/-- What the scripts use from elsewhere: the parser of the settings, and the bytes of the JSON text of
a command and of a pair's value. -/
structure Setup extends Env where
  parseConfig : String → Option CompetitionConfig
  commandBytes : Command → ℕ
  valueBytes : Pair → ℕ

/-- The key of a pair. -/
def Pair.key : Pair → String
  | .score wallet _ => "koul:comp:score:" ++ wallet
  | .totals wallet _ => "koul:comp:totals:" ++ wallet
  | .board _ => "koul:comp:board"
  | .updatedAt _ => "koul:comp:updated"

/-- Key-value pairs in groups that each fit one MSET request. -/
def chunkPairs (setup : Setup) (pairs : List Pair) : List (List Pair) :=
  chunkBySize pairs (fun pair => pair.key.utf8ByteSize + setup.valueBytes pair + 6)
    REQUEST_MAX_BYTES

/-- What a run does at once. -/
inductive Effect
  | clear (rawConfig : String)
  | forget (wallets : List String)
  | load (wallets : List String)
  | push (c : Command)
  | keep (done : List EntryRun)
  | mset (pairs : List Pair)

/-- A value put at a key. -/
def put {V : Type} (key : String) (v : V) (m : String → Option V) : String → Option V :=
  fun k => if k = key then some v else m k

/-- `LTRIM`: the items from one index to another, negative ones from the end. -/
def ltrim (start stop : ℤ) (l : List ListItem) : List ListItem :=
  let lo := if start < 0 then max 0 (l.length + start) else start
  let hi := if stop < 0 then l.length + stop else stop
  (l.drop lo.toNat).take (hi + 1 - lo).toNat

def execList (lists : ListKey → List ListItem) (c : Command) : ListKey → List ListItem :=
  match c with
  | .lpush key items => fun k => if k = key then items.reverse ++ lists k else lists k
  | .rpush key item => fun k => if k = key then lists k ++ [item] else lists k
  | .ltrim key start stop => fun k => if k = key then ltrim start stop (lists k) else lists k

/-- The memory with an entry's finished run kept. -/
def Memory.keep (m : Memory) (d : EntryRun) : Memory :=
  { m with
    states := put d.score.wallet d.state m.states
    lastScores := put d.score.wallet d.score m.lastScores }

def Store.set (s : Store) : Pair → Store
  | .score wallet score => { s with score := put wallet score s.score }
  | .totals wallet state => { s with totals := put wallet state s.totals }
  | .board rows => { s with board := some rows }
  | .updatedAt time => { s with updatedAt := some time }

/-- A record that is there and verified. -/
def Store.verified (s : Store) (wallet : String) : Bool := (s.entrant wallet).any (·.verified)

/-- `loadEntries`: records and stored totals of wallets the process has not seen yet. A record that is
not there or not verified yet is asked for again next run. -/
def loadEntries (wallets : List String) (p : Process) : Memory :=
  { p.memory with
    records := fun w =>
      if w ∈ wallets ∧ p.store.verified w then p.store.entrant w else p.memory.records w
    states := fun w =>
      if w ∈ wallets ∧ p.store.verified w then
        match p.store.totals w with
        | some state => some state
        | none => p.memory.states w
      else p.memory.states w }

def Effect.apply (p : Process) : Effect → Process
  | .clear rawConfig => { p with memory := { Memory.empty with lastConfig := some rawConfig } }
  | .forget wallets => { p with memory := { p.memory with
      records := fun w => if w ∈ wallets then p.memory.records w else none
      states := fun w =>
        if w ∉ wallets ∧ (p.memory.records w).isSome then none else p.memory.states w
      lastScores := fun w =>
        if w ∉ wallets ∧ (p.memory.records w).isSome then none else p.memory.lastScores w } }
  | .load wallets => { p with memory := loadEntries wallets p }
  | .push c => { p with store := { p.store with lists := execList p.store.lists c } }
  | .keep done => { p with memory := done.foldl Memory.keep p.memory }
  | .mset pairs => { p with store := pairs.foldl Store.set p.store }

/-! ## A run -/

/-- The scored tokens: all but those the settings leave out. -/
def tokensOf (config : CompetitionConfig) : List ScoredToken :=
  ALL_TOKENS.filter fun t => t.symbol ∉ config.excludeTokens

/-- The Reflector prices of the scored tokens' feeds. -/
def pricesOf (r : RunReads) (tokens : List ScoredToken) : Prices := fun feed =>
  if tokens.any (·.feed = some feed) then (r.readOracle feed).map fun p => units p.1 p.2 else none

/-- The settings in the store. -/
def settings (setup : Setup) (p : Process) : Option (String × CompetitionConfig) :=
  p.store.config.bind fun raw => (setup.parseConfig raw).map fun config => (raw, config)

/-- New settings clear what is kept; wallets no longer in the set are dropped from it. -/
def opening (raw : String) (p : Process) : List Effect :=
  (if p.memory.lastConfig = some raw then [] else [.clear raw]) ++ [.forget p.store.entrants]

def applyAll (es : List Effect) (p : Process) : Process := es.foldl Effect.apply p

/-- The effects up to the reading of the entries. -/
def loading (raw : String) (p : Process) : List Effect :=
  opening raw p ++ [.load (p.store.entrants.filter fun w =>
    ((applyAll (opening raw p) p).memory.records w).isNone)]

/-- The process once the entries are read. -/
def loaded (raw : String) (p : Process) : Process := applyAll (loading raw p) p

def entriesOf (raw : String) (p : Process) : List EntrantRecord :=
  p.store.entrants.filterMap (loaded raw p).memory.records

/-- A counterparty that is another smart wallet: its wasm is that of an entrant's wallet. -/
def isWallet (r : RunReads) (entries : List EntrantRecord) (c : String) : Bool :=
  ((if startsWith c 'C' then r.wasmHash c else none).getD "") ∈
    entries.filterMap fun rec => r.wasmHash rec.wallet

def runArgs (r : RunReads) (config : CompetitionConfig) (entries : List EntrantRecord) :
    RunArgs where
  config := config
  tokens := tokensOf config
  latest := r.latestLedger
  oldest := r.oldestLedger.getD 1 + 1
  prices := pricesOf r (tokensOf config)
  isWallet := isWallet r entries
  sac := r.sac
  sacTokens := ((tokensOf config).filter fun t => (r.wasmHash t.id).isNone).map (·.id)
  runAt := r.started
  historyEvery := historyEveryMs entries.length

/-- What the RPC holds when it is asked for events. -/
def RunReads.held (r : RunReads) (log : List Event) : List Event :=
  log.filter (Event.within (r.oldestLedger.getD 1) (r.latestLedger + r.later))

/-- The basket's tokens without a price. -/
def missing (config : CompetitionConfig) (prices : Prices) : List String :=
  ((tokensOf config).filter fun t => match t.feed with
    | none => false
    | some feed =>
      (Grouped.get? t.symbol (config.startingBasket.getD [])).getD 0 ≠ 0 && (prices feed).isNone).map
    (·.symbol)

/-- The entries' runs that did not fail. -/
def indexEntries (setup : Setup) (log : List Event) (r : RunReads) (raw : String)
    (config : CompetitionConfig) (p : Process) : List EntryRun :=
  (entriesOf raw p).filterMap fun rec =>
    indexEntry setup.toEnv (r.held log) (runArgs r config (entriesOf raw p)) (r.entry rec.wallet) rec
      ((loaded raw p).memory.states rec.wallet)

def boardOf (scores : List EntrantScore) : List LeaderboardRow :=
  (rank (fun s : EntrantScore => s.returnPct) (fun s => s.flagged) scores).map fun s => {
    rank := s.2
    handle := s.1.handle
    wallet := s.1.wallet
    valueUsd := s.1.valueUsd
    pnlUsd := s.1.pnlUsd
    returnPct := s.1.returnPct
    flagged := s.1.flagged }

/-- The runs' scores, every kept totals, and the board. -/
def pairsOf (r : RunReads) (entries : List EntrantRecord) (done : List EntryRun) (m : Memory) :
    List Pair :=
  done.map (fun d => .score d.score.wallet d.score) ++
    entries.filterMap (fun rec => (m.states rec.wallet).map (.totals rec.wallet)) ++
    [.board (boardOf (entries.filterMap fun rec => m.lastScores rec.wallet)), .updatedAt r.finished]

/-- The effects of the writes: the list pushes first; once they are in, the new states are kept; then
the MSETs. -/
def writes (setup : Setup) (r : RunReads) (entries : List EntrantRecord) (done : List EntryRun)
    (m : Memory) : List Effect :=
  (chunkBySize (done.flatMap (·.lists)) setup.commandBytes REQUEST_MAX_BYTES).flatMap
      (fun batch => batch.map .push) ++
    .keep done :: (chunkPairs setup (pairsOf r entries done (done.foldl Memory.keep m))).map .mset

/-- The effects of a run. -/
def run (setup : Setup) (log : List Event) (r : RunReads) (p : Process) : List Effect :=
  match settings setup p with
  | none => []
  | some (raw, config) =>
    if p.store.entrants = [] ∨ r.latestLedger < config.startLedger then opening raw p
    else if missing config (pricesOf r (tokensOf config)) ≠ [] then loading raw p
    else
      loading raw p ++ writes setup r (entriesOf raw p) (indexEntries setup log r raw config p)
        (loaded raw p).memory

/-! ## Steps -/

/-- A run that stops after some of its effects, a restart, or what the organiser and the register
routes write. -/
inductive Act
  | run (r : RunReads) (stop : ℕ)
  | restart
  | register (config : Option String) (entrants : List String)
      (entrant : String → Option EntrantRecord)

def step (setup : Setup) (log : List Event) (p : Process) : Act → Process
  | .run r stop => applyAll ((run setup log r p).take stop) p
  | .restart => { p with memory := Memory.empty }
  | .register config entrants entrant =>
    { p with store := { p.store with config := config, entrants := entrants, entrant := entrant } }

end Koul.Competition.Indexer
