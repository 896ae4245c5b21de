import Koul.Competition.Scoring
import Koul.Router.Registry

set_option relaxedAutoImplicit false
set_option autoImplicit false

/-!
# The traction state

`packages/core/src/traction.ts` up to `applyLive`: what the router's events add up to, per wallet, per
UTC day and per hour, and the live counts beside it. Numbers are exact, and `Math.round` rounds halves
up.

## Main definitions

* `Koul.Traction.RouterEvent` — an event of the router.
* `Koul.Traction.TractionState` — the state.
* `Koul.Traction.applyEvents` — the state after events.
* `Koul.Traction.applyLive` — the state with the live counts of the views.

## Main results

* `Koul.Traction.walletOf_cases` — the wallet of an event is there or added at the end.
* `Koul.Traction.cents_add` — rounding to cents adds up.
* `Koul.Traction.own_of_fired` — the kinds that the router publishes are not inherited.
-/

namespace Koul.Traction

open Competition (ScoredToken Prices priceOf USDC_TESTNET SWAP_TOKENS)

/-! ## Time -/

def HOUR_MS : ℤ := 3600000

def DAY_MS : ℤ := 24 * HOUR_MS

/-- Hours kept for the rolling 24 h and 7 d trade counts. -/
def HOURS_KEPT : ℤ := 7 * 24 + 1

/-- Year, month and day of the month of a day counted from 1970-01-01. -/
def civil (day : ℤ) : ℤ × ℕ × ℕ :=
  -- years are counted from March, in eras of 400 years
  let z := day + 719468
  let era := z / 146097
  let doe := (z - era * 146097).toNat
  let yoe := (doe - doe / 1460 + doe / 36524 - doe / 146096) / 365
  let doy := doe - (365 * yoe + yoe / 4 - yoe / 100)
  let mp := (5 * doy + 2) / 153
  let month := if mp < 10 then mp + 3 else mp - 9
  (yoe + era * 400 + if month ≤ 2 then 1 else 0, month, doy - (153 * mp + 2) / 5 + 1)

/-- A number in at least `width` digits. -/
def padded (width n : ℕ) : String :=
  let digits := toString n
  "".pushn '0' (width - digits.length) ++ digits

/-- The year of `toISOString`: four digits, or six with a sign. -/
def yearText (year : ℤ) : String :=
  if 0 ≤ year ∧ year ≤ 9999 then padded 4 year.toNat
  else (if year < 0 then "-" else "+") ++ padded 6 year.natAbs

/-- `new Date(ms).toISOString().slice(0, 10)`, which throws on a time no date has. -/
def utcDay (ms : ℚ) : Option String :=
  if |ms| ≤ 8640000000000000 then
    let whole := if 0 ≤ ms then ⌊ms⌋ else ⌈ms⌉
    let date := civil (whole / DAY_MS)
    some (String.ofList ((yearText date.1 ++ "-" ++ padded 2 date.2.1 ++ "-" ++
      padded 2 date.2.2).toList.take 10))
  else none

example : utcDay 1793404799999 = some "2026-10-30" := by decide +kernel

/-- The start of the hour of a time, as a key of the hours. -/
def hourOf (ms : ℚ) : ℤ := ⌊ms / HOUR_MS⌋ * HOUR_MS

/-! ## Events -/

/-- What every object inherits. -/
def inherited : List String :=
  ["__defineGetter__", "__defineSetter__", "__lookupGetter__", "__lookupSetter__", "__proto__",
    "constructor", "hasOwnProperty", "isPrototypeOf", "propertyIsEnumerable", "toLocaleString",
    "toString", "valueOf"]

/-- The kind of a run. None of the router's kinds is a property that every object has, so a kind that
was not counted yet is not in a wallet's `kinds`. -/
structure Kind where
  text : String
  own : text ∉ inherited
deriving DecidableEq, Repr

inductive EventBody
  | autopilot_set (autopilotId : ℕ) (rules : ℕ)
  | autopilot_cleared (autopilotId : ℕ)
  | fired (kind : Kind) (amount : ℤ) (tx : Option String)
  | swapped (tokenIn tokenOut : String) (amountIn amountOut : ℤ)
deriving DecidableEq, Repr

structure RouterEvent where
  id : String
  time : ℚ
  user : String
  body : EventBody
deriving DecidableEq, Repr

/-- The code units of a text, by which texts are compared. -/
def utf16 (s : String) : List ℕ :=
  s.toList.flatMap fun c =>
    if c.toNat < 0x10000 then [c.toNat]
    else [0xd800 + (c.toNat - 0x10000) / 0x400, 0xdc00 + (c.toNat - 0x10000) % 0x400]

/-! ## Prices -/

def KNOWN : List ScoredToken := USDC_TESTNET :: SWAP_TOKENS

def byId (id : String) : Option ScoredToken := KNOWN.find? (·.id = id)

def tokenSymbol (id : String) : String := (byId id).elim id (·.symbol)

/-- An amount of a token in USD at the price when the run reads it; nothing when it has no price. -/
def swapUsd (token : String) (amount : ℤ) (prices : Prices) : Option ℚ :=
  (byId token).bind fun t => (priceOf t prices).map fun price =>
    (amount : ℚ) / 10 ^ t.decimals * price

def cents (n : ℚ) : ℚ := (⌊n * 100 + 1 / 2⌋ : ℚ) / 100

/-- A whole number of cents. -/
def IsCents (v : ℚ) : Prop := ∃ z : ℤ, v = z / 100

lemma isCents_cents (n : ℚ) : IsCents (cents n) := ⟨_, rfl⟩

lemma isCents_zero : IsCents 0 := ⟨0, by norm_num⟩

lemma IsCents.add {u v : ℚ} (hu : IsCents u) (hv : IsCents v) : IsCents (u + v) := by
  obtain ⟨y, rfl⟩ := hu
  obtain ⟨z, rfl⟩ := hv
  exact ⟨y + z, by push_cast; ring⟩

/-- **Rounding adds up**: whole cents come out of it as they are. -/
lemma cents_add {v : ℚ} (hv : IsCents v) (u : ℚ) : cents (v + u) = v + cents u := by
  obtain ⟨z, rfl⟩ := hv
  have harg : ((z : ℚ) / 100 + u) * 100 + 1 / 2 = u * 100 + 1 / 2 + z := by ring
  rw [cents, cents, harg, Int.floor_add_intCast]
  push_cast
  ring

lemma cents_of_isCents {v : ℚ} (hv : IsCents v) : cents v = v := by
  have h := cents_add hv 0
  have hzero : cents 0 = 0 := by
    have hfloor : ⌊(0 : ℚ) * 100 + 1 / 2⌋ = 0 := by norm_num
    rw [cents, hfloor]
    norm_num
  rw [add_zero, hzero, add_zero] at h
  exact h

/-! ## The state -/

/-- Autopilots stored now and their rules. -/
structure Live where
  autopilots : ℕ
  rules : ℕ
deriving DecidableEq, Repr

structure TractionWallet where
  address : String
  /-- First save seen, for a wallet that is not only known from the views. -/
  firstSeen : Option ℚ
  lastTrade : Option ℚ
  /-- Absent before the first trade that names its transaction. -/
  lastTx : Option String
  trades : ℕ
  swaps : ℕ
  volumeUsd : ℚ
  /-- Absent before the first swap. -/
  volumeOutUsd : Option ℚ
  sets : ℕ
  clears : ℕ
  ids : List ℕ
  kinds : List (String × ℕ)
  tokens : List String
  live : Live
deriving DecidableEq, Repr

/-- One wallet's day. -/
structure DayCell where
  fired : ℕ
  swaps : ℕ
  volumeUsd : ℚ
  sets : ℕ
  clears : ℕ
  /-- Absent before the first swap. -/
  volumeOutUsd : Option ℚ
deriving DecidableEq, Repr

structure TractionState where
  router : String
  cursor : Option String
  /-- Id of the last event counted. -/
  lastEventId : Option String
  toLedger : ℕ
  historyFrom : Option ℚ
  gaps : List (ℕ × ℕ)
  wallets : List TractionWallet
  /-- UTC date, wallet index, that wallet's day. -/
  days : List (String × List (ℕ × DayCell))
  /-- Hour start, wallet index, fired that hour. -/
  hours : List (ℤ × List (ℕ × ℕ))
  unpriced : ℕ
  updatedAt : ℚ
deriving DecidableEq, Repr

def emptyTraction (router : String) : TractionState where
  router := router
  cursor := none
  lastEventId := none
  toLedger := 0
  historyFrom := none
  gaps := []
  wallets := []
  days := []
  hours := []
  unpriced := 0
  updatedAt := 0

def newWallet (address : String) : TractionWallet where
  address := address
  firstSeen := none
  lastTrade := none
  lastTx := none
  trades := 0
  swaps := 0
  volumeUsd := 0
  volumeOutUsd := none
  sets := 0
  clears := 0
  ids := []
  kinds := []
  tokens := []
  live := ⟨0, 0⟩

def emptyCell : DayCell := ⟨0, 0, 0, 0, 0, none⟩

/-! ## Counting an event -/

/-- The index of an address; a map from the wallets has the last one with it. -/
def indexOf (address : String) : List TractionWallet → Option ℕ
  | [] => none
  | w :: ws =>
    match indexOf address ws with
    | some i => some (i + 1)
    | none => if w.address = address then some 0 else none

/-- The wallet of an address, which is added when there is none. -/
def walletOf (wallets : List TractionWallet) (address : String) : List TractionWallet × ℕ :=
  match indexOf address wallets with
  | some i => (wallets, i)
  | none => (wallets ++ [newWallet address], wallets.length)

/-- The texts with one more at the end, unless it is among them. -/
def pushNew {α : Type} [DecidableEq α] (xs : List α) (x : α) : List α :=
  if x ∈ xs then xs else xs ++ [x]

/-- What an event adds to its wallet. -/
def countWallet (prices : Prices) (e : RouterEvent) (w : TractionWallet) : TractionWallet :=
  match e.body with
  | .autopilot_set autopilotId _ =>
    { w with
      sets := w.sets + 1
      -- a wallet seen first through its runs still gets its first save
      firstSeen := some (w.firstSeen.elim e.time (min · e.time))
      ids := pushNew w.ids autopilotId }
  | .autopilot_cleared _ => { w with clears := w.clears + 1 }
  | .fired kind _ tx =>
    { w with
      trades := w.trades + 1
      kinds := Grouped.set kind.text ((Grouped.get? kind.text w.kinds).getD 0 + 1) w.kinds
      lastTx := if tx.any (· ≠ "") ∧ w.lastTrade.getD 0 ≤ e.time then tx else w.lastTx
      lastTrade := some (max (w.lastTrade.getD 0) e.time) }
  | .swapped tokenIn tokenOut amountIn amountOut =>
    { w with
      swaps := w.swaps + 1
      volumeUsd := cents (w.volumeUsd + (swapUsd tokenIn amountIn prices).getD 0)
      volumeOutUsd :=
        some (cents (w.volumeOutUsd.getD 0 + (swapUsd tokenOut amountOut prices).getD 0))
      tokens := pushNew (pushNew w.tokens (tokenSymbol tokenIn)) (tokenSymbol tokenOut) }

/-- What it adds to its wallet's day. -/
def countCell (prices : Prices) (e : RouterEvent) (c : DayCell) : DayCell :=
  match e.body with
  | .autopilot_set _ _ => { c with sets := c.sets + 1 }
  | .autopilot_cleared _ => { c with clears := c.clears + 1 }
  | .fired _ _ _ => { c with fired := c.fired + 1 }
  | .swapped tokenIn tokenOut amountIn amountOut =>
    { c with
      swaps := c.swaps + 1
      volumeUsd := cents (c.volumeUsd + (swapUsd tokenIn amountIn prices).getD 0)
      volumeOutUsd :=
        some (cents (c.volumeOutUsd.getD 0 + (swapUsd tokenOut amountOut prices).getD 0)) }

/-- The days with a wallet's cell changed; one that is not there starts empty. -/
def countDay (day : String) (i : ℕ) (f : DayCell → DayCell)
    (days : List (String × List (ℕ × DayCell))) : List (String × List (ℕ × DayCell)) :=
  let cells := (Grouped.get? day days).getD []
  Grouped.set day (Grouped.set i (f ((Grouped.get? i cells).getD emptyCell)) cells) days

/-- The hours with a run of a wallet more. -/
def countHour (hour : ℤ) (i : ℕ) (hours : List (ℤ × List (ℕ × ℕ))) : List (ℤ × List (ℕ × ℕ)) :=
  let runs := (Grouped.get? hour hours).getD []
  Grouped.set hour (Grouped.set i ((Grouped.get? i runs).getD 0 + 1) runs) hours

/-- The hours with what an event of a wallet adds to them. -/
def countHours (e : RouterEvent) (i : ℕ) (hours : List (ℤ × List (ℕ × ℕ))) :
    List (ℤ × List (ℕ × ℕ)) :=
  match e.body with
  | .fired _ _ _ => countHour (hourOf e.time) i hours
  | _ => hours

/-- The swaps without a price with the event. -/
def countUnpriced (prices : Prices) (e : RouterEvent) (unpriced : ℕ) : ℕ :=
  match e.body with
  | .swapped tokenIn _ amountIn _ =>
    if (swapUsd tokenIn amountIn prices).isNone then unpriced + 1 else unpriced
  | _ => unpriced

/-- The event is one that was counted. -/
def counted (s : TractionState) (e : RouterEvent) : Bool :=
  s.lastEventId.any fun last => utf16 e.id ≤ utf16 last

/-- One event; a time that has no date throws. -/
def countEvent (prices : Prices) (s : TractionState) (e : RouterEvent) : Option TractionState :=
  if counted s e then some s
  else
    let found := walletOf s.wallets e.user
    (utcDay e.time).map fun day =>
      { s with
        lastEventId := some e.id
        wallets := found.1.modify found.2 (countWallet prices e)
        days := countDay day found.2 (countCell prices e) s.days
        hours := countHours e found.2 s.hours
        unpriced := countUnpriced prices e s.unpriced }

/-- The state without the hours older than seven days before `now`. -/
def dropHours (now : ℚ) (s : TractionState) : TractionState :=
  let cutoff := now - HOURS_KEPT * HOUR_MS
  { s with hours := s.hours.filter fun h => ¬ (h.1 : ℚ) < cutoff }

/-- The state after events, in ledger order. -/
def applyEvents (prev : TractionState) (events : List RouterEvent) (prices : Prices) (now : ℚ) :
    Option TractionState :=
  (events.foldlM (countEvent prices) prev).map (dropHours now)

/-! ## The live counts -/

/-- A map from addresses to live counts. -/
structure LiveMap where
  entries : List (String × Live)
  nodup : (entries.map Prod.fst).Nodup

/-- Every wallet with its live counts from the views, and a wallet for each address that only the views
know. -/
def applyLive (prev : TractionState) (live : LiveMap) : TractionState :=
  let known := prev.wallets.map (·.address)
  let added := (live.entries.map Prod.fst).filter (· ∉ known)
  { prev with
    wallets := (prev.wallets ++ added.map newWallet).map fun w =>
      { w with live := (Grouped.get? w.address live.entries).getD ⟨0, 0⟩ } }

/-! ## What an event does -/

lemma indexOf_eq_none {address : String} {ws : List TractionWallet} :
    indexOf address ws = none ↔ ∀ w ∈ ws, w.address ≠ address := by
  induction ws with
  | nil => simp [indexOf]
  | cons w ws ih =>
    rw [indexOf, List.forall_mem_cons, ← ih]
    cases indexOf address ws with
    | some i => simp
    | none => by_cases h : w.address = address <;> simp [h]

lemma indexOf_eq_some {address : String} {ws : List TractionWallet} {i : ℕ}
    (h : indexOf address ws = some i) : ∃ w, ws[i]? = some w ∧ w.address = address := by
  induction ws generalizing i with
  | nil => cases h
  | cons w ws ih =>
    rw [indexOf] at h
    cases hws : indexOf address ws with
    | some j =>
      rw [hws] at h
      obtain rfl := Option.some.inj h
      exact ih hws
    | none =>
      simp only [hws, Option.ite_none_right_eq_some] at h
      obtain ⟨haddress, heq⟩ := h
      obtain rfl := Option.some.inj heq
      exact ⟨w, rfl, haddress⟩

/-- **The wallet of an event** is there, or it is added at the end. -/
theorem walletOf_cases (ws : List TractionWallet) (address : String) :
    (∃ i w, walletOf ws address = (ws, i) ∧ ws[i]? = some w ∧ w.address = address) ∨
      walletOf ws address = (ws ++ [newWallet address], ws.length) ∧
        ∀ w ∈ ws, w.address ≠ address := by
  rw [walletOf]
  cases h : indexOf address ws with
  | some i =>
    obtain ⟨w, hw, haddress⟩ := indexOf_eq_some h
    exact .inl ⟨i, w, rfl, hw, haddress⟩
  | none => exact .inr ⟨rfl, indexOf_eq_none.mp h⟩

/-! ## What the router publishes -/

/-- The kinds of the runs among the router's events. -/
def firedKinds (evs : List Router.Event) : List Symbol :=
  evs.filterMap fun
    | .fired _ _ _ kind _ _ _ _ => some kind
    | _ => none

lemma firedKinds_append (evs evs' : List Router.Event) :
    firedKinds (evs ++ evs') = firedKinds evs ++ firedKinds evs' := List.filterMap_append ..

section Published

variable {σ : Type} {x : Router.Contracts σ} {w w' : Router.World σ}

/-- A plan is reported under a kind of its own. -/
lemma own_planned (cfg : Router.Config) (i : ℕ) (p : Router.Plan) :
    (p.planned cfg i).kind.name ∉ inherited := by
  cases p with
  | swap tin tout amount minOut withdrawHub => cases withdrawHub <;> exact of_decide_eq_true rfl
  | _ => exact of_decide_eq_true rfl

/-- A tick publishes at most one run, under its plan's kind. -/
lemma own_of_tick {auth : Bool} {user : Address} {id : ℕ} {route : Option Bytes}
    {done : Option Router.Executed} (h : Router.tick x auth user id route w = .ok (done, w'))
    (hw : ∀ kind ∈ firedKinds w.events, kind.name ∉ inherited) :
    ∀ kind ∈ firedKinds w'.events, kind.name ∉ inherited := by
  obtain ⟨ap, -, ⟨-, hidle⟩ | ⟨i, r, p, ex, -, -, hacts⟩⟩ := Router.tick_cases h
  · rw [hidle.events]
    exact hw
  · obtain ⟨swaps, observed, hev, hswaps⟩ := hacts.events
    have hnone : firedKinds swaps = [] := by
      apply List.filterMap_eq_nil_iff.mpr
      intro ev hmem
      obtain ⟨tin, tout, amount, got, minOut, rfl⟩ := hswaps ev hmem
      rfl
    intro kind hkind
    rw [hev, firedKinds_append, firedKinds_append, hnone, List.append_nil] at hkind
    rcases List.mem_append.mp hkind with hold | hfired
    · exact hw kind hold
    · obtain rfl := List.mem_singleton.mp hfired
      exact own_planned _ i p

/-- **The router's kinds**: in every run of the router, every run of a rule that it publishes is of a
kind that no object inherits.

**Proof sketch.** By the invariant rule for runs. Only a tick publishes a run of a rule, under the kind
of the plan that it ran (`own_of_tick`). -/
theorem own_of_fired (x : Router.Contracts σ) (admin : Address) (cfg : Router.Config)
    (ledger : Ledger) (ext : σ) (ops : List (Router.Op σ)) :
    ∀ kind ∈ firedKinds (Transactional.run (Router.call x)
      (Router.World.init admin cfg ledger ext) ops).events, kind.name ∉ inherited := by
  refine Transactional.run_invariant (Router.call x)
    (P := fun w => ∀ kind ∈ firedKinds w.events, kind.name ∉ inherited) ?_ ?_ ops
  · intro w op w' hw h
    have hadmin : ∀ {auth : Bool} {f : Router.Storage → Router.Storage},
        Router.adminSet auth f w = .ok w' →
        ∀ kind ∈ firedKinds w'.events, kind.name ∉ inherited := by
      intro auth f hset
      obtain rfl := Router.eq_of_adminSet hset
      exact hw
    cases op with
    | setAutopilot auth user id ap =>
      obtain ⟨-, -, -, rfl⟩ := Router.setAutopilot_ok h
      show ∀ kind ∈ firedKinds (w.events ++ [_]), _
      rw [firedKinds_append]
      exact (List.append_nil (firedKinds w.events)).symm ▸ hw
    | clearAutopilot auth user id =>
      obtain ⟨-, -, rfl⟩ := Router.clearAutopilot_ok h
      show ∀ kind ∈ firedKinds (w.events ++ [_]), _
      rw [firedKinds_append]
      exact (List.append_nil (firedKinds w.events)).symm ▸ hw
    | tick auth user id route =>
      simp only [Router.call] at h
      cases htick : Router.tick x auth user id route w with
      | error e => rw [htick] at h; cases h
      | ok d =>
        rw [htick] at h
        cases h
        exact own_of_tick htick hw
    | setOracle auth oracle =>
      simp only [Router.call, Router.setOracle] at h
      exact hadmin h
    | setFeed auth token feed =>
      simp only [Router.call, Router.setFeed] at h
      exact hadmin h
    | setAggregator auth aggregator =>
      simp only [Router.call, Router.setAggregator] at h
      exact hadmin h
    | setPolicy auth policy =>
      simp only [Router.call, Router.setPolicy] at h
      exact hadmin h
    | elsewhere ledger ext =>
      cases h
      exact hw
  · intro kind hkind
    exact absurd hkind List.not_mem_nil

end Published

end Koul.Traction
