import Koul.Traction.State

set_option relaxedAutoImplicit false
set_option autoImplicit false

/-!
# The traction summary

`tractionSummary` of `packages/core/src/traction.ts`: everything the page shows, split into organic
wallets and the team's with the team set of the moment.

## Main definitions

* `Koul.Traction.groupOf` — the group of a wallet.
* `Koul.Traction.summaryCounts` — the counts of all wallets, the organic ones and the team's.
* `Koul.Traction.tractionSummary` — the summary.

## Main results

* `Koul.Traction.splits_summaryCounts` — every additive count of all wallets is that of the organic
  ones and that of the team together, where the volumes are whole cents.
* `Koul.Traction.counts_of_tractionSummary` — the summary's counts are these.
-/

namespace Koul.Traction

/-! ## Groups -/

/-- The team's own bots, always team whether or not the set has them yet. -/
def TEAM_WALLETS : List String :=
  ["CAVKIFUHM6AOSVEGTSG2V7KEOMDH2Q54F4IAY6ZEKRIDJZ7BBV3PYSBG",
    "CALZD4CAUC2QVPL274YPHPCUYX676C3YIE3ERNDEUTKTOYQ5EAJ65E5J",
    "CAHJNL2VE5S7G5KXOB4666W33YPUOZKIK7GERXVBQY7CWX5Z6XFULVVH"]

/-- 2026-10-28, 14:00 UTC. -/
def LOAD_TEST_FROM : ℚ := 1793196000000

/-- 2026-10-28, 16:00 UTC. -/
def LOAD_TEST_TO : ℚ := 1793203200000

def LOAD_TEST_TOKENS : List String := ["USDC", "ETH"]

inductive TractionGroup
  | organic | team | loadtest
deriving DecidableEq, Repr

/-- The load test's pattern: first save inside its window, and only swaps of its tokens ever run. -/
def isLoadTest (w : TractionWallet) : Bool :=
  w.firstSeen.any (fun t => LOAD_TEST_FROM ≤ t ∧ t < LOAD_TEST_TO) && decide (0 < w.trades) &&
    w.kinds.all (fun k => k.1 = "swap") && w.tokens.all (· ∈ LOAD_TEST_TOKENS)

/-- Team when tagged (or one of the bots), load test when it matches the pattern, organic otherwise. -/
def groupOf (w : TractionWallet) (team : Finset String) : TractionGroup :=
  if w.address ∈ team ∨ w.address ∈ TEAM_WALLETS then .team
  else if isLoadTest w then .loadtest else .organic

inductive Side
  | organic | team
deriving DecidableEq, Repr

/-- Organic, or everyone else. -/
def side : TractionGroup → Side
  | .organic => .organic
  | .team | .loadtest => .team

/-! ## Counts -/

/-- A value for all wallets and for each side. -/
structure Split (α : Type) where
  all : α
  organic : α
  team : α

/-- A change of all wallets' value and of one side's. -/
def Split.update {α : Type} (k : Side) (f : α → α) (c : Split α) : Split α :=
  match k with
  | .organic => { c with organic := f c.organic, all := f c.all }
  | .team => { c with team := f c.team, all := f c.all }

def Split.map {α β : Type} (f : α → β) (c : Split α) : Split β := ⟨f c.all, f c.organic, f c.team⟩

structure TractionCounts where
  users : ℕ
  autopilots : ℕ
  rules : ℕ
  usersEver : ℕ
  trades24h : ℕ
  trades7d : ℕ
  trades : ℕ
  swaps : ℕ
  volumeUsd : ℚ
  volumeOutUsd : ℚ
  tradesPerAutopilot : Option ℚ
  created : ℕ
  kinds : List (String × ℕ)
deriving DecidableEq, Repr

/-- The counts of a side while they are made, and the autopilots it ever saved. -/
structure Counting where
  counts : TractionCounts
  autopilotsEver : ℕ

def zeroCounts : TractionCounts := ⟨0, 0, 0, 0, 0, 0, 0, 0, 0, 0, none, 0, []⟩

/-- A wallet's runs of every kind. -/
def addKinds (kinds : List (String × ℕ)) (w : TractionWallet) : List (String × ℕ) :=
  w.kinds.foldl (fun kinds k => Grouped.set k.1 ((Grouped.get? k.1 kinds).getD 0 + k.2) kinds) kinds

/-- A wallet of the side. -/
def addWallet (w : TractionWallet) (c : Counting) : Counting where
  counts :=
    { c.counts with
      users := if w.live.autopilots > 0 then c.counts.users + 1 else c.counts.users
      autopilots := c.counts.autopilots + w.live.autopilots
      rules := c.counts.rules + w.live.rules
      usersEver :=
        if w.firstSeen.isSome ∨ w.sets > 0 then c.counts.usersEver + 1 else c.counts.usersEver
      trades := c.counts.trades + w.trades
      swaps := c.counts.swaps + w.swaps
      volumeUsd := c.counts.volumeUsd + w.volumeUsd
      volumeOutUsd := c.counts.volumeOutUsd + w.volumeOutUsd.getD 0
      kinds := addKinds c.counts.kinds w }
  autopilotsEver := c.autopilotsEver + w.ids.length

/-- The runs of a wallet of the side in an hour of some age. An hour counts when it ends inside the
window. -/
def addHour (age : ℚ) (n : ℕ) (c : Counting) : Counting :=
  { c with counts :=
      { c.counts with
        trades24h := if age < DAY_MS then c.counts.trades24h + n else c.counts.trades24h
        trades7d := if age < 7 * DAY_MS then c.counts.trades7d + n else c.counts.trades7d } }

/-- The counts with their volumes rounded and the runs for each autopilot. -/
def finish (c : Counting) : TractionCounts :=
  { c.counts with
    volumeUsd := cents c.counts.volumeUsd
    volumeOutUsd := cents c.counts.volumeOutUsd
    tradesPerAutopilot :=
      if c.autopilotsEver = 0 then none else some (c.counts.trades / c.autopilotsEver) }

def walletCounts (wallets : List TractionWallet) (groups : List TractionGroup) : Split Counting :=
  (wallets.zip groups).foldl (fun c wg => c.update (side wg.2) (addWallet wg.1))
    ⟨⟨zeroCounts, 0⟩, ⟨zeroCounts, 0⟩, ⟨zeroCounts, 0⟩⟩

def hourCounts (hours : List (ℤ × List (ℕ × ℕ))) (groups : List TractionGroup) (now : ℚ)
    (c : Split Counting) : Split Counting :=
  hours.foldl (fun c h => h.2.foldl (fun c run =>
    c.update (side ((groups[run.1]?).getD .organic)) (addHour (now - h.1) run.2)) c) c

/-- The side of a wallet that was created, whether or not it is known. -/
def createdSide (s : TractionState) (groups : List TractionGroup) (team : Finset String)
    (address : String) : Side :=
  match indexOf address s.wallets with
  | some i => side ((groups[i]?).getD .organic)
  | none => if address ∈ team ∨ address ∈ TEAM_WALLETS then .team else .organic

def createdCounts (s : TractionState) (groups : List TractionGroup) (team : Finset String)
    (created : List (String × ℚ)) (c : Split TractionCounts) : Split TractionCounts :=
  created.foldl (fun c p => c.update (createdSide s groups team p.1)
    fun counts => { counts with created := counts.created + 1 }) c

/-- The counts of all wallets and of each side. -/
def summaryCounts (s : TractionState) (team : Finset String) (created : List (String × ℚ))
    (now : ℚ) : Split TractionCounts :=
  let groups := s.wallets.map (groupOf · team)
  createdCounts s groups team created
    ((hourCounts s.hours groups now (walletCounts s.wallets groups)).map finish)

/-! ## The summary -/

structure LiveCounts where
  users : ℕ
  autopilots : ℕ
  rules : ℕ

structure TractionSnapshot where
  time : ℚ
  ledger : ℕ
  organic : LiveCounts
  team : LiveCounts

structure TractionDay where
  day : String
  time : ℚ
  newUsers : ℕ
  cumulativeUsers : ℕ
  trades : ℕ
  swaps : ℕ
  volumeUsd : ℚ
  volumeOutUsd : ℚ
  active : ℕ
  sets : ℕ
  clears : ℕ

structure TractionRow where
  address : String
  group : TractionGroup
  firstSeen : Option ℚ
  lastTrade : Option ℚ
  lastTx : Option String
  trades : ℕ
  swaps : ℕ
  volumeUsd : ℚ
  volumeOutUsd : ℚ
  autopilots : ℕ
  rules : ℕ
  tokens : List String

structure Funnel where
  since : Option ℚ
  created : ℕ
  withAutopilot : ℕ
  traded : ℕ

structure Series where
  organic : List TractionDay
  all : List TractionDay
  noLoadTest : List TractionDay

structure TractionSummary where
  updatedAt : ℚ
  toLedger : ℕ
  historyFrom : Option ℚ
  gaps : List (ℕ × ℕ)
  unpriced : ℕ
  all : TractionCounts
  organic : TractionCounts
  team : TractionCounts
  days : Series
  live : List TractionSnapshot
  funnel : Funnel
  wallets : List TractionRow
  loadTest : ℕ
  loadTestLive : ℕ

/-- The first text in the order of their code units. -/
def firstText : List String → Option String
  | [] => none
  | t :: ts => some (ts.foldl (fun first t => if utf16 t < utf16 first then t else first) t)

/-- The first day with an event, or the history's first day when there is none yet. -/
def firstDay (s : TractionState) : Option (Option String) :=
  match firstText (s.days.map Prod.fst) with
  | some day => some (some day)
  | none =>
    match s.historyFrom with
    | none => some none
    | some t => (utcDay t).map some

/-- The wallets whose first save is on each day, and how many have none in the history. -/
def newBy (s : TractionState) (groups : List TractionGroup) (keep : Option TractionGroup → Bool) :
    Option (List (String × ℕ) × ℕ) :=
  (s.wallets.zip groups).foldlM (fun acc wg =>
    if keep (some wg.2) then
      match wg.1.firstSeen with
      | none =>
        some (acc.1, if wg.1.sets > 0 ∨ wg.1.live.autopilots > 0 then acc.2 + 1 else acc.2)
      | some t => (utcDay t).map fun d =>
        (Grouped.set d ((Grouped.get? d acc.1).getD 0 + 1) acc.1, acc.2)
    else some acc) ([], 0)

/-- A wallet's cell in a day's row. -/
def addCell (row : TractionDay) (c : DayCell) : TractionDay :=
  { row with
    trades := row.trades + c.fired
    swaps := row.swaps + c.swaps
    volumeUsd := row.volumeUsd + c.volumeUsd
    sets := row.sets + c.sets
    clears := row.clears + c.clears
    volumeOutUsd := row.volumeOutUsd + c.volumeOutUsd.getD 0
    active := if c.fired > 0 then row.active + 1 else row.active }

/-- The row of a day, with the users until then. -/
def dayRow (s : TractionState) (groups : List TractionGroup) (keep : Option TractionGroup → Bool)
    (news : List (String × ℕ)) (day : String) (time : ℚ) (total : ℕ) : TractionDay :=
  let newUsers := (Grouped.get? day news).getD 0
  let cells := ((Grouped.get? day s.days).getD []).filter fun c => keep groups[c.1]?
  let row := (cells.map Prod.snd).foldl addCell
    ⟨day, time, newUsers, total + newUsers, 0, 0, 0, 0, 0, 0, 0⟩
  { row with volumeUsd := cents row.volumeUsd, volumeOutUsd := cents row.volumeOutUsd }

/-- Every UTC day from the first to `now`; `parse` is `Date.parse`, which may find no date. -/
def series (parse : String → Option ℚ) (s : TractionState) (groups : List TractionGroup)
    (now : ℚ) (keep : Option TractionGroup → Bool) : Option (List TractionDay) := do
  match ← firstDay s with
  | none => return []
  | some first =>
    let news ← newBy s groups keep
    match parse (first ++ "T00:00:00Z") with
    | none => return []
    | some start =>
      let steps := if now < start then 0 else (⌊(now - start) / DAY_MS⌋ + 1).toNat
      let rows ← (List.range steps).foldlM (fun (acc : List TractionDay × ℕ) (k : ℕ) => do
        let time := start + k * DAY_MS
        let row := dayRow s groups keep news.1 (← utcDay time) time acc.2
        return (acc.1 ++ [row], row.cumulativeUsers)) ([], news.2)
      return rows.1

/-- The last snapshot of each UTC day, oldest first. -/
def lastOfDay (snapshots : List TractionSnapshot) : Option (List TractionSnapshot) := do
  let sorted := snapshots.mergeSort fun a b => decide (a.time ≤ b.time)
  let kept ← sorted.foldlM (fun kept p => (utcDay p.time).map fun d => Grouped.set d p kept) []
  return kept.map Prod.snd

/-- Created, then saved an autopilot, then traded. -/
def funnelOf (s : TractionState) (created : List (String × ℚ)) : Funnel :=
  let known := created.map fun p => (indexOf p.1 s.wallets).bind fun i => s.wallets[i]?
  { since := (created.map Prod.snd).min?
    created := created.length
    withAutopilot := known.countP fun w => w.any fun w => w.sets > 0 ∨ w.live.autopilots > 0
    traded := known.countP fun w => w.any fun w => w.trades > 0 }

/-- By runs, then by volume, then by first save. -/
def rowBefore (a b : TractionRow) : Bool :=
  if a.trades ≠ b.trades then b.trades < a.trades
  else if a.volumeUsd ≠ b.volumeUsd then b.volumeUsd < a.volumeUsd
  else a.firstSeen.getD 0 ≤ b.firstSeen.getD 0

def rows (s : TractionState) (groups : List TractionGroup) : List TractionRow :=
  ((s.wallets.zip groups).map fun wg =>
    { address := wg.1.address
      group := wg.2
      firstSeen := wg.1.firstSeen
      lastTrade := wg.1.lastTrade
      lastTx := wg.1.lastTx
      trades := wg.1.trades
      swaps := wg.1.swaps
      volumeUsd := wg.1.volumeUsd
      volumeOutUsd := wg.1.volumeOutUsd.getD 0
      autopilots := wg.1.live.autopilots
      rules := wg.1.live.rules
      tokens := wg.1.tokens : TractionRow }).mergeSort rowBefore

/-- Everything the page shows; a time that has no date throws. -/
def tractionSummary (parse : String → Option ℚ) (s : TractionState)
    (snapshots : List TractionSnapshot) (team : Finset String) (created : List (String × ℚ))
    (now : ℚ) : Option TractionSummary := do
  let groups := s.wallets.map (groupOf · team)
  let counts := summaryCounts s team created now
  let live ← lastOfDay snapshots
  let organic ← series parse s groups now fun g => g = some .organic
  let all ← series parse s groups now fun _ => true
  let noLoadTest ← series parse s groups now fun g => g ≠ some .loadtest
  return {
    updatedAt := s.updatedAt
    toLedger := s.toLedger
    historyFrom := s.historyFrom
    gaps := s.gaps
    unpriced := s.unpriced
    all := counts.all
    organic := counts.organic
    team := counts.team
    days := ⟨organic, all, noLoadTest⟩
    live := live
    funnel := funnelOf s created
    wallets := rows s groups
    loadTest := groups.countP (· = .loadtest)
    loadTestLive := (((s.wallets.zip groups).filter (·.2 = .loadtest)).map
      (·.1.live.autopilots)).sum }

/-- **The summary's counts**: the days and the snapshots do not change them. -/
lemma counts_of_tractionSummary {parse : String → Option ℚ} {s : TractionState}
    {snapshots : List TractionSnapshot} {team : Finset String} {created : List (String × ℚ)}
    {now : ℚ} {t : TractionSummary}
    (h : tractionSummary parse s snapshots team created now = some t) :
    (⟨t.all, t.organic, t.team⟩ : Split TractionCounts) = summaryCounts s team created now := by
  simp only [tractionSummary, Option.bind_eq_bind, Option.bind_eq_some_iff] at h
  obtain ⟨live, -, organic, -, all, -, noLoadTest, -, h⟩ := h
  obtain rfl := Option.some.inj h
  rfl

/-! ## The two sides are all wallets -/

section Split

variable {α M : Type} [AddCommMonoid M]

/-- A change adds the same to what every value is worth. -/
def Shifts (v : α → M) (f : α → α) : Prop := ∃ d, ∀ a, v (f a) = v a + d

/-- All wallets are worth what the two sides are. -/
def Split.Adds (v : α → M) (c : Split α) : Prop := v c.all = v c.organic + v c.team

lemma Split.Adds.update {v : α → M} {f : α → α} (hf : Shifts v f) (k : Side) {c : Split α}
    (hc : c.Adds v) : (c.update k f).Adds v := by
  obtain ⟨d, hd⟩ := hf
  cases k with
  | organic =>
    show v (f c.all) = v (f c.organic) + v c.team
    rw [hd, hd, hc]
    exact add_right_comm _ _ _
  | team =>
    show v (f c.all) = v c.organic + v (f c.team)
    rw [hd, hd, hc]
    exact add_assoc _ _ _

/-- A property of all three. -/
def Split.Holds (P : α → Prop) (c : Split α) : Prop := P c.all ∧ P c.organic ∧ P c.team

lemma Split.Holds.update {P : α → Prop} {f : α → α} (hf : ∀ a, P a → P (f a)) (k : Side)
    {c : Split α} (hc : c.Holds P) : (c.update k f).Holds P := by
  obtain ⟨hall, horganic, hteam⟩ := hc
  cases k with
  | organic => exact ⟨hf _ hall, hf _ horganic, hteam⟩
  | team => exact ⟨hf _ hall, horganic, hf _ hteam⟩

end Split

/-- The additive counts, with the runs of one kind. -/
def additive (kind : String) (c : TractionCounts) :
    ℕ × ℕ × ℕ × ℕ × ℕ × ℕ × ℕ × ℕ × ℕ × ℕ × ℚ × ℚ :=
  (c.users, c.autopilots, c.rules, c.usersEver, c.trades24h, c.trades7d, c.trades, c.swaps,
    c.created, (Grouped.get? kind c.kinds).getD 0, c.volumeUsd, c.volumeOutUsd)

lemma additive_zeroCounts (kind : String) : additive kind zeroCounts = 0 := rfl

/-- A wallet's runs of a kind are added to those there are. -/
lemma get?_addKinds (kind : String) (kinds : List (String × ℕ)) (w : TractionWallet) :
    (Grouped.get? kind (addKinds kinds w)).getD 0 = (Grouped.get? kind kinds).getD 0 +
      (w.kinds.map fun k => if k.1 = kind then k.2 else 0).sum := by
  refine @Grouped.read_foldl _ _ _ _ _ (fun kinds => (Grouped.get? kind kinds).getD 0) _ ?_ _ _
  intro kinds k
  rw [Grouped.get?_set]
  by_cases h : kind = k.1
  · rw [if_pos h, if_pos h.symm, Option.getD_some, h]
  · rw [if_neg h, if_neg fun heq => h heq.symm, add_zero]

lemma shifts_addWallet (kind : String) (w : TractionWallet) :
    Shifts (fun c : Counting => additive kind c.counts) (addWallet w) := by
  refine ⟨(if w.live.autopilots > 0 then 1 else 0, w.live.autopilots, w.live.rules,
    if w.firstSeen.isSome ∨ w.sets > 0 then 1 else 0, 0, 0, w.trades, w.swaps, 0,
    (w.kinds.map fun k => if k.1 = kind then k.2 else 0).sum, w.volumeUsd,
    w.volumeOutUsd.getD 0), fun c => ?_⟩
  simp only [additive, addWallet, get?_addKinds, Prod.mk_add_mk, add_zero]
  split <;> split <;> rfl

lemma shifts_addHour (kind : String) (age : ℚ) (n : ℕ) :
    Shifts (fun c : Counting => additive kind c.counts) (addHour age n) := by
  refine ⟨(0, 0, 0, 0, if age < DAY_MS then n else 0, if age < 7 * DAY_MS then n else 0, 0, 0, 0,
    0, 0, 0), fun c => ?_⟩
  simp only [additive, addHour, Prod.mk_add_mk, add_zero]
  split <;> split <;> rfl

/-- The volumes are whole cents. -/
def WholeCents (c : TractionCounts) : Prop := IsCents c.volumeUsd ∧ IsCents c.volumeOutUsd

/-- Whole cents are rounded to themselves. -/
lemma additive_finish (kind : String) {c : Counting} (h : WholeCents c.counts) :
    additive kind (finish c) = additive kind c.counts := by
  rw [additive, finish, cents_of_isCents h.1, cents_of_isCents h.2]
  rfl

/-- A wallet's volumes are whole cents. -/
def CentWallet (w : TractionWallet) : Prop :=
  IsCents w.volumeUsd ∧ IsCents (w.volumeOutUsd.getD 0)

lemma wholeCents_addWallet {w : TractionWallet} (hw : CentWallet w) (c : Counting)
    (h : WholeCents c.counts) : WholeCents (addWallet w c).counts :=
  ⟨h.1.add hw.1, h.2.add hw.2⟩

/-- Every additive count of all wallets is that of the organic ones and the team's together. -/
structure Splits (c : Split TractionCounts) : Prop where
  users : c.all.users = c.organic.users + c.team.users
  autopilots : c.all.autopilots = c.organic.autopilots + c.team.autopilots
  rules : c.all.rules = c.organic.rules + c.team.rules
  usersEver : c.all.usersEver = c.organic.usersEver + c.team.usersEver
  trades24h : c.all.trades24h = c.organic.trades24h + c.team.trades24h
  trades7d : c.all.trades7d = c.organic.trades7d + c.team.trades7d
  trades : c.all.trades = c.organic.trades + c.team.trades
  swaps : c.all.swaps = c.organic.swaps + c.team.swaps
  volumeUsd : c.all.volumeUsd = c.organic.volumeUsd + c.team.volumeUsd
  volumeOutUsd : c.all.volumeOutUsd = c.organic.volumeOutUsd + c.team.volumeOutUsd
  created : c.all.created = c.organic.created + c.team.created
  kinds : ∀ kind, (Grouped.get? kind c.all.kinds).getD 0 =
    (Grouped.get? kind c.organic.kinds).getD 0 + (Grouped.get? kind c.team.kinds).getD 0

lemma splits_of_adds {c : Split TractionCounts} (h : ∀ kind, c.Adds (additive kind)) :
    Splits c := by
  have hparts := fun kind => by
    have hk := h kind
    simp only [Split.Adds, additive, Prod.mk_add_mk, Prod.mk.injEq] at hk
    exact hk
  obtain ⟨h1, h2, h3, h4, h5, h6, h7, h8, h9, -, h11, h12⟩ := hparts ""
  exact ⟨h1, h2, h3, h4, h5, h6, h7, h8, h11, h12, h9,
    fun kind => (hparts kind).2.2.2.2.2.2.2.2.2.1⟩

/-- **The split**: whatever the team set, the counts of the two sides add up to those of all wallets,
where the wallets' volumes are whole cents. -/
theorem splits_summaryCounts (s : TractionState) (hcents : ∀ w ∈ s.wallets, CentWallet w)
    (team : Finset String) (created : List (String × ℚ)) (now : ℚ) :
    Splits (summaryCounts s team created now) := by
  apply splits_of_adds
  intro kind
  set groups := s.wallets.map (groupOf · team) with hgroups
  set v := fun c : Counting => additive kind c.counts with hv
  -- both loops keep the sum, and the volumes whole
  have hwallets : (walletCounts s.wallets groups).Adds v ∧
      (walletCounts s.wallets groups).Holds fun c => WholeCents c.counts := by
    refine List.foldlRecOn (motive := fun c => Split.Adds v c ∧
      Split.Holds (fun c => WholeCents c.counts) c) _ _ ⟨?_, ?_⟩ fun c hc wg hwg => ?_
    · show additive kind zeroCounts = additive kind zeroCounts + additive kind zeroCounts
      rw [additive_zeroCounts, add_zero]
    · have hzero : WholeCents zeroCounts := ⟨isCents_zero, isCents_zero⟩
      exact ⟨hzero, hzero, hzero⟩
    · have hw := hcents wg.1 (List.of_mem_zip hwg).1
      exact ⟨hc.1.update (shifts_addWallet kind wg.1) _,
        hc.2.update (wholeCents_addWallet hw) _⟩
  have hhours : (hourCounts s.hours groups now (walletCounts s.wallets groups)).Adds v ∧
      (hourCounts s.hours groups now (walletCounts s.wallets groups)).Holds
        fun c => WholeCents c.counts := by
    refine List.foldlRecOn (motive := fun c => Split.Adds v c ∧
      Split.Holds (fun c => WholeCents c.counts) c) _ _ hwallets fun c hc h _ => ?_
    refine List.foldlRecOn (motive := fun c => Split.Adds v c ∧
      Split.Holds (fun c => WholeCents c.counts) c) _ _ hc fun c hc run _ => ?_
    have hkeep : ∀ c : Counting, WholeCents c.counts →
        WholeCents (addHour (now - h.1) run.2 c).counts := fun _ h => h
    exact ⟨hc.1.update (shifts_addHour kind _ run.2) _, hc.2.update hkeep _⟩
  have hcreated : Shifts (additive kind) fun c => { c with created := c.created + 1 } := by
    refine ⟨(0, 0, 0, 0, 0, 0, 0, 0, 1, 0, 0, 0), fun c => ?_⟩
    simp only [additive, Prod.mk_add_mk, add_zero]
  rw [summaryCounts, createdCounts]
  refine List.foldlRecOn (motive := fun c => Split.Adds (additive kind) c) _ _ ?_
    fun c hc p _ => hc.update hcreated _
  obtain ⟨hadds, hall, horganic, hteam⟩ := hhours
  show additive kind (finish _) = additive kind (finish _) + additive kind (finish _)
  rw [additive_finish kind hall, additive_finish kind horganic, additive_finish kind hteam]
  exact hadds

end Koul.Traction
