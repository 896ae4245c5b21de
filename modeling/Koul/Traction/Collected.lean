import Koul.Lib.Embedded
import Koul.Traction.Collector
import Koul.Traction.Once
import Mathlib.Data.List.ReduceOption

set_option relaxedAutoImplicit false
set_option autoImplicit false

/-!
# What the collector has counted

Any number of the collector's runs, started at any time, overlap, fail or are cut off between any two of
their calls, while the ledger goes on and the RPC forgets. Whatever state is stored, there are events of
the router of which it is the count; and they are all that its cursor is past, but for those in the gaps
it records and those from before its history.

## Main definitions

* `Koul.Traction.Collector.Node`, `Koul.Traction.Collector.Serves` — the RPC's events, and what the world
  answers.
* `Koul.Traction.Collector.Held` — a state is the count of some events, up to a place.
* `Koul.Traction.Collector.Derived` — a state that follows from what a run has heard.

## Main results

* `Koul.Traction.tallyOf_countEvent` — what an event adds to its wallet.
* `Koul.Traction.Collector.good_of_derived` — a state that follows from true answers is a count.
* `Koul.Traction.Collector.every_event_counted_once` — so is every state that is stored.
-/

namespace Koul.Traction

open Interleaving Interleaving.Prog
open Competition (Prices)

/-! ## What is counted -/

/-- Runs, swaps, saves and clears. -/
abbrev Counts : Type := ℕ × ℕ × ℕ × ℕ

def RouterEvent.counts (e : RouterEvent) : Counts :=
  match e.body with
  | .fired _ _ _ => (1, 0, 0, 0)
  | .swapped _ _ _ _ => (0, 1, 0, 0)
  | .autopilot_set _ _ => (0, 0, 1, 0)
  | .autopilot_cleared _ => (0, 0, 0, 1)

/-- The counts of a user's events. -/
def tally (es : List RouterEvent) (user : String) : Counts :=
  (es.map fun e => if e.user = user then e.counts else 0).sum

def TractionWallet.counts (w : TractionWallet) : Counts := (w.trades, w.swaps, w.sets, w.clears)

/-- The counts of the wallets with an address. -/
def tallyOf (s : TractionState) (address : String) : Counts :=
  (s.wallets.map fun w => if w.address = address then w.counts else 0).sum

lemma tally_append (es es' : List RouterEvent) (user : String) :
    tally (es ++ es') user = tally es user + tally es' user := by
  rw [tally, List.map_append, List.sum_append, tally, tally]

lemma counts_ne_zero (e : RouterEvent) : e.counts ≠ 0 := by
  unfold RouterEvent.counts
  cases e.body <;> simp

lemma counts_countWallet (prices : Prices) (e : RouterEvent) (w : TractionWallet) :
    (countWallet prices e w).counts = w.counts + e.counts := by
  rw [countWallet, RouterEvent.counts]
  cases e.body <;> rfl

/-- A change of one item changes the sum by as much. -/
lemma sum_map_modify {α M : Type} [AddCommMonoid M] {xs : List α} {i : ℕ} {x : α} {f : α → α}
    {g : α → M} {d : M} (hx : xs[i]? = some x) (hd : g (f x) = g x + d) :
    ((xs.modify i f).map g).sum = (xs.map g).sum + d := by
  induction xs generalizing i with
  | nil => cases hx
  | cons y xs ih =>
    cases i with
    | zero =>
      obtain rfl := Option.some.inj hx
      rw [List.modify_zero_cons, List.map_cons, List.map_cons, List.sum_cons, List.sum_cons, hd,
        add_right_comm]
    | succ i =>
      rw [List.modify_succ_cons, List.map_cons, List.map_cons, List.sum_cons, List.sum_cons, ih hx,
        add_assoc]

/-- **What an event adds**: its counts to its user's wallet, and nothing to the others. -/
theorem tallyOf_countEvent {prices : Prices} {s t : TractionState} {e : RouterEvent}
    (h : countEvent prices s e = some t) (hnew : ¬ Past s e) (address : String) :
    tallyOf t address = tallyOf s address + if e.user = address then e.counts else 0 := by
  have hcounted : ¬ counted s e = true := hnew
  rw [countEvent, if_neg hcounted] at h
  obtain ⟨day, -, rfl⟩ := Option.map_eq_some_iff.mp h
  show ((((walletOf s.wallets e.user).1).modify (walletOf s.wallets e.user).2
    (countWallet prices e)).map _).sum = _
  have hadds : ∀ w : TractionWallet, w.address = e.user →
      (if (countWallet prices e w).address = address then (countWallet prices e w).counts else 0) =
        (if w.address = address then w.counts else 0) + if e.user = address then e.counts else 0 := by
    intro w hw
    rw [address_countWallet, counts_countWallet, hw]
    split_ifs <;> simp
  rcases walletOf_cases s.wallets e.user with ⟨i, w, hof, hi, hw⟩ | ⟨hof, -⟩
  · rw [hof]
    exact sum_map_modify hi (hadds w hw)
  · rw [hof]
    have hlast : (s.wallets ++ [newWallet e.user])[s.wallets.length]? = some (newWallet e.user) := by
      simp
    rw [sum_map_modify hlast (hadds _ rfl), List.map_append, List.sum_append]
    have hzero : ((if (newWallet e.user).address = address then (newWallet e.user).counts else 0) :
        Counts) = 0 := by
      split_ifs <;> rfl
    rw [List.map_singleton, List.sum_singleton, hzero, add_zero]
    rfl

lemma tally_ne_zero {es : List RouterEvent} {e : RouterEvent} (he : e ∈ es) :
    tally es e.user ≠ 0 := by
  induction es with
  | nil => cases he
  | cons e' es ih =>
    rw [tally, List.map_cons, List.sum_cons]
    intro hzero
    obtain ⟨hfirst, hrest⟩ := add_eq_zero.mp hzero
    rcases List.mem_cons.mp he with rfl | he
    · rw [if_pos rfl] at hfirst
      exact counts_ne_zero e hfirst
    · exact ih he hrest

/-- With one wallet for each address, the counts of an address are its wallet's. -/
lemma sum_counts_of_mem {ws : List TractionWallet} (hnodup : (ws.map (·.address)).Nodup)
    {w : TractionWallet} (hw : w ∈ ws) :
    (ws.map fun w' => if w'.address = w.address then w'.counts else 0).sum = w.counts := by
  induction ws with
  | nil => cases hw
  | cons w' ws ih =>
    rw [List.map_cons] at hnodup
    obtain ⟨hne, hnodup⟩ := List.nodup_cons.mp hnodup
    rw [List.map_cons, List.sum_cons]
    rcases List.mem_cons.mp hw with rfl | hw
    · have hzero : (ws.map fun w' => if w'.address = w.address then w'.counts else 0).sum = 0 := by
        apply List.sum_eq_zero
        intro c hc
        obtain ⟨w', hw', rfl⟩ := List.mem_map.mp hc
        refine if_neg fun heq => hne ?_
        rw [← heq]
        exact List.mem_map_of_mem hw'
      rw [if_pos rfl, hzero, add_zero]
    · have hother : w'.address ≠ w.address := fun heq => hne (heq ▸ List.mem_map_of_mem hw)
      rw [if_neg hother, zero_add]
      exact ih hnodup hw

lemma exists_wallet {s : TractionState} {address : String} (h : tallyOf s address ≠ 0) :
    ∃ w ∈ s.wallets, w.address = address := by
  by_contra hnone
  refine h (List.sum_eq_zero fun c hc => ?_)
  obtain ⟨w, hw, rfl⟩ := List.mem_map.mp hc
  exact if_neg fun heq => hnone ⟨w, hw, heq⟩

/-- What counting leaves as it is. -/
structure SameReading (s t : TractionState) : Prop where
  cursor : t.cursor = s.cursor
  historyFrom : t.historyFrom = s.historyFrom
  gaps : t.gaps = s.gaps

lemma SameReading.refl (s : TractionState) : SameReading s s := ⟨rfl, rfl, rfl⟩

lemma SameReading.trans {s t u : TractionState} (h : SameReading s t) (h' : SameReading t u) :
    SameReading s u :=
  ⟨h'.cursor.trans h.cursor, h'.historyFrom.trans h.historyFrom, h'.gaps.trans h.gaps⟩

lemma sameReading_countEvent {prices : Prices} {s t : TractionState} {e : RouterEvent}
    (h : countEvent prices s e = some t) : SameReading s t := by
  rw [countEvent] at h
  split at h
  · obtain rfl := Option.some.inj h
    exact .refl s
  · obtain ⟨day, -, rfl⟩ := Option.map_eq_some_iff.mp h
    exact ⟨rfl, rfl, rfl⟩

/-- Events after the last one counted, in the order of their ids, are all counted. -/
lemma tallyOf_foldlM {prices : Prices} {s t : TractionState} {es : List RouterEvent}
    (h : es.foldlM (countEvent prices) s = some t)
    (hnew : ∀ e ∈ es, ∀ last, s.lastEventId = some last → utf16 last < utf16 e.id)
    (hsorted : es.Pairwise fun a b => utf16 a.id < utf16 b.id) :
    (∀ address, tallyOf t address = tallyOf s address + tally es address) ∧ SameReading s t ∧
      (t.lastEventId = s.lastEventId ∨ ∃ e ∈ es, t.lastEventId = some e.id) := by
  induction es generalizing s with
  | nil =>
    obtain rfl := Option.some.inj h
    exact ⟨fun address => (add_zero _).symm, .refl s, .inl rfl⟩
  | cons e es ih =>
    obtain ⟨u, hu, hrest⟩ := Option.bind_eq_some_iff.mp (by rw [List.foldlM_cons] at h; exact h)
    obtain ⟨hfirst, hsorted⟩ := List.pairwise_cons.mp hsorted
    obtain ⟨hlast, hnew⟩ := List.forall_mem_cons.mp hnew
    have hpast : ¬ Past s e := by
      intro hp
      obtain ⟨last, heq, hle⟩ := counted_iff.mp hp
      exact absurd (hlast last heq) (not_lt.mpr hle)
    have hid : u.lastEventId = some e.id := by
      rcases lastEventId_countEvent hu with ⟨-, hp⟩ | ⟨hid, -⟩
      · exact absurd hp hpast
      · exact hid
    obtain ⟨hcounts, hsame, hid'⟩ := ih hrest (fun e' he' last hl => by
      obtain rfl : e.id = last := Option.some.inj (hid.symm.trans hl)
      exact hfirst e' he') hsorted
    refine ⟨fun address => ?_, (sameReading_countEvent hu).trans hsame, .inr ?_⟩
    · rw [hcounts, tallyOf_countEvent hu hpast, add_assoc]
      rfl
    · rcases hid' with hid' | ⟨e', he', hid'⟩
      · exact ⟨e, List.mem_cons_self, hid'.trans hid⟩
      · exact ⟨e', List.mem_cons_of_mem e he', hid'⟩

lemma tallyOf_applyLive (s : TractionState) (live : LiveMap) (address : String) :
    tallyOf (applyLive s live) address = tallyOf s address := by
  rw [tallyOf, applyLive]
  dsimp only
  rw [List.map_map, List.map_append, List.sum_append]
  have hzero : ∀ names : List String, ((names.map newWallet).map
      ((fun w : TractionWallet => if w.address = address then w.counts else 0) ∘
        fun w => { w with live := (Grouped.get? w.address live.entries).getD ⟨0, 0⟩ })).sum = 0 := by
    intro names
    apply List.sum_eq_zero
    intro c hc
    simp only [List.map_map, List.mem_map] at hc
    obtain ⟨name, -, rfl⟩ := hc
    simp only [Function.comp_apply]
    split_ifs <;> rfl
  rw [hzero, add_zero]
  rfl

namespace Collector

/-! ## The world -/

/-- The RPC's node: the router's events up to the latest ledger. -/
structure Node where
  log : List LogEvent
  latest : ℕ

/-- The ledger and the store. -/
structure World where
  node : Node
  state : Option TractionState

section World

variable (closeTime : ℕ → ℚ)

structure Node.Ok (n : Node) : Prop where
  sorted : n.log.Pairwise fun a b => a.place.key < b.place.key
  closed : ∀ e ∈ n.log, e.place.ledger ≤ n.latest
  times : ∀ e ∈ n.log, e.time = closeTime e.place.ledger

/-- The node some time later: events are added in later ledgers only. -/
structure Node.Later (n n' : Node) : Prop where
  log : ∃ new, n'.log = n.log ++ new ∧ ∀ e ∈ new, n.latest < e.place.ledger
  latest : n.latest ≤ n'.latest
  ok : n'.Ok closeTime

/-- The first place that is read from somewhere. -/
def From.Begins : From → ℕ → Prop
  | .startLedger ledger, k => k = ledger * 2 ^ 32 * 10 ^ 10
  | .cursor token, k => ∃ p : Place, token = p.text ∧ k = p.key + 1

/-- The events from one place up to another. -/
def Node.between (n : Node) (k m : ℕ) : List LogEvent :=
  n.log.filter fun e => decide (k ≤ e.place.key ∧ e.place.key ≤ m)

/-- A true page: the events from where it is asked for up to its cursor, which need not be all. -/
def Page.Of (n : Node) (start : From) (page : Page) : Prop :=
  ∀ k, start.Begins k → ∃ q : Place, page.cursor = q.text ∧ k ≤ q.key + 1 ∧ q.ledger ≤ n.latest ∧
    page.events = n.between k q.key

structure Health.Of (n : Node) (health : Health) : Prop where
  oldest : health.oldestLedger.getD 1 ≤ n.latest
  closed : ∀ t, health.oldestLedgerCloseTime = some t →
    closeTime (health.oldestLedger.getD 1) = t * 1000

/-- What the world answers. Calls fail at any time, the clock is not behind the ledger, the router's
views answer anything, and of a pipeline the state is stored or not, whatever it answers. -/
def Answers : (c : Cmd) → World → c.Reply → World → Prop
  | .state, w, r, w' => w' = w ∧ ∀ s, r = .ok (some s) → w.state = some s
  | .getHealth, w, r, w' => w' = w ∧ ∀ health, r = .ok health → health.Of closeTime w.node
  | .getEvents start, w, r, w' => w' = w ∧ ∀ page, r = .ok page → page.Of w.node start
  | .now, w, r, w' => w' = w ∧ closeTime w.node.latest ≤ r
  | .pipeline commands, w, _, w' => w'.node = w.node ∧
      (w'.state = w.state ∨ ∃ s, .set s ∈ commands ∧ w'.state = some s)
  | .team, w, _, w' | .readOracle _, w, _, w' | .listUsers, w, _, w' | .listIds _, w, _, w'
  | .readAutopilot _ _, w, _, w' => w' = w

/-- Before each answer the ledger may have gone on. -/
def Serves {σ : Type} (view : σ → World) (exec : (c : Cmd) → σ → c.Reply × σ) : Prop :=
  ∀ c x, (view x).node.Ok closeTime → ∃ node, (view x).node.Later closeTime node ∧
    Answers closeTime c ⟨node, (view x).state⟩ (exec c x).1 (view (exec c x).2)

end World

/-! ## What a page holds -/

lemma mul_le_key_iff (p : Place) (ledger : ℕ) :
    ledger * 2 ^ 32 * 10 ^ 10 ≤ p.key ↔ ledger ≤ p.ledger := by
  have hindex := p.index_lt
  rw [Place.ledger, Nat.le_div_iff_mul_le (by norm_num), Place.key]
  omega

/-- A sorted list splits where a property ends. -/
lemma filter_append_filter_not {α : Type} {l : List α} {P : α → Bool}
    (hdown : l.Pairwise fun a b => P b = true → P a = true) :
    l.filter P ++ l.filter (fun a => !P a) = l := by
  induction l with
  | nil => rfl
  | cons a l ih =>
    obtain ⟨hfirst, hdown⟩ := List.pairwise_cons.mp hdown
    cases ha : P a with
    | true =>
      rw [List.filter_cons_of_pos ha, List.filter_cons_of_neg (by simp [ha]), List.cons_append,
        ih hdown]
    | false =>
      have hnone : l.filter P = [] := List.filter_eq_nil_iff.mpr fun b hb hP => by
        have := hfirst b hb hP
        rw [ha] at this
        cases this
      have hrest := ih hdown
      rw [hnone, List.nil_append] at hrest
      rw [List.filter_cons_of_neg (by simp [ha]), List.filter_cons_of_pos (by simp [ha]), hnone,
        List.nil_append, hrest]

section Between

variable {closeTime : ℕ → ℚ} {n n' : Node}

/-- Up to a place of a ledger that had closed, nothing is added. -/
lemma Node.Later.between (h : n.Later closeTime n') (k : ℕ) {q : Place} (hq : q.ledger ≤ n.latest) :
    n'.between k q.key = n.between k q.key := by
  obtain ⟨new, hlog, hnew⟩ := h.log
  have hnone : new.filter (fun e => decide (k ≤ e.place.key ∧ e.place.key ≤ q.key)) = [] := by
    apply List.filter_eq_nil_iff.mpr
    intro e he
    have hlater := Place.key_lt_of_ledger_lt (hq.trans_lt (hnew e he))
    simp only [decide_eq_true_eq]
    omega
  rw [Node.between, hlog, List.filter_append, hnone, List.append_nil, Node.between]

/-- **What follows a cursor** follows what is before it. -/
lemma Node.between_append (hn : n.Ok closeTime) {k m m' : ℕ} (hk : k ≤ m + 1) (hm : m ≤ m') :
    n.between k m ++ n.between (m + 1) m' = n.between k m' := by
  have hsplit := filter_append_filter_not (l := n.between k m')
    (P := fun e => decide (e.place.key ≤ m))
    ((hn.sorted.filter _).imp fun hlt hle => by
      rw [decide_eq_true_eq] at hle ⊢
      omega)
  rw [Node.between, List.filter_filter, List.filter_filter] at hsplit
  rw [Node.between, Node.between, Node.between, ← hsplit]
  congr 1
  · refine List.filter_congr fun e _ => ?_
    rw [← Bool.decide_and]
    refine decide_eq_decide.mpr ?_
    omega
  · refine List.filter_congr fun e _ => ?_
    rw [← decide_not, ← Bool.decide_and]
    refine decide_eq_decide.mpr ?_
    omega

lemma Page.Of.later {start : From} {page : Page} (h : page.Of n start)
    (hlater : n.Later closeTime n') : page.Of n' start := by
  intro k hk
  obtain ⟨q, hcursor, hle, hq, hevents⟩ := h k hk
  exact ⟨q, hcursor, hle, hq.trans hlater.latest, by rw [hlater.between k hq, hevents]⟩

lemma Health.Of.later {health : Health} (h : health.Of closeTime n) (hlater : n.Later closeTime n') :
    health.Of closeTime n' :=
  ⟨h.oldest.trans hlater.latest, h.closed⟩

end Between

/-! ## Counts of events -/

/-- What an event says; nothing when it is none of the router's, or cannot be read. -/
def said (e : LogEvent) : Option RouterEvent :=
  match e.read with
  | .ok r => r
  | .error _ => none

lemma read_of_routerEvent {id : String} {time : ℚ} {topics : List Js} {value : Js}
    {tx : Option String} {r : RouterEvent} (h : routerEvent id time topics value tx = .ok (some r)) :
    r.id = id ∧ r.time = time := by
  unfold routerEvent at h
  have hbind : ∀ {α β : Type} {x : Except Failure α} {f : α → Except Failure β} {b : β},
      (x >>= f) = .ok b → ∃ a, f a = .ok b := fun {_ _ x _ _} h => by
    cases x with
    | error e => cases h
    | ok a => exact ⟨a, h⟩
  split at h
  · dsimp only at h
    split at h
    · split_ifs at h
      · obtain ⟨_, h⟩ := hbind h
        obtain ⟨_, h⟩ := hbind h
        cases h
        exact ⟨rfl, rfl⟩
      · obtain ⟨_, h⟩ := hbind h
        cases h
        exact ⟨rfl, rfl⟩
      · split at h
        · split_ifs at h
          obtain ⟨_, h⟩ := hbind h
          cases h
          exact ⟨rfl, rfl⟩
        · cases h
      · obtain ⟨_, h⟩ := hbind h
        obtain ⟨_, h⟩ := hbind h
        obtain ⟨_, h⟩ := hbind h
        obtain ⟨_, h⟩ := hbind h
        cases h
        exact ⟨rfl, rfl⟩
      · cases h
    · cases h
  · cases h

lemma id_of_said {e : LogEvent} {r : RouterEvent} (h : said e = some r) : r.id = e.place.text := by
  unfold said at h
  split at h
  · next r' hread =>
    subst h
    exact (read_of_routerEvent hread).1
  · cases h

/-- The events of a page that is read. -/
lemma reduceOption_of_mapM {es : List LogEvent} {found : List (Option RouterEvent)}
    (h : es.mapM LogEvent.read = .ok found) : found.reduceOption = es.filterMap said := by
  induction es generalizing found with
  | nil =>
    cases h
    rfl
  | cons e es ih =>
    rw [List.mapM_cons] at h
    cases he : e.read with
    | error x =>
      rw [he] at h
      cases h
    | ok r =>
      rw [he] at h
      cases hes : es.mapM LogEvent.read with
      | error x =>
        rw [hes] at h
        cases h
      | ok rest =>
        rw [hes] at h
        cases h
        have hsaid : said e = r := by rw [said, he]
        cases r with
        | none => rw [List.reduceOption_cons_of_none, ih hes, List.filterMap_cons_none hsaid]
        | some r => rw [List.reduceOption_cons_of_some, ih hes, List.filterMap_cons_some hsaid]

/-- The state is the count of `es`, and these are all the events up to the place but for those in the
gaps and those from before the history. -/
structure Held (n : Node) (s : TractionState) (es : List LogEvent) (p : Option Place) : Prop where
  sublist : es.Sublist n.log
  said : ∀ e ∈ es, (said e).isSome
  cursor : s.cursor = p.map Place.text
  upTo : ∀ e ∈ es, ∃ q, p = some q ∧ e.place.key ≤ q.key
  closed : ∀ q, p = some q → q.ledger ≤ n.latest
  last : ∀ id, s.lastEventId = some id → ∃ e ∈ es, id = e.place.text
  counts : ∀ address, tallyOf s address = tally (es.filterMap Collector.said) address
  ledger : Ledger s
  fresh : p = none → s.historyFrom = none
  complete : ∀ q, p = some q → ∃ time, s.historyFrom = some time ∧ ∀ e ∈ n.log,
    (Collector.said e).isSome → e.place.key ≤ q.key → time < e.time →
      e ∈ es ∨ ∃ g ∈ s.gaps, g.1 ≤ e.place.ledger ∧ e.place.ledger ≤ g.2

/-- The state is a count. -/
def Good (n : Node) (s : TractionState) : Prop := ∃ es p, Held n s es (some p)

lemma held_empty (n : Node) (router : String) : Held n (emptyTraction router) [] none where
  sublist := List.nil_sublist _
  said := nofun
  cursor := rfl
  upTo := nofun
  closed := nofun
  last := nofun
  counts _ := rfl
  ledger := ledger_empty router
  fresh _ := rfl
  complete := nofun

lemma Good.later {closeTime : ℕ → ℚ} {n n' : Node} {s : TractionState} (h : Good n s)
    (hlater : n.Later closeTime n') : Good n' s := by
  obtain ⟨es, p, h⟩ := h
  obtain ⟨new, hlog, hnew⟩ := hlater.log
  refine ⟨es, p, { h with
    sublist := ?_
    closed := fun q hq => (h.closed q hq).trans hlater.latest
    complete := fun q hq => ?_ }⟩
  · rw [hlog]
    exact h.sublist.trans (List.sublist_append_left _ _)
  · obtain ⟨time, htime, hall⟩ := h.complete q hq
    refine ⟨time, htime, fun e he hsaid hle hlt => ?_⟩
    rw [hlog] at he
    rcases List.mem_append.mp he with he | he
    · exact hall e he hsaid hle hlt
    · have := Place.key_lt_of_ledger_lt ((h.closed q hq).trans_lt (hnew e he))
      omega

/-! ## A state that follows -/

/-- When the history begins: as before, or where the RPC's memory did. -/
def BeganAt (h : Heard Cmd.Reply) (prev : TractionState) (health : Health) (time : ℚ) : Prop :=
  prev.historyFrom = some time ∨ prev.historyFrom = none ∧
    ((∃ closed : ℕ, health.oldestLedgerCloseTime = some closed ∧ time = closed * 1000) ∨
      ∃ h₁ h₂, h = h₁ ++ ⟨.now, time⟩ :: h₂ ∧ ⟨.getHealth, .ok health⟩ ∈ h₁)

/-- What is recorded of what was missed. -/
def Missed (prev : TractionState) (health : Health) (gaps : List (ℕ × ℕ)) : Prop :=
  prev.cursor.filter (· ≠ "") = none ∧ gaps = prev.gaps ∨
    ∃ token ledger, prev.cursor = some token ∧ cursorLedger token = some ledger ∧
      ledger < health.oldest ∧ gaps = prev.gaps ++ [(ledger.toNat, health.oldest - 1)]

/-- Where a run reads from, and the state it adds to. -/
inductive Started (h : Heard Cmd.Reply) (prev : TractionState) (health : Health) :
    From → TractionState → Prop
  | cursor {token : String} (hcursor : prev.cursor = some token) :
      Started h prev health (.cursor token) prev
  | oldest {gaps : List (ℕ × ℕ)} {time : ℚ} (hgaps : Missed prev health gaps)
      (htime : BeganAt h prev health time) :
      Started h prev health (.startLedger health.oldest)
        { prev with gaps := gaps, historyFrom := some time }

/-- The events of the pages that were heard from somewhere on, and the cursor after them. -/
inductive Reads (h : Heard Cmd.Reply) (start : From) : List LogEvent → String → Prop
  | first {page : Page} (hpage : ⟨.getEvents start, .ok page⟩ ∈ h) :
      Reads h start page.events page.cursor
  | more {es : List LogEvent} {token : String} {page : Page} (hreads : Reads h start es token)
      (hpage : ⟨.getEvents (.cursor token), .ok page⟩ ∈ h) :
      Reads h start (es ++ page.events) page.cursor

/-- A state that follows from what a run has heard. -/
def Derived (router : String) (h : Heard Cmd.Reply) (s : TractionState) : Prop :=
  ∃ prev health start state es token prices now counted latest pages live,
    (prev = emptyTraction router ∨ ⟨.state, .ok (some prev)⟩ ∈ h) ∧
    ⟨.getHealth, .ok health⟩ ∈ h ∧ Started h prev health start state ∧ Reads h start es token ∧
    applyEvents state (es.filterMap said) prices now = some counted ∧
    s = next counted ⟨es.filterMap said, token, latest, pages⟩ live now

/-- What a run has heard is true of the node. -/
structure Facts (closeTime : ℕ → ℚ) (n : Node) (h : Heard Cmd.Reply) : Prop where
  state : ∀ s, ⟨.state, .ok (some s)⟩ ∈ h → Good n s
  health : ∀ health, ⟨.getHealth, .ok health⟩ ∈ h → health.Of closeTime n
  page : ∀ start page, ⟨.getEvents start, .ok page⟩ ∈ h → page.Of n start
  now : ∀ h₁ time h₂, h = h₁ ++ ⟨.now, time⟩ :: h₂ → ∀ health, ⟨.getHealth, .ok health⟩ ∈ h₁ →
    closeTime (health.oldestLedger.getD 1) ≤ time

section Step

variable {closeTime : ℕ → ℚ} {n : Node} {h : Heard Cmd.Reply}

/-- **What was read**: the events from where the reading began up to its cursor. -/
lemma Facts.reads (hn : n.Ok closeTime) (hfacts : Facts closeTime n h) {start : From}
    {es : List LogEvent} {token : String} (hreads : Reads h start es token) {k : ℕ}
    (hk : start.Begins k) : ∃ q : Place, token = q.text ∧ k ≤ q.key + 1 ∧ q.ledger ≤ n.latest ∧
      es = n.between k q.key := by
  induction hreads with
  | first hpage => exact hfacts.page _ _ hpage k hk
  | more _ hpage ih =>
    obtain ⟨q, rfl, hle, -, rfl⟩ := ih
    obtain ⟨q', hcursor, hle', hq', hevents⟩ := hfacts.page _ _ hpage (q.key + 1) ⟨q, rfl, rfl⟩
    refine ⟨q', hcursor, by omega, hq', ?_⟩
    rw [hevents, Node.between_append hn hle (by omega)]

lemma text_ne_empty (p : Place) : p.text ≠ "" := by
  intro heq
  have hlist := congrArg String.toList heq
  rw [Place.text, String.toList_ofList] at hlist
  simp at hlist

lemma text_inj {p q : Place} (h : p.text = q.text) : p.key = q.key := by
  rcases lt_trichotomy p.key q.key with hlt | heq | hlt
  · exact absurd (h ▸ utf16_text_lt hlt) (lt_irrefl _)
  · exact heq
  · exact absurd (h ▸ utf16_text_lt hlt) (lt_irrefl _)

/-- Where a run begins to read: after everything that was counted, and the events it passes over are in
a gap or before the history. -/
lemma begins_of_started (hmono : Monotone closeTime) (hn : n.Ok closeTime)
    (hfacts : Facts closeTime n h) {prev state : TractionState} {es : List LogEvent}
    {p : Option Place} (hheld : Held n prev es p) {health : Health} {start : From}
    (hhealth : health.Of closeTime n) (hstarted : Started h prev health start state) :
    ∃ k time, start.Begins k ∧ (∀ q, p = some q → q.key < k) ∧ state.historyFrom = some time ∧
      ∀ e ∈ n.log, (said e).isSome → e.place.key < k → time < e.time →
        e ∈ es ∨ ∃ g ∈ state.gaps, g.1 ≤ e.place.ledger ∧ e.place.ledger ≤ g.2 := by
  cases hstarted with
  | cursor hcursor =>
    obtain ⟨q, rfl, rfl⟩ := Option.map_eq_some_iff.mp (hheld.cursor.symm.trans hcursor)
    obtain ⟨time, htime, hall⟩ := hheld.complete q rfl
    refine ⟨q.key + 1, time, ⟨q, rfl, rfl⟩, ?_, htime, fun e he hsaid hlt => ?_⟩
    · rintro q' hq'
      obtain rfl := Option.some.inj hq'
      exact Nat.lt_succ_self _
    · exact hall e he hsaid (Nat.lt_succ_iff.mp hlt)
  | @oldest gaps time hgaps htime =>
    refine ⟨health.oldest * 2 ^ 32 * 10 ^ 10, time, rfl, ?_, rfl, ?_⟩
    all_goals
      rcases hgaps with ⟨hnone, rfl⟩ | ⟨token, ledger, hcursor, hledger, hless, rfl⟩
    · rintro q rfl
      rw [hheld.cursor] at hnone
      simp [text_ne_empty] at hnone
    · rintro q rfl
      obtain rfl : q.text = token := Option.some.inj (hheld.cursor.symm.trans hcursor)
      rw [cursorLedger_text] at hledger
      obtain rfl := Option.some.inj hledger
      by_contra hle
      have := (mul_le_key_iff q health.oldest).mp (not_lt.mp hle)
      omega
    · -- the first run: what lies before is older than the history
      intro e he _ hlt hnew
      have hp : p = none := by
        rw [hheld.cursor] at hnone
        cases p with
        | none => rfl
        | some q => simp [text_ne_empty] at hnone
      have hclosed : closeTime (health.oldestLedger.getD 1) ≤ time := by
        rcases htime with hsome | ⟨-, ⟨closed, hclosed, rfl⟩ | ⟨h₁, h₂, rfl, hmem⟩⟩
        · rw [hheld.fresh hp] at hsome
          cases hsome
        · exact (hhealth.closed closed hclosed).le
        · exact hfacts.now h₁ time h₂ rfl health hmem
      have hledger : e.place.ledger < health.oldest := by
        by_contra hle
        have := (mul_le_key_iff e.place health.oldest).mpr (not_lt.mp hle)
        omega
      have hbefore := hmono (show e.place.ledger ≤ health.oldestLedger.getD 1 from
        Nat.lt_succ_iff.mp hledger)
      rw [hn.times e he] at hnew
      exact absurd hnew (not_lt.mpr (hbefore.trans hclosed))
    · intro e he hsaid hlt hnew
      obtain ⟨q, rfl, rfl⟩ := Option.map_eq_some_iff.mp (hheld.cursor.symm.trans hcursor)
      rw [cursorLedger_text] at hledger
      obtain rfl := Option.some.inj hledger
      obtain ⟨time', htime', hall⟩ := hheld.complete q rfl
      obtain rfl : time' = time := by
        rcases htime with hsome | ⟨hnone, -⟩
        · exact Option.some.inj (htime'.symm.trans hsome)
        · rw [hnone] at htime'
          cases htime'
      by_cases hle : e.place.key ≤ q.key
      · refine (hall e he hsaid hle hnew).imp_right ?_
        rintro ⟨g, hg, hin⟩
        exact ⟨g, List.mem_append_left _ hg, hin⟩
      · refine .inr ⟨_, List.mem_append_right _ (List.mem_singleton.mpr rfl), ?_, ?_⟩
        · exact Place.ledger_le_of_key_le (not_le.mp hle).le
        · have hledger : e.place.ledger < health.oldest := by
            by_contra hge
            have := (mul_le_key_iff e.place health.oldest).mpr (not_lt.mp hge)
            omega
          exact Nat.le_sub_one_of_lt hledger

lemma reading_of_started {prev state : TractionState} {health : Health} {start : From}
    (hstarted : Started h prev health start state) :
    state.lastEventId = prev.lastEventId ∧ (∀ a, tallyOf state a = tallyOf prev a) ∧
      (Ledger prev → Ledger state) := by
  cases hstarted with
  | cursor hcursor => exact ⟨rfl, fun _ => rfl, id⟩
  | oldest hgaps htime =>
    exact ⟨rfl, fun _ => rfl, fun hl =>
      ⟨hl.addresses, hl.days, hl.hours, hl.tally, hl.kinds, hl.wallets, hl.cells⟩⟩

/-- **The next count**: what follows from a count and from the events that are read after it is the
count of both.

**Proof sketch.** The events that are read are those from where the run began up to the cursor, and all
that was counted lies before them; so none of them is skipped, and each adds to its wallet. What lies
between the last cursor and the beginning was missed, and is recorded. -/
theorem held_next (hmono : Monotone closeTime) (hn : n.Ok closeTime) (hfacts : Facts closeTime n h)
    {prev state counted : TractionState} {es new : List LogEvent} {p : Option Place}
    (hheld : Held n prev es p) {health : Health} {start : From} {token : String}
    (hhealth : health.Of closeTime n) (hstarted : Started h prev health start state)
    (hreads : Reads h start new token) {prices : Prices} {now : ℚ}
    (happly : applyEvents state (new.filterMap said) prices now = some counted) (latest pages : ℕ)
    (live : LiveMap) : Good n (next counted ⟨new.filterMap said, token, latest, pages⟩ live now) := by
  obtain ⟨k, time, hbegins, hbehind, hfrom, hpassed⟩ :=
    begins_of_started hmono hn hfacts hheld hhealth hstarted
  obtain ⟨q, rfl, hle, hq, rfl⟩ := hfacts.reads hn hreads hbegins
  obtain ⟨hlast, htally, hledger⟩ := reading_of_started hstarted
  have hbefore : ∀ e ∈ es, e.place.key < k := by
    intro e he
    obtain ⟨q', hq', hle'⟩ := hheld.upTo e he
    exact hle'.trans_lt (hbehind q' hq')
  have hnew : ∀ e ∈ n.between k q.key, e ∈ n.log ∧ k ≤ e.place.key ∧ e.place.key ≤ q.key := by
    intro e he
    obtain ⟨hmem, hin⟩ := List.mem_filter.mp he
    exact ⟨hmem, of_decide_eq_true hin⟩
  obtain ⟨folded, hfold, rfl⟩ := Option.map_eq_some_iff.mp happly
  -- the ids that are read come after the last one counted, in order
  have hafter : ∀ r ∈ (n.between k q.key).filterMap said, ∀ last, state.lastEventId = some last →
      utf16 last < utf16 r.id := by
    intro r hr last hl
    obtain ⟨e, he, hsaid⟩ := List.mem_filterMap.mp hr
    obtain ⟨e', he', rfl⟩ := hheld.last last (hlast.symm.trans hl)
    rw [id_of_said hsaid]
    exact utf16_text_lt ((hbefore e' he').trans_le (hnew e he).2.1)
  have hsorted : ((n.between k q.key).filterMap said).Pairwise
      fun a b => utf16 a.id < utf16 b.id := by
    refine List.Pairwise.filterMap _ ?_ (hn.sorted.filter _)
    intro a b hlt r hr r' hr'
    rw [id_of_said hr, id_of_said hr']
    exact utf16_text_lt hlt
  obtain ⟨hcounts, hsame, hid⟩ := tallyOf_foldlM hfold hafter hsorted
  have hread : ((n.between k q.key).filter fun e => (said e).isSome).filterMap said =
      (n.between k q.key).filterMap said := by
    rw [List.filterMap_filter]
    refine List.filterMap_congr fun e _ => ?_
    cases said e <;> rfl
  refine ⟨es ++ (n.between k q.key).filter (fun e => (said e).isSome), q, ?_, ?_, rfl, ?_, ?_, ?_, ?_,
    ?_, nofun, ?_⟩
  · rw [← filter_append_filter_not (l := n.log) (P := fun e => decide (e.place.key < k))
      (hn.sorted.imp fun hlt hk => by rw [decide_eq_true_eq] at hk ⊢; omega)]
    refine List.Sublist.append ?_ ?_
    · have hes := hheld.sublist.filter (fun e => decide (e.place.key < k))
      rwa [List.filter_eq_self.mpr fun e he => decide_eq_true (hbefore e he)] at hes
    · refine List.filter_sublist.trans ?_
      refine List.monotone_filter_right _ fun e he => ?_
      have := (of_decide_eq_true he).1
      simpa using this
  · intro e he
    rcases List.mem_append.mp he with he | he
    · exact hheld.said e he
    · exact (List.mem_filter.mp he).2
  · intro e he
    refine ⟨q, rfl, ?_⟩
    rcases List.mem_append.mp he with he | he
    · have := hbefore e he
      omega
    · exact (hnew e (List.mem_filter.mp he).1).2.2
  · rintro q' hq'
    obtain rfl := Option.some.inj hq'
    exact hq
  · intro id heq
    have heq : folded.lastEventId = some id := heq
    rcases hid with hid | ⟨r, hr, hid⟩
    · obtain ⟨e, he, rfl⟩ := hheld.last id (hlast.symm.trans (hid.symm.trans heq))
      exact ⟨e, List.mem_append_left _ he, rfl⟩
    · obtain ⟨e, he, hsaid⟩ := List.mem_filterMap.mp hr
      refine ⟨e, List.mem_append_right _ (List.mem_filter.mpr ⟨he, by rw [hsaid]; rfl⟩), ?_⟩
      rw [← id_of_said hsaid]
      exact Option.some.inj (heq.symm.trans hid)
  · intro address
    have hlive : tallyOf (next (dropHours now folded)
        ⟨(n.between k q.key).filterMap said, q.text, latest, pages⟩ live now) address =
        tallyOf (applyLive (dropHours now folded) live) address := rfl
    have hdrop : tallyOf (dropHours now folded) address = tallyOf folded address := rfl
    rw [hlive, tallyOf_applyLive, hdrop, hcounts, htally, hheld.counts, List.filterMap_append,
      hread, tally_append]
  · have happlied := (((hledger hheld.ledger).applyEvents happly).applyLive live)
    exact ⟨happlied.addresses, happlied.days, happlied.hours, happlied.tally, happlied.kinds,
      happlied.wallets, happlied.cells⟩
  · rintro q' hq'
    obtain rfl := Option.some.inj hq'
    refine ⟨time, hsame.historyFrom.trans hfrom, fun e he hsaid hle' hlt => ?_⟩
    have hgaps : (next (dropHours now folded)
        ⟨(n.between k q.key).filterMap said, q.text, latest, pages⟩ live now).gaps = state.gaps :=
      hsame.gaps
    rw [hgaps]
    by_cases hk : e.place.key < k
    · refine (hpassed e he hsaid hk hlt).imp_left (List.mem_append_left _)
    · refine .inl (List.mem_append_right _ (List.mem_filter.mpr ⟨List.mem_filter.mpr ⟨he, ?_⟩, hsaid⟩))
      exact decide_eq_true ⟨not_lt.mp hk, hle'⟩

/-- **A state that follows** from true answers is a count. -/
theorem good_of_derived (hmono : Monotone closeTime) (hn : n.Ok closeTime)
    (hfacts : Facts closeTime n h) {router : String} {s : TractionState} (hs : Derived router h s) :
    Good n s := by
  obtain ⟨prev, health, start, state, es, token, prices, now, counted, latest, pages, live, hprev,
    hhealth, hstarted, hreads, happly, rfl⟩ := hs
  have hof := hfacts.health health hhealth
  rcases hprev with rfl | hprev
  · exact held_next hmono hn hfacts (held_empty n router) hof hstarted hreads happly latest pages live
  · obtain ⟨es', p, hheld⟩ := hfacts.state prev hprev
    exact held_next hmono hn hfacts hheld hof hstarted hreads happly latest pages live

end Step

/-! ## The discipline -/

/-- A state is stored only when it follows from what the run has heard. -/
def collecting (router : String) : Discipline Options Cmd.Reply (Except Failure Unit) where
  may _ h c := match c with
    | .pipeline commands => ∀ s, .set s ∈ commands → Derived router h s
    | _ => True
  ends _ _ _ := True
  can _ _ := True

def Asks (c : Cmd) : Prop := ∀ commands, c ≠ .pipeline commands

section Obeys

open Thrower (EndsWith obeys_then obeys_ask obeys_of_sends obeys_pure obeys_throw)

variable {router : String} {i : Options} {h : Heard Cmd.Reply}

lemma may_of_asks {c : Cmd} (hc : Asks c) (i : Options) (h : Heard Cmd.Reply) :
    (collecting router).may i h c := by
  cases c with
  | pipeline commands => exact absurd rfl (hc commands)
  | _ => exact trivial

lemma obeys_lift {α : Type} (r : Except Failure α) :
    Obeys ((collecting router).ending (EndsWith h fun h' a => h' = h ∧ r = .ok a)) i h
      (lift r).run := by
  refine ⟨List.prefix_rfl, ?_⟩
  rintro a rfl
  exact ⟨rfl, rfl⟩

lemma Reads.mono {h h' : Heard Cmd.Reply} {start : From} {es : List LogEvent} {token : String}
    (hreads : Reads h start es token) (hh : h <+: h') : Reads h' start es token := by
  induction hreads with
  | first hpage => exact .first (hh.subset hpage)
  | more _ hpage ih => exact .more ih (hh.subset hpage)

lemma Started.mono {h h' : Heard Cmd.Reply} {prev state : TractionState} {health : Health}
    {start : From} (hstarted : Started h prev health start state) (hh : h <+: h') :
    Started h' prev health start state := by
  cases hstarted with
  | cursor hcursor => exact .cursor hcursor
  | oldest hgaps htime =>
    refine .oldest hgaps (htime.imp_right fun hnone => ⟨hnone.1, hnone.2.imp_right ?_⟩)
    rintro ⟨h₁, h₂, rfl, hmem⟩
    obtain ⟨k, rfl⟩ := hh
    exact ⟨h₁, h₂ ++ k, by simp, hmem⟩

/-- What a read of the events leaves: what they say. -/
def ReadFrom (start : From) (h : Heard Cmd.Reply) (read : Read) : Prop :=
  ∃ es, Reads h start es read.cursor ∧ read.events = es.filterMap said

lemma obeys_readPages {start : From} {res : Page} {es : List LogEvent} (left : ℕ)
    (hreads : Reads h start (es ++ res.events) res.cursor) :
    Obeys ((collecting router).ending (EndsWith h (ReadFrom start))) i h
      (readPages left res (es.filterMap said)).run := by
  induction left generalizing h res es with
  | zero =>
    unfold readPages
    refine obeys_then (obeys_lift _) ?_
    rintro _ found - ⟨rfl, hfound⟩
    refine obeys_then (obeys_lift _) ?_
    rintro _ ended - ⟨rfl, -⟩
    cases ended with
    | true =>
      refine obeys_pure ⟨_, hreads, ?_⟩
      rw [List.filterMap_append, reduceOption_of_mapM hfound]
    | false => exact obeys_throw _
  | succ left ih =>
    unfold readPages
    refine obeys_then (obeys_lift _) ?_
    rintro _ found - ⟨rfl, hfound⟩
    have hevents : es.filterMap said ++ found.reduceOption = (es ++ res.events).filterMap said := by
      rw [List.filterMap_append, reduceOption_of_mapM hfound]
    refine obeys_then (obeys_lift _) ?_
    rintro _ ended - ⟨rfl, -⟩
    cases ended with
    | true => exact obeys_pure ⟨_, hreads, hevents⟩
    | false =>
      refine obeys_then (obeys_ask (may_of_asks (by rintro _ ⟨⟩) _ _)) ?_
      rintro _ page hpre ⟨r, rfl, hr⟩
      obtain rfl : r = .ok page := by
        cases r with
        | error e => cases hr
        | ok page' =>
          cases hr
          rfl
      have hmore : Reads (_ ++ [⟨.getEvents (.cursor res.cursor), .ok page⟩]) start
          ((es ++ res.events) ++ page.events) page.cursor :=
        .more (hreads.mono hpre) (List.mem_append_right _ (List.mem_singleton.mpr rfl))
      split_ifs with hstay
      · refine obeys_pure ⟨_, hmore, ?_⟩
        rw [hstay.1, List.append_nil]
        exact hevents
      · rw [hevents]
        exact ih hmore

lemma obeys_readEvents (start : From) :
    Obeys ((collecting router).ending (EndsWith h (ReadFrom start))) i h (readEvents start).run := by
  unfold readEvents
  refine obeys_then (obeys_ask (may_of_asks (by rintro _ ⟨⟩) _ _)) ?_
  rintro _ page - ⟨r, rfl, hr⟩
  cases r with
  | error e => cases hr
  | ok page' =>
    cases hr
    have hreads : Reads (h ++ [⟨.getEvents start, .ok page⟩]) start ([] ++ page.events) page.cursor :=
      .first (List.mem_append_right _ (List.mem_singleton.mpr rfl))
    exact obeys_readPages _ hreads

lemma obeys_beginHistory {prev : TractionState} {health : Health}
    (hhealth : ⟨.getHealth, .ok health⟩ ∈ h) :
    Obeys ((collecting router).ending (EndsWith h fun h' time => BeganAt h' prev health time)) i h
      (beginHistory prev.historyFrom health).run := by
  cases hfrom : prev.historyFrom with
  | some time => exact obeys_pure (.inl hfrom)
  | none =>
    cases hclosed : health.oldestLedgerCloseTime with
    | some closed =>
      unfold beginHistory
      rw [hclosed]
      exact obeys_pure (.inr ⟨hfrom, .inl ⟨closed, hclosed, rfl⟩⟩)
    | none =>
      unfold beginHistory
      rw [hclosed]
      refine (obeys_ask (may_of_asks (by rintro _ ⟨⟩) _ _)).mono fun h' r hr => ⟨hr.1, ?_⟩
      rintro time rfl
      obtain ⟨r, rfl, heq⟩ := hr.2 time rfl
      cases heq
      exact .inr ⟨hfrom, .inr ⟨h, [], rfl, hhealth⟩⟩

lemma obeys_fromOldest {prev : TractionState} {health : Health} {gaps : List (ℕ × ℕ)}
    (hhealth : ⟨.getHealth, .ok health⟩ ∈ h) (hgaps : Missed prev health gaps) :
    Obeys ((collecting router).ending (EndsWith h fun h' r => Started h' prev health r.1 r.2)) i h
      (fromOldest { prev with gaps := gaps } health).run := by
  unfold fromOldest
  refine obeys_then (obeys_beginHistory hhealth) fun h' time hpre htime => ?_
  exact obeys_pure (.oldest hgaps htime)

lemma obeys_startFrom {prev : TractionState} {health : Health}
    (hhealth : ⟨.getHealth, .ok health⟩ ∈ h) :
    Obeys ((collecting router).ending (EndsWith h fun h' r => Started h' prev health r.1 r.2)) i h
      (startFrom prev health).run := by
  unfold startFrom
  cases hcursor : prev.cursor.filter (· ≠ "") with
  | none => exact obeys_fromOldest hhealth (.inl ⟨hcursor, rfl⟩)
  | some token =>
    have hsome := (Option.filter_eq_some_iff.mp hcursor).1
    dsimp only
    refine obeys_then (obeys_lift _) ?_
    rintro _ ledger - ⟨rfl, hledger⟩
    have hledger : cursorLedger token = some ledger := by
      unfold ledgerOf at hledger
      cases hl : cursorLedger token with
      | none =>
        rw [hl] at hledger
        cases hledger
      | some l =>
        rw [hl] at hledger
        cases hledger
        rfl
    split_ifs with hkept
    · exact obeys_pure (.cursor hsome)
    · exact obeys_fromOldest hhealth (.inr ⟨token, ledger, hsome, hledger, not_le.mp hkept, rfl⟩)

lemma sends_prices : Sends Asks prices.run := by
  refine Thrower.sends_foldlM (fun out feed _ => ?_) _
  exact Thrower.sends_bind (Thrower.sends_ask (by rintro _ ⟨⟩)) fun price => trivial

lemma sends_someOrder {α : Type} (xs : List α) : Sends Asks (someOrder xs) := by
  unfold someOrder anyOf
  suffices h : ∀ (ps : List (List α)) (p : Prog Cmd.Reply (List α)), Sends Asks p →
      Sends Asks ((ps.map .done).foldl Prog.either p) from h _ _ trivial
  intro ps
  induction ps with
  | nil => exact fun p hp => hp
  | cons q ps ih => exact fun p hp => ih _ ⟨hp, trivial⟩

lemma sends_liveOf (user : String) : Sends Asks (liveOf user).run := by
  refine Thrower.sends_bind (Thrower.sends_ask (by rintro _ ⟨⟩)) fun ids => ?_
  refine Thrower.sends_bind (Thrower.sends_mapM fun id _ => Thrower.sends_ask (by rintro _ ⟨⟩))
    fun answers => trivial

lemma sends_liveCounts (prev : TractionState) : Sends Asks (liveCounts prev).run := by
  refine Thrower.sends_bind (Thrower.sends_ask (by rintro _ ⟨⟩)) fun users => ?_
  refine Thrower.sends_foldlM (fun live group _ => ?_) _
  rw [Thrower.run_lift_bind]
  refine Prog.sends_bind (sends_someOrder group) fun group => ?_
  refine Thrower.sends_foldlM (fun live user _ => ?_) _
  exact Thrower.sends_bind (Thrower.sends_tryCatch (sends_liveOf user) fun e => trivial)
    fun counts => trivial

/-- **Every run keeps the discipline.**

**Proof sketch.** The state it stores is made of the stored state it has read, the health it has read
and the pages it has read from there, each from the cursor before it. -/
theorem run_obeys (parse : String → Option ℚ) (options : Options) :
    (run parse router options).run.Obeys (collecting router) options [] := by
  suffices hends : Obeys ((collecting router).ending (EndsWith [] fun _ _ => True)) options []
      (run parse router options).run from
    Prog.Obeys.imp hends (fun _ _ hmay => hmay) (fun _ _ _ => trivial) fun _ _ hcan => hcan
  unfold run
  refine obeys_then (obeys_ask (may_of_asks (by rintro _ ⟨⟩) _ _)) ?_
  rintro h₁ stored hpre₁ ⟨answer, hh₁, hstored⟩
  refine obeys_then (obeys_ask (may_of_asks (by rintro _ ⟨⟩) _ _)) fun h₂ team hpre₂ _ => ?_
  set prev := if options.rebuild then emptyTraction router else stored.getD (emptyTraction router)
    with hprev
  have hfound : prev = emptyTraction router ∨ ⟨.state, .ok (some prev)⟩ ∈ h₂ := by
    rw [hprev]
    split_ifs
    · exact .inl rfl
    · cases stored with
      | none => exact .inl rfl
      | some was =>
        refine .inr (hpre₂.subset ?_)
        cases answer with
        | error e => cases hstored
        | ok a =>
          cases hstored
          rw [hh₁]
          exact List.mem_append_right _ (List.mem_singleton.mpr rfl)
  dsimp only
  by_cases hrouter : prev.router ≠ router
  · rw [if_pos hrouter]
    exact obeys_throw _
  rw [if_neg hrouter]
  refine obeys_then (obeys_ask (may_of_asks (by rintro _ ⟨⟩) _ _)) ?_
  rintro h₃ health hpre₃ ⟨answer, hh₃, hhealth⟩
  have hmem : ⟨.getHealth, .ok health⟩ ∈ h₃ := by
    cases answer with
    | error e => cases hhealth
    | ok a =>
      cases hhealth
      rw [hh₃]
      exact List.mem_append_right _ (List.mem_singleton.mpr rfl)
  refine obeys_then (obeys_lift _) ?_
  rintro _ _ - ⟨rfl, -⟩
  refine obeys_then (obeys_startFrom hmem) fun h₄ started hpre₄ hstarted => ?_
  obtain ⟨start, state⟩ := started
  refine obeys_then (obeys_readEvents start) fun h₅ read hpre₅ hread => ?_
  obtain ⟨es, hreads, hevents⟩ := hread
  have hprices : Obeys ((collecting router).ending (EndsWith h₅ fun _ _ => True)) options h₅
      (pricesFor read).run := by
    unfold pricesFor
    split_ifs
    · exact obeys_of_sends sends_prices fun h c hc => may_of_asks hc _ h
    · exact obeys_pure trivial
  refine obeys_then hprices fun h₆ p hpre₆ _ => ?_
  refine obeys_then (obeys_ask (may_of_asks (by rintro _ ⟨⟩) _ _)) fun h₇ now hpre₇ _ => ?_
  refine obeys_then (obeys_lift _) ?_
  rintro _ counted - ⟨rfl, hcounted⟩
  have happly : applyEvents state read.events p now = some counted := by
    cases happly : applyEvents state read.events p now with
    | none =>
      rw [happly] at hcounted
      cases hcounted
    | some s =>
      rw [happly] at hcounted
      cases hcounted
      rfl
  refine obeys_then (obeys_of_sends (sends_liveCounts counted) fun h c hc => may_of_asks hc _ h)
    fun h₈ live hpre₈ _ => ?_
  refine obeys_then (obeys_lift _) ?_
  rintro _ _ - ⟨rfl, -⟩
  split_ifs
  · exact obeys_pure trivial
  refine (obeys_ask ?_).mono fun h r hr => ⟨hr.1, fun _ _ => trivial⟩
  intro s hs
  have hset : s = next counted read live now := by
    unfold commands at hs
    rcases List.mem_append.mp hs with hs | hs
    · split_ifs at hs
      · cases hs
      · cases List.mem_singleton.mp hs
    · simpa using hs
  have hlater := hpre₅.trans (hpre₆.trans (hpre₇.trans hpre₈))
  refine ⟨prev, health, start, state, es, read.cursor, p, now, counted, read.latest, read.pages, live,
    hfound.imp_right fun hm => ?_, ?_, hstarted.mono hlater,
    hreads.mono (hpre₆.trans (hpre₇.trans hpre₈)), ?_, ?_⟩
  · exact (hpre₃.trans (hpre₄.trans hlater)).subset hm
  · exact (hpre₄.trans hlater).subset hmem
  · rw [← hevents]
    exact happly
  · rw [hset, ← hevents]

end Obeys

/-! ## Every run -/

/-- The runs on one store. -/
abbrev Runs (σ : Type) : Type := Pool σ Options Cmd.Reply (Except Failure Unit)

section Runs

variable {closeTime : ℕ → ℚ} {σ : Type} {view : σ → World} {exec : (c : Cmd) → σ → c.Reply × σ}

/-- What holds between any two steps: the stored state is a count, and what the runs have heard is true
of the node. -/
structure Sound (closeTime : ℕ → ℚ) (view : σ → World) (w : Runs σ) : Prop where
  ok : (view w.store).node.Ok closeTime
  stored : ∀ s, (view w.store).state = some s → Good (view w.store).node s
  heard : ∀ p ∈ w.procs, Facts closeTime (view w.store).node p.heard

lemma facts_nil (n : Node) : Facts closeTime n [] where
  state := nofun
  health := nofun
  page := nofun
  now h₁ time h₂ heq := by simp at heq

lemma Facts.later {n n' : Node} {h : Heard Cmd.Reply} (hf : Facts closeTime n h)
    (hlater : n.Later closeTime n') : Facts closeTime n' h where
  state s hs := (hf.state s hs).later hlater
  health health hm := (hf.health health hm).later hlater
  page start page hm := (hf.page start page hm).later hlater
  now := hf.now

/-- A true answer is added to what was heard. -/
lemma Facts.concat {w w' : World} {h : Heard Cmd.Reply} {c : Cmd} {r : c.Reply}
    (hf : Facts closeTime w.node h) (hgood : ∀ s, w.state = some s → Good w.node s)
    (hmono : Monotone closeTime) (hanswer : Answers closeTime c w r w') :
    Facts closeTime w.node (h ++ [⟨c, r⟩]) where
  state s hs := by
    rcases List.mem_append.mp hs with hs | hs
    · exact hf.state s hs
    · cases List.mem_singleton.mp hs
      exact hgood s (hanswer.2 s rfl)
  health health hm := by
    rcases List.mem_append.mp hm with hm | hm
    · exact hf.health health hm
    · cases List.mem_singleton.mp hm
      exact hanswer.2 health rfl
  page start page hm := by
    rcases List.mem_append.mp hm with hm | hm
    · exact hf.page start page hm
    · cases List.mem_singleton.mp hm
      exact hanswer.2 page rfl
  now h₁ time h₂ heq health hm := by
    rcases concat_eq_append_cons heq with ⟨rfl, hnow, -⟩ | ⟨h₂', -, rfl⟩
    · cases hnow
      exact (hmono (hf.health health hm).oldest).trans hanswer.2
    · exact hf.now h₁ time h₂' rfl health hm

lemma node_of_answers {w w' : World} {c : Cmd} {r : c.Reply} (h : Answers closeTime c w r w') :
    w'.node = w.node := by
  cases c with
  | pipeline commands => exact h.1
  | team => exact congrArg World.node h
  | readOracle feed => exact congrArg World.node h
  | listUsers => exact congrArg World.node h
  | listIds user => exact congrArg World.node h
  | readAutopilot user id => exact congrArg World.node h
  | state => exact congrArg World.node h.1
  | getHealth => exact congrArg World.node h.1
  | getEvents start => exact congrArg World.node h.1
  | now => exact congrArg World.node h.1

/-- The state after an answer is the one before, or one that the pipeline stores. -/
lemma state_of_answers {w w' : World} {c : Cmd} {r : c.Reply} (h : Answers closeTime c w r w')
    {s : TractionState} (hs : w'.state = some s) :
    w.state = some s ∨ ∃ commands, c = .pipeline commands ∧ .set s ∈ commands := by
  cases c with
  | pipeline commands =>
    rcases h.2 with hsame | ⟨s', hmem, hset⟩
    · exact .inl (hsame ▸ hs)
    · obtain rfl := Option.some.inj (hset.symm.trans hs)
      exact .inr ⟨commands, rfl, hmem⟩
  | team => exact .inl (h ▸ hs)
  | readOracle feed => exact .inl (h ▸ hs)
  | listUsers => exact .inl (h ▸ hs)
  | listIds user => exact .inl (h ▸ hs)
  | readAutopilot user id => exact .inl (h ▸ hs)
  | state => exact .inl (h.1 ▸ hs)
  | getHealth => exact .inl (h.1 ▸ hs)
  | getEvents start => exact .inl (h.1 ▸ hs)
  | now => exact .inl (h.1 ▸ hs)

/-- **A step** of a run that keeps the discipline. -/
lemma Sound.call {router : String} (hmono : Monotone closeTime) (hserves : Serves closeTime view exec)
    {w : Runs σ} {m : ℕ} {p : Proc Options Cmd.Reply (Except Failure Unit)} {c : Cmd}
    {left : Prog Cmd.Reply (Except Failure Unit)} (hw : Sound closeTime view w)
    (hp : w.procs[m]? = some p) (hmay : (collecting router).may p.arg p.heard c) :
    Sound closeTime view (w.replace m ⟨p.arg, p.heard ++ [⟨c, (exec c w.store).1⟩], left⟩
      (exec c w.store).2) := by
  obtain ⟨node, hlater, hanswer⟩ := hserves c w.store hw.ok
  have hnode : (view (exec c w.store).2).node = node := node_of_answers hanswer
  have hgood : ∀ s, (view w.store).state = some s → Good node s := fun s hs =>
    (hw.stored s hs).later hlater
  have hfacts : ∀ q ∈ w.procs, Facts closeTime node q.heard := fun q hq =>
    (hw.heard q hq).later hlater
  have hmem := List.mem_of_getElem? hp
  refine ⟨?_, fun s hs => ?_, fun q hq => ?_⟩
  · show (view (exec c w.store).2).node.Ok closeTime
    rw [hnode]
    exact hlater.ok
  · show Good (view (exec c w.store).2).node s
    rw [hnode]
    rcases state_of_answers hanswer hs with hsame | ⟨commands, rfl, hset⟩
    · exact hgood s hsame
    · exact good_of_derived hmono hlater.ok (hfacts p hmem) (hmay s hset)
  · show Facts closeTime (view (exec c w.store).2).node q.heard
    rw [hnode]
    rcases List.mem_or_eq_of_mem_set hq with hq | rfl
    · exact hfacts q hq
    · exact (hfacts p hmem).concat hgood hmono hanswer

/-- **Every event counts once**: any number of runs, rebuilds among them, overlap, fail or are cut off
at any point, while events are added in later ledgers and the RPC forgets the old ones. Whatever state
is stored then, each wallet's runs, swaps, saves and clears are those of some of the ledger's events,
each counted once; and every event of the router that the cursor has passed is among them, unless its
ledger is in a gap that the state records or it is older than the history.

**Proof sketch.** A state is stored only if it follows from what its run has heard (`run_obeys`), and
what a run has heard stays true while the ledger goes on, since pages end at closed ledgers. So it is a
count (`good_of_derived`), whatever the other runs have stored meanwhile. -/
theorem every_event_counted_once (hmono : Monotone closeTime) (hserves : Serves closeTime view exec)
    (parse : String → Option ℚ) (router : String) {x : σ} (hok : (view x).node.Ok closeTime)
    (hnone : (view x).state = none) (acts : List (Act Options)) :
    let w := view (Pool.run (fun options => (run parse router options).run) exec ⟨x, []⟩ acts).store
    ∀ s, w.state = some s → (s.wallets.map (·.address)).Nodup ∧ ∃ es : List LogEvent,
      es.Sublist w.node.log ∧ es.Nodup ∧
      (∀ wallet ∈ s.wallets, (wallet.trades, wallet.swaps, wallet.sets, wallet.clears) =
        tally (es.filterMap said) wallet.address) ∧
      (∀ e ∈ es, ∃ r, said e = some r ∧ ∃ wallet ∈ s.wallets, wallet.address = r.user) ∧
      ∃ (q : Place) (time : ℚ), s.cursor = some q.text ∧ s.historyFrom = some time ∧ ∀ e ∈ w.node.log,
        (said e).isSome → e.place.key ≤ q.key → time < e.time →
          e ∈ es ∨ ∃ g ∈ s.gaps, g.1 ≤ e.place.ledger ∧ e.place.ledger ≤ g.2 := by
  intro w s hs
  have hinit : Sound closeTime view (⟨x, []⟩ : Runs σ) :=
    ⟨hok, fun s hs => absurd (hnone.symm.trans hs) nofun, nofun⟩
  have hsound : Sound closeTime view
      (Pool.run (fun options => (run parse router options).run) exec ⟨x, []⟩ acts) :=
    (Pool.run_invariant (d := collecting router) (I := Sound closeTime view)
    (P := fun _ _ => True) _ exec (fun options => run_obeys parse options) ?_ ?_ ?_ hinit
    (by intro m p hp; simp at hp) (Pool.along_of_forall _ _ (fun _ _ => trivial) _ acts)).1
  · obtain ⟨es, q, hheld⟩ := hsound.stored s hs
    obtain ⟨time, htime, hall⟩ := hheld.complete q rfl
    have hnodup : w.node.log.Nodup := hsound.ok.sorted.imp fun hlt heq => by
      subst heq
      exact lt_irrefl _ hlt
    refine ⟨hheld.ledger.addresses, es, hheld.sublist, hnodup.sublist hheld.sublist, ?_, ?_, q, time,
      hheld.cursor, htime, hall⟩
    · intro wallet hwallet
      rw [← hheld.counts, tallyOf, sum_counts_of_mem hheld.ledger.addresses hwallet]
      rfl
    · intro e he
      obtain ⟨r, hr⟩ := Option.isSome_iff_exists.mp (hheld.said e he)
      refine ⟨r, hr, exists_wallet ?_⟩
      rw [hheld.counts]
      exact tally_ne_zero (List.mem_filterMap.mpr ⟨e, he, hr⟩)
  · intro w options hw
    refine ⟨hw.ok, hw.stored, fun p hp => ?_⟩
    rcases List.mem_append.mp hp with hp | hp
    · exact hw.heard p hp
    · obtain rfl := List.mem_singleton.mp hp
      exact facts_nil _
  · intro w m p left hw hp _
    refine ⟨hw.ok, hw.stored, fun q hq => ?_⟩
    rcases List.mem_or_eq_of_mem_set hq with hq | rfl
    · exact hw.heard q hq
    · exact hw.heard p (List.mem_of_getElem? hp)
  · intro w m second p c next hw hp _ _ hmay
    exact ⟨trivial, hw.call hmono hserves hp hmay⟩

end Runs

/-! ## Two runs at once -/

def sampleTime (ledger : ℕ) : ℚ := (ledger * 5000 : ℕ)

/-- The first event of a ledger. -/
def samplePlace (ledger : ℕ) (h : ledger < 100) : Place where
  toid := ledger * 2 ^ 32
  index := 1
  toid_lt := by omega
  index_lt := by norm_num

def sampleSet : LogEvent :=
  ⟨samplePlace 2 (by norm_num), sampleTime 2, [.string "autopilot_set", .string "CUSER"],
    .object [("account_id", .bigint 1), ("autopilot_id", .number 1), ("rules", .number 2)], "a0"⟩

def sampleFired : LogEvent :=
  ⟨samplePlace 3 (by norm_num), sampleTime 3, [.string "fired", .string "CUSER"],
    .object [("amount", .bigint 7), ("kind", .string "swap")], "b1"⟩

def sampleTip : Place := samplePlace 5 (by norm_num)

def sampleNode : Node := ⟨[sampleSet, sampleFired], 5⟩

lemma sampleNode_ok : sampleNode.Ok sampleTime where
  sorted := by simp [sampleNode, sampleSet, sampleFired, samplePlace, Place.key]
  closed := by
    intro e he
    rcases List.mem_cons.mp he with rfl | he
    · decide
    · obtain rfl := List.mem_singleton.mp he
      decide
  times := by
    intro e he
    rcases List.mem_cons.mp he with rfl | he
    · rfl
    · obtain rfl := List.mem_singleton.mp he
      rfl

/-- A page with the first event, one with the second, and none after that. -/
def samplePage (start : From) : Except String Page :=
  if start = .startLedger 2 then .ok ⟨[sampleSet], sampleSet.place.text, 5⟩
  else if start = .cursor sampleSet.place.text then .ok ⟨[sampleFired], sampleTip.text, 5⟩
  else if start = .cursor sampleTip.text then .ok ⟨[], sampleTip.text, 5⟩
  else .error "start is out of the range of the ledgers"

lemma begins_cursor {p : Place} {k : ℕ} (h : (From.cursor p.text).Begins k) : k = p.key + 1 := by
  obtain ⟨q, heq, rfl⟩ := h
  rw [text_inj heq]

lemma samplePage_of {start : From} {page : Page} (h : samplePage start = .ok page) :
    page.Of sampleNode start := by
  unfold samplePage at h
  split_ifs at h with hfirst hsecond hthird
  · cases h
    subst hfirst
    rintro k rfl
    refine ⟨sampleSet.place, rfl, by decide +kernel, by decide +kernel, ?_⟩
    rw [Node.between, sampleNode, List.filter_cons_of_pos (by decide +kernel),
      List.filter_cons_of_neg (by decide +kernel), List.filter_nil]
  · cases h
    subst hsecond
    intro k hk
    obtain rfl := begins_cursor hk
    refine ⟨sampleTip, rfl, by decide +kernel, by decide +kernel, ?_⟩
    rw [Node.between, sampleNode, List.filter_cons_of_neg (by decide +kernel),
      List.filter_cons_of_pos (by decide +kernel), List.filter_nil]
  · cases h
    subst hthird
    intro k hk
    obtain rfl := begins_cursor hk
    refine ⟨sampleTip, rfl, by decide +kernel, by decide +kernel, ?_⟩
    rw [Node.between, sampleNode, List.filter_cons_of_neg (by decide +kernel),
      List.filter_cons_of_neg (by decide +kernel), List.filter_nil]

def StoreCmd.state? : StoreCmd → Option TractionState
  | .set state => some state
  | _ => none

def sampleExec : (c : Cmd) → Option TractionState → c.Reply × Option TractionState
  | .state, s => (.ok s, s)
  | .team, s => (.ok none, s)
  | .getHealth, s => (.ok ⟨none, some 5⟩, s)
  | .getEvents start, s => (samplePage start, s)
  | .readOracle _, s => (none, s)
  | .now, s => (sampleTime 5, s)
  | .listUsers, s => (.ok ["CUSER"], s)
  | .listIds _, s => (.ok [1], s)
  | .readAutopilot _ _, s => (.ok (some 2), s)
  | .pipeline commands, s => (.ok [], (commands.findSome? StoreCmd.state?).or s)

lemma sampleExec_serves : Serves sampleTime (World.mk sampleNode) sampleExec := by
  intro c s hok
  refine ⟨sampleNode, ⟨⟨[], (List.append_nil _).symm, nofun⟩, le_rfl, hok⟩, ?_⟩
  cases c with
  | state => exact ⟨rfl, fun _ h => Except.ok.inj h⟩
  | getHealth =>
    refine ⟨rfl, fun health h => ?_⟩
    cases h
    refine ⟨show 1 ≤ 5 by decide, fun t ht => ?_⟩
    cases ht
    norm_num [sampleTime]
  | getEvents start => exact ⟨rfl, fun _ h => samplePage_of h⟩
  | now => exact ⟨rfl, le_rfl⟩
  | pipeline commands =>
    refine ⟨rfl, ?_⟩
    show (commands.findSome? StoreCmd.state?).or s = s ∨ _
    cases hfound : commands.findSome? StoreCmd.state? with
    | none => exact .inl rfl
    | some state =>
      obtain ⟨command, hmem, hstate⟩ := List.exists_of_findSome?_eq_some hfound
      refine .inr ⟨state, ?_, by rw [sampleExec, hfound]; rfl⟩
      cases command with
      | set state' =>
        cases hstate
        exact hmem
      | _ => cases hstate
  | team => rfl
  | readOracle feed => rfl
  | listUsers => rfl
  | listIds user => rfl
  | readAutopilot user id => rfl

/-- Two runs that take turns. -/
def sampleActs : List (Act Options) :=
  [.start ⟨false, false⟩, .start ⟨false, false⟩] ++
    (List.replicate 14 [.move 0 false, .move 1 false]).flatten

def sampleStore : Option TractionState :=
  (Pool.run (fun options => (run (fun _ => none) "CROUTER" options).run) sampleExec ⟨none, []⟩
    sampleActs).store

/-- Both store the count of the same two events. -/
theorem every_event_counted_once_sample :
    (sampleStore.map fun s => s.wallets.map fun w => (w.address, w.counts)) =
        some [("CUSER", 1, 0, 1, 0)] ∧
      ∀ s, sampleStore = some s → (s.wallets.map (·.address)).Nodup := by
  refine ⟨by decide +kernel, fun s hs => ?_⟩
  exact (every_event_counted_once (x := none)
    (fun a b hle => Nat.cast_le.mpr (Nat.mul_le_mul_right 5000 hle)) sampleExec_serves (fun _ => none)
    "CROUTER" sampleNode_ok rfl sampleActs s hs).1

end Collector

end Koul.Traction
