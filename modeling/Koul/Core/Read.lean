import Koul.Competition.Indexer
import Koul.Lib.Js

set_option relaxedAutoImplicit false
set_option autoImplicit false

/-!
# Reading a wallet's runs

`readFired` of `read.ts` of `@koul/core`: the `fired` events of one wallet, in windows of ledgers, each
read page by page. The RPC's log is given; an answer is the next page of the matching events, and only
the first request of a window has an end, which the RPC leaves out.

## Main definitions

* `Koul.Events.Event`, `Koul.Events.EventFilter` — the events of the RPC and its filters.
* `Koul.Events.readRange` — one window, read on by cursor.
* `Koul.Events.readFired` — the wallet's runs.
* `Koul.Events.Covered` — when a window's read misses nothing.

## Main results

* `Koul.Events.readRange_eq` — what a window's read finds.
* `Koul.Events.readRange_eq_iff` — it finds everything exactly when the window is covered.
* `Koul.Events.readFired_perm_iff` — the same of the whole walk.
-/

namespace Koul.Events

open Competition (Topic Segment matchesTopics)

/-! ## The RPC -/

/-- The native value of an event: an object, or any other. The router's and the policy's events hold
objects, a token's an amount, and the event of a removed rule nothing. -/
inductive EventValue
  | record (fields : List (String × Js))
  | plain (native : Js)
deriving Repr

structure Event where
  id : String
  ledger : ℤ
  ledgerClosedAt : String
  txHash : String
  contractId : String
  topics : List Topic
  value : EventValue
deriving Repr

/-- A filter of the RPC, with the topics it asks for in one place or another. -/
structure EventFilter where
  contractIds : List String
  topics : List (List Segment)
deriving DecidableEq, Repr

def EventFilter.matches (f : EventFilter) (e : Event) : Bool :=
  (f.contractIds.isEmpty || e.contractId ∈ f.contractIds) &&
    (f.topics.isEmpty || f.topics.any fun ts => matchesTopics ts e.topics)

/-- An event that one of the filters matches. -/
def matchesAny (filters : List EventFilter) (e : Event) : Bool := filters.any (·.matches e)

/-- `getEvents` from a ledger to the one before another, with what is left for the cursor. -/
def getEvents (log : List Event) (filters : List EventFilter) (limit : ℕ)
    (startLedger endLedger : ℤ) : List Event × List Event :=
  Paged.page (fun e => matchesAny filters e &&
    (decide (startLedger ≤ e.ledger) && decide (e.ledger < endLedger))) limit log

/-- `getEvents` from a cursor on: without an end. -/
def getEventsFrom (rest : List Event) (filters : List EventFilter) (limit : ℕ) :
    List Event × List Event :=
  Paged.page (matchesAny filters) limit rest

/-! ## A window -/

/-- Fewer than the limit; there may be none. -/
def below (limit : Option ℕ) (n : ℕ) : Bool := limit.all (n < ·)

section Window

variable {R : Type} (row : Event → Option R) (filters : List EventFilter) (size : ℕ)

/-- The pages of a window from an answer on. An event beyond the window's last ledger ends its page, and
one that makes no row is skipped; the next page is asked for while the page was full and ended inside
the window. -/
def readPages (limit : Option ℕ) (last : ℤ) : ℕ → List Event × List Event → List R → List R
  | 0, res, out => out ++ (res.1.takeWhile fun e => decide (e.ledger ≤ last)).filterMap row
  | fuel + 1, res, out =>
    let out := out ++ (res.1.takeWhile fun e => decide (e.ledger ≤ last)).filterMap row
    if res.1.length = size ∧ res.1.getLast?.any (fun e => decide (e.ledger ≤ last)) ∧
        below limit out.length then
      readPages limit last fuel (getEventsFrom res.2 filters size) out
    else out

/-- A window: the first request asks for its ledgers, with the last of them as the end. -/
def readRange (log : List Event) (limit : Option ℕ) (w : ℤ × ℤ) (out : List R) : List R :=
  readPages row filters size limit w.2 log.length (getEvents log filters size w.1 w.2) out

/-- The matching events of a range. -/
def eventsIn (log : List Event) (lo hi : ℤ) : List Event :=
  log.filter fun e => matchesAny filters e && (decide (lo ≤ e.ledger) && decide (e.ledger ≤ hi))

/-- The matching events of a range without its last ledger. -/
def eventsBefore (log : List Event) (lo hi : ℤ) : List Event :=
  log.filter fun e => matchesAny filters e && (decide (lo ≤ e.ledger) && decide (e.ledger < hi))

/-- A window whose read misses nothing: a page of matching events lies before its last ledger, or no
event in its last ledger makes a row. -/
def Covered (log : List Event) (w : ℤ × ℤ) : Prop :=
  size ≤ (eventsBefore filters log w.1 w.2).length ∨
    ∀ e ∈ log, matchesAny filters e → w.1 ≤ e.ledger → e.ledger = w.2 → row e = none

variable {row filters size} {log : List Event}

/-- Without a limit the rows are those of the events that reading on finds. -/
lemma readPages_eq (last : ℤ) {fuel : ℕ} {res : List Event × List Event} (out : List R)
    (hsorted : (res.1 ++ res.2).Pairwise fun a b => a.ledger ≤ b.ledger) :
    readPages row filters size none last fuel res out =
      out ++ (Paged.follow (matchesAny filters) (fun e => decide (e.ledger ≤ last)) size fuel
        res).filterMap row := by
  have htake : ∀ l : List Event, (l.Pairwise fun a b => a.ledger ≤ b.ledger) →
      (l.takeWhile fun e => decide (e.ledger ≤ last)) =
        l.filter fun e => decide (e.ledger ≤ last) := by
    intro l hl
    exact Paged.takeWhile_eq_filter (Paged.pairwise_le hl last)
  induction fuel generalizing res out with
  | zero =>
    rw [readPages, Paged.follow, htake _ (hsorted.sublist (List.sublist_append_left _ _))]
  | succ fuel ih =>
    have hrest : ((getEventsFrom res.2 filters size).1 ++
        (getEventsFrom res.2 filters size).2).Pairwise fun a b => a.ledger ≤ b.ledger :=
      hsorted.sublist ((Paged.page_sublist _ _).trans (List.sublist_append_right _ _))
    rw [readPages, Paged.follow, htake _ (hsorted.sublist (List.sublist_append_left _ _)),
      List.filterMap_append]
    have hbelow : ∀ n, below none n = true := fun _ => rfl
    by_cases hfull : res.1.length = size ∧
        res.1.getLast?.any (fun e => decide (e.ledger ≤ last)) = true
    · rw [if_pos ⟨hfull.1, hfull.2, hbelow _⟩, if_pos hfull, ih _ hrest, List.append_assoc]
      rfl
    · rw [if_neg fun h => hfull ⟨h.1, h.2.1⟩, if_neg hfull, List.filterMap_nil, List.append_nil]

/-- **What a window's read finds**: all of it where a page of matching events lies before its last
ledger, and else nothing of that ledger. -/
theorem readRange_eq (hsorted : log.Pairwise fun a b => a.ledger ≤ b.ledger) (hsize : 0 < size)
    (w : ℤ × ℤ) (out : List R) : readRange row filters size log none w out =
      out ++ (if size ≤ (eventsBefore filters log w.1 w.2).length then eventsIn filters log w.1 w.2
        else eventsBefore filters log w.1 w.2).filterMap row := by
  have hsub : ((getEvents log filters size w.1 w.2).1 ++
      (getEvents log filters size w.1 w.2).2).Sublist log := Paged.page_sublist _ _
  rw [readRange, readPages_eq w.2 out (hsorted.sublist hsub), getEvents, Paged.follow_before hsize]
  · rfl
  · exact Paged.pairwise_since hsorted w.1
  · exact Paged.pairwise_le hsorted w.2
  · exact Paged.pairwise_lt hsorted w.2
  · intro e he
    simp only [decide_eq_true_eq] at he ⊢
    omega

/-- A range is what comes before its last ledger, then that ledger. -/
lemma eventsIn_eq (hsorted : log.Pairwise fun a b => a.ledger ≤ b.ledger) (lo hi : ℤ) :
    eventsIn filters log lo hi = eventsBefore filters log lo hi ++
      log.filter fun e => matchesAny filters e && (decide (lo ≤ e.ledger) &&
        decide (e.ledger = hi)) := by
  rw [eventsIn, Paged.filter_cut (fun e : Event => decide (e.ledger < hi)) _
    (Paged.pairwise_lt hsorted hi), eventsBefore]
  congr 1
  all_goals
    apply List.filter_congr
    intro e _
    rw [Bool.eq_iff_iff]
    simp only [Bool.and_eq_true, Bool.not_eq_true', decide_eq_true_eq, decide_eq_false_iff_not]
    constructor
    · rintro ⟨⟨hm, hlo, hhi⟩, hcut⟩
      exact ⟨hm, hlo, by omega⟩
    · rintro ⟨hm, hlo, hhi⟩
      exact ⟨⟨hm, hlo, by omega⟩, by omega⟩

/-- A window's read finds no row that is not in the range, and none twice. -/
lemma readRange_sublist (hsorted : log.Pairwise fun a b => a.ledger ≤ b.ledger) (hsize : 0 < size)
    (w : ℤ × ℤ) : (readRange row filters size log none w []).Sublist
      ((eventsIn filters log w.1 w.2).filterMap row) := by
  rw [readRange_eq hsorted hsize, List.nil_append]
  split
  · exact List.Sublist.refl _
  · rw [eventsIn_eq hsorted]
    exact (List.sublist_append_left _ _).filterMap row

/-- **A window's read misses nothing** exactly when the window is covered. -/
theorem readRange_eq_iff (hsorted : log.Pairwise fun a b => a.ledger ≤ b.ledger) (hsize : 0 < size)
    (w : ℤ × ℤ) : readRange row filters size log none w [] =
      (eventsIn filters log w.1 w.2).filterMap row ↔ Covered row filters size log w := by
  rw [readRange_eq hsorted hsize, List.nil_append, Covered]
  split
  · next hmany => exact iff_of_true rfl (.inl hmany)
  · next hfew =>
    rw [eventsIn_eq hsorted, List.filterMap_append, List.self_eq_append_right,
      List.filterMap_eq_nil_iff, or_iff_right hfew]
    simp only [List.mem_filter, Bool.and_eq_true, decide_eq_true_eq]
    exact ⟨fun h e he hm hlo hhi => h e ⟨he, hm, hlo, hhi⟩,
      fun h e he => h e he.1 he.2.1 he.2.2.1 he.2.2.2⟩

end Window

/-! ## The walk -/

def EVENT_WINDOW : ℤ := 5000

def EVENT_PAGE : ℕ := 200

/-- What the node's health names; the oldest ledger may be missing. -/
structure Health where
  latestLedger : Option ℤ
  oldestLedger : Option ℤ

/-- The window of ledgers this RPC still answers for, newest first. -/
def ledgerRange (health : Health) (latestLedger : ℤ) : ℤ × ℤ :=
  (health.latestLedger.getD latestLedger, max 1 (health.oldestLedger.getD 1 + 1))

/-- A run of the wallet's autopilot. The fields of the event's value stand beside the others. -/
structure FiredEvent where
  ledger : ℤ
  txHash : String
  user : String
  value : List (String × Js)
deriving Repr

/-- The row of an event. Router v1 emitted `Fired` without a kind; those are not autopilot events. -/
def firedRow (user : String) (e : Event) : Option FiredEvent :=
  match e.value with
  | .record fields =>
    match Js.field fields "kind" with
    | .string _ => some ⟨e.ledger, e.txHash, user, fields⟩
    | _ => none
  | .plain _ => none

def firedFilters (router user : String) : List EventFilter :=
  [⟨[router], [[.is (.symbol "fired"), .is (.address user)]]⟩]

/-- The windows from the start on, until the limit is reached. -/
def readFiredWindows (log : List Event) (router user : String) (limit : Option ℕ) :
    List (ℤ × ℤ) → List FiredEvent → List FiredEvent
  | [], out => out
  | w :: ws, out =>
    if below limit out.length then
      readFiredWindows log router user limit ws
        (readRange (firedRow user) (firedFilters router user) EVENT_PAGE log limit w out)
    else out

/-- The windows of a read: from the start, or from what the node still has, to the newest ledger. -/
def firedWindows (latest oldest startLedger : ℤ) : List (ℤ × ℤ) :=
  Paged.windows EVENT_WINDOW latest (latest + 1 - max startLedger oldest).toNat
    (max startLedger oldest)

/-- `Fired` events for one wallet from a ledger to now; no limit is `Infinity`. -/
def readFired (log : List Event) (health : Health) (latestLedger : ℤ) (router user : String)
    (startLedger : ℤ) (limit : Option ℕ) : List FiredEvent :=
  let range := ledgerRange health latestLedger
  let out := readFiredWindows log router user limit (firedWindows range.1 range.2 startLedger) []
  limit.elim out out.take

/-- The runs of a range. -/
def firedIn (log : List Event) (router user : String) (lo hi : ℤ) : List FiredEvent :=
  (eventsIn (firedFilters router user) log lo hi).filterMap (firedRow user)

lemma readFiredWindows_eq {log : List Event}
    (hsorted : log.Pairwise fun a b => a.ledger ≤ b.ledger) (router user : String)
    (ws : List (ℤ × ℤ)) (out : List FiredEvent) :
    readFiredWindows log router user none ws out = out ++ ws.flatMap fun w =>
      readRange (firedRow user) (firedFilters router user) EVENT_PAGE log none w [] := by
  induction ws generalizing out with
  | nil => rw [readFiredWindows, List.flatMap_nil, List.append_nil]
  | cons w ws ih =>
    have hbelow : below none out.length = true := rfl
    rw [readFiredWindows, if_pos hbelow, ih, List.flatMap_cons, ← List.append_assoc,
      readRange_eq hsorted (by decide), readRange_eq hsorted (by decide), List.nil_append]

/-- The windows of a read are its range. -/
lemma flatMap_firedWindows {log : List Event}
    (hsorted : log.Pairwise fun a b => a.ledger ≤ b.ledger) (router user : String)
    (latest oldest startLedger : ℤ) :
    ((firedWindows latest oldest startLedger).flatMap fun w => firedIn log router user w.1 w.2) =
      firedIn log router user (max startLedger oldest) latest := by
  have hwindows := Paged.flatMap_windows hsorted (matchesAny (firedFilters router user))
    (by decide : 0 < EVENT_WINDOW)
    (show latest < max startLedger oldest + ((latest + 1 - max startLedger oldest).toNat : ℤ) by
      omega)
  rw [firedIn, eventsIn, ← hwindows, List.filterMap_flatMap]
  rfl

/-- **The runs of a wallet** are all found, each once, exactly when every window is covered. -/
theorem readFired_perm_iff {log : List Event}
    (hsorted : log.Pairwise fun a b => a.ledger ≤ b.ledger) (health : Health) (latestLedger : ℤ)
    (router user : String) (startLedger : ℤ) :
    let range := ledgerRange health latestLedger
    (readFired log health latestLedger router user startLedger none).Perm
        (firedIn log router user (max startLedger range.2) range.1) ↔
      ∀ w ∈ firedWindows range.1 range.2 startLedger,
        Covered (firedRow user) (firedFilters router user) EVENT_PAGE log w := by
  intro range
  rw [← flatMap_firedWindows hsorted]
  show (readFiredWindows log router user none _ []).Perm _ ↔ _
  rw [readFiredWindows_eq hsorted, List.nil_append, Paged.flatMap_perm_iff]
  · exact forall₂_congr fun w _ => readRange_eq_iff hsorted (by decide) w
  · intro w _
    exact readRange_sublist hsorted (by decide) w

end Koul.Events
