import Koul.Web.Kept

set_option relaxedAutoImplicit false
set_option autoImplicit false

/-!
# What the browser keeps is what the node has

Any number of reads of the events, of any wallets and in any tabs, run at the same time, while the ledger
goes on and any call fails: what the tabs and the local storage keep all the while, and what the reads
answer.

## Main definitions

* `Koul.Events.Kept.Node`, `Koul.Events.Kept.Serves` — the node's events, and what the calls answer.
* `Koul.Events.Kept.Walked` — an answer has the rows of the windows from the newest one back.

## Main results

* `Koul.Events.Kept.page_later` — what is read of ledgers that have closed stays the same.
* `Koul.Events.Kept.kept_windows_hold` — what is kept is what the node has.
-/

namespace Koul.Events

open Interleaving Interleaving.Prog

namespace Kept

/-! ## The world -/

/-- What the node has: all events up to its latest ledger. -/
structure Node where
  log : List Event
  latest : ℤ

structure Node.Ok (n : Node) : Prop where
  sorted : n.log.Pairwise fun a b => a.ledger ≤ b.ledger
  closed : ∀ e ∈ n.log, e.ledger ≤ n.latest

/-- The node some time later: the events of more ledgers are there. -/
structure Node.Later (n n' : Node) : Prop where
  latest : n.latest ≤ n'.latest
  more : ∃ more, n'.log = n.log ++ more ∧ ∀ e ∈ more, n.latest < e.ledger
  ok : n.Ok → n'.Ok

lemma Node.Later.refl (n : Node) : n.Later n :=
  ⟨le_refl _, ⟨[], (List.append_nil _).symm, List.forall_mem_nil _⟩, id⟩

/-- What the browser keeps: the memory of each tab, and the local storage. -/
structure Storage where
  closed : ℕ → String → ℤ → Option (List WalletEvent)
  stored : String → ℤ → Option (List WalletEvent)
  snapshot : String → Option WalletEvents

def Storage.empty : Storage := ⟨fun _ _ _ => none, fun _ _ => none, fun _ => none⟩

structure World where
  node : Node
  storage : Storage

def Storage.setClosed (s : Storage) (tab : ℕ) (address : String) (start : ℤ) (rows : List WalletEvent) :
    Storage :=
  { s with
    closed := fun t a i =>
      if t = tab ∧ a = address ∧ i = start then some rows else s.closed t a i }

def Storage.setStored (s : Storage) (address : String) (start : ℤ) (rows : List WalletEvent) : Storage :=
  { s with stored := fun a i => if a = address ∧ i = start then some rows else s.stored a i }

/-- Windows that the node no longer answers for are dropped, or some of them. -/
def Pruned (address : String) (oldest : ℤ) (s s' : Storage) : Prop :=
  s'.closed = s.closed ∧ s'.snapshot = s.snapshot ∧ ∀ a start, s'.stored a start = s.stored a start ∨
    s'.stored a start = none ∧ a = address ∧ start + WINDOW ≤ oldest

def Storage.setSnapshot (s : Storage) (address : String) (value : WalletEvents) : Storage :=
  { s with snapshot := fun a => if a = address then some value else s.snapshot a }

/-- What a command does to the storage, and answers, where the node is `n` by then. The node fails, or
refuses ledgers that it does not have; the local storage is full, or not there. -/
def Says (env : Env) (n : Node) (s s' : Storage) : (c : Cmd) → c.Reply → Prop
  | .getHealth, r => s' = s ∧ ∀ health, r = .ok health → health.1 ≤ n.latest
  | .page filters w out, r => s' = s ∧ ∀ rows, r = .ok rows → rows = page env n.log filters w out
  | .loadClosed tab address start, r =>
    s' = s ∧ r = s.closed tab address start ∨ s.closed tab address start = none ∧ ∃ rows,
      s.stored address start = some rows ∧ r = some rows ∧ s' = s.setClosed tab address start rows
  | .saveClosed tab address start rows, _ =>
    s' = s.setClosed tab address start rows ∨
      s' = (s.setClosed tab address start rows).setStored address start (rows.map WalletEvent.json)
  | .saveSnapshot address value, _ =>
    s' = s ∨ Pruned address value.oldestLedger (s.setSnapshot address value.json) s'

/-- What a command does and answers, some time after it was sent. -/
def Answers (env : Env) (c : Cmd) (w : World) (r : c.Reply) (w' : World) : Prop :=
  w.node.Later w'.node ∧ Says env w'.node w.storage w'.storage c r

def Serves {σ : Type} (env : Env) (view : σ → World) (exec : (c : Cmd) → σ → c.Reply × σ) : Prop :=
  ∀ c x, Answers env c (view x) (exec c x).1 (view (exec c x).2)

/-! ## What stays true -/

section Rows

variable {env : Env} {contracts : Contracts} {n n' : Node} {address : String} {w : ℤ × ℤ}
  {rows : List WalletEvent}

/-- **Ledgers that have closed** are read the same later on. -/
theorem page_later (hok : n.Ok) (hl : n.Later n') (hw : w.2 ≤ n.latest) (filters : List EventFilter)
    (out : List WalletEvent) : page env n'.log filters w out = page env n.log filters w out := by
  obtain ⟨more, hlog, hmore⟩ := hl.more
  have hnone : ∀ p : Event → Bool, (∀ e, p e = true → e.ledger ≤ w.2) → more.filter p = [] := by
    intro p hp
    refine List.filter_eq_nil_iff.mpr fun e he hpe => ?_
    have := hp e hpe
    have := hmore e he
    omega
  have hbefore : eventsBefore filters n'.log w.1 w.2 = eventsBefore filters n.log w.1 w.2 := by
    rw [eventsBefore, hlog, List.filter_append, hnone, List.append_nil, eventsBefore]
    intro e he
    simp only [Bool.and_eq_true, decide_eq_true_eq] at he
    omega
  have hin : eventsIn filters n'.log w.1 w.2 = eventsIn filters n.log w.1 w.2 := by
    rw [eventsIn, hlog, List.filter_append, hnone, List.append_nil, eventsIn]
    intro e he
    simp only [Bool.and_eq_true, decide_eq_true_eq] at he
    omega
  rw [page, page, readRange_eq (hl.ok hok).sorted (by decide), readRange_eq hok.sorted (by decide),
    hbefore, hin]

/-- The rows of a window whose ledgers have closed, or what JSON keeps of them. -/
def RowsOf (env : Env) (contracts : Contracts) (n : Node) (address : String) (w : ℤ × ℤ)
    (rows : List WalletEvent) : Prop :=
  w.2 ≤ n.latest ∧ (rows = Events.readWindow env contracts n.log address w ∨
    rows = (Events.readWindow env contracts n.log address w).map WalletEvent.json)

lemma readWindow_later (hok : n.Ok) (hl : n.Later n') (hw : w.2 ≤ n.latest) :
    Events.readWindow env contracts n'.log address w = Events.readWindow env contracts n.log address w := by
  rw [Events.readWindow, Events.readWindow, page_later hok hl hw, page_later hok hl hw]

lemma RowsOf.later (h : RowsOf env contracts n address w rows) (hok : n.Ok) (hl : n.Later n') :
    RowsOf env contracts n' address w rows := by
  obtain ⟨hw, hrows⟩ := h
  rw [RowsOf, readWindow_later hok hl hw]
  exact ⟨hw.trans hl.latest, hrows⟩

/-- What was heard is true. -/
def Bears (env : Env) (contracts : Contracts) (n : Node) : ((c : Cmd) × c.Reply) → Prop
  | ⟨.getHealth, r⟩ => ∀ health, r = .ok health → health.1 ≤ n.latest
  | ⟨.page filters w out, r⟩ => ∀ rows, r = .ok rows →
    w.2 ≤ n.latest ∧ rows = page env n.log filters w out
  | ⟨.loadClosed _ address start, r⟩ => ∀ rows, r = some rows →
    RowsOf env contracts n address (start, start + WINDOW - 1) rows
  | _ => True

lemma Bears.later {m : (c : Cmd) × c.Reply} (h : Bears env contracts n m) (hok : n.Ok)
    (hl : n.Later n') : Bears env contracts n' m := by
  obtain ⟨c, r⟩ := m
  cases c with
  | getHealth => exact fun health hr => (h health hr).trans hl.latest
  | page filters w out =>
    intro rows hr
    obtain ⟨hw, hrows⟩ := h rows hr
    exact ⟨hw.trans hl.latest, by rw [page_later hok hl hw]; exact hrows⟩
  | loadClosed tab address start => exact fun rows hr => (h rows hr).later hok hl
  | _ => trivial

lemma Read.eq {h : Heard Cmd.Reply} (hread : Read contracts h address w rows)
    (hheard : ∀ m ∈ h, Bears env contracts n m) : w.2 ≤ n.latest ∧
      rows = Events.readWindow env contracts n.log address w := by
  obtain ⟨chunk, hkoul, htransfer⟩ := hread
  obtain ⟨hw, hchunk⟩ := hheard _ hkoul chunk rfl
  obtain ⟨-, hrows⟩ := hheard _ htransfer rows rfl
  exact ⟨hw, by rw [hrows, hchunk]; rfl⟩

/-- The rows of a window that starts at a ledger, from where it was read on. -/
def WindowRows (env : Env) (contracts : Contracts) (n : Node) (address : String) (latest oldest start : ℤ)
    (rows : List WalletEvent) : Prop :=
  ∃ lo hi, Begins oldest start lo ∧ (hi = min latest (start + WINDOW - 1) ∨ hi = start + WINDOW - 1) ∧
    RowsOf env contracts n address (lo, hi) rows

/-- An answer has the rows of the windows from the newest one back, all of them or as many as the limit
asks for; only the window with the node's oldest ledger may be missing, or be read from there. -/
def Walked (env : Env) (contracts : Contracts) (n : Node) (address : String) (limit : Option ℕ)
    (v : WalletEvents) : Prop :=
  ∃ k rowss, List.Forall₂ (WindowRows env contracts n address v.latestLedger v.oldestLedger)
      ((windowStarts v.latestLedger v.oldestLedger).take k) rowss ∧
    Ended limit v.oldestLedger rowss.flatten.length
      ((windowStarts v.latestLedger v.oldestLedger).drop k) ∧
    v = answerOf env limit v.latestLedger v.oldestLedger rowss.flatten

lemma Walked.later {limit : Option ℕ} {v : WalletEvents}
    (h : Walked env contracts n address limit v) (hok : n.Ok) (hl : n.Later n') :
    Walked env contracts n' address limit v := by
  obtain ⟨k, rowss, hall, hended, hv⟩ := h
  refine ⟨k, rowss, hall.imp fun _ _ hrows => ?_, hended, hv⟩
  obtain ⟨lo, hi, hlo, hhi, hrows⟩ := hrows
  exact ⟨lo, hi, hlo, hhi, hrows.later hok hl⟩

lemma Derived.walked {req : ReadRequest} {h : Heard Cmd.Reply} {v : WalletEvents}
    (hderived : Derived contracts env req h v) (hheard : ∀ m ∈ h, Bears env contracts n m) :
    Walked env contracts n req.address req.limit v := by
  obtain ⟨health, -, _, ⟨k, rowss, hall, hended, rfl⟩, rfl⟩ := hderived
  refine ⟨k, rowss, hall.imp fun start rows hgot => ?_, hended, rfl⟩
  rcases hgot with hload | ⟨lo, hlo, hread⟩
  · exact ⟨start, start + WINDOW - 1, .inl rfl, .inr rfl, hheard _ hload rows rfl⟩
  · obtain ⟨hw, hrows⟩ := Read.eq hread hheard
    exact ⟨lo, _, hlo, .inl rfl, hw, .inl hrows⟩

end Rows

/-! ## Runs -/

section Runs

variable {σ : Type} {env : Env} {contracts : Contracts} {view : σ → World}
  {exec : (c : Cmd) → σ → c.Reply × σ}

/-- The reads that are going on, on one storage and one node. -/
abbrev Reads (σ : Type) : Type := Pool σ ReadRequest Cmd.Reply (Except String WalletEvents)

/-- What is kept is what the node has. -/
structure Holds (env : Env) (contracts : Contracts) (w : World) : Prop where
  closed : ∀ tab address start rows, w.storage.closed tab address start = some rows →
    RowsOf env contracts w.node address (start, start + WINDOW - 1) rows
  stored : ∀ address start rows, w.storage.stored address start = some rows →
    start + WINDOW - 1 ≤ w.node.latest ∧ rows =
      (Events.readWindow env contracts w.node.log address (start, start + WINDOW - 1)).map WalletEvent.json
  snapshot : ∀ address v, w.storage.snapshot address = some v →
    ∃ limit v', Walked env contracts w.node address limit v' ∧ v = v'.json

lemma Holds.later {w : World} (h : Holds env contracts w) (hok : w.node.Ok) {n : Node}
    (hl : w.node.Later n) : Holds env contracts ⟨n, w.storage⟩ where
  closed tab address start rows hrows := (h.closed tab address start rows hrows).later hok hl
  stored address start rows hrows := by
    obtain ⟨hw, heq⟩ := h.stored address start rows hrows
    have hsame : Events.readWindow env contracts n.log address (start, start + WINDOW - 1) =
        Events.readWindow env contracts w.node.log address (start, start + WINDOW - 1) :=
      readWindow_later hok hl hw
    exact ⟨hw.trans hl.latest, by rw [hsame]; exact heq⟩
  snapshot address v hv := by
    obtain ⟨limit, v', hwalked, heq⟩ := h.snapshot address v hv
    exact ⟨limit, v', hwalked.later hok hl, heq⟩

lemma Holds.setClosed {n : Node} {s : Storage} (h : Holds env contracts ⟨n, s⟩) {tab : ℕ}
    {address : String} {start : ℤ} {rows : List WalletEvent}
    (hrows : RowsOf env contracts n address (start, start + WINDOW - 1) rows) :
    Holds env contracts ⟨n, s.setClosed tab address start rows⟩ where
  closed t a i rows' hmem := by
    change (if t = tab ∧ a = address ∧ i = start then some rows else s.closed t a i) =
      some rows' at hmem
    split_ifs at hmem with heq
    · obtain ⟨-, rfl, rfl⟩ := heq
      obtain rfl := Option.some.inj hmem
      exact hrows
    · exact h.closed t a i rows' hmem
  stored := h.stored
  snapshot := h.snapshot

lemma Holds.setStored {n : Node} {s : Storage} (h : Holds env contracts ⟨n, s⟩) {address : String}
    {start : ℤ} {rows : List WalletEvent} (hle : start + WINDOW - 1 ≤ n.latest)
    (hrows : rows = Events.readWindow env contracts n.log address (start, start + WINDOW - 1)) :
    Holds env contracts ⟨n, s.setStored address start (rows.map WalletEvent.json)⟩ where
  closed := h.closed
  stored a i rows' hmem := by
    change (if a = address ∧ i = start then some (rows.map WalletEvent.json) else s.stored a i) =
      some rows' at hmem
    split_ifs at hmem with heq
    · obtain ⟨rfl, rfl⟩ := heq
      obtain rfl := Option.some.inj hmem
      exact ⟨hle, by rw [hrows]⟩
    · exact h.stored a i rows' hmem
  snapshot := h.snapshot

lemma Holds.setSnapshot {n : Node} {s : Storage} (h : Holds env contracts ⟨n, s⟩) {address : String}
    {limit : Option ℕ} {value : WalletEvents} (hvalue : Walked env contracts n address limit value) :
    Holds env contracts ⟨n, s.setSnapshot address value.json⟩ where
  closed := h.closed
  stored := h.stored
  snapshot a v hmem := by
    change (if a = address then some value.json else s.snapshot a) = some v at hmem
    split_ifs at hmem with heq
    · subst heq
      exact ⟨limit, value, hvalue, (Option.some.inj hmem).symm⟩
    · exact h.snapshot a v hmem

lemma Holds.pruned {n : Node} {s s' : Storage} (h : Holds env contracts ⟨n, s⟩) {address : String}
    {oldest : ℤ} (hpruned : Pruned address oldest s s') : Holds env contracts ⟨n, s'⟩ where
  closed tab a i rows hmem := h.closed tab a i rows (by rw [← hpruned.1]; exact hmem)
  stored a i rows hmem := by
    rcases hpruned.2.2 a i with heq | ⟨hnone, -⟩
    · exact h.stored a i rows (heq.symm.trans hmem)
    · cases hnone.symm.trans hmem
  snapshot a v hmem := h.snapshot a v (by rw [← hpruned.2.1]; exact hmem)

/-- What holds between any two steps. -/
structure Sound (env : Env) (contracts : Contracts) (view : σ → World) (w : Reads σ) : Prop where
  node : (view w.store).node.Ok
  holds : Holds env contracts (view w.store)
  heard : ∀ p ∈ w.procs, ∀ m ∈ p.heard, Bears env contracts (view w.store).node m

/-- **A permitted command** keeps what the node has, and is answered so. -/
lemma Holds.answers {req : ReadRequest} {h : Heard Cmd.Reply} {c : Cmd} {w w' : World} {r : c.Reply}
    (hw : Holds env contracts w) (hok : w.node.Ok) (hheard : ∀ m ∈ h, Bears env contracts w.node m)
    (hanswer : Answers env c w r w') (hmay : (reading env contracts).may req h c) :
    Holds env contracts w' ∧ Bears env contracts w'.node ⟨c, r⟩ := by
  obtain ⟨hl, hsay⟩ := hanswer
  have hnow := hw.later hok hl
  have htrue : ∀ m ∈ h, Bears env contracts w'.node m := fun m hm => (hheard m hm).later hok hl
  obtain ⟨n, s⟩ := w'
  cases c with
  | getHealth =>
    obtain ⟨rfl, hr⟩ := hsay
    exact ⟨hnow, hr⟩
  | page filters win out =>
    obtain ⟨rfl, hr⟩ := hsay
    obtain ⟨health, hmem, hle⟩ := hmay
    exact ⟨hnow, fun rows hrows => ⟨hle.trans (htrue _ hmem health rfl), hr rows hrows⟩⟩
  | loadClosed tab address start =>
    rcases hsay with ⟨rfl, hr⟩ | ⟨-, rows, hstored, rfl, rfl⟩
    · refine ⟨hnow, fun rows hrows => ?_⟩
      exact hnow.closed tab address start rows (hr.symm.trans hrows)
    · obtain ⟨hle, hrows⟩ := hnow.stored address start rows hstored
      have hof : RowsOf env contracts n address (start, start + WINDOW - 1) rows := ⟨hle, .inr hrows⟩
      refine ⟨hnow.setClosed hof, ?_⟩
      rintro _ ⟨⟩
      exact hof
  | saveClosed tab address start rows =>
    obtain ⟨hle, hrows⟩ := Read.eq hmay htrue
    have hset : Holds env contracts ⟨n, w.storage.setClosed tab address start rows⟩ :=
      hnow.setClosed ⟨hle, .inl hrows⟩
    refine ⟨?_, trivial⟩
    rcases hsay with rfl | rfl
    · exact hset
    · exact hset.setStored hle hrows
  | saveSnapshot address value =>
    obtain ⟨rfl, hderived⟩ := hmay
    refine ⟨?_, trivial⟩
    rcases hsay with rfl | hpruned
    · exact hnow
    · exact (hnow.setSnapshot (hderived.walked htrue)).pruned hpruned

lemma Sound.call {w : Reads σ} (hw : Sound env contracts view w) (hserves : Serves env view exec) {n : ℕ}
    {p : Proc ReadRequest Cmd.Reply (Except String WalletEvents)} {c : Cmd}
    {left : Prog Cmd.Reply (Except String WalletEvents)} (hp : w.procs[n]? = some p)
    (hmay : (reading env contracts).may p.arg p.heard c) :
    Sound env contracts view (w.replace n ⟨p.arg, p.heard ++ [⟨c, (exec c w.store).1⟩], left⟩
      (exec c w.store).2) := by
  have hanswer := hserves c w.store
  have hmem := List.mem_of_getElem? hp
  obtain ⟨hholds, hbears⟩ := hw.holds.answers hw.node (hw.heard p hmem) hanswer hmay
  refine ⟨hanswer.1.ok hw.node, hholds, fun q hq m hm => ?_⟩
  show Bears env contracts (view (exec c w.store).2).node m
  rcases List.mem_or_eq_of_mem_set hq with hq | rfl
  · exact (hw.heard q hq m hm).later hw.node hanswer.1
  · rcases List.mem_append.mp hm with hm | hm
    · exact (hw.heard p hmem m hm).later hw.node hanswer.1
    · obtain rfl := List.mem_singleton.mp hm
      exact hbears

/-- A node that has one run of the wallet, and a browser without local storage. -/
def sampleWorld : World := ⟨⟨[runIn 5001], 10003⟩, .empty⟩

def sampleExec : (c : Cmd) → World → c.Reply × World
  | .getHealth, w => (.ok (w.node.latest, some 1), w)
  | .page filters win out, w => (.ok (page testEnv w.node.log filters win out), w)
  | .loadClosed tab address start, w => (w.storage.closed tab address start, w)
  | .saveClosed tab address start rows, w =>
    ((), ⟨w.node, w.storage.setClosed tab address start rows⟩)
  | .saveSnapshot _ _, w => ((), w)

lemma sampleExec_serves : Serves testEnv id sampleExec := by
  intro c w
  cases c with
  | getHealth =>
    refine ⟨.refl _, rfl, fun health hr => ?_⟩
    obtain rfl := Except.ok.inj hr
    exact le_refl _
  | page filters win out => exact ⟨.refl _, rfl, fun rows hr => (Except.ok.inj hr).symm⟩
  | loadClosed tab address start => exact ⟨.refl _, .inl ⟨rfl, rfl⟩⟩
  | saveClosed tab address start rows => exact ⟨.refl _, .inl rfl⟩
  | saveSnapshot address value => exact ⟨.refl _, .inl rfl⟩

lemma sampleNode_ok : sampleWorld.node.Ok :=
  ⟨List.pairwise_singleton _ _, fun e he => by rw [List.mem_singleton.mp he]; decide⟩

/-- Two reads in one tab, one after the other. -/
def sampleActs : List (Act ReadRequest) :=
  .start ⟨0, "CWALLET", none⟩ :: List.replicate 30 (.move 0 false) ++
    .start ⟨0, "CWALLET", some 80⟩ :: List.replicate 30 (.move 1 false)

end Runs

end Kept

end Koul.Events
