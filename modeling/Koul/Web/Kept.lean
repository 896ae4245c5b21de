import Koul.Lib.Embedded
import Koul.Web.Events

set_option relaxedAutoImplicit false
set_option autoImplicit false

/-!
# What the browser keeps of the events

`readWalletEvents` of `web/lib/data/events.ts` with what it keeps: the rows of a window that has closed,
in the tab's memory and in the local storage that all tabs share, and the last answer of a wallet.

## Main definitions

* `Koul.Events.Kept.readWalletEvents` — a read.
* `Koul.Events.Kept.reading` — what a read does, as a discipline.

## Main results

* `Koul.Events.Kept.readWalletEvents_obeys` — a read keeps the discipline.
* `Koul.Events.Kept.readWalletEvents_standing` — of a node that stands still, a read has the answer of one
  that keeps nothing.
-/

namespace Koul.Events

open Interleaving Interleaving.Prog

/-! ## What JSON keeps -/

mutual

/-- What JSON keeps of a value, the big integers as their digits. -/
def json : Js → Js
  | .bigint z => .string (toString z)
  | .notFinite => .null
  | .array items => .array (jsonItems items)
  | .object fields => .object (jsonFields fields)
  | v => v

def jsonItems : List Js → List Js
  | [] => []
  | .undefined :: items => .null :: jsonItems items
  | v :: items => json v :: jsonItems items

def jsonFields : List (String × Js) → List (String × Js)
  | [] => []
  | (_, .undefined) :: fields => jsonFields fields
  | (key, v) :: fields => (key, json v) :: jsonFields fields

end

def WalletEvent.json (e : WalletEvent) : WalletEvent :=
  { e with time := Events.json e.time, value := jsonFields e.value }

def WalletEvents.json (v : WalletEvents) : WalletEvents :=
  { v with events := v.events.map WalletEvent.json }

namespace Kept

/-! ## A read -/

/-- A read of a wallet's events, in a tab of the browser. -/
structure ReadRequest where
  tab : ℕ
  address : String
  limit : Option ℕ

inductive Cmd
  | getHealth
  /-- The rows of a window that has closed, from memory or local storage. -/
  | loadClosed (tab : ℕ) (address : String) (start : ℤ)
  /-- One request of a window, page by page. -/
  | page (filters : List EventFilter) (w : ℤ × ℤ) (out : List WalletEvent)
  | saveClosed (tab : ℕ) (address : String) (start : ℤ) (rows : List WalletEvent)
  | saveSnapshot (address : String) (value : WalletEvents)

@[reducible] def Cmd.Reply : Cmd → Type
  | getHealth => Except String (ℤ × Option ℤ)
  | loadClosed _ _ _ => Option (List WalletEvent)
  | page _ _ _ => Except String (List WalletEvent)
  | saveClosed _ _ _ _ => Unit
  | saveSnapshot _ _ => Unit

abbrev Run (α : Type) : Type := Thrower Cmd.Reply String α

/-- `/ledger range/i` of an error's text. -/
def namesLedgerRange (message : String) : Bool :=
  decide ("ledger range".toList <:+: message.toList.map Char.toLower)

section Read

variable (env : Env) (contracts : Contracts) (req : ReadRequest)

def readWindow (address : String) (w : ℤ × ℤ) : Run (List WalletEvent) := do
  let chunk ← Thrower.ask (.page (koulFilters contracts address) w []) id
  Thrower.ask (.page (transferFilters contracts address) w chunk) id

/-- A window from one of its ledgers on, kept when it has closed and was read from its start. One that
slipped is left. -/
def readFrom (latest start lo hi : ℤ) : Run (Option (List WalletEvent)) := ExceptT.mk do
  let rows ← (readWindow contracts req.address (lo, hi)).run
  match rows with
  | .error message =>
    if lo > start ∧ namesLedgerRange message = true then return .ok none else return .error message
  | .ok rows =>
    if hi < latest ∧ lo = start then
      ask (.saveClosed req.tab req.address start rows) >>= fun _ => return .ok (some rows)
    else return .ok (some rows)

/-- The window that starts at a ledger. -/
def readStart (latest oldest start : ℤ) : Run (Option (List WalletEvent)) := do
  let hi := min latest (start + WINDOW - 1)
  let closed ← Thrower.ask (.loadClosed req.tab req.address start) .ok
  match closed with
  | some rows => return some rows
  | none =>
    let lo := max oldest start
    if lo = oldest then do
      -- the node forgets a ledger every few seconds: asks again where its memory starts
      let fresh ← Thrower.ask .getHealth id
      let lo := max lo (fresh.2.getD 1 + 1 + EDGE)
      if lo > hi then return none else readFrom contracts req latest start lo hi
    else readFrom contracts req latest start lo hi

/-- `Promise.all` of what the promises have come to; the error may be that of any. -/
def settle {β : Type} : List (Except String β) → Except String (List β)
  | [] => .ok []
  | .error message :: _ => .error message
  | .ok b :: rs => (settle rs).map (b :: ·)

/-- The windows of a batch, side by side. -/
def readBatch (latest oldest : ℤ) (batch : List ℤ) : Run (List (Option (List WalletEvent))) :=
  ExceptT.mk do
    let rs ← all (batch.map fun start => (readStart contracts req latest oldest start).run)
    return settle rs

def readBatches (latest oldest : ℤ) : List (List ℤ) → List WalletEvent → Run (List WalletEvent)
  | [], out => return out
  | batch :: rest, out =>
    if below req.limit out.length then do
      let results ← readBatch contracts req latest oldest batch
      let pushed := pushBatch results out
      if pushed.2 then return pushed.1 else readBatches latest oldest rest pushed.1
    else return out

/-- The starts of all windows, from the newest back to the one that has the oldest ledger. -/
def windowStarts (latest oldest : ℤ) : List ℤ :=
  let start := latest / WINDOW * WINDOW
  starts oldest (start + WINDOW - oldest).toNat start

/-- Newest first, up to the limit. -/
def answerOf (limit : Option ℕ) (latest oldest : ℤ) (out : List WalletEvent) : WalletEvents :=
  let sorted := out.mergeSort fun a b => decide (compareEvents env a b ≤ 0)
  ⟨limit.elim sorted sorted.take, oldest, latest⟩

def readWalletEvents : Run WalletEvents := do
  let health ← Thrower.ask .getHealth id
  let latest := health.1
  let oldest := oldestOf health.2
  let out ← readBatches contracts req latest oldest
    (Competition.groups (windowStarts latest oldest) PARALLEL) []
  let value := answerOf env req.limit latest oldest out
  Thrower.ask (.saveSnapshot req.address value) .ok
  return value

end Read

/-! ## What a read has heard -/

section Heard

variable (contracts : Contracts)

/-- Both requests of a window were answered. -/
def Read (h : Heard Cmd.Reply) (address : String) (w : ℤ × ℤ) (rows : List WalletEvent) : Prop :=
  ∃ chunk, ⟨.page (koulFilters contracts address) w [], .ok chunk⟩ ∈ h ∧
    ⟨.page (transferFilters contracts address) w chunk, .ok rows⟩ ∈ h

/-- Where a window is read from: its start, or the node's memory where that starts in it. -/
def Begins (oldest start lo : ℤ) : Prop := lo = start ∨ start ≤ oldest ∧ oldest ≤ lo

/-- The rows of a window were kept, or read. -/
def Got (req : ReadRequest) (latest oldest : ℤ) (h : Heard Cmd.Reply) (start : ℤ)
    (rows : List WalletEvent) : Prop :=
  ⟨.loadClosed req.tab req.address start, some rows⟩ ∈ h ∨ ∃ lo, Begins oldest start lo ∧
    Read contracts h req.address (lo, min latest (start + WINDOW - 1)) rows

/-- A walk ends with its limit, or with the window that has the node's oldest ledger. -/
def Ended (limit : Option ℕ) (oldest : ℤ) (rows : ℕ) (left : List ℤ) : Prop :=
  below limit rows = false ∨ ∀ start ∈ left, start ≤ oldest

/-- The rows of a walk over the first windows. -/
def Out (req : ReadRequest) (latest oldest : ℤ) (h : Heard Cmd.Reply) (out : List WalletEvent) : Prop :=
  ∃ k rowss, List.Forall₂ (Got contracts req latest oldest h)
      ((windowStarts latest oldest).take k) rowss ∧
    Ended req.limit oldest rowss.flatten.length ((windowStarts latest oldest).drop k) ∧
    out = rowss.flatten

/-- An answer that follows from what was heard. -/
def Derived (env : Env) (req : ReadRequest) (h : Heard Cmd.Reply) (value : WalletEvents) : Prop :=
  ∃ health, ⟨.getHealth, .ok health⟩ ∈ h ∧ ∃ out,
    Out contracts req health.1 (oldestOf health.2) h out ∧
    value = answerOf env req.limit health.1 (oldestOf health.2) out

/-- What a read does. -/
def reading (env : Env) (contracts : Contracts) :
    Discipline ReadRequest Cmd.Reply (Except String WalletEvents) where
  may req h
    | .page _ w _ => ∃ health, ⟨.getHealth, .ok health⟩ ∈ h ∧ w.2 ≤ health.1
    | .saveClosed _ address start rows => Read contracts h address (start, start + WINDOW - 1) rows
    | .saveSnapshot address value => address = req.address ∧ Derived contracts env req h value
    | _ => True
  ends req h r := ∀ value, r = .ok value → Derived contracts env req h value
  can _ _ := True

variable {contracts} {env : Env} {req : ReadRequest} {latest oldest start : ℤ} {h h' : Heard Cmd.Reply}
  {rows : List WalletEvent}

lemma Read.mono {address : String} {w : ℤ × ℤ} (hread : Read contracts h address w rows)
    (hsub : h ⊆ h') : Read contracts h' address w rows := by
  obtain ⟨chunk, hkoul, htransfer⟩ := hread
  exact ⟨chunk, hsub hkoul, hsub htransfer⟩

lemma Got.mono (hgot : Got contracts req latest oldest h start rows) (hsub : h ⊆ h') :
    Got contracts req latest oldest h' start rows := by
  rcases hgot with hload | ⟨lo, hlo, hread⟩
  · exact .inl (hsub hload)
  · exact .inr ⟨lo, hlo, hread.mono hsub⟩

lemma Out.mono {out : List WalletEvent} (hout : Out contracts req latest oldest h out)
    (hsub : h ⊆ h') : Out contracts req latest oldest h' out := by
  obtain ⟨k, rowss, hall, hended, rfl⟩ := hout
  exact ⟨k, rowss, hall.imp fun _ _ hgot => hgot.mono hsub, hended, rfl⟩

lemma Derived.mono {value : WalletEvents} (hderived : Derived contracts env req h value)
    (hsub : h ⊆ h') : Derived contracts env req h' value := by
  obtain ⟨health, hmem, out, hout, hvalue⟩ := hderived
  exact ⟨health, hsub hmem, out, hout.mono hsub, hvalue⟩

lemma subset_of_inserted {m : (c : Cmd) × c.Reply} (hins : Inserted m h h') : h ⊆ h' := by
  induction hins with
  | here h => exact List.subset_cons_self m h
  | later m' _ ih => exact List.cons_subset_cons m' ih

/-- What was heard meanwhile takes no permission back. -/
lemma undisturbed_reading : (reading env contracts).Undisturbed req (fun _ => True) fun _ => True := by
  intro c _ m h h' _ hins hmay
  have hsub := subset_of_inserted hins
  cases c with
  | page fs w out =>
    obtain ⟨health, hmem, hle⟩ := hmay
    exact ⟨health, hsub hmem, hle⟩
  | saveClosed tab address start rows => exact Read.mono hmay hsub
  | saveSnapshot address value => exact ⟨hmay.1, hmay.2.mono hsub⟩
  | _ => trivial

end Heard

/-! ## What a read does -/

section Obeys

open Thrower (EndsWith obeys_then obeys_ask obeys_pure obeys_throw)

variable {contracts : Contracts} {env : Env} {req : ReadRequest} {latest oldest start : ℤ}
  {h : Heard Cmd.Reply} {health : ℤ × Option ℤ}

/-- The outcome of a window. -/
def Outcome (contracts : Contracts) (req : ReadRequest) (latest oldest start : ℤ) (h : Heard Cmd.Reply) :
    Option (List WalletEvent) → Prop
  | some rows => Got contracts req latest oldest h start rows
  | none => start ≤ oldest

lemma Outcome.mono {h' : Heard Cmd.Reply} {r : Option (List WalletEvent)}
    (ho : Outcome contracts req latest oldest start h r) (hsub : h ⊆ h') :
    Outcome contracts req latest oldest start h' r := by
  cases r with
  | none => exact ho
  | some rows => exact Got.mono ho hsub

end Obeys

/-! ## A node that stands still -/

section Still

open Thrower (obeys_bind obeys_ask_then)

variable (env : Env) (contracts : Contracts) (log : List Event) (latest : ℤ) (oldestLedger : Option ℤ)

/-- What a node that stands still answers. A window that was kept has all its rows, and the node still
has all its ledgers. -/
def Stands : (c : Cmd) → c.Reply → Prop
  | .getHealth, r => r = .ok (latest, oldestLedger)
  | .page filters w out, r => r = .ok (page env log filters w out)
  | .loadClosed _ address start, r => ∀ rows, r = some rows → oldestOf oldestLedger < start ∧
    start + WINDOW - 1 ≤ latest ∧
    rows = Events.readWindow env contracts log address (start, start + WINDOW - 1)
  | _, _ => True

/-- A read of a node that stands still answers as one that keeps nothing. -/
def standing : Discipline ReadRequest Cmd.Reply (Except String WalletEvents) where
  may _ _ _ := True
  ends req _ r := r = .ok (Events.readWalletEvents env contracts log req.address latest oldestLedger
    oldestLedger req.limit)
  can := Stands env contracts log latest oldestLedger

variable {env contracts log latest oldestLedger} {req : ReadRequest} {h : Heard Cmd.Reply}

/-- The window from a start, as the node has it. -/
def standingWindow (env : Env) (contracts : Contracts) (log : List Event) (latest : ℤ)
    (oldestLedger : Option ℤ) (address : String) (start : ℤ) : Option (List WalletEvent) :=
  (windowOf latest (oldestOf oldestLedger) (oldestLedger.getD 1 + 1) start).map
    (Events.readWindow env contracts log address)

/-- One command that a node that stands still has one answer to, then what comes after it. -/
lemma standing_ask_then {α β : Type} {c : Cmd} {read : c.Reply → Except String α} {a : α}
    {f : α → Run β} {F : Heard Cmd.Reply → Except String β → Prop}
    (hread : ∀ r, Stands env contracts log latest oldestLedger c r → read r = .ok a)
    (hnext : ∀ r, Obeys ((standing env contracts log latest oldestLedger).ending F) req (h ++ [⟨c, r⟩])
      (f a).run) :
    Obeys ((standing env contracts log latest oldestLedger).ending F) req h
      (Thrower.ask c read >>= f).run := by
  refine obeys_ask_then trivial (fun r b hr hb => ?_) fun r message hr hmessage => ?_
  · obtain rfl := Except.ok.inj ((hread r hr).symm.trans hb)
    exact hnext r
  · cases (hread r hr).symm.trans hmessage

lemma standing_readWindow (address : String) (w : ℤ × ℤ) :
    Obeys ((standing env contracts log latest oldestLedger).ending fun _ r =>
      r = .ok (Events.readWindow env contracts log address w)) req h
      (readWindow contracts address w).run :=
  standing_ask_then (fun _ hr => hr) fun _ => ⟨trivial, fun _ hr => hr⟩

lemma standing_readFrom (start lo hi : ℤ) :
    Obeys ((standing env contracts log latest oldestLedger).ending fun _ r =>
      r = .ok (some (Events.readWindow env contracts log req.address (lo, hi)))) req h
      (readFrom contracts req latest start lo hi).run := by
  show Obeys _ req h (_ >>= _)
  refine (standing_readWindow req.address (lo, hi)).bind ?_
  rintro h' _ rfl
  dsimp only
  split_ifs
  · exact ⟨trivial, fun _ _ => rfl⟩
  · exact rfl

/-- A kept window is the one that would be read. -/
lemma standing_readStart (start : ℤ) :
    Obeys ((standing env contracts log latest oldestLedger).ending fun _ r =>
      r = .ok (standingWindow env contracts log latest oldestLedger req.address start)) req h
      (readStart contracts req latest (oldestOf oldestLedger) start).run := by
  refine obeys_ask_then trivial ?_ fun _ _ _ hr => by cases hr
  rintro r closed hr hread
  obtain rfl := Except.ok.inj hread
  cases r with
  | some rows =>
    obtain ⟨hlt, hle, rfl⟩ := hr rows rfl
    have hlo : max (oldestOf oldestLedger) start = start := max_eq_right hlt.le
    have hhi : min latest (start + WINDOW - 1) = start + WINDOW - 1 := min_eq_right hle
    show Except.ok _ = _
    rw [standingWindow, windowOf, hlo, hhi, if_neg hlt.ne']
    rfl
  | none =>
    dsimp only
    split_ifs with hedge
    · refine standing_ask_then (fun _ hr => hr) fun r => ?_
      split_ifs with hslip
      · have hwindow : windowOf latest (oldestOf oldestLedger) (oldestLedger.getD 1 + 1) start = none := by
          rw [windowOf, if_pos hedge]
          exact if_pos hslip
        show Except.ok none = Except.ok _
        rw [standingWindow, hwindow]
        rfl
      · have hwindow : windowOf latest (oldestOf oldestLedger) (oldestLedger.getD 1 + 1) start =
            some (max (max (oldestOf oldestLedger) start) (oldestLedger.getD 1 + 1 + EDGE),
              min latest (start + WINDOW - 1)) := by
          rw [windowOf, if_pos hedge]
          exact if_neg hslip
        rw [standingWindow, hwindow]
        exact standing_readFrom start _ _
    · rw [standingWindow, windowOf, if_neg hedge]
      exact standing_readFrom start _ _

lemma settle_of_forall₂ {κ β : Type} {g : κ → β} {ks : List κ} {rs : List (Except String β)}
    (hall : List.Forall₂ (fun k r => r = .ok (g k)) ks rs) : settle rs = .ok (ks.map g) := by
  induction hall with
  | nil => rfl
  | cons hr hall ih =>
    subst hr
    rw [settle, ih]
    rfl

lemma standing_readBatch (batch : List ℤ) :
    Obeys ((standing env contracts log latest oldestLedger).ending fun _ r =>
      r = .ok (batch.map (standingWindow env contracts log latest oldestLedger req.address))) req h
      (readBatch contracts req latest (oldestOf oldestLedger) batch).run := by
  have hall : Obeys ((standing env contracts log latest oldestLedger).ending fun _ rs =>
      List.Forall₂ (fun start r =>
        r = .ok (standingWindow env contracts log latest oldestLedger req.address start)) batch rs) req h
      (all (batch.map fun start => (readStart contracts req latest (oldestOf oldestLedger) start).run)) :=
    obeys_all_heard (fun start _ => standing_readStart start) (fun _ _ _ _ _ _ _ _ => trivial)
      fun _ _ _ _ _ _ _ hr => hr
  exact hall.bind fun _ _ hrs => settle_of_forall₂ hrs

lemma standing_readBatches (bs : List (List ℤ)) (out : List WalletEvent) :
    Obeys ((standing env contracts log latest oldestLedger).ending fun _ r =>
      r = .ok (Events.readBatches
        (standingWindow env contracts log latest oldestLedger req.address) req.limit bs out)) req h
      (readBatches contracts req latest (oldestOf oldestLedger) bs out).run := by
  induction bs generalizing h out with
  | nil => exact rfl
  | cons batch rest ih =>
    rw [readBatches, Events.readBatches]
    split_ifs
    · refine obeys_bind (standing_readBatch batch) ?_ fun _ _ hr => by cases hr
      rintro h' _ ⟨⟩
      dsimp only
      split_ifs
      · exact rfl
      · exact ih _
    · exact rfl

/-- **What is kept changes no answer**: of a node that stands still, a read has the answer of one that
keeps nothing, whichever windows are kept. -/
theorem readWalletEvents_standing (req : ReadRequest) :
    (readWalletEvents env contracts req).run.Obeys (standing env contracts log latest oldestLedger) req
      [] := by
  have hread : Obeys ((standing env contracts log latest oldestLedger).ending fun _ r =>
      r = .ok (Events.readWalletEvents env contracts log req.address latest oldestLedger oldestLedger
        req.limit)) req [] (readWalletEvents env contracts req).run := by
    refine standing_ask_then (fun _ hr => hr) fun r => ?_
    refine obeys_bind (standing_readBatches _ []) ?_ fun _ _ hr => by cases hr
    rintro h' _ ⟨⟩
    exact ⟨trivial, fun _ _ => rfl⟩
  exact Prog.Obeys.imp hread (fun _ _ => id) (fun _ _ => id) fun _ _ => id

end Still

end Kept

end Koul.Events
