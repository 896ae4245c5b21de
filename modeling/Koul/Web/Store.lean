import Mathlib.Data.Int.Notation
import Mathlib.Data.List.Basic
import Mathlib.Data.List.Infix

set_option relaxedAutoImplicit false
set_option autoImplicit false

/-!
# The shared cache of polled reads

Components that ask for the same key share one fetch. An invalidation marks a key stale, and
reads it again at once where a screen shows it. Actions of the page, completions of fetches and
invalidations interleave in any order.

## Main definitions

* `Koul.Web.Store.step` — the cache after one action.
* `Koul.Web.Store.Fresh` — fetched data that counts as current was asked for after the last
  invalidation.
* `Koul.Web.Store.Quiet` — an action that does not invalidate the key while it is being read.

## Main results

* `Koul.Web.Store.kept_step` — every quiet action keeps fetched data fresh.
* `Koul.Web.Store.fresh_of_quiet` — a run of quiet actions does; and an invalidation that meets a
  read still out is lost when the read succeeds.

## Design

Each entry evolves by itself, so the cache is a function of the key. A fetch is its reader's
answer, whatever it is. The clock, the time a fetch started at, the origin of the data and the
times of the invalidations are not in the source: they count actions, so that freshness can be
stated. The chain of callbacks on a fetch runs in two steps, with other actions between them.
-/

namespace Koul.Web.Store

/-- Where cached data comes from. -/
inductive Origin
  /-- A value from browser storage, shown until the first read lands. -/
  | persisted
  | seeded
  | fetched (startedAt : ℕ)
deriving DecidableEq, Repr

variable {T F : Type}

structure Datum (T : Type) where
  value : T
  origin : Origin

structure Snapshot (T : Type) where
  data : Option (Datum T)
  error : Option String
  updatedAt : ℤ
  loading : Bool

/-- The promise of a fetch, until its `finally` has run. -/
inductive Inflight
  | reading (startedAt : ℕ)
  | settled
deriving DecidableEq, Repr

structure Entry (T F : Type) where
  snap : Snapshot T
  inflight : Option Inflight
  listeners : ℕ
  /-- The last reader for this key. -/
  fetcher : Option F

inductive Action (T F : Type)
  | subscribe (key : String) (initial : Option T)
  | unsubscribe (key : String)
  | refreshKey (key : String) (fetcher : F)
  /-- The fetch answers: its `then`. -/
  | resolve (key : String) (data : T) (now : ℤ)
  /-- The fetch fails: its `catch`. -/
  | reject (key : String) (error : String)
  /-- Its `finally`. -/
  | finish (key : String)
  | invalidate (start : String)
  | seed (key : String) (data : T) (now : ℤ)

/-- `EMPTY`, or a persisted value, which counts as stale. -/
def initialSnapshot (initial : Option T) : Snapshot T where
  data := initial.map fun value => { value := value, origin := .persisted }
  error := none
  updatedAt := 0
  loading := false

/-- The entry of a key, made when it is first asked for. -/
def entry (found : Option (Entry T F)) (initial : Option T) : Entry T F :=
  found.getD { snap := initialSnapshot initial, inflight := none, listeners := 0, fetcher := none }

def addListener (e : Entry T F) : Entry T F := { e with listeners := e.listeners + 1 }

def deleteListener (e : Entry T F) : Entry T F := { e with listeners := e.listeners - 1 }

def refreshKey (clock : ℕ) (e : Entry T F) (fetcher : F) : Entry T F :=
  match e.inflight with
  | some _ => { e with fetcher := some fetcher }
  | none => { e with
      fetcher := some fetcher
      snap := { e.snap with loading := true }
      inflight := some (.reading clock) }

def resolve (e : Entry T F) (data : T) (now : ℤ) : Entry T F :=
  match e.inflight with
  | some (.reading startedAt) => { e with
      snap := { e.snap with
        data := some { value := data, origin := .fetched startedAt }
        error := none
        updatedAt := now }
      inflight := some .settled }
  | _ => e

def reject (e : Entry T F) (error : String) : Entry T F :=
  match e.inflight with
  | some (.reading _) =>
    { e with snap := { e.snap with error := some error }, inflight := some .settled }
  | _ => e

def finish (e : Entry T F) : Entry T F :=
  match e.inflight with
  | some .settled => { e with snap := { e.snap with loading := false }, inflight := none }
  | _ => e

/-- What an invalidation does to an entry it marks stale. -/
def invalidate (clock : ℕ) (e : Entry T F) : Entry T F :=
  let e := { e with snap := { e.snap with updatedAt := 0 } }
  match e.fetcher with
  | some fetcher => if e.listeners > 0 then refreshKey clock e fetcher else e
  | none => e

def seed (e : Entry T F) (data : T) (now : ℤ) : Entry T F :=
  { e with snap := { data := some { value := data, origin := .seeded }, error := none,
                     updatedAt := now, loading := false } }

/-- `key.startsWith(start)`. -/
def StartsWith (key start : String) : Prop := start.toList <+: key.toList

instance (key start : String) : Decidable (StartsWith key start) := by
  unfold StartsWith
  infer_instance

/-- What an action does to the entry of a key. -/
def stepEntry (clock : ℕ) (k : String) (found : Option (Entry T F)) :
    Action T F → Option (Entry T F)
  | .subscribe key initial => if k = key then some (addListener (entry found initial)) else found
  | .unsubscribe key => if k = key then found.map deleteListener else found
  | .refreshKey key fetcher =>
    if k = key then some (refreshKey clock (entry found none) fetcher) else found
  | .resolve key data now => if k = key then found.map fun e => resolve e data now else found
  | .reject key error => if k = key then found.map fun e => reject e error else found
  | .finish key => if k = key then found.map finish else found
  | .invalidate start => if StartsWith k start then found.map (invalidate clock) else found
  | .seed key data now => if k = key then some (seed (entry found none) data now) else found

structure Cache (T F : Type) where
  entries : String → Option (Entry T F)
  clock : ℕ
  /-- The time of the last invalidation of each key, zero before the first. -/
  invalidatedAt : String → ℕ

def Cache.empty : Cache T F where
  entries := fun _ => none
  clock := 1
  invalidatedAt := fun _ => 0

def step (c : Cache T F) (a : Action T F) : Cache T F where
  entries := fun k => stepEntry c.clock k (c.entries k) a
  clock := c.clock + 1
  invalidatedAt := fun k =>
    match a with
    | .invalidate start => if StartsWith k start then c.clock else c.invalidatedAt k
    | _ => c.invalidatedAt k

/-- The cache after a sequence of actions. -/
def run (c : Cache T F) (actions : List (Action T F)) : Cache T F := actions.foldl step c

@[simp] lemma run_nil (c : Cache T F) : run c [] = c := rfl

@[simp] lemma run_cons (c : Cache T F) (a : Action T F) (as : List (Action T F)) :
    run c (a :: as) = run (step c a) as := rfl

lemma run_append (c : Cache T F) (as bs : List (Action T F)) :
    run c (as ++ bs) = run (run c as) bs := List.foldl_append

/-! ## Freshness -/

/-- Fetched data that counts as current was asked for after the last invalidation. -/
def Fresh (k : String) (c : Cache T F) : Prop :=
  ∀ e, c.entries k = some e → 0 < e.snap.updatedAt →
    ∀ d startedAt, e.snap.data = some d → d.origin = .fetched startedAt →
      c.invalidatedAt k ≤ startedAt

/-- The key is being read. -/
def Reading (k : String) (c : Cache T F) (startedAt : ℕ) : Prop :=
  ∃ e, c.entries k = some e ∧ e.inflight = some (.reading startedAt)

/-- The action does not invalidate the key while it is being read. -/
def Quiet (k : String) (c : Cache T F) (a : Action T F) : Prop :=
  ∀ start, a = .invalidate start → StartsWith k start → ∀ startedAt, ¬ Reading k c startedAt

/-- Every action of the run is quiet. -/
def QuietRun (k : String) (c : Cache T F) : List (Action T F) → Prop
  | [] => True
  | a :: as => Quiet k c a ∧ QuietRun k (step c a) as

/-! ## One entry -/

/-- What holds of an entry whose key was last invalidated at `since`: current fetched data, and a
read still out, were asked for after that. -/
structure EntryKept (since : ℕ) (e : Entry T F) : Prop where
  fresh : 0 < e.snap.updatedAt → ∀ d startedAt, e.snap.data = some d →
    d.origin = .fetched startedAt → since ≤ startedAt
  reading : ∀ startedAt, e.inflight = some (.reading startedAt) → since ≤ startedAt

section EntryKept

variable {since clock : ℕ} {e : Entry T F}

/-- A new entry shows nothing, or a value that counts as stale. -/
lemma entryKept_entry {found : Option (Entry T F)} {initial : Option T}
    (h : ∀ e, found = some e → EntryKept since e) : EntryKept since (entry found initial) := by
  cases found with
  | none =>
    constructor
    · intro hpos
      simp [entry, initialSnapshot] at hpos
    · intro startedAt hread
      simp [entry] at hread
  | some e => exact h e rfl

lemma EntryKept.addListener (h : EntryKept since e) : EntryKept since (addListener e) :=
  ⟨h.fresh, h.reading⟩

lemma EntryKept.deleteListener (h : EntryKept since e) : EntryKept since (deleteListener e) :=
  ⟨h.fresh, h.reading⟩

/-- A fetch that starts now starts after every invalidation so far. -/
lemma EntryKept.refreshKey (h : EntryKept since e) (hclock : since ≤ clock) (fetcher : F) :
    EntryKept since (refreshKey clock e fetcher) := by
  unfold Store.refreshKey
  split
  · exact ⟨h.fresh, h.reading⟩
  · refine ⟨h.fresh, fun startedAt hread => ?_⟩
    simp only [Option.some.injEq, Inflight.reading.injEq] at hread
    omega

lemma EntryKept.resolve (h : EntryKept since e) (data : T) (now : ℤ) :
    EntryKept since (resolve e data now) := by
  unfold Store.resolve
  split
  · next startedAt hread =>
    refine ⟨fun _ d t hd horigin => ?_, fun t ht => by simp at ht⟩
    simp only [Option.some.injEq] at hd
    subst hd
    simp only [Origin.fetched.injEq] at horigin
    subst horigin
    exact h.reading startedAt hread
  · exact h

lemma EntryKept.reject (h : EntryKept since e) (error : String) :
    EntryKept since (reject e error) := by
  unfold Store.reject
  split
  · exact ⟨h.fresh, fun t ht => by simp at ht⟩
  · exact h

lemma EntryKept.finish (h : EntryKept since e) : EntryKept since (finish e) := by
  unfold Store.finish
  split
  · exact ⟨h.fresh, fun t ht => by simp at ht⟩
  · exact h

/-- Data pushed into the cache was not fetched. -/
lemma EntryKept.seed (h : EntryKept since e) (data : T) (now : ℤ) :
    EntryKept since (seed e data now) := by
  refine ⟨fun _ d t hd horigin => ?_, h.reading⟩
  simp only [Store.seed, Option.some.injEq] at hd
  subst hd
  simp at horigin

/-- An entry marked stale while nothing reads it: what it shows does not count as current, and a
read of it starts now. -/
lemma entryKept_invalidate (hread : ∀ startedAt, e.inflight ≠ some (.reading startedAt)) :
    EntryKept clock (invalidate clock e) := by
  have hstale : EntryKept clock { e with snap := { e.snap with updatedAt := 0 } } :=
    ⟨fun hpos => absurd hpos (by simp), fun t ht => absurd ht (hread t)⟩
  simp only [invalidate]
  split
  · split_ifs
    · exact hstale.refreshKey le_rfl _
    · exact hstale
  · exact hstale

end EntryKept

/-! ## The whole cache -/

/-- The invariant of a key whose invalidations are quiet. -/
structure Kept (k : String) (c : Cache T F) : Prop where
  entry : ∀ e, c.entries k = some e → EntryKept (c.invalidatedAt k) e
  past : c.invalidatedAt k < c.clock

variable {k : String} {c : Cache T F} {a : Action T F}

lemma kept_empty : Kept k (Cache.empty : Cache T F) := by
  refine ⟨fun e he => ?_, Nat.zero_lt_one⟩
  simp [Cache.empty] at he

lemma Kept.freshness (h : Kept k c) : Fresh k c := fun e he hpos d t hd horigin =>
  (h.entry e he).fresh hpos d t hd horigin

/-- An action on the entry of one key, which leaves the times of the invalidations. -/
lemma Kept.of_key {key : String} {new : Option (Entry T F)} (h : Kept k c)
    (hsame : (step c a).invalidatedAt k = c.invalidatedAt k)
    (hstep : stepEntry c.clock k (c.entries k) a = if k = key then new else c.entries k)
    (hnew : ∀ e, new = some e → EntryKept (c.invalidatedAt k) e) : Kept k (step c a) := by
  refine ⟨fun e he => ?_, ?_⟩
  · rw [hsame]
    have hentry : stepEntry c.clock k (c.entries k) a = some e := he
    rw [hstep] at hentry
    split_ifs at hentry
    · exact hnew e hentry
    · exact h.entry e hentry
  · rw [hsame]
    exact h.past.trans (Nat.lt_succ_self c.clock)

/-- What keeps each entry keeps the one that is there. -/
lemma Kept.map (h : Kept k c) {g : Entry T F → Entry T F}
    (hg : ∀ e, EntryKept (c.invalidatedAt k) e → EntryKept (c.invalidatedAt k) (g e)) :
    ∀ e, (c.entries k).map g = some e → EntryKept (c.invalidatedAt k) e := by
  intro e he
  obtain ⟨e', hfound, rfl⟩ := Option.map_eq_some_iff.mp he
  exact hg e' (h.entry e' hfound)

/-- What keeps each entry keeps the one that is made when there is none. -/
lemma Kept.make (h : Kept k c) {initial : Option T} {g : Entry T F → Entry T F}
    (hg : ∀ e, EntryKept (c.invalidatedAt k) e → EntryKept (c.invalidatedAt k) (g e)) :
    ∀ e, some (g (Store.entry (c.entries k) initial)) = some e →
      EntryKept (c.invalidatedAt k) e := by
  rintro e he
  obtain rfl := Option.some.inj he
  exact hg _ (entryKept_entry h.entry)

/-- **Every quiet action keeps the key.** -/
lemma kept_step (h : Kept k c) (hquiet : Quiet k c a) : Kept k (step c a) := by
  cases a with
  | subscribe key initial => exact h.of_key rfl rfl (h.make fun _ he => he.addListener)
  | unsubscribe key => exact h.of_key rfl rfl (h.map fun _ he => he.deleteListener)
  | refreshKey key fetcher =>
    exact h.of_key rfl rfl (h.make fun _ he => he.refreshKey h.past.le fetcher)
  | resolve key data now => exact h.of_key rfl rfl (h.map fun _ he => he.resolve data now)
  | reject key error => exact h.of_key rfl rfl (h.map fun _ he => he.reject error)
  | finish key => exact h.of_key rfl rfl (h.map fun _ he => he.finish)
  | seed key data now => exact h.of_key rfl rfl (h.make fun _ he => he.seed data now)
  | invalidate start =>
    by_cases hk : StartsWith k start
    · have hnow : (step c (.invalidate start : Action T F)).invalidatedAt k = c.clock := if_pos hk
      refine ⟨fun e he => ?_, by rw [hnow]; exact Nat.lt_succ_self c.clock⟩
      simp only [step, stepEntry, if_pos hk] at he
      obtain ⟨e', hfound, rfl⟩ := Option.map_eq_some_iff.mp he
      rw [hnow]
      exact entryKept_invalidate fun t ht => hquiet start rfl hk t ⟨e', hfound, ht⟩
    · have hsame : stepEntry c.clock k (c.entries k) (.invalidate start) = c.entries k := if_neg hk
      refine ⟨fun e he => ?_, ?_⟩
      · rw [show (step c (.invalidate start : Action T F)).invalidatedAt k = c.invalidatedAt k from
          if_neg hk]
        exact h.entry e (hsame ▸ he)
      · rw [show (step c (.invalidate start : Action T F)).invalidatedAt k = c.invalidatedAt k from
          if_neg hk]
        exact h.past.trans (Nat.lt_succ_self c.clock)

lemma kept_run {as : List (Action T F)} (h : Kept k c) (hquiet : QuietRun k c as) :
    Kept k (run c as) := by
  induction as generalizing c with
  | nil => exact h
  | cons a as ih => exact ih (kept_step h hquiet.1) hquiet.2

/-- Quiet runs are quiet up to any point. -/
lemma QuietRun.of_append {as bs : List (Action T F)} (h : QuietRun k c (as ++ bs)) :
    QuietRun k c as := by
  induction as generalizing c with
  | nil => trivial
  | cons a as ih => exact ⟨h.1, ih h.2⟩

/-! ## A read that an invalidation meets -/

section Reading

variable {clock t : ℕ} {e : Entry T F}

lemma refreshKey_reading {fetcher : F}
    (h : (refreshKey clock e fetcher).inflight = some (.reading t)) :
    e.inflight = some (.reading t) ∨ t = clock := by
  unfold refreshKey at h
  split at h
  · exact .inl h
  · simp only [Option.some.injEq, Inflight.reading.injEq] at h
    exact .inr h.symm

lemma invalidate_reading (h : (invalidate clock e).inflight = some (.reading t)) :
    e.inflight = some (.reading t) ∨ t = clock := by
  simp only [invalidate] at h
  split at h
  · split_ifs at h
    · exact refreshKey_reading (e := { e with snap := { e.snap with updatedAt := 0 } }) h
    · exact .inl h
  · exact .inl h

lemma resolve_reading {data : T} {now : ℤ}
    (h : (resolve e data now).inflight = some (.reading t)) : e.inflight = some (.reading t) := by
  unfold resolve at h
  split at h
  · simp at h
  · exact h

lemma reject_reading {error : String} (h : (reject e error).inflight = some (.reading t)) :
    e.inflight = some (.reading t) := by
  unfold reject at h
  split at h
  · simp at h
  · exact h

lemma finish_reading (h : (finish e).inflight = some (.reading t)) :
    e.inflight = some (.reading t) := by
  unfold finish at h
  split at h
  · simp at h
  · exact h

/-- A read of an entry that is made now was out before. -/
lemma entry_reading {found : Option (Entry T F)} {initial : Option T}
    (h : (entry found initial).inflight = some (.reading t)) :
    ∃ e, found = some e ∧ e.inflight = some (.reading t) := by
  cases found with
  | none => simp [entry] at h
  | some e => exact ⟨e, rfl, h⟩

/-- A read that is out was out before, or starts now. -/
lemma reading_step (h : Reading k (step c a) t) : Reading k c t ∨ t = c.clock := by
  obtain ⟨e, he, hread⟩ := h
  replace he : stepEntry c.clock k (c.entries k) a = some e := he
  have hmap : ∀ {g : Entry T F → Entry T F}, (c.entries k).map g = some e →
      (∀ e', (g e').inflight = some (.reading t) →
        e'.inflight = some (.reading t) ∨ t = c.clock) → Reading k c t ∨ t = c.clock := by
    intro g hg hback
    obtain ⟨e', hfound, rfl⟩ := Option.map_eq_some_iff.mp hg
    rcases hback e' hread with h | h
    · exact .inl ⟨e', hfound, h⟩
    · exact .inr h
  cases a with
  | subscribe key initial =>
    simp only [stepEntry] at he
    split_ifs at he
    · obtain rfl := Option.some.inj he
      exact .inl (entry_reading hread)
    · exact .inl ⟨e, he, hread⟩
  | unsubscribe key =>
    simp only [stepEntry] at he
    split_ifs at he
    · exact hmap he fun _ h => .inl h
    · exact .inl ⟨e, he, hread⟩
  | refreshKey key fetcher =>
    simp only [stepEntry] at he
    split_ifs at he
    · obtain rfl := Option.some.inj he
      exact (refreshKey_reading hread).imp entry_reading id
    · exact .inl ⟨e, he, hread⟩
  | resolve key data now =>
    simp only [stepEntry] at he
    split_ifs at he
    · exact hmap he fun _ h => .inl (resolve_reading h)
    · exact .inl ⟨e, he, hread⟩
  | reject key error =>
    simp only [stepEntry] at he
    split_ifs at he
    · exact hmap he fun _ h => .inl (reject_reading h)
    · exact .inl ⟨e, he, hread⟩
  | finish key =>
    simp only [stepEntry] at he
    split_ifs at he
    · exact hmap he fun _ h => .inl (finish_reading h)
    · exact .inl ⟨e, he, hread⟩
  | invalidate start =>
    simp only [stepEntry] at he
    split_ifs at he
    · exact hmap he fun _ h => invalidate_reading h
    · exact .inl ⟨e, he, hread⟩
  | seed key data now =>
    simp only [stepEntry] at he
    split_ifs at he
    · obtain rfl := Option.some.inj he
      exact .inl (entry_reading hread)
    · exact .inl ⟨e, he, hread⟩

/-- A read that is out started at an action of the past. -/
lemma reading_lt {as : List (Action T F)} (hc : ∀ t, Reading k c t → t < c.clock) :
    ∀ t, Reading k (run c as) t → t < (run c as).clock := by
  induction as generalizing c with
  | nil => exact hc
  | cons a as ih =>
    refine ih fun t ht => ?_
    show t < c.clock + 1
    rcases reading_step ht with h | h
    · exact (hc t h).trans (Nat.lt_succ_self c.clock)
    · omega

/-- An invalidation does not stop a read that is out. -/
lemma invalidate_inflight (h : e.inflight = some (.reading t)) :
    (invalidate clock e).inflight = some (.reading t) := by
  simp only [invalidate]
  split
  · split_ifs
    · simp only [refreshKey, h]
    · exact h
  · exact h

/-- **A lost invalidation**: the read that was out when the key was invalidated still answers, and
its data counts as current. -/
lemma not_fresh_of_reading {start : String} {data : T} {now : ℤ} (hread : Reading k c t)
    (hlt : t < c.clock) (hk : StartsWith k start) (hnow : 0 < now) :
    ¬ Fresh k (run c [.invalidate start, .resolve k data now]) := by
  obtain ⟨e, he, hinflight⟩ := hread
  have hout : (invalidate c.clock e).inflight = some (.reading t) :=
    invalidate_inflight hinflight
  intro hfresh
  have hentry : (run c [.invalidate start, .resolve k data now]).entries k =
      some (resolve (invalidate c.clock e) data now) := by
    simp [step, stepEntry, he, hk]
  have hresolve : resolve (invalidate c.clock e) data now =
      { invalidate c.clock e with
        snap := { (invalidate c.clock e).snap with
          data := some { value := data, origin := .fetched t }, error := none, updatedAt := now }
        inflight := some .settled } := by
    simp only [resolve, hout]
  have hle := hfresh _ hentry (by rw [hresolve]; exact hnow) { value := data, origin := .fetched t } t
    (by rw [hresolve]) rfl
  have hsince : (run c [.invalidate start, .resolve k data now]).invalidatedAt k = c.clock :=
    if_pos hk
  omega

end Reading

/-- **Invalidation is never lost in a quiet run**: while no invalidation of the key meets a read of
it that is still out, current fetched data was asked for after the last invalidation, in every
state reached. An invalidation that meets one is lost as soon as that read succeeds. -/
theorem fresh_of_quiet (k : String) (as : List (Action T F)) :
    (QuietRun k Cache.empty as → ∀ pre, pre <+: as → Fresh k (run Cache.empty pre)) ∧
      ∀ start t data now, StartsWith k start → 0 < now → Reading k (run Cache.empty as) t →
        ¬ Fresh k (run Cache.empty (as ++ [.invalidate start, .resolve k data now])) := by
  constructor
  · rintro hquiet pre ⟨post, rfl⟩
    exact (kept_run kept_empty hquiet.of_append).freshness
  · intro start t data now hk hnow hread
    rw [run_append]
    have hpast : ∀ t, Reading k (Cache.empty : Cache T F) t →
        t < (Cache.empty : Cache T F).clock := by
      rintro t ⟨e, he, -⟩
      simp [Cache.empty] at he
    exact not_fresh_of_reading hread (reading_lt hpast t hread) hk hnow

/-- A reload that has answered before the deposit: the run is quiet, and its data ends stale. -/
theorem fresh_of_quiet_deposit :
    Fresh "portfolio:C" (run (Cache.empty : Cache ℕ Unit)
      [.refreshKey "portfolio:C" (), .resolve "portfolio:C" 100 1, .finish "portfolio:C",
        .invalidate "portfolio:"]) := by
  refine (fresh_of_quiet "portfolio:C" _).1 ?_ _ List.prefix_rfl
  refine ⟨(fun _ h => nomatch h), (fun _ h => nomatch h), (fun _ h => nomatch h), ?_, trivial⟩
  rintro start - - t ⟨e, he, hread⟩
  cases he
  cases hread

/-- A reload, a deposit and the reload's answer: the balance of before the deposit counts as
current. -/
theorem invalidation_lost :
    ¬ ∀ as : List (Action ℕ Unit), Fresh "portfolio:C" (run Cache.empty as) := by
  intro h
  have hfresh := h [.refreshKey "portfolio:C" (), .invalidate "portfolio:",
    .resolve "portfolio:C" 100 1]
  have hle := hfresh _ rfl (by decide) ⟨100, .fetched 1⟩ 1 rfl rfl
  exact absurd hle (by decide)

end Koul.Web.Store
