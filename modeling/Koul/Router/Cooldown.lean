import Koul.Lib.Spaced
import Koul.Router.Registry
import Mathlib

set_option relaxedAutoImplicit false
set_option autoImplicit false

/-!
# Cooldowns over whole runs

A rule that fired is off until its cooldown has passed, which `tick` reads from one storage key.
Here is what that key is worth over any run of the router: between two edits of its autopilot
the firings of a rule are at least its cooldown apart.

## Main definitions

* `Koul.Router.Op.fires` — the rules whose `Fired` events a step publishes.
* `Koul.Router.fireTimes` — the ledgers that a rule fires in over a run.
* `Koul.Router.Unedited` — no successful edit of an autopilot in a run.

## Main results

* `Koul.Router.call_fires` — what one step fires and what it leaves of the cooldowns.
* `Koul.Router.fireTimes_spaced` — without an edit the firings of a rule are spaced.
* `Koul.Router.cooldown_run` — both, and the bound on any interval, over runs from the
  constructor.
-/

namespace Koul.Router

open Transactional

variable {σ : Type}

/-- The user, autopilot and rule that the `Fired` events among these name. -/
def firings (evs : List Event) : List (Address × ℕ × ℕ) :=
  evs.filterMap fun
    | .fired user id ruleIndex .. => some (user, id, ruleIndex)
    | _ => none

@[simp] lemma firings_nil : firings [] = [] := rfl

lemma firings_append (evs new : List Event) :
    firings (evs ++ new) = firings evs ++ firings new := List.filterMap_append

/-- What a step fires in a world: the firings among the events it adds. -/
def Op.fires (x : Contracts σ) (w : World σ) (op : Op σ) : List (Address × ℕ × ℕ) :=
  firings ((after (call x) w op).events.drop w.events.length)

/-- The autopilot that a step edits. -/
def Op.edits : Op σ → Option (Address × ℕ)
  | .setAutopilot _ user id _ => some (user, id)
  | .clearAutopilot _ user id => some (user, id)
  | _ => none

/-- The ledger number that a step moves on to. -/
def Op.movesTo : Op σ → Option ℕ
  | .elsewhere ledger _ => some ledger.sequence
  | _ => none

/-- The ledger numbers of a run never go down. -/
def Ascending (w : World σ) (ops : List (Op σ)) : Prop :=
  (w.ledger.sequence :: ops.filterMap Op.movesTo).Pairwise (· ≤ ·)

/-- No successful step of the run edits the autopilot. -/
def Unedited (x : Contracts σ) (w : World σ) (ops : List (Op σ)) (user : Address) (id : ℕ) :
    Prop :=
  ∀ op ∈ admitted (call x) w ops, op.edits ≠ some (user, id)

/-- Whether a run edits an autopilot can be computed. -/
instance (x : Contracts σ) (w : World σ) (ops : List (Op σ)) (user : Address) (id : ℕ) :
    Decidable (Unedited x w ops user id) :=
  inferInstanceAs (Decidable (∀ op ∈ admitted (call x) w ops, op.edits ≠ some (user, id)))

/-- The ledgers that a rule fires in over a run, in order. -/
def fireTimes (x : Contracts σ) (rule : Address × ℕ × ℕ) : World σ → List (Op σ) → List ℕ
  | _, [] => []
  | w, op :: ops =>
    ((op.fires x w).filter (· = rule)).map (fun _ => w.ledger.sequence) ++
      fireTimes x rule (after (call x) w op) ops

/-! ## One step -/

section Step

variable {x : Contracts σ} {w w' : World σ} {op : Op σ} {user : Address} {id : ℕ}

/-- A step fires what the events it adds name. -/
lemma fires_of_events {new : List Event} (h : call x w op = .ok w')
    (hev : w'.events = w.events ++ new) : op.fires x w = firings new := by
  rw [Op.fires, after_of_ok _ h, hev, List.drop_left]

/-- A step that fails fires nothing. -/
lemma fires_of_error {e : Err} (h : call x w op = .error e) : op.fires x w = [] := by
  rw [Op.fires, after_of_error _ h, List.drop_length]
  rfl

/-- Swaps are no firings. -/
lemma firings_swapped {i : ℕ} {swaps : List Event} (h : ∀ ev ∈ swaps, ∃ tin tout amount got
    minOut, ev = .swapped user id i tin tout amount got minOut) : firings swaps = [] := by
  apply List.filterMap_eq_nil_iff.mpr
  intro ev hev
  obtain ⟨tin, tout, amount, got, minOut, rfl⟩ := h ev hev
  rfl

/-- A tick stays in its ledger. -/
lemma tick_ledger {auth : Bool} {route : Option Bytes} {done : Option Executed}
    (h : tick x auth user id route w = .ok (done, w')) : w'.ledger = w.ledger := by
  obtain ⟨-, ap, w₁, -, hloop, hclose⟩ := tick_ok h
  rw [(closeSession_ok hclose).2.1]
  rcases tickLoop_ok hloop with ⟨-, -, rfl⟩ | ⟨_, _, _, _, _, _, -, hrun, -, rfl⟩
  · rfl
  · exact (run_ok hrun).ledger

/-- Rule `i` of the autopilot is stored, and off cooldown in this ledger. -/
structure Fires (w : World σ) (user : Address) (id i : ℕ) (ap : Autopilot) (r : Rule) : Prop where
  stored : w.store.autopilot user id = some ap
  rule : ap.rules[i]? = some r
  ready : ready (w.store.lastFiredAt user id i) w.ledger.sequence r.cooldownLedgers = true

/-- **What a tick fires**: nothing, and then it stores nothing, or one rule that was off
cooldown, and then it starts that rule's cooldown. -/
lemma tick_fires {auth : Bool} {route : Option Bytes} {done : Option Executed}
    (h : tick x auth user id route w = .ok (done, w')) :
    ∃ new, w'.events = w.events ++ new ∧
      (firings new = [] ∧ w'.store = w.store ∨
        ∃ ap i r, Fires w user id i ap r ∧ firings new = [(user, id, i)] ∧
          w'.store = w.store.setLastFired user id i (some w.ledger.sequence)) := by
  obtain ⟨ap, hap, ⟨-, hidle⟩ | ⟨i, r, p, ex, hdue, -, hacts⟩⟩ := tick_cases h
  · exact ⟨[], by rw [hidle.events, List.append_nil], .inl ⟨rfl, hidle.store⟩⟩
  · obtain ⟨⟨r', hr', hready, -, -⟩, -⟩ := (firstDue_spec hdue).1
    obtain ⟨swaps, observed, hev, hswaps⟩ := hacts.events
    have hstore := hacts.store
    rw [Plan.planned_ruleIndex] at hstore hev hswaps
    refine ⟨_, by rw [hev, List.append_assoc], .inr ⟨ap, i, r', ⟨hap, hr', hready⟩, ?_, hstore⟩⟩
    rw [firings_append, firings_swapped hswaps, List.nil_append]
    rfl

/-- The autopilot of a user and the last firing of each of its rules are the same in both. -/
def SameProgram (user : Address) (id : ℕ) (st st' : Storage) : Prop :=
  st'.autopilot user id = st.autopilot user id ∧
    ∀ i, st'.lastFired user id i = st.lastFired user id i

/-- A setter of the admin's leaves every program alone and publishes nothing. -/
lemma adminSet_ok {auth : Bool} {f : Storage → Storage} (h : adminSet auth f w = .ok w')
    (hf : ∀ st, SameKeys st (f st)) :
    w'.ledger = w.ledger ∧ w'.events = w.events ∧ SameKeys w.store w'.store := by
  have hkeys := sameKeys_of_adminSet h hf
  obtain rfl := eq_of_adminSet h
  exact ⟨rfl, rfl, hkeys⟩

lemma SameKeys.sameProgram {st st' : Storage} (h : SameKeys st st') (user : Address) (id : ℕ) :
    SameProgram user id st st' :=
  ⟨by rw [h.autopilot], fun i => by rw [h.lastFired]⟩

/-- **What a step fires**: an edit fires nothing and leaves other autopilots alone; any other
step fires nothing and leaves every autopilot alone, or fires one rule that was off cooldown and
starts its cooldown. -/
lemma call_fires (h : call x w op = .ok w') :
    (∃ user id, op.edits = some (user, id) ∧ op.fires x w = [] ∧
      ∀ u j, (user, id) ≠ (u, j) → SameProgram u j w.store w'.store) ∨
    (op.edits = none ∧ op.fires x w = [] ∧ ∀ u j, SameProgram u j w.store w'.store) ∨
    (op.edits = none ∧ ∃ user id ap i r, Fires w user id i ap r ∧
      op.fires x w = [(user, id, i)] ∧
      w'.store = w.store.setLastFired user id i (some w.ledger.sequence)) := by
  have hnothing : w'.events = w.events → op.fires x w = [] := fun hev =>
    by
    rw [fires_of_events h (hev.trans (List.append_nil _).symm), firings_nil]
  have hadmin : ∀ {auth : Bool} {f : Storage → Storage}, adminSet auth f w = .ok w' →
      (∀ st, SameKeys st (f st)) →
      op.fires x w = [] ∧ ∀ u j, SameProgram u j w.store w'.store := by
    intro auth f hset hf
    obtain ⟨-, hev, hkeys⟩ := adminSet_ok hset hf
    exact ⟨hnothing hev, hkeys.sameProgram⟩
  cases op with
  | setAutopilot auth user id ap =>
    obtain ⟨-, -, -, hw'⟩ := setAutopilot_ok h
    refine .inl ⟨user, id, rfl, ?_, ?_⟩
    · rw [fires_of_events h (by rw [hw']; rfl)]
      rfl
    · intro u j hne
      have hne' : ¬ (u = user ∧ j = id) := fun hc => hne (by rw [hc.1, hc.2])
      rw [hw']
      refine ⟨?_, fun i => ?_⟩
      · exact (Storage.withAutopilot_autopilot ..).trans (if_neg hne')
      · exact (Storage.withAutopilot_lastFired ..).trans (if_neg fun hc => hne' ⟨hc.2.1, hc.2.2.1⟩)
  | clearAutopilot auth user id =>
    obtain ⟨-, -, hw'⟩ := clearAutopilot_ok h
    refine .inl ⟨user, id, rfl, ?_, ?_⟩
    · rw [fires_of_events h (by rw [hw']; rfl)]
      rfl
    · intro u j hne
      have hne' : ¬ (u = user ∧ j = id) := fun hc => hne (by rw [hc.1, hc.2])
      rw [hw']
      refine ⟨?_, fun i => ?_⟩
      · exact (Storage.withoutAutopilot_autopilot ..).trans (if_neg hne')
      · exact (Storage.withoutAutopilot_lastFired ..).trans (if_neg fun hc => hne' ⟨hc.1, hc.2.1⟩)
  | tick auth user id route =>
    have htick := h
    simp only [call] at htick
    cases ht : tick x auth user id route w with
    | error e => rw [ht] at htick; cases htick
    | ok d =>
      rw [ht] at htick
      cases htick
      obtain ⟨new, hev, ⟨hnew, hst⟩ | ⟨ap, i, r, hfires, hnew, hst⟩⟩ := tick_fires ht
      · refine .inr (.inl ⟨rfl, by rw [fires_of_events h hev, hnew], fun u j => ?_⟩)
        exact hst ▸ ⟨rfl, fun _ => rfl⟩
      · exact .inr (.inr ⟨rfl, user, id, ap, i, r, hfires,
          by rw [fires_of_events h hev, hnew], hst⟩)
  | setOracle auth oracle =>
    simp only [call, setOracle] at h
    exact .inr (.inl ⟨rfl, hadmin h fun _ => ⟨rfl, rfl, rfl, rfl⟩⟩)
  | setFeed auth token feed =>
    simp only [call, setFeed] at h
    exact .inr (.inl ⟨rfl, hadmin h fun _ => ⟨rfl, rfl, rfl, rfl⟩⟩)
  | setAggregator auth aggregator =>
    simp only [call, setAggregator] at h
    exact .inr (.inl ⟨rfl, hadmin h fun _ => ⟨rfl, rfl, rfl, rfl⟩⟩)
  | setPolicy auth policy =>
    simp only [call, setPolicy] at h
    exact .inr (.inl ⟨rfl, hadmin h fun _ => ⟨rfl, rfl, rfl, rfl⟩⟩)
  | elsewhere ledger ext =>
    cases h
    exact .inr (.inl ⟨rfl, hnothing rfl, fun _ _ => ⟨rfl, fun _ => rfl⟩⟩)

/-- A step ends in the ledger it moves on to, or in its own. -/
lemma call_ledger (h : call x w op = .ok w') :
    w'.ledger.sequence = op.movesTo.getD w.ledger.sequence := by
  cases op with
  | setAutopilot auth user id ap =>
    obtain ⟨-, -, -, rfl⟩ := setAutopilot_ok h
    rfl
  | clearAutopilot auth user id =>
    obtain ⟨-, -, rfl⟩ := clearAutopilot_ok h
    rfl
  | tick auth user id route =>
    simp only [call] at h
    cases ht : tick x auth user id route w with
    | error e => rw [ht] at h; cases h
    | ok d =>
      rw [ht] at h
      cases h
      exact congrArg Ledger.sequence (tick_ledger ht)
  | setOracle auth oracle =>
    simp only [call, setOracle] at h
    exact congrArg Ledger.sequence (adminSet_ok h fun _ => ⟨rfl, rfl, rfl, rfl⟩).1
  | setFeed auth token feed =>
    simp only [call, setFeed] at h
    exact congrArg Ledger.sequence (adminSet_ok h fun _ => ⟨rfl, rfl, rfl, rfl⟩).1
  | setAggregator auth aggregator =>
    simp only [call, setAggregator] at h
    exact congrArg Ledger.sequence (adminSet_ok h fun _ => ⟨rfl, rfl, rfl, rfl⟩).1
  | setPolicy auth policy =>
    simp only [call, setPolicy] at h
    exact congrArg Ledger.sequence (adminSet_ok h fun _ => ⟨rfl, rfl, rfl, rfl⟩).1
  | elsewhere ledger ext =>
    cases h
    rfl

/-- No step fires two rules. -/
lemma fires_length_le (x : Contracts σ) (w : World σ) (op : Op σ) :
    (op.fires x w).length ≤ 1 := by
  cases h : call x w op with
  | error e =>
    rw [fires_of_error h]
    exact Nat.zero_le 1
  | ok w' =>
    rcases call_fires h with ⟨_, _, -, hf, -⟩ | ⟨-, hf, -⟩ | ⟨-, _, _, _, _, _, -, hf, -⟩
    · exact hf ▸ Nat.zero_le 1
    · exact hf ▸ Nat.zero_le 1
    · exact hf ▸ le_refl 1

/-- A step that fires a rule is a successful one that edits nothing; the rule was off cooldown,
and is the one whose cooldown starts. -/
lemma mem_fires {i : ℕ} (h : (user, id, i) ∈ op.fires x w) :
    ∃ w' ap r, call x w op = .ok w' ∧ op.edits = none ∧ Fires w user id i ap r ∧
      w'.store = w.store.setLastFired user id i (some w.ledger.sequence) := by
  cases hc : call x w op with
  | error e =>
    rw [fires_of_error hc] at h
    cases h
  | ok w' =>
    rcases call_fires hc with ⟨_, _, -, hf, -⟩ | ⟨-, hf, -⟩ |
      ⟨hedits, u, j, ap, k, r, hfires, hf, hst⟩
    · rw [hf] at h
      cases h
    · rw [hf] at h
      cases h
    · rw [hf, List.mem_singleton] at h
      cases h
      exact ⟨w', ap, r, rfl, hedits, hfires, hst⟩

/-- A successful step that neither fires the rule nor edits its autopilot leaves the autopilot
and the rule's cooldown alone. -/
lemma keeps_of_not_fires {i : ℕ} (hc : call x w op = .ok w') (h : (user, id, i) ∉ op.fires x w)
    (hedits : op.edits ≠ some (user, id)) :
    w'.store.autopilot user id = w.store.autopilot user id ∧
      w'.store.lastFired user id i = w.store.lastFired user id i := by
  rcases call_fires hc with ⟨u, j, he, -, hsame⟩ | ⟨-, -, hsame⟩ |
    ⟨-, u, j, ap, k, r, -, hf, hst⟩
  · have hne : (u, j) ≠ (user, id) := fun hc => hedits (hc ▸ he)
    exact ⟨(hsame user id hne).1, (hsame user id hne).2 i⟩
  · exact ⟨(hsame user id).1, (hsame user id).2 i⟩
  · rw [hf, List.mem_singleton] at h
    have hne : ¬ (user = u ∧ id = j ∧ i = k) := by
      rintro ⟨rfl, rfl, rfl⟩
      exact h rfl
    rw [hst]
    exact ⟨rfl, if_neg hne⟩

end Step

/-! ## Runs -/

section Run

variable {x : Contracts σ} {w : World σ} {op : Op σ} {ops : List (Op σ)} {user : Address}
  {id i : ℕ} {ap : Autopilot} {r : Rule}

/-- The rest of an ascending run starts no earlier and ascends. -/
lemma Ascending.after (h : Ascending w (op :: ops)) :
    w.ledger.sequence ≤ (after (call x) w op).ledger.sequence ∧
      Ascending (Transactional.after (call x) w op) ops := by
  unfold Ascending at h ⊢
  rw [List.filterMap_cons] at h
  cases hc : call x w op with
  | error e =>
    rw [after_of_error _ hc]
    refine ⟨le_refl _, h.sublist ?_⟩
    apply List.Sublist.cons_cons
    split
    · exact List.Sublist.refl _
    · exact List.sublist_cons_self _ _
  | ok w' =>
    rw [after_of_ok _ hc, call_ledger hc]
    cases hm : op.movesTo with
    | none =>
      rw [hm] at h
      exact ⟨le_refl _, h⟩
    | some n =>
      rw [hm] at h
      obtain ⟨hle, hrest⟩ := List.pairwise_cons.mp h
      exact ⟨hle n List.mem_cons_self, hrest⟩

/-- So does the rest after any part of it. -/
lemma Ascending.run {pre : List (Op σ)} (h : Ascending w (pre ++ ops)) :
    w.ledger.sequence ≤ (Transactional.run (call x) w pre).ledger.sequence ∧
      Ascending (Transactional.run (call x) w pre) ops := by
  induction pre generalizing w with
  | nil => exact ⟨le_refl _, h⟩
  | cons op pre ih =>
    obtain ⟨hle, hrest⟩ := Ascending.after (x := x) h
    obtain ⟨hle', hasc⟩ := ih hrest
    exact ⟨hle.trans hle', hasc⟩

lemma Unedited.cons (h : Unedited x w (op :: ops) user id) :
    Unedited x (after (call x) w op) ops user id := by
  intro op' hop'
  apply h
  cases hc : call x w op with
  | error e =>
    rw [after_of_error _ hc] at hop'
    rw [admitted_cons_of_error _ hc]
    exact hop'
  | ok w' =>
    rw [after_of_ok _ hc] at hop'
    rw [admitted_cons_of_ok _ hc]
    exact List.mem_cons_of_mem op hop'

/-- A rule fires at a ledger exactly when some step of the run fires it there. -/
lemma mem_fireTimes {rule : Address × ℕ × ℕ} {t : ℕ} :
    t ∈ fireTimes x rule w ops ↔ ∃ pre op post, ops = pre ++ op :: post ∧
      rule ∈ op.fires x (Transactional.run (call x) w pre) ∧
      (Transactional.run (call x) w pre).ledger.sequence = t := by
  induction ops generalizing w with
  | nil =>
    simp only [fireTimes, List.not_mem_nil, false_iff]
    rintro ⟨pre, op, post, h, -⟩
    simp at h
  | cons op ops ih =>
    rw [fireTimes, List.mem_append, ih]
    constructor
    · rintro (h | ⟨pre, op', post, rfl, hf, ht⟩)
      · obtain ⟨rule', hmem, rfl⟩ := List.mem_map.mp h
        obtain ⟨hf, heq⟩ := List.mem_filter.mp hmem
        obtain rfl : rule' = rule := of_decide_eq_true heq
        exact ⟨[], op, ops, rfl, hf, rfl⟩
      · exact ⟨op :: pre, op', post, rfl, hf, ht⟩
    · rintro ⟨pre, op', post, h, hf, ht⟩
      cases pre with
      | nil =>
        obtain ⟨rfl, rfl⟩ := List.cons.inj h
        exact .inl (List.mem_map.mpr ⟨rule, List.mem_filter.mpr ⟨hf, decide_eq_true rfl⟩, ht⟩)
      | cons op'' pre =>
        obtain ⟨rfl, rfl⟩ := List.cons.inj h
        exact .inr ⟨pre, op', post, rfl, hf, ht⟩

/-- A step's own firings of a rule are none, or the one it made. -/
lemma filter_fires (x : Contracts σ) (w : World σ) (op : Op σ) (rule : Address × ℕ × ℕ) :
    rule ∉ op.fires x w ∧ (op.fires x w).filter (· = rule) = [] ∨
      rule ∈ op.fires x w ∧ (op.fires x w).filter (· = rule) = [rule] := by
  have hlen := fires_length_le x w op
  match hf : op.fires x w with
  | [] => exact .inl ⟨List.not_mem_nil, rfl⟩
  | [rule'] =>
    by_cases heq : rule' = rule
    · exact .inr ⟨by simp [heq], by simp [heq]⟩
    · exact .inl ⟨by simpa using Ne.symm heq, by simp [heq]⟩
  | _ :: _ :: _ =>
    rw [hf, List.length_cons, List.length_cons] at hlen
    omega

/-- A rule off cooldown whose last firing is known is past that firing's cooldown. -/
lemma add_cooldown_le_of_ready {a now cooldown : ℕ} (h : ready a now cooldown = true)
    (ha : a ≠ 0) (hc : 0 < cooldown) : a + cooldown ≤ now := by
  simp only [ready, Bool.or_eq_true, beq_iff_eq, ha, false_or, decide_eq_true_eq] at h
  omega

/-- **The firings of a rule are spaced**: over a run that does not edit its autopilot they are
its cooldown apart, and the first comes no earlier than the cooldown of the last firing before.

**Proof sketch.** Induction on the run, with the rule's `LastFired` key for any state it starts
from. A step that fires the rule found it off cooldown and leaves the key at its own ledger,
which is not the sentinel 0, so the rest of the run starts a cooldown later; any other step
leaves the key alone. -/
theorem fireTimes_spaced (hcool : 0 < r.cooldownLedgers) (hnow : 1 ≤ w.ledger.sequence)
    (hasc : Ascending w ops) (hed : Unedited x w ops user id)
    (hap : w.store.autopilot user id = some ap) (hr : ap.rules[i]? = some r) :
    Spaced r.cooldownLedgers (fireTimes x (user, id, i) w ops) ∧
      ∀ t ∈ fireTimes x (user, id, i) w ops, w.ledger.sequence ≤ t ∧
        ∀ a, w.store.lastFired user id i = some a → a ≠ 0 → a + r.cooldownLedgers ≤ t := by
  induction ops generalizing w with
  | nil => exact ⟨Spaced.nil, fun t h => nomatch h⟩
  | cons op ops ih =>
    obtain ⟨hle, hasc'⟩ := Ascending.after (x := x) hasc
    have hnow' := hnow.trans hle
    rw [fireTimes]
    rcases filter_fires x w op (user, id, i) with ⟨hf, hfilter⟩ | ⟨hf, hfilter⟩
    · -- the rule's keys are as before
      have hkeep : (after (call x) w op).store.autopilot user id = w.store.autopilot user id ∧
          (after (call x) w op).store.lastFired user id i = w.store.lastFired user id i := by
        cases hc : call x w op with
        | error e => simp only [after_of_error _ hc, and_self]
        | ok w' =>
          rw [after_of_ok _ hc]
          apply keeps_of_not_fires hc hf
          apply hed
          rw [admitted_cons_of_ok _ hc]
          exact List.mem_cons_self
      obtain ⟨hspaced, hrest⟩ := ih hnow' hasc' hed.cons (hkeep.1.trans hap)
      rw [hfilter, List.map_nil, List.nil_append]
      refine ⟨hspaced, fun t ht => ⟨hle.trans (hrest t ht).1, fun a ha => ?_⟩⟩
      exact (hrest t ht).2 a (hkeep.2.trans ha)
    · obtain ⟨w', ap', r', hc, -, hfires, hst⟩ := mem_fires hf
      -- the rule that fired is the stored one
      obtain rfl : ap' = ap := Option.some.inj (hfires.stored.symm.trans hap)
      obtain rfl : r' = r := Option.some.inj (hfires.rule.symm.trans hr)
      have hw' := after_of_ok (call x) hc
      have hap' : (after (call x) w op).store.autopilot user id = some ap' := by
        rw [hw', hst]
        exact hap
      have hlast : (after (call x) w op).store.lastFired user id i =
          some w.ledger.sequence := by
        rw [hw', hst]
        exact if_pos ⟨rfl, rfl, rfl⟩
      obtain ⟨hspaced, hrest⟩ := ih hnow' hasc' hed.cons hap'
      rw [hfilter, List.map_singleton, List.singleton_append]
      refine ⟨Spaced.cons (fun t ht => ?_) hspaced, fun t ht => ?_⟩
      · exact (hrest t ht).2 _ hlast (by omega)
      · have hpast : ∀ a, w.store.lastFired user id i = some a → a ≠ 0 →
            a + r'.cooldownLedgers ≤ w.ledger.sequence := by
          intro a ha ha0
          have hready := hfires.ready
          rw [Storage.lastFiredAt, ha, Option.getD_some] at hready
          exact add_cooldown_le_of_ready hready ha0 hcool
        rcases List.mem_cons.mp ht with rfl | ht
        · exact ⟨le_refl _, hpast⟩
        · refine ⟨hle.trans (hrest t ht).1, fun a ha ha0 => ?_⟩
          exact (hpast a ha ha0).trans (hle.trans (hrest t ht).1)

/-- Every rule that is stored has a cooldown. -/
lemma cooldown_pos (hreg : Registry w.store) (hap : w.store.autopilot user id = some ap)
    (hr : ap.rules[i]? = some r) : 0 < r.cooldownLedgers := by
  obtain ⟨-, -, hrules⟩ := (autopilotOk_iff ap).mp (hreg.accepted user id ap hap)
  have hok := hrules r (List.mem_of_getElem? hr)
  simp only [ruleOk, Bool.and_eq_true, decide_eq_true_eq] at hok
  exact hok.1.1.2

/-- **Two firings of a rule** with no edit of its autopilot between them are at least its
cooldown apart. -/
lemma add_cooldown_le {op' : Op σ} {mid : List (Op σ)} (hreg : Registry w.store)
    (hnow : 1 ≤ w.ledger.sequence) (hasc : Ascending w (op :: mid ++ [op']))
    (hf : (user, id, i) ∈ op.fires x w)
    (hf' : (user, id, i) ∈ op'.fires x (Transactional.run (call x) w (op :: mid)))
    (hed : Unedited x (after (call x) w op) mid user id) :
    ∃ ap r, w.store.autopilot user id = some ap ∧ ap.rules[i]? = some r ∧
      w.ledger.sequence + r.cooldownLedgers ≤
        (Transactional.run (call x) w (op :: mid)).ledger.sequence := by
  obtain ⟨w', ap, r, hc, -, hfires, hst⟩ := mem_fires hf
  have hw' := after_of_ok (call x) hc
  have hap' : (after (call x) w op).store.autopilot user id = some ap := by
    rw [hw', hst]
    exact hfires.stored
  have hlast : (after (call x) w op).store.lastFired user id i = some w.ledger.sequence := by
    rw [hw', hst]
    exact if_pos ⟨rfl, rfl, rfl⟩
  rw [List.cons_append] at hasc
  obtain ⟨hle, hasc'⟩ := Ascending.after (x := x) hasc
  -- the second firing is a step of the run as well, and edits nothing
  have hed' : Unedited x (after (call x) w op) (mid ++ [op']) user id := by
    intro o ho
    rw [admitted_append, List.mem_append] at ho
    rcases ho with ho | ho
    · exact hed o ho
    · obtain rfl : o = op' := List.mem_singleton.mp ((admitted_sublist _ _ _).subset ho)
      obtain ⟨_, _, _, -, hnone, -⟩ := mem_fires hf'
      rw [hnone]
      exact nofun
  have hmem : (Transactional.run (call x) w (op :: mid)).ledger.sequence ∈
      fireTimes x (user, id, i) (after (call x) w op) (mid ++ [op']) :=
    mem_fireTimes.mpr ⟨mid, op', [], rfl, hf', rfl⟩
  have hcool := cooldown_pos hreg hfires.stored hfires.rule
  obtain ⟨-, hrest⟩ := fireTimes_spaced hcool (hnow.trans hle) hasc' hed' hap' hfires.rule
  exact ⟨ap, r, hfires.stored, hfires.rule, (hrest _ hmem).2 _ hlast (by omega)⟩

end Run

/-- **Cooldowns hold over every run**: in every run of the router from its constructor, at
ledgers from 1 on that never go down,

* each step fires at most one rule;
* two firings of a rule with no edit of its autopilot between them are at least the rule's
  cooldown apart;
* over any part of the run without an edit of an autopilot, a rule with cooldown `c` fires at
  most `⌈n / c⌉` times in any `n` consecutive ledgers.

**Proof sketch.** The registries agree before each part of the run (`registry_run`), so the
stored rules have a positive cooldown. The second item is `add_cooldown_le`, and the third the
interval bound for the spaced firings of `fireTimes_spaced`. -/
theorem cooldown_run (x : Contracts σ) (admin : Address) (cfg : Config) (ledger : Ledger)
    (ext : σ) (ops : List (Op σ)) (hledger : 1 ≤ ledger.sequence)
    (hasc : Ascending (World.init admin cfg ledger ext) ops) :
    let w := Transactional.run (call x) (World.init admin cfg ledger ext)
    (∀ pre op post, ops = pre ++ op :: post → (op.fires x (w pre)).length ≤ 1) ∧
    (∀ pre op mid op' post user id i, ops = pre ++ (op :: mid ++ op' :: post) →
      (user, id, i) ∈ op.fires x (w pre) → (user, id, i) ∈ op'.fires x (w (pre ++ op :: mid)) →
      Unedited x (w (pre ++ [op])) mid user id →
      ∃ ap r, (w pre).store.autopilot user id = some ap ∧ ap.rules[i]? = some r ∧
        (w pre).ledger.sequence + r.cooldownLedgers ≤
          (w (pre ++ op :: mid)).ledger.sequence) ∧
    (∀ pre mid post user id i ap r lo n, ops = pre ++ (mid ++ post) →
      Unedited x (w pre) mid user id → (w pre).store.autopilot user id = some ap →
      ap.rules[i]? = some r →
      ((fireTimes x (user, id, i) (w pre) mid).filter fun t => lo ≤ t && t < lo + n).length ≤
        n ⌈/⌉ r.cooldownLedgers) := by
  intro w
  have hreg : ∀ pre, Registry (w pre).store := fun pre =>
    (registry_run x admin cfg ledger ext pre).1
  have hpart : ∀ pre part post, ops = pre ++ (part ++ post) →
      1 ≤ (w pre).ledger.sequence ∧ Ascending (w pre) part := by
    rintro pre part post rfl
    obtain ⟨hle, hrest⟩ := Ascending.run (x := x) hasc
    refine ⟨hledger.trans hle, hrest.sublist ?_⟩
    rw [List.filterMap_append]
    exact (List.sublist_append_left _ _).cons_cons _
  refine ⟨fun pre op post _ => fires_length_le x (w pre) op, ?_, ?_⟩
  · intro pre op mid op' post user id i hops hf hf' hed
    have hrun : w (pre ++ op :: mid) = Transactional.run (call x) (w pre) (op :: mid) :=
      run_append (call x) _ pre (op :: mid)
    have hafter : w (pre ++ [op]) = after (call x) (w pre) op :=
      run_append (call x) _ pre [op]
    rw [hrun] at hf' ⊢
    rw [hafter] at hed
    obtain ⟨hnow, hasc'⟩ := hpart pre (op :: mid ++ [op']) post (by rw [hops]; simp)
    exact add_cooldown_le (hreg pre) hnow hasc' hf hf' hed
  · intro pre mid post user id i ap r lo n hops hed hap hr
    obtain ⟨hnow, hasc'⟩ := hpart pre mid post hops
    have hcool := cooldown_pos (hreg pre) hap hr
    exact (fireTimes_spaced hcool hnow hasc' hed hap hr).1.length_filter_le hcool lo n

/-- A run of the illiquid hub's autopilot: set at ledger 1000, and ticked at 1000, 1050 and
1100. -/
def illiquidRun : List (Op Unit) :=
  [.setAutopilot true "wallet" 1 illiquidAutopilot, .tick true "wallet" 1 none,
    .elsewhere ⟨1050, 0⟩ (), .tick true "wallet" 1 none, .elsewhere ⟨1100, 0⟩ (),
    .tick true "wallet" 1 none]

/-- There rule 0, with a cooldown of 100 ledgers, fires at 1000 and 1100: in 200 ledgers no more
than twice. -/
theorem cooldown_run_illiquid :
    let w := World.init "admin" Reads.illiquidHub.cfg ⟨1000, 0⟩ ()
    let set := after (call illiquidContracts) w
      (.setAutopilot true "wallet" 1 illiquidAutopilot)
    fireTimes illiquidContracts ("wallet", 1, 0) set illiquidRun.tail = [1000, 1100] ∧
    ((fireTimes illiquidContracts ("wallet", 1, 0) set illiquidRun.tail).filter
      fun t => 1000 ≤ t && t < 1000 + 200).length ≤ 200 ⌈/⌉ 100 := by
  intro w set
  have hasc : Ascending w illiquidRun := by
    unfold Ascending
    decide +kernel
  obtain ⟨-, -, h⟩ := cooldown_run illiquidContracts "admin" Reads.illiquidHub.cfg ⟨1000, 0⟩ ()
    illiquidRun (by decide) hasc
  refine ⟨by decide +kernel, ?_⟩
  have hed : Unedited illiquidContracts set illiquidRun.tail "wallet" 1 := by decide +kernel
  exact h [.setAutopilot true "wallet" 1 illiquidAutopilot] illiquidRun.tail [] "wallet" 1 0
    illiquidAutopilot _ 1000 200 (by rfl) hed (by rfl) (by rfl)

end Koul.Router
