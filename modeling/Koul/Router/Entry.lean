import Koul.Router.Run

set_option relaxedAutoImplicit false
set_option autoImplicit false

/-!
# The router's entry points

`KoulRouter` itself: the constructor and the admin's setters, `set_autopilot` and
`clear_autopilot` with the registries they keep, the views `check` and `next_action`, and `tick`.
`auth` says whether the call carries the authorization it requires. Storage never expires here,
so extending a key's time to live does nothing.

## Main definitions

* `Koul.Router.setAutopilot`, `clearAutopilot` — the owner's edits.
* `Koul.Router.check`, `nextAction` — the views.
* `Koul.Router.tick` — run the first applicable rule and close the agent's session.

## Main results

* `Koul.Router.tick_ok` — what a successful tick went through.
-/

namespace Koul.Router

open Transactional

/-! ## Storage -/

namespace Storage

/-- The ledger that a rule last fired in, 0 when there is none. -/
def lastFiredAt (st : Storage) (user : Address) (id ruleIndex : ℕ) : ℕ :=
  (st.lastFired user id ruleIndex).getD 0

def idsOf (st : Storage) (user : Address) : List ℕ := (st.ids user).getD []

def usersOf (st : Storage) : List Address := st.users.getD []

/-- Set or remove one `LastFired` key. -/
def setLastFired (st : Storage) (user : Address) (id ruleIndex : ℕ) (v : Option ℕ) : Storage :=
  { st with
    lastFired := fun u j i =>
      if u = user ∧ j = id ∧ i = ruleIndex then v else st.lastFired u j i }

/-- Set or remove one `Autopilot` key. -/
def putAutopilot (st : Storage) (user : Address) (id : ℕ) (v : Option Autopilot) : Storage :=
  { st with
    autopilot := fun u j => if u = user ∧ j = id then v else st.autopilot u j }

/-- Set or remove one `Ids` key. -/
def setIds (st : Storage) (user : Address) (v : Option (List ℕ)) : Storage :=
  { st with ids := fun u => if u = user then v else st.ids u }

/-- Set or remove the `Users` key. -/
def setUsers (st : Storage) (v : Option (List Address)) : Storage := { st with users := v }

/-- Remove the `LastFired` keys of an autopilot's rules, whatever their number. -/
def clearLastFired (st : Storage) (user : Address) (id : ℕ) : Storage :=
  (List.range MAX_RULES).foldl (fun st i => st.setLastFired user id i none) st

end Storage

/-- Remove every occurrence of an element. -/
def vecRemove {α : Type} [DecidableEq α] (v : List α) (x : α) : List α := v.filter (· ≠ x)

namespace World

variable {σ : Type}

def setStore (w : World σ) (st : Storage) : World σ := { w with store := st }

end World

/-- The router's storage after its constructor. -/
def Storage.init (admin : Address) (cfg : Config) : Storage where
  config := cfg
  admin := admin
  users := none
  ids := fun _ => none
  autopilot := fun _ _ => none
  lastFired := fun _ _ _ => none
  feed := fun _ => none
  aggregator := none
  policy := none

variable {σ : Type}

/-! ## The admin's setters -/

/-- A setter of the admin's. -/
def adminSet (auth : Bool) (f : Storage → Storage) (w : World σ) : Except Err (World σ) :=
  if !auth then .error .auth else .ok (w.setStore (f w.store))

def setOracle (auth : Bool) (oracle : Address) : World σ → Except Err (World σ) :=
  adminSet auth fun st => { st with config := { st.config with oracle := oracle } }

def setFeed (auth : Bool) (token : Address) (feed : Feed) : World σ → Except Err (World σ) :=
  adminSet auth fun st => { st with feed := fun t => if t = token then some feed else st.feed t }

def setAggregator (auth : Bool) (aggregator : Address) : World σ → Except Err (World σ) :=
  adminSet auth fun st => { st with aggregator := some aggregator }

def setPolicy (auth : Bool) (policy : Address) : World σ → Except Err (World σ) :=
  adminSet auth fun st => { st with policy := some policy }

/-! ## The owner's edits -/

namespace Storage

/-- Replacing an autopilot resets the cooldowns of its rules. -/
def resetCooldowns (st : Storage) (user : Address) (id : ℕ) : Storage :=
  if (st.autopilot user id).isSome then st.clearLastFired user id else st

def addId (st : Storage) (user : Address) (id : ℕ) : Storage :=
  if id ∈ st.idsOf user then st else st.setIds user (some (st.idsOf user ++ [id]))

def addUser (st : Storage) (user : Address) : Storage :=
  if user ∈ st.usersOf then st else st.setUsers (some (st.usersOf ++ [user]))

/-- What `set_autopilot` stores. -/
def withAutopilot (st : Storage) (user : Address) (id : ℕ) (ap : Autopilot) : Storage :=
  (((st.resetCooldowns user id).putAutopilot user id (some ap)).addId user id).addUser user

end Storage

/-- Create or replace autopilot `id` for `user`. -/
def setAutopilot (auth : Bool) (user : Address) (id : ℕ) (ap : Autopilot) (w : World σ) :
    Except Err (World σ) :=
  if !auth then .error .auth
  else if !autopilotOk ap then .error (.router .badAutopilot)
  else
    match tokensKnown w.store ap with
    | .error err => .error (.router err)
    | .ok () =>
      .ok ((w.setStore (w.store.withAutopilot user id ap)).publish
        (.autopilotSet user id ap.accountId ap.rules.length))

namespace Storage

def removeUser (st : Storage) (user : Address) : Storage :=
  let all := vecRemove st.usersOf user
  st.setUsers (if all.isEmpty then none else some all)

/-- Remove an id; a user with no id left is removed too. -/
def removeId (st : Storage) (user : Address) (id : ℕ) : Storage :=
  let ids := vecRemove (st.idsOf user) id
  if ids.isEmpty then (st.setIds user none).removeUser user else st.setIds user (some ids)

/-- What `clear_autopilot` leaves stored. -/
def withoutAutopilot (st : Storage) (user : Address) (id : ℕ) : Storage :=
  ((st.putAutopilot user id none).clearLastFired user id).removeId user id

end Storage

def clearAutopilot (auth : Bool) (user : Address) (id : ℕ) (w : World σ) :
    Except Err (World σ) :=
  if !auth then .error .auth
  else if (w.store.autopilot user id).isNone then .error (.router .noAutopilot)
  else
    .ok ((w.setStore (w.store.withoutAutopilot user id)).publish (.autopilotCleared user id))

/-! ## The views -/

variable (x : Contracts σ)

/-- Cooldown state and per-condition truth for every rule, in rule order. -/
def check (w : World σ) (user : Address) (id : ℕ) : Except Err (List RuleState) :=
  match w.store.autopilot user id with
  | none => .error (.router .noAutopilot)
  | some ap =>
    .ok (ap.rules.zipIdx.map fun (r, i) =>
      let lf := w.store.lastFiredAt user id i
      let (h, states) := (w.reads x).evaluateRule user ap.accountId r
      ⟨ready lf w.ledger.sequence r.cooldownLedgers, h, states, lf⟩)

/-- The loop of `next_action` over the rules from index `idx` on. -/
def nextActionLoop (w : World σ) (user : Address) (id accountId : ℕ) :
    List Rule → ℕ → Option Planned
  | [], _ => none
  | r :: rs, idx =>
    if !ready (w.store.lastFiredAt user id idx) w.ledger.sequence r.cooldownLedgers ||
        !((w.reads x).evaluateRule user accountId r).1 then
      nextActionLoop w user id accountId rs (idx + 1)
    else
      match (w.reads x).plan user accountId r.action with
      | some p => some (p.planned w.store.config idx)
      | none => nextActionLoop w user id accountId rs (idx + 1)

/-- What the next tick would run, without moving anything. -/
def nextAction (w : World σ) (user : Address) (id : ℕ) : Except Err (Option Planned) :=
  match w.store.autopilot user id with
  | none => .error (.router .noAutopilot)
  | some ap => .ok (nextActionLoop x w user id ap.accountId ap.rules 0)

/-! ## The tick -/

/-- Note that a rule fired in this ledger and publish it. -/
def fire (user : Address) (id ruleIndex : ℕ) (ex : Executed) (states : List ConditionState)
    (w : World σ) : World σ :=
  (w.setStore (w.store.setLastFired user id ruleIndex (some w.ledger.sequence))).publish
    (.fired user id ruleIndex ex.kind ex.amount ex.fromHub ex.toHub (states.map (·.observed)))

/-- The loop of `tick` over the rules from index `idx` on: run the first applicable one. -/
def tickLoop (w : World σ) (user : Address) (id accountId : ℕ) (route : Option Bytes) :
    List Rule → ℕ → Except Err (Option Executed × World σ)
  | [], _ => .ok (none, w)
  | r :: rs, idx =>
    if !ready (w.store.lastFiredAt user id idx) w.ledger.sequence r.cooldownLedgers then
      tickLoop w user id accountId route rs (idx + 1)
    else
      let (h, states) := (w.reads x).evaluateRule user accountId r
      if !h then tickLoop w user id accountId route rs (idx + 1)
      else
        match (w.reads x).plan user accountId r.action with
        | none => tickLoop w user id accountId route rs (idx + 1)
        | some plan => do
          let (ex, w') ← run x user accountId id idx plan route w
          .ok (some ex, fire user id idx ex states w')

/-- Close the agent's session with the policy, when one is set. -/
def closeSession (user : Address) (w : World σ) : Except Err (World σ) :=
  match w.store.policy with
  | none => .ok w
  | some policy => do
    let s ← invoke (x.endSession policy user w.ext)
    .ok (w.called (.endSession policy user) s)

/-- Evaluate and execute the first applicable rule of autopilot `id`; `none` when nothing
applies. -/
def tick (auth : Bool) (user : Address) (id : ℕ) (route : Option Bytes) (w : World σ) :
    Except Err (Option Executed × World σ) :=
  if !auth then .error .auth
  else
    match w.store.autopilot user id with
    | none => .error (.router .noAutopilot)
    | some ap => do
      let (done, w') ← tickLoop x w user id ap.accountId route ap.rules 0
      let w'' ← closeSession x user w'
      .ok (done, w'')

/-! ## What a successful call went through -/

section Reading

variable {x} {auth : Bool} {user : Address} {id : ℕ} {w w' : World σ}

@[simp] lemma fire_store (ruleIndex : ℕ) (ex : Executed) (states : List ConditionState) :
    (fire user id ruleIndex ex states w).store =
      w.store.setLastFired user id ruleIndex (some w.ledger.sequence) := rfl

/-- A setter of the admin's only stores. -/
lemma eq_of_adminSet {f : Storage → Storage} (h : adminSet auth f w = .ok w') :
    w' = w.setStore (f w.store) := by
  unfold adminSet at h
  split_ifs at h
  cases h
  rfl

/-- Closing the session touches no storage of the router's and publishes nothing. -/
lemma closeSession_ok (h : closeSession x user w = .ok w') :
    w'.store = w.store ∧ w'.ledger = w.ledger ∧ w'.events = w.events ∧
      (w.store.policy = none ∧ w' = w ∨ ∃ policy, w.store.policy = some policy ∧
        x.endSession policy user w.ext = some w'.ext ∧
        w'.calls = w.calls ++ [.endSession policy user]) := by
  simp only [closeSession] at h
  split at h
  · next hp =>
    cases h
    exact ⟨rfl, rfl, rfl, .inl ⟨hp, rfl⟩⟩
  · next policy hp =>
    simp only [bind_eq_ok_iff, invoke_eq_ok_iff] at h
    obtain ⟨s, hs, h⟩ := h
    cases h
    exact ⟨rfl, rfl, rfl, .inr ⟨policy, hp, hs, rfl⟩⟩

/-- A successful tick was authorized, found its autopilot, walked its rules and closed the
session. -/
lemma tick_ok {route : Option Bytes} {done : Option Executed}
    (h : tick x auth user id route w = .ok (done, w')) :
    auth = true ∧ ∃ ap w₁, w.store.autopilot user id = some ap ∧
      tickLoop x w user id ap.accountId route ap.rules 0 = .ok (done, w₁) ∧
      closeSession x user w₁ = .ok w' := by
  unfold tick at h
  split_ifs at h with hauth
  split at h
  · cases h
  · next ap hap =>
    simp only [bind_eq_ok_iff, Prod.exists] at h
    obtain ⟨done', w₁, hloop, w₂, hclose, h⟩ := h
    cases h
    exact ⟨by simpa using hauth, ap, w₁, hap, hloop, hclose⟩

/-- A successful edit stored an accepted autopilot. -/
lemma setAutopilot_ok {ap : Autopilot} (h : setAutopilot auth user id ap w = .ok w') :
    auth = true ∧ autopilotOk ap = true ∧ tokensKnown w.store ap = .ok () ∧
      w' = (w.setStore (w.store.withAutopilot user id ap)).publish
        (.autopilotSet user id ap.accountId ap.rules.length) := by
  unfold setAutopilot at h
  split_ifs at h with hauth hok
  split at h
  · cases h
  · next hknown =>
    cases h
    exact ⟨by simpa using hauth, by simpa using hok, hknown, rfl⟩

/-- A successful removal found its autopilot. -/
lemma clearAutopilot_ok (h : clearAutopilot auth user id w = .ok w') :
    auth = true ∧ (w.store.autopilot user id).isSome ∧
      w' = (w.setStore (w.store.withoutAutopilot user id)).publish (.autopilotCleared user id) := by
  unfold clearAutopilot at h
  split_ifs at h with hauth hstored
  cases h
  exact ⟨by simpa using hauth, by simpa [Option.isSome_iff_ne_none] using hstored, rfl⟩

end Reading

end Koul.Router
