import Koul.Lib.Transactional
import Koul.Router.Entry
import Koul.Router.Refinement
import Mathlib.Data.List.Nodup

set_option relaxedAutoImplicit false
set_option autoImplicit false

/-!
# The registries

`list_ids`, `list_users`, the stored autopilots and the cooldowns are separate storage keys that
the router keeps in step by hand. Here they agree in every state reachable from the constructor.

## Main definitions

* `Koul.Router.Op` — a call of the router, or the other contracts and the ledger moving on.
* `Koul.Router.Registry` — the keys agree.
* `Koul.Router.Unchanged` — nothing stored for a user changed.

## Main results

* `Koul.Router.Registry.withAutopilot`, `withoutAutopilot`, `setLastFired` — what the three
  operations preserve.
* `Koul.Router.registry_run` — the registries agree after every run, and no operation touches
  another user's keys.
-/

namespace Koul.Router

open Transactional

/-! ## What each storage operation leaves at each key -/

/-- Appending a new element keeps a list free of duplicates. -/
lemma nodup_append_singleton {α : Type} {l : List α} {a : α} (hl : l.Nodup) (ha : a ∉ l) :
    (l ++ [a]).Nodup := by
  rw [← List.concat_eq_append]
  exact List.Nodup.concat ha hl

/-- An absent key reads as the empty list. -/
lemma getD_ite_isEmpty {α : Type} (l : List α) :
    (if l.isEmpty then none else some l).getD [] = l := by
  split_ifs with h
  · exact (List.isEmpty_iff.mp h).symm
  · rfl

namespace Storage

variable (st : Storage) (user : Address) (id : ℕ)

/-- Clearing the cooldowns of an autopilot removes the keys of the first `MAX_RULES` rules. -/
lemma clearLastFired_lastFired (u : Address) (j i : ℕ) :
    (st.clearLastFired user id).lastFired u j i =
      if u = user ∧ j = id ∧ i < MAX_RULES then none else st.lastFired u j i := by
  have hfold : ∀ n, ((List.range n).foldl (fun st i => st.setLastFired user id i none)
      st).lastFired u j i = if u = user ∧ j = id ∧ i < n then none else st.lastFired u j i := by
    intro n
    induction n with
    | zero => simp
    | succ n ih =>
      rw [List.range_succ, List.foldl_append, List.foldl_cons, List.foldl_nil, setLastFired]
      dsimp only
      rw [ih]
      split_ifs <;> grind
  exact hfold MAX_RULES

/-- It touches nothing else. -/
lemma clearLastFired_eq : st.clearLastFired user id =
    { st with lastFired := (st.clearLastFired user id).lastFired } := by
  have hfold : ∀ n, ∃ f, (List.range n).foldl (fun st i => st.setLastFired user id i none) st =
      { st with lastFired := f } := by
    intro n
    induction n with
    | zero => exact ⟨st.lastFired, rfl⟩
    | succ n ih =>
      obtain ⟨f, hf⟩ := ih
      rw [List.range_succ, List.foldl_append, hf]
      exact ⟨_, rfl⟩
  obtain ⟨f, hf⟩ := hfold MAX_RULES
  rw [clearLastFired, hf]

@[simp] lemma clearLastFired_autopilot :
    (st.clearLastFired user id).autopilot = st.autopilot := by
  rw [clearLastFired_eq]

@[simp] lemma clearLastFired_ids : (st.clearLastFired user id).ids = st.ids := by
  rw [clearLastFired_eq]

@[simp] lemma clearLastFired_users : (st.clearLastFired user id).users = st.users := by
  rw [clearLastFired_eq]

@[simp] lemma clearLastFired_idsOf (u : Address) :
    (st.clearLastFired user id).idsOf u = st.idsOf u := by
  rw [idsOf, clearLastFired_ids, idsOf]

@[simp] lemma clearLastFired_usersOf : (st.clearLastFired user id).usersOf = st.usersOf := by
  rw [usersOf, clearLastFired_users, usersOf]

@[simp] lemma putAutopilot_ids (v : Option Autopilot) : (st.putAutopilot user id v).ids = st.ids :=
  rfl

@[simp] lemma putAutopilot_idsOf (v : Option Autopilot) (u : Address) :
    (st.putAutopilot user id v).idsOf u = st.idsOf u := rfl

@[simp] lemma putAutopilot_usersOf (v : Option Autopilot) :
    (st.putAutopilot user id v).usersOf = st.usersOf := rfl

@[simp] lemma putAutopilot_lastFired (v : Option Autopilot) :
    (st.putAutopilot user id v).lastFired = st.lastFired := rfl

/-! ### The stages of `set_autopilot` -/

@[simp] lemma resetCooldowns_autopilot :
    (st.resetCooldowns user id).autopilot = st.autopilot := by
  rw [resetCooldowns]
  split_ifs <;> simp

@[simp] lemma resetCooldowns_ids : (st.resetCooldowns user id).ids = st.ids := by
  rw [resetCooldowns]
  split_ifs <;> simp

@[simp] lemma resetCooldowns_users : (st.resetCooldowns user id).users = st.users := by
  rw [resetCooldowns]
  split_ifs <;> simp

@[simp] lemma resetCooldowns_idsOf (u : Address) :
    (st.resetCooldowns user id).idsOf u = st.idsOf u := by
  rw [idsOf, resetCooldowns_ids, idsOf]

@[simp] lemma resetCooldowns_usersOf : (st.resetCooldowns user id).usersOf = st.usersOf := by
  rw [usersOf, resetCooldowns_users, usersOf]

lemma resetCooldowns_lastFired (u : Address) (j i : ℕ) :
    (st.resetCooldowns user id).lastFired u j i =
      if (st.autopilot user id).isSome ∧ u = user ∧ j = id ∧ i < MAX_RULES then none
      else st.lastFired u j i := by
  rw [resetCooldowns]
  by_cases hstored : (st.autopilot user id).isSome
  · simp only [hstored, if_true, true_and]
    exact st.clearLastFired_lastFired user id u j i
  · simp only [hstored, if_false, false_and, Bool.false_eq_true]

@[simp] lemma addId_autopilot : (st.addId user id).autopilot = st.autopilot := by
  rw [addId]
  split_ifs <;> rfl

@[simp] lemma addId_lastFired : (st.addId user id).lastFired = st.lastFired := by
  rw [addId]
  split_ifs <;> rfl

@[simp] lemma addId_users : (st.addId user id).users = st.users := by
  rw [addId]
  split_ifs <;> rfl

@[simp] lemma addId_usersOf : (st.addId user id).usersOf = st.usersOf := by
  rw [usersOf, addId_users, usersOf]

lemma addId_ids (u : Address) : (st.addId user id).ids u =
    if u = user ∧ id ∉ st.idsOf user then some (st.idsOf user ++ [id]) else st.ids u := by
  rw [addId]
  by_cases hmem : id ∈ st.idsOf user <;> simp [hmem, setIds]

@[simp] lemma addUser_autopilot : (st.addUser user).autopilot = st.autopilot := by
  rw [addUser]
  split_ifs <;> rfl

@[simp] lemma addUser_lastFired : (st.addUser user).lastFired = st.lastFired := by
  rw [addUser]
  split_ifs <;> rfl

@[simp] lemma addUser_ids : (st.addUser user).ids = st.ids := by
  rw [addUser]
  split_ifs <;> rfl

lemma addUser_usersOf : (st.addUser user).usersOf =
    if user ∈ st.usersOf then st.usersOf else st.usersOf ++ [user] := by
  rw [addUser]
  split_ifs <;> rfl

/-! ### What `set_autopilot` stores -/

variable (ap : Autopilot)

lemma withAutopilot_autopilot (u : Address) (j : ℕ) :
    (st.withAutopilot user id ap).autopilot u j =
      if u = user ∧ j = id then some ap else st.autopilot u j := by
  simp only [withAutopilot, addUser_autopilot, addId_autopilot, putAutopilot,
    resetCooldowns_autopilot]

lemma withAutopilot_lastFired (u : Address) (j i : ℕ) :
    (st.withAutopilot user id ap).lastFired u j i =
      if (st.autopilot user id).isSome ∧ u = user ∧ j = id ∧ i < MAX_RULES then none
      else st.lastFired u j i := by
  rw [withAutopilot, addUser_lastFired, addId_lastFired, putAutopilot_lastFired,
    resetCooldowns_lastFired]

lemma withAutopilot_ids (u : Address) : (st.withAutopilot user id ap).ids u =
    if u = user ∧ id ∉ st.idsOf user then some (st.idsOf user ++ [id]) else st.ids u := by
  rw [withAutopilot, addUser_ids, addId_ids, putAutopilot_idsOf, resetCooldowns_idsOf,
    putAutopilot_ids, resetCooldowns_ids]

lemma withAutopilot_idsOf (u : Address) : (st.withAutopilot user id ap).idsOf u =
    if u = user ∧ id ∉ st.idsOf user then st.idsOf user ++ [id] else st.idsOf u := by
  rw [idsOf, withAutopilot_ids]
  split_ifs <;> rfl

lemma withAutopilot_usersOf : (st.withAutopilot user id ap).usersOf =
    if user ∈ st.usersOf then st.usersOf else st.usersOf ++ [user] := by
  rw [withAutopilot, addUser_usersOf, addId_usersOf, putAutopilot_usersOf,
    resetCooldowns_usersOf]

/-! ### What `clear_autopilot` leaves stored -/

@[simp] lemma removeId_autopilot : (st.removeId user id).autopilot = st.autopilot := by
  simp only [removeId, removeUser]
  split_ifs <;> rfl

@[simp] lemma removeId_lastFired : (st.removeId user id).lastFired = st.lastFired := by
  simp only [removeId, removeUser]
  split_ifs <;> rfl

lemma removeId_ids (u : Address) : (st.removeId user id).ids u =
    if u = user then
      if (vecRemove (st.idsOf user) id).isEmpty then none
      else some (vecRemove (st.idsOf user) id)
    else st.ids u := by
  simp only [removeId, removeUser, setUsers, setIds]
  split_ifs <;> simp_all

lemma removeId_usersOf : (st.removeId user id).usersOf =
    if (vecRemove (st.idsOf user) id).isEmpty then vecRemove st.usersOf user
    else st.usersOf := by
  rw [removeId]
  split_ifs
  · exact getD_ite_isEmpty _
  · rfl

lemma withoutAutopilot_autopilot (u : Address) (j : ℕ) :
    (st.withoutAutopilot user id).autopilot u j =
      if u = user ∧ j = id then none else st.autopilot u j := by
  simp only [withoutAutopilot, removeId_autopilot, clearLastFired_autopilot, putAutopilot]

lemma withoutAutopilot_lastFired (u : Address) (j i : ℕ) :
    (st.withoutAutopilot user id).lastFired u j i =
      if u = user ∧ j = id ∧ i < MAX_RULES then none else st.lastFired u j i := by
  rw [withoutAutopilot, removeId_lastFired, clearLastFired_lastFired, putAutopilot_lastFired]

lemma withoutAutopilot_ids (u : Address) : (st.withoutAutopilot user id).ids u =
    if u = user then
      if (vecRemove (st.idsOf user) id).isEmpty then none
      else some (vecRemove (st.idsOf user) id)
    else st.ids u := by
  rw [withoutAutopilot, removeId_ids, clearLastFired_idsOf, putAutopilot_idsOf,
    clearLastFired_ids, putAutopilot_ids]

lemma withoutAutopilot_idsOf (u : Address) : (st.withoutAutopilot user id).idsOf u =
    if u = user then vecRemove (st.idsOf user) id else st.idsOf u := by
  rw [idsOf, withoutAutopilot_ids]
  by_cases hu : u = user
  · simp only [hu, if_true, getD_ite_isEmpty]
  · simp only [hu, if_false]
    rfl

lemma withoutAutopilot_usersOf : (st.withoutAutopilot user id).usersOf =
    if (vecRemove (st.idsOf user) id).isEmpty then vecRemove st.usersOf user
    else st.usersOf := by
  rw [withoutAutopilot, removeId_usersOf, clearLastFired_idsOf, putAutopilot_idsOf,
    clearLastFired_usersOf, putAutopilot_usersOf]

end Storage

/-! ## The invariant -/

/-- The storage keys agree: the id and user lists are duplicate-free and list exactly what is
stored, stored autopilots are accepted ones, and only their rules have a cooldown. -/
structure Registry (st : Storage) : Prop where
  mem_ids : ∀ u id, id ∈ st.idsOf u ↔ (st.autopilot u id).isSome
  nodup_ids : ∀ u, (st.idsOf u).Nodup
  mem_users : ∀ u, u ∈ st.usersOf ↔ st.idsOf u ≠ []
  nodup_users : st.usersOf.Nodup
  accepted : ∀ u id ap, st.autopilot u id = some ap → autopilotOk ap = true
  fired : ∀ u id i n, st.lastFired u id i = some n →
    ∃ ap, st.autopilot u id = some ap ∧ i < ap.rules.length

namespace Registry

variable {st : Storage} {user : Address} {id : ℕ}

/-- The registries agree after the constructor. -/
lemma init (admin : Address) (cfg : Config) : Registry (Storage.init admin cfg) where
  mem_ids u id := by simp [Storage.init, Storage.idsOf]
  nodup_ids u := List.nodup_nil
  mem_users u := by simp [Storage.init, Storage.idsOf, Storage.usersOf]
  nodup_users := List.nodup_nil
  accepted u id ap h := nomatch h
  fired u id i n h := nomatch h

/-- Only rules within the limit have a cooldown. -/
lemma fired_lt (h : Registry st) {u : Address} {j i n : ℕ} (hn : st.lastFired u j i = some n) :
    i < MAX_RULES := by
  obtain ⟨ap, hap, hi⟩ := h.fired u j i n hn
  have hlen := ((autopilotOk_iff ap).mp (h.accepted u j ap hap)).2.1
  exact hi.trans_le hlen

/-- After a replacement or a removal no rule of that autopilot has a cooldown left. -/
lemma not_fired_withAutopilot (h : Registry st) (ap : Autopilot) (i : ℕ) :
    (st.withAutopilot user id ap).lastFired user id i = none := by
  rw [Storage.withAutopilot_lastFired]
  split_ifs with hc
  · rfl
  · cases hn : st.lastFired user id i with
    | none => rfl
    | some n =>
      obtain ⟨ap', hap', -⟩ := h.fired user id i n hn
      exact absurd ⟨by simp [hap'], rfl, rfl, h.fired_lt hn⟩ hc

/-- **Creating or replacing an accepted autopilot** keeps the registries in step. -/
theorem withAutopilot (h : Registry st) {ap : Autopilot} (hok : autopilotOk ap = true) :
    Registry (st.withAutopilot user id ap) where
  mem_ids u j := by
    rw [Storage.withAutopilot_idsOf, Storage.withAutopilot_autopilot]
    by_cases hu : u = user
    · subst hu
      by_cases hj : j = id
      · subst hj
        by_cases hmem : j ∈ st.idsOf u <;> simp [hmem]
      · by_cases hmem : id ∈ st.idsOf u <;> simp [hmem, hj, h.mem_ids]
    · simp [hu, h.mem_ids]
  nodup_ids u := by
    rw [Storage.withAutopilot_idsOf]
    split_ifs with hc
    · exact nodup_append_singleton (h.nodup_ids user) hc.2
    · exact h.nodup_ids u
  mem_users u := by
    rw [Storage.withAutopilot_idsOf, Storage.withAutopilot_usersOf]
    by_cases hu : u = user
    · subst hu
      by_cases hmem : id ∈ st.idsOf u
      · have hne : st.idsOf u ≠ [] := List.ne_nil_of_mem hmem
        simp [hmem, hne, (h.mem_users u).mpr hne]
      · by_cases husers : u ∈ st.usersOf <;> simp [hmem, husers]
    · by_cases husers : user ∈ st.usersOf <;> simp [hu, husers, h.mem_users]
  nodup_users := by
    rw [Storage.withAutopilot_usersOf]
    split_ifs with hc
    · exact h.nodup_users
    · exact nodup_append_singleton h.nodup_users hc
  accepted u j ap' hap' := by
    rw [Storage.withAutopilot_autopilot] at hap'
    split_ifs at hap' with hc
    · cases hap'
      exact hok
    · exact h.accepted u j ap' hap'
  fired u j i n hn := by
    by_cases hc : u = user ∧ j = id
    · obtain ⟨rfl, rfl⟩ := hc
      rw [h.not_fired_withAutopilot] at hn
      cases hn
    · rw [Storage.withAutopilot_lastFired, if_neg (by tauto)] at hn
      rw [Storage.withAutopilot_autopilot, if_neg hc]
      exact h.fired u j i n hn

/-- An element is left exactly when it was there and is not the one removed. -/
lemma mem_vecRemove {α : Type} [DecidableEq α] {v : List α} {a b : α} :
    a ∈ vecRemove v b ↔ a ∈ v ∧ a ≠ b := by
  simp [vecRemove]

lemma nodup_vecRemove {α : Type} [DecidableEq α] {v : List α} (h : v.Nodup) (b : α) :
    (vecRemove v b).Nodup := h.filter _

/-- **Removing an autopilot** keeps the registries in step. -/
theorem withoutAutopilot (h : Registry st) : Registry (st.withoutAutopilot user id) where
  mem_ids u j := by
    rw [Storage.withoutAutopilot_idsOf, Storage.withoutAutopilot_autopilot]
    by_cases hu : u = user
    · subst hu
      by_cases hj : j = id <;> simp [hj, mem_vecRemove, h.mem_ids]
    · simp [hu, h.mem_ids]
  nodup_ids u := by
    rw [Storage.withoutAutopilot_idsOf]
    split_ifs
    · exact nodup_vecRemove (h.nodup_ids user) id
    · exact h.nodup_ids u
  mem_users u := by
    rw [Storage.withoutAutopilot_idsOf, Storage.withoutAutopilot_usersOf]
    by_cases hu : u = user
    · subst hu
      rw [if_pos rfl]
      cases hids : vecRemove (st.idsOf u) id with
      | nil => simp [mem_vecRemove]
      | cons j js =>
        -- an id is left, so the user had one
        have hj : j ∈ st.idsOf u := (mem_vecRemove.mp (hids ▸ List.mem_cons_self)).1
        simp [(h.mem_users u).mpr (List.ne_nil_of_mem hj)]
    · rw [if_neg hu]
      split_ifs <;> simp [mem_vecRemove, hu, h.mem_users]
  nodup_users := by
    rw [Storage.withoutAutopilot_usersOf]
    split_ifs
    · exact nodup_vecRemove h.nodup_users user
    · exact h.nodup_users
  accepted u j ap hap := by
    rw [Storage.withoutAutopilot_autopilot] at hap
    split_ifs at hap
    exact h.accepted u j ap hap
  fired u j i n hn := by
    rw [Storage.withoutAutopilot_lastFired] at hn
    split_ifs at hn with hc
    have hne : ¬ (u = user ∧ j = id) := fun hc' => hc ⟨hc'.1, hc'.2, h.fired_lt hn⟩
    rw [Storage.withoutAutopilot_autopilot, if_neg hne]
    exact h.fired u j i n hn

/-- **Starting a cooldown** of a stored rule keeps the registries in step. -/
theorem setLastFired (h : Registry st) {i n : ℕ} {ap : Autopilot}
    (hap : st.autopilot user id = some ap) (hi : i < ap.rules.length) :
    Registry (st.setLastFired user id i (some n)) where
  mem_ids := h.mem_ids
  nodup_ids := h.nodup_ids
  mem_users := h.mem_users
  nodup_users := h.nodup_users
  accepted := h.accepted
  fired u j k m hm := by
    by_cases hc : u = user ∧ j = id ∧ k = i
    · obtain ⟨rfl, rfl, rfl⟩ := hc
      exact ⟨ap, hap, hi⟩
    · simp only [Storage.setLastFired, if_neg hc] at hm
      exact h.fired u j k m hm

end Registry

/-! ## What is stored for a user -/

/-- Nothing stored for user `v` changed: the ids, the autopilots, the cooldowns, and whether
`v` is listed. -/
structure Unchanged (v : Address) (st st' : Storage) : Prop where
  ids : st'.ids v = st.ids v
  autopilot : ∀ id, st'.autopilot v id = st.autopilot v id
  lastFired : ∀ id i, st'.lastFired v id i = st.lastFired v id i
  listed : v ∈ st'.usersOf ↔ v ∈ st.usersOf

namespace Unchanged

variable {st : Storage} {user v : Address} {id : ℕ}

lemma refl (v : Address) (st : Storage) : Unchanged v st st :=
  ⟨rfl, fun _ => rfl, fun _ _ => rfl, Iff.rfl⟩

lemma withAutopilot (hv : v ≠ user) (ap : Autopilot) :
    Unchanged v st (st.withAutopilot user id ap) where
  ids := by rw [Storage.withAutopilot_ids, if_neg fun h => hv h.1]
  autopilot j := by rw [Storage.withAutopilot_autopilot, if_neg fun h => hv h.1]
  lastFired j i := by rw [Storage.withAutopilot_lastFired, if_neg fun h => hv h.2.1]
  listed := by
    rw [Storage.withAutopilot_usersOf]
    split_ifs <;> simp [hv]

lemma withoutAutopilot (hv : v ≠ user) : Unchanged v st (st.withoutAutopilot user id) where
  ids := by rw [Storage.withoutAutopilot_ids, if_neg hv]
  autopilot j := by rw [Storage.withoutAutopilot_autopilot, if_neg fun h => hv h.1]
  lastFired j i := by rw [Storage.withoutAutopilot_lastFired, if_neg fun h => hv h.1]
  listed := by
    rw [Storage.withoutAutopilot_usersOf]
    split_ifs <;> simp [Registry.mem_vecRemove, hv]

lemma setLastFired (hv : v ≠ user) (i : ℕ) (n : Option ℕ) :
    Unchanged v st (st.setLastFired user id i n) where
  ids := rfl
  autopilot j := rfl
  lastFired j k := by simp [Storage.setLastFired, hv]
  listed := Iff.rfl

end Unchanged

/-! ## Runs -/

variable {σ : Type}

/-- A step of a run: a call of the router, with the authorization it carries, or the ledger and
the other contracts moving on. -/
inductive Op (σ : Type)
  | setAutopilot (auth : Bool) (user : Address) (id : ℕ) (ap : Autopilot)
  | clearAutopilot (auth : Bool) (user : Address) (id : ℕ)
  | tick (auth : Bool) (user : Address) (id : ℕ) (route : Option Bytes)
  | setOracle (auth : Bool) (oracle : Address)
  | setFeed (auth : Bool) (token : Address) (feed : Feed)
  | setAggregator (auth : Bool) (aggregator : Address)
  | setPolicy (auth : Bool) (policy : Address)
  | elsewhere (ledger : Ledger) (ext : σ)

/-- The user whose operation a step is. -/
def Op.user : Op σ → Option Address
  | .setAutopilot _ user _ _ => some user
  | .clearAutopilot _ user _ => some user
  | .tick _ user _ _ => some user
  | _ => none

/-- One step of a run. -/
def call (x : Contracts σ) (w : World σ) : Op σ → Except Err (World σ)
  | .setAutopilot auth user id ap => setAutopilot auth user id ap w
  | .clearAutopilot auth user id => clearAutopilot auth user id w
  | .tick auth user id route => (tick x auth user id route w).map Prod.snd
  | .setOracle auth oracle => setOracle auth oracle w
  | .setFeed auth token feed => setFeed auth token feed w
  | .setAggregator auth aggregator => setAggregator auth aggregator w
  | .setPolicy auth policy => setPolicy auth policy w
  | .elsewhere ledger ext => .ok { w with ledger := ledger, ext := ext }

/-- The router right after its constructor. -/
def World.init (admin : Address) (cfg : Config) (ledger : Ledger) (ext : σ) : World σ :=
  ⟨Storage.init admin cfg, ledger, ext, [], []⟩

section Steps

variable {x : Contracts σ} {w w' : World σ} {user : Address} {id : ℕ}

/-- What a tick stores: nothing, or the cooldown of one of the autopilot's rules. -/
lemma tick_store {auth : Bool} {route : Option Bytes} {done : Option Executed}
    (h : tick x auth user id route w = .ok (done, w')) :
    w'.store = w.store ∨ ∃ ap i n, w.store.autopilot user id = some ap ∧ i < ap.rules.length ∧
      w'.store = w.store.setLastFired user id i (some n) := by
  obtain ⟨ap, hap, ⟨-, hidle⟩ | ⟨idx, r, p, ex, hdue, -, hacts⟩⟩ := tick_cases h
  · exact .inl hidle.store
  · obtain ⟨⟨r', hr', -⟩, -⟩ := (firstDue_spec hdue).1
    have hstore := hacts.store
    rw [Plan.planned_ruleIndex] at hstore
    exact .inr ⟨ap, idx, _, hap, (List.getElem?_eq_some_iff.mp hr').1, hstore⟩

/-- The registry keys of two storages are the same. -/
structure SameKeys (st st' : Storage) : Prop where
  ids : st'.ids = st.ids
  users : st'.users = st.users
  autopilot : st'.autopilot = st.autopilot
  lastFired : st'.lastFired = st.lastFired

lemma SameKeys.refl (st : Storage) : SameKeys st st := ⟨rfl, rfl, rfl, rfl⟩

/-- The registry keys are all that the invariant reads. -/
lemma Registry.congr {st st' : Storage} (h : Registry st) (hs : SameKeys st st') :
    Registry st' := by
  obtain ⟨hids, husers, hautopilot, hfired⟩ := hs
  constructor
  · simpa only [Storage.idsOf, hids, hautopilot] using h.mem_ids
  · simpa only [Storage.idsOf, hids] using h.nodup_ids
  · simpa only [Storage.idsOf, Storage.usersOf, hids, husers] using h.mem_users
  · simpa only [Storage.usersOf, husers] using h.nodup_users
  · simpa only [hautopilot] using h.accepted
  · simpa only [hautopilot, hfired] using h.fired

lemma Unchanged.of_sameKeys {st st' : Storage} (h : SameKeys st st') (v : Address) :
    Unchanged v st st' where
  ids := by rw [h.ids]
  autopilot j := by rw [h.autopilot]
  lastFired j i := by rw [h.lastFired]
  listed := by rw [Storage.usersOf, h.users, Storage.usersOf]

/-- A setter of the admin's that touches no registry key leaves them the same. -/
lemma sameKeys_of_adminSet {auth : Bool} {f : Storage → Storage}
    (h : adminSet auth f w = .ok w') (hf : ∀ st, SameKeys st (f st)) :
    SameKeys w.store w'.store := by
  rw [eq_of_adminSet h]
  exact hf w.store

/-- **What a step stores**: an accepted autopilot, a removal, the cooldown of a stored rule, or
nothing in the registries. -/
lemma call_store {op : Op σ} (h : call x w op = .ok w') :
    (∃ user id ap, op.user = some user ∧ autopilotOk ap = true ∧
      w'.store = w.store.withAutopilot user id ap) ∨
    (∃ user id, op.user = some user ∧ w'.store = w.store.withoutAutopilot user id) ∨
    (∃ user id ap i n, op.user = some user ∧ w.store.autopilot user id = some ap ∧
      i < ap.rules.length ∧ w'.store = w.store.setLastFired user id i (some n)) ∨
    SameKeys w.store w'.store := by
  cases op with
  | setAutopilot auth user id ap =>
    obtain ⟨-, hok, -, rfl⟩ := setAutopilot_ok h
    exact .inl ⟨user, id, ap, rfl, hok, rfl⟩
  | clearAutopilot auth user id =>
    obtain ⟨-, -, rfl⟩ := clearAutopilot_ok h
    exact .inr (.inl ⟨user, id, rfl, rfl⟩)
  | tick auth user id route =>
    simp only [call] at h
    cases htick : tick x auth user id route w with
    | error e => rw [htick] at h; cases h
    | ok d =>
      rw [htick] at h
      cases h
      rcases tick_store htick with hst | ⟨ap, i, n, hap, hi, hst⟩
      · exact .inr (.inr (.inr (hst ▸ .refl w.store)))
      · exact .inr (.inr (.inl ⟨user, id, ap, i, n, rfl, hap, hi, hst⟩))
  | setOracle auth oracle =>
    simp only [call, setOracle] at h
    exact .inr (.inr (.inr (sameKeys_of_adminSet h fun _ => ⟨rfl, rfl, rfl, rfl⟩)))
  | setFeed auth token feed =>
    simp only [call, setFeed] at h
    exact .inr (.inr (.inr (sameKeys_of_adminSet h fun _ => ⟨rfl, rfl, rfl, rfl⟩)))
  | setAggregator auth aggregator =>
    simp only [call, setAggregator] at h
    exact .inr (.inr (.inr (sameKeys_of_adminSet h fun _ => ⟨rfl, rfl, rfl, rfl⟩)))
  | setPolicy auth policy =>
    simp only [call, setPolicy] at h
    exact .inr (.inr (.inr (sameKeys_of_adminSet h fun _ => ⟨rfl, rfl, rfl, rfl⟩)))
  | elsewhere ledger ext =>
    cases h
    exact .inr (.inr (.inr (.refl w.store)))

/-- **One step** keeps the registries in step. -/
lemma registry_call {op : Op σ} (hw : Registry w.store) (h : call x w op = .ok w') :
    Registry w'.store := by
  rcases call_store h with ⟨user, id, ap, -, hok, hst⟩ | ⟨user, id, -, hst⟩ |
    ⟨user, id, ap, i, n, -, hap, hi, hst⟩ | hsame
  · rw [hst]
    exact hw.withAutopilot hok
  · rw [hst]
    exact hw.withoutAutopilot
  · rw [hst]
    exact hw.setLastFired hap hi
  · exact hw.congr hsame

/-- **The frame**: one step changes nothing stored for any user but its own. -/
lemma unchanged_call {op : Op σ} (h : call x w op = .ok w') {v : Address}
    (hv : op.user ≠ some v) : Unchanged v w.store w'.store := by
  have hne : ∀ {user}, op.user = some user → v ≠ user := by
    rintro user huser rfl
    exact hv huser
  rcases call_store h with ⟨user, id, ap, huser, -, hst⟩ | ⟨user, id, huser, hst⟩ |
    ⟨user, id, ap, i, n, huser, -, -, hst⟩ | hsame
  · rw [hst]
    exact .withAutopilot (hne huser) ap
  · rw [hst]
    exact .withoutAutopilot (hne huser)
  · rw [hst]
    exact .setLastFired (hne huser) i _
  · exact .of_sameKeys hsame v

end Steps

/-- **The registries agree in every reachable state**: after every run from the constructor the
storage keys agree, an operation changes nothing stored for another user, and a new or replaced
autopilot has every rule off cooldown.

**Proof sketch.** `registry_call` is the step of the invariant rule for runs, `unchanged_call`
the frame, and `Registry.not_fired_withAutopilot` says that the invariant leaves no cooldown
behind for a replacement to miss. -/
theorem registry_run (x : Contracts σ) (admin : Address) (cfg : Config) (ledger : Ledger)
    (ext : σ) (ops : List (Op σ)) :
    let w := Transactional.run (call x) (World.init admin cfg ledger ext) ops
    Registry w.store ∧
    ∀ op w', call x w op = .ok w' →
      (∀ v, op.user ≠ some v → Unchanged v w.store w'.store) ∧
      ∀ auth user id ap, op = .setAutopilot auth user id ap →
        ∀ i now cooldown, ready (w'.store.lastFiredAt user id i) now cooldown = true := by
  intro w
  have hreg : Registry w.store := by
    refine run_invariant (call x) (P := fun w => Registry w.store) ?_ ?_ ops
    · intro w op w' hw h
      exact registry_call hw h
    · exact Registry.init admin cfg
  refine ⟨hreg, fun op w' h => ⟨fun v hv => unchanged_call h hv, ?_⟩⟩
  rintro auth user id ap rfl i now cooldown
  obtain ⟨-, -, -, rfl⟩ := setAutopilot_ok h
  have hnone : (w.store.withAutopilot user id ap).lastFired user id i = none :=
    hreg.not_fired_withAutopilot ap i
  simp only [Storage.lastFiredAt, World.publish, World.setStore, hnone]
  rfl

end Koul.Router
