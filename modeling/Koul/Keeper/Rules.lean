import Koul.Keeper.Pass

set_option relaxedAutoImplicit false
set_option autoImplicit false

/-!
# What a pass keeps to

The rules that the keeper's workers keep by themselves, so that they hold whatever order the workers
run in: a wallet is asked for what is due only when it is not left alone, a submission is started only
when the earlier ones of its payer are settled, and it is one that this pass has planned from a grant
that this pass has checked.

## Main definitions

* `Koul.Keeper.Settled` — every submission of a payer has its result.
* `Koul.Keeper.PlannedNow` — what this pass knows of a wallet that it plans.
* `Koul.Keeper.keeping` — the rules.

## Main results

* `Koul.Keeper.keeper_obeys` — the keeper keeps the rules, in every order of its workers' commands.
-/

namespace Koul.Keeper

open Interleaving Interleaving.Prog
open Router (Planned)

/-! ## The rules -/

section Rules

variable (cfg : Config)

abbrev Message : Type := (c : Cmd) × c.Reply

/-- This pass has not ended. -/
def InPass (c : Cmd) : Prop := c ≠ .begin

def NotRefused : Cmd → Prop
  | .refused .. => False
  | _ => True

def submits (payer : Payer) (m : Message) : Bool :=
  match m.1 with
  | .submit s => s.kit.payer == payer
  | _ => false

def results (payer : Payer) (m : Message) : Bool :=
  match m.1 with
  | .result s => s.kit.payer == payer
  | _ => false

/-- What was heard last. -/
lemma since_last (m : Message) (Q : Cmd → Prop) (h : Heard Cmd.Reply) : Since m Q (h ++ [m]) :=
  since_concat m Q h

/-- Every submission that this account pays for has its result. -/
def Settled (payer : Payer) (h : Heard Cmd.Reply) : Prop :=
  h.countP (submits payer) = h.countP (results payer)

/-- The wallet's autopilot was not left alone when this was last looked at. -/
def Cleared (user : Address) (id : ℕ) (h : Heard Cmd.Reply) : Prop :=
  ∃ until_ now, Since ⟨.backoff user id, (until_, now)⟩ NotRefused h ∧ until_ ≤ now

/-- The ledger that this pass counts on; 0 when it could not be read. -/
def LatestIs (latest : ℕ) (h : Heard Cmd.Reply) : Prop :=
  ∃ r : Except String ℕ, Since ⟨.getLatestLedger, r⟩ InPass h ∧ r.toOption.getD 0 = latest

/-- The kit of a wallet is connected to it, and its own worker's account pays. -/
def OwnKit (user : Address) (kit : Kit) : Prop := kit = ⟨user, cfg.payer user⟩

/-- The grant says what these rules say. -/
structure Describes (latest : ℕ) (rules : List ContextRule) (g : Grant) : Prop where
  rule : ∀ id, g.agentRuleId = some id → ∃ rule, newestLive cfg latest rules = some rule ∧
    rule.id = id ∧ rule.validUntil = g.validUntil
  signer : g.signs = true → g.selected = [.ed25519]

/-- This pass has listed the wallet's rules, and the grant says what they say. -/
def ListedNow (g : Grant) (h : Heard Cmd.Reply) : Prop :=
  ∃ rules latest, Since ⟨.list g.kit, .ok rules⟩ InPass h ∧ LatestIs latest h ∧
    Describes cfg latest rules g

/-- This pass vouches for the grant: it was fresh, its counter had not moved, or it was listed. -/
def Vouched (user : Address) (g : Grant) (h : Heard Cmd.Reply) : Prop :=
  (∃ g₀ now t, Since ⟨.grant user, (some g₀, now)⟩ InPass h ∧ g = { g₀ with checkedAt := t } ∧
    (now - g₀.checkedAt < RECHECK_MS ∨ Since ⟨.count g.kit, .ok g.count⟩ InPass h)) ∨
  ∃ g₀, Since ⟨.setGrant user g₀, g⟩ InPass h

/-- A grant as this pass has checked it. -/
structure Vetted (user : Address) (g : Grant) (h : Heard Cmd.Reply) : Prop where
  kit : OwnKit cfg user g.kit
  vouched : Vouched user g h
  live : ∃ latest, LatestIs latest h ∧ (g.agentRuleId ≠ none → live g.validUntil latest = true)

/-- The router has said in this pass that the autopilot has a rule due, and whether it needs a
route. -/
def DueNow (user : Address) (due : Due) (h : Heard Cmd.Reply) : Prop :=
  due.user = user ∧ ∃ planned : Planned,
    Since ⟨.next_action user due.id, .ok (some planned)⟩ InPass h ∧
      due.route.isSome = planned.needsRoute

/-- What this pass knows of a wallet that it plans. -/
structure PlannedNow (user : Address) (plan : UserPlan) (h : Heard Cmd.Reply) : Prop where
  vetted : Vetted cfg user plan.grant h
  signs : plan.grant.signs = true
  due : ∀ due ∈ plan.due, DueNow user due h

/-! ### Every wallet is taken -/

/-- The wallets that workers have taken, since the queue was set. -/
def took (users : List Address) : Message → List Address
  | ⟨.setQueue _, _⟩ => []
  | ⟨.next, some user⟩ => users ++ [user]
  | _ => users

def taken (h : Heard Cmd.Reply) : List Address := h.foldl took []

/-- The queue as it was set. -/
def queued (users : List Address) : Message → List Address
  | ⟨.setQueue users', _⟩ => users'
  | _ => users

def order (h : Heard Cmd.Reply) : List Address := h.foldl queued []

def SameQueue : Cmd → Prop
  | .setQueue _ => False
  | _ => True

/-- No wallet is left: there was none, a worker found none, or more were taken than there are. -/
def Exhausted (h : Heard Cmd.Reply) : Prop :=
  order h = [] ∨ Since ⟨.next, none⟩ SameQueue h ∨ (order h).length < (taken h).length

/-- The queue holds the wallets that the router has listed in this pass, each as often. -/
def FromRouter (h : Heard Cmd.Reply) : Prop :=
  ∃ r : Except String (List Address), Since ⟨.list_users, r⟩ InPass h ∧
    (order h).Perm (r.toOption.getD [])

/-! ### The rules -/

/-- The submission is one of those that are planned. -/
def FromPlan (s : Submission) (h : Heard Cmd.Reply) : Prop :=
  ∃ planned user plan agentRuleId entries, Since ⟨.planned, planned⟩ InPass h ∧
    (user, plan) ∈ planned ∧ s.due ∈ plan.due ∧ plan.grant.agentRuleId = some agentRuleId ∧
      s = submission s.due plan.grant agentRuleId entries

/-- The rules of the keeper. -/
def keeping : Discipline Unit Cmd.Reply Unit where
  may _ h c := match c with
    | .next_action user id => Cleared user id h
    | .setGrant user g => OwnKit cfg user g.kit ∧ ListedNow cfg g h
    | .setPlanned user plan => PlannedNow cfg user plan h
    | .planned => Exhausted h ∧ FromRouter h
    | .submit s => Settled s.kit.payer h ∧ FromPlan s h
    | _ => True
  ends _ _ _ := True
  can c := match c with
    | .grant user => fun r => ∀ g, r.1 = some g → OwnKit cfg user g.kit
    | .setGrant _ g => fun r => ∃ t, r = { g with checkedAt := t }
    | .planned => fun r => ∀ entry ∈ r, OwnKit cfg entry.1 entry.2.grant.kit
    | _ => fun _ => True

/-- Commands of which the rules say nothing. -/
def Free : Cmd → Prop
  | .begin | .setQueue _ | .next | .next_action .. | .setGrant .. | .setPlanned .. | .planned
  | .submit _ | .result _ | .refused .. => False
  | _ => True

/-- The commands of the read half. -/
def Reading : Cmd → Prop
  | .begin | .setQueue _ | .planned | .submit _ | .result _ | .refused .. => False
  | _ => True

/-- The commands of one worker of the write half. -/
def Writing (worker : ℕ) : Cmd → Prop
  | .begin | .setQueue _ | .next | .next_action .. => False
  | .submit s | .result s => s.kit.payer = cfg.account worker
  | _ => True

end Rules

section Undisturbed

variable {cfg : Config} {user : Address} {R : Cmd → Prop}

lemma inPass_of_reading (c : Cmd) (hc : Reading c) : InPass c := by
  rintro rfl
  exact hc

lemma notRefused_of_reading (c : Cmd) (hc : Reading c) : NotRefused c := by
  cases c with
  | refused user id message reason => exact hc
  | _ => exact trivial

lemma inPass_of_writing {worker : ℕ} (c : Cmd) (hc : Writing cfg worker c) : InPass c := by
  rintro rfl
  exact hc

lemma undisturbed_latestIs (hR : ∀ c, R c → InPass c) (latest : ℕ) :
    Undisturbed R (LatestIs latest) := by
  rintro m h h' hm hins ⟨r, hr, heq⟩
  exact ⟨r, undisturbed_since hR m h h' hm hins hr, heq⟩

lemma undisturbed_cleared (hR : ∀ c, R c → NotRefused c) (id : ℕ) :
    Undisturbed R (Cleared user id) := by
  rintro m h h' hm hins ⟨until_, now, hsince, hle⟩
  exact ⟨until_, now, undisturbed_since hR m h h' hm hins hsince, hle⟩

lemma undisturbed_listedNow (hR : ∀ c, R c → InPass c) (g : Grant) :
    Undisturbed R (ListedNow cfg g) := by
  rintro m h h' hm hins ⟨rules, latest, hlist, hlatest, hdesc⟩
  exact ⟨rules, latest, undisturbed_since hR m h h' hm hins hlist,
    undisturbed_latestIs hR latest m h h' hm hins hlatest, hdesc⟩

lemma undisturbed_vouched (hR : ∀ c, R c → InPass c) (g : Grant) :
    Undisturbed R (Vouched user g) := by
  rintro m h h' hm hins (⟨g₀, now, t, hgrant, heq, hfresh⟩ | ⟨g₀, hset⟩)
  · exact .inl ⟨g₀, now, t, undisturbed_since hR m h h' hm hins hgrant, heq,
      hfresh.imp_right (undisturbed_since hR m h h' hm hins)⟩
  · exact .inr ⟨g₀, undisturbed_since hR m h h' hm hins hset⟩

lemma undisturbed_vetted (hR : ∀ c, R c → InPass c) (g : Grant) :
    Undisturbed R (Vetted cfg user g) := by
  rintro m h h' hm hins ⟨hkit, hvouched, latest, hlatest, hlive⟩
  exact ⟨hkit, undisturbed_vouched hR g m h h' hm hins hvouched,
    latest, undisturbed_latestIs hR latest m h h' hm hins hlatest, hlive⟩

lemma undisturbed_dueNow (hR : ∀ c, R c → InPass c) (due : Due) :
    Undisturbed R (DueNow user due) := by
  rintro m h h' hm hins ⟨huser, planned, hsince, hroute⟩
  exact ⟨huser, planned, undisturbed_since hR m h h' hm hins hsince, hroute⟩

lemma undisturbed_plannedNow (hR : ∀ c, R c → InPass c) (plan : UserPlan) :
    Undisturbed R (PlannedNow cfg user plan) := by
  rintro m h h' hm hins ⟨hvetted, hsigns, hdue⟩
  exact ⟨undisturbed_vetted hR _ m h h' hm hins hvetted, hsigns,
    fun due hd => undisturbed_dueNow hR due m h h' hm hins (hdue due hd)⟩

lemma sameQueue_of_writing {worker : ℕ} (c : Cmd) (hc : Writing cfg worker c) :
    SameQueue c ∧ c ≠ .next := by
  cases c with
  | setQueue users => exact hc.elim
  | next => exact hc.elim
  | _ => exact ⟨trivial, Cmd.noConfusion⟩

/-- A command between others that leaves the queue. -/
lemma order_inserted {m : Message} {h h' : Heard Cmd.Reply} (hm : SameQueue m.1)
    (hins : Inserted m h h') : order h' = order h := by
  unfold order
  generalize ([] : List Address) = users
  induction hins generalizing users with
  | here h =>
    obtain ⟨c, r⟩ := m
    cases c with
    | setQueue users => exact hm.elim
    | _ => rfl
  | later m' _ ih => exact ih _

/-- A command between others that takes no wallet. -/
lemma taken_inserted {m : Message} {h h' : Heard Cmd.Reply} (hm : SameQueue m.1)
    (hne : m.1 ≠ .next) (hins : Inserted m h h') : taken h' = taken h := by
  unfold taken
  generalize ([] : List Address) = users
  induction hins generalizing users with
  | here h =>
    obtain ⟨c, r⟩ := m
    cases c with
    | setQueue users => exact hm.elim
    | next => exact absurd rfl hne
    | _ => rfl
  | later m' _ ih => exact ih _

/-- More that was taken before stays more. -/
lemma length_foldl_took_le {users users' : List Address} (hle : users.length ≤ users'.length)
    (h : Heard Cmd.Reply) : (h.foldl took users).length ≤ (h.foldl took users').length := by
  induction h generalizing users users' with
  | nil => exact hle
  | cons m h ih =>
    refine ih ?_
    obtain ⟨c, r⟩ := m
    cases c with
    | setQueue users => exact le_rfl
    | next =>
      cases r with
      | none => exact hle
      | some user =>
        simp only [took, List.length_append]
        exact Nat.add_le_add_right hle _
    | _ => exact hle

/-- What is heard between leaves the wallets that were taken, unless the queue is set anew. -/
lemma length_taken_le {m : Message} {h h' : Heard Cmd.Reply} (hm : SameQueue m.1)
    (hins : Inserted m h h') : (taken h).length ≤ (taken h').length := by
  unfold taken
  generalize ([] : List Address) = users
  induction hins generalizing users with
  | here h =>
    refine length_foldl_took_le ?_ h
    obtain ⟨c, r⟩ := m
    cases c with
    | setQueue users => exact hm.elim
    | next =>
      cases r with
      | none => exact le_rfl
      | some user => simp [took]
    | _ => exact le_rfl
  | later m' _ ih => exact ih _

lemma sameQueue_of_reading (c : Cmd) (hc : Reading c) : SameQueue c := by
  cases c with
  | setQueue users => exact hc
  | _ => exact trivial

lemma undisturbed_length_taken (t : ℕ) : Undisturbed Reading fun h => t ≤ (taken h).length :=
  fun m _ _ hm hins hle => hle.trans (length_taken_le (sameQueue_of_reading m.1 hm) hins)

lemma undisturbed_exhausted (hR : ∀ c, R c → SameQueue c ∧ c ≠ .next) :
    Undisturbed R Exhausted := by
  intro m h h' hm hins hh
  obtain ⟨hsame, hne⟩ := hR m.1 hm
  rw [Exhausted, order_inserted hsame hins, taken_inserted hsame hne hins]
  exact hh.imp_right (Or.imp_left (undisturbed_since (fun c hc => (hR c hc).1) m h h' hm hins))

lemma undisturbed_fromRouter (hR : ∀ c, R c → InPass c ∧ SameQueue c) :
    Undisturbed R FromRouter := by
  rintro m h h' hm hins ⟨r, hsince, hperm⟩
  refine ⟨r, undisturbed_since (fun c hc => (hR c hc).1) m h h' hm hins hsince, ?_⟩
  rwa [order_inserted (hR m.1 hm).2 hins]

lemma undisturbed_fromPlan (hR : ∀ c, R c → InPass c) (s : Submission) :
    Undisturbed R (FromPlan s) := by
  rintro m h h' hm hins ⟨planned, user, plan, agentRuleId, entries, hsince, hrest⟩
  exact ⟨planned, user, plan, agentRuleId, entries,
    undisturbed_since hR m h h' hm hins hsince, hrest⟩

/-- A message between others that does not count. -/
lemma countP_inserted {P : Message → Bool} {m : Message} {h h' : Heard Cmd.Reply}
    (hP : P m = false) (hins : Inserted m h h') : h'.countP P = h.countP P := by
  induction hins with
  | here h => rw [List.countP_cons, hP]; rfl
  | later m' _ ih => rw [List.countP_cons, List.countP_cons, ih]

/-- Commands that neither start nor settle a submission of the payer. -/
lemma undisturbed_settled {payer : Payer} (hR : ∀ m : Message, R m.1 →
    submits payer m = false ∧ results payer m = false) : Undisturbed R (Settled payer) := by
  intro m h h' hm hins hsettled
  obtain ⟨hs, hr⟩ := hR m hm
  unfold Settled at hsettled ⊢
  rw [countP_inserted hs hins, countP_inserted hr hins, hsettled]

/-- No command of the read half disturbs another. -/
lemma undisturbed_reading : (keeping cfg).Undisturbed () Reading Reading := by
  intro c hc
  cases c with
  | next_action user id => exact undisturbed_cleared notRefused_of_reading id
  | setGrant user g =>
    exact fun m h h' hm hins hmay =>
      ⟨hmay.1, undisturbed_listedNow inPass_of_reading g m h h' hm hins hmay.2⟩
  | setPlanned user plan => exact undisturbed_plannedNow inPass_of_reading plan
  | planned => exact hc.elim
  | submit s => exact hc.elim
  | _ => exact fun _ _ _ _ _ _ => trivial

/-- Two workers pay from two accounts. -/
lemma account_ne {w w' : ℕ} (hw : w < cfg.PARALLEL) (hw' : w' < cfg.PARALLEL) (hne : w ≠ w') :
    cfg.account w ≠ cfg.account w' := by
  unfold Config.account
  split_ifs with hchannels
  · intro heq
    exact hne (Payer.channel.inj heq)
  · unfold Config.PARALLEL at hw hw'
    omega

lemma settled_of_writing {w w' : ℕ} (hw : w < cfg.PARALLEL) (hw' : w' < cfg.PARALLEL)
    (hne : w ≠ w') : Undisturbed (Writing cfg w') (Settled (cfg.account w)) := by
  refine undisturbed_settled fun m hm => ?_
  have haccount := account_ne hw hw' hne
  obtain ⟨c, r⟩ := m
  cases c with
  | submit s =>
    have hpayer : s.kit.payer = cfg.account w' := hm
    exact ⟨beq_eq_false_iff_ne.mpr (hpayer ▸ haccount.symm), rfl⟩
  | result s =>
    have hpayer : s.kit.payer = cfg.account w' := hm
    exact ⟨rfl, beq_eq_false_iff_ne.mpr (hpayer ▸ haccount.symm)⟩
  | _ => exact ⟨rfl, rfl⟩

/-- No worker of the write half disturbs another. -/
lemma undisturbed_writing {w w' : ℕ} (hw : w < cfg.PARALLEL) (hw' : w' < cfg.PARALLEL)
    (hne : w ≠ w') : (keeping cfg).Undisturbed () (Writing cfg w) (Writing cfg w') := by
  intro c hc
  cases c with
  | setGrant user g =>
    exact fun m h h' hm hins hmay =>
      ⟨hmay.1, undisturbed_listedNow inPass_of_writing g m h h' hm hins hmay.2⟩
  | setPlanned user plan => exact undisturbed_plannedNow inPass_of_writing plan
  | planned =>
    rintro m h h' hm hins ⟨hexhausted, hrouter⟩
    exact ⟨undisturbed_exhausted sameQueue_of_writing m h h' hm hins hexhausted,
      undisturbed_fromRouter (fun c hc => ⟨inPass_of_writing c hc, (sameQueue_of_writing c hc).1⟩)
        m h h' hm hins hrouter⟩
  | submit s =>
    have hpayer : s.kit.payer = cfg.account w := hc
    rintro m h h' hm hins ⟨hsettled, hplan⟩
    refine ⟨?_, undisturbed_fromPlan inPass_of_writing s m h h' hm hins hplan⟩
    rw [hpayer] at hsettled ⊢
    exact settled_of_writing hw hw' hne m h h' hm hins hsettled
  | next_action user id => exact hc.elim
  | _ => exact fun _ _ _ _ _ _ => trivial

end Undisturbed

/-! ## The read half -/

section ReadHalf

variable {cfg : Config} {user : Address} {id latest : ℕ} {h : Heard Cmd.Reply}

/-- The rules of the read half, for a part that ends as `E` has it. -/
abbrev reading (cfg : Config) {α : Type} (E : Heard Cmd.Reply → α → Prop) :
    Discipline Unit Cmd.Reply α :=
  ((keeping cfg).only Reading).ending E

lemma may_of_free {c : Cmd} (hc : Free c) : (keeping cfg).may () h c := by
  cases c with
  | next_action user id => exact hc.elim
  | setGrant user g => exact hc.elim
  | setPlanned user plan => exact hc.elim
  | planned => exact hc.elim
  | submit s => exact hc.elim
  | _ => exact trivial

lemma reading_of_free {c : Cmd} (hc : Free c) : Reading c := by
  cases c with
  | begin => exact hc
  | setQueue users => exact hc
  | planned => exact hc
  | submit s => exact hc
  | result s => exact hc
  | refused user id message reason => exact hc
  | _ => exact trivial

lemma writing_of_free {worker : ℕ} {c : Cmd} (hc : Free c) : Writing cfg worker c := by
  cases c with
  | begin => exact hc
  | setQueue users => exact hc
  | next => exact hc
  | next_action user id => exact hc
  | submit s => exact hc.elim
  | result s => exact hc.elim
  | _ => exact trivial

lemma obeys_of_free {α : Type} {p : KeeperProg α} (hp : Sends Free p) :
    Obeys (reading cfg fun _ _ => True) () h p :=
  hp.obeys_only fun _ _ hc => ⟨may_of_free hc, reading_of_free hc⟩

lemma sends_handle {P : Cmd → Prop} {α : Type} {x : Throwing α} {f : String → KeeperProg α}
    (hx : Sends P x.run) (hf : ∀ e, Sends P (f e)) : Sends P (handle x f) := by
  refine Prog.sends_bind hx fun r => ?_
  cases r with
  | ok a => exact trivial
  | error e => exact hf e

lemma sends_logNone : Sends Free (logNone cfg user id).run := by
  unfold logNone
  split_ifs
  · exact trivial
  · exact Thrower.sends_bind (Thrower.sends_ask trivial) fun _ => trivial

lemma sends_route (planned : Planned) : Sends Free (route planned).run := by
  refine Thrower.sends_bind ?_ fun _ => ?_
  · refine Thrower.sends_bind (Thrower.sends_ask trivial) fun checked => ?_
    split_ifs
    · exact trivial
    · exact Thrower.sends_bind (Thrower.sends_ask trivial) fun _ => Thrower.sends_ask trivial
  · refine Thrower.sends_bind (Thrower.sends_ask trivial) fun q => ?_
    split_ifs <;> exact trivial

/-- How a plan ends: what is due now. -/
def EndsDue (user : Address) (h : Heard Cmd.Reply) (due : Option Due) : Prop :=
  ∀ d ∈ due, DueNow user d h

/-- A part that throws may end as it likes. -/
def OnOk {α : Type} (E : Heard Cmd.Reply → α → Prop) (h : Heard Cmd.Reply) :
    Except String α → Prop
  | .ok a => E h a
  | .error _ => True

lemma obeys_plan (hclear : Cleared user id h) :
    Obeys (reading cfg (OnOk (EndsDue user))) () h (plan cfg user id).run := by
  refine Thrower.obeys_ask_then ⟨hclear, trivial⟩ (fun r a _ hread => ?_) fun _ _ _ _ => trivial
  have hstay := undisturbed_since (m := ⟨.next_action user id, r⟩) inPass_of_reading
  have hnow := since_last ⟨.next_action user id, r⟩ InPass h
  obtain rfl : r = .ok a := hread
  cases a with
  | none =>
    refine Thrower.obeys_bind (obeys_of_free sends_logNone) (fun h _ _ => ?_) fun _ _ _ => trivial
    rintro d ⟨⟩
  | some planned =>
    dsimp only
    split_ifs with hneeds
    · rw [Thrower.run_bind]
      refine (obeys_of_free (sends_route planned)).bind_keeping hstay hnow fun h route _ hnow => ?_
      cases route with
      | error e => exact trivial
      | ok route =>
        cases route with
        | none => rintro d ⟨⟩
        | some route =>
          rintro d ⟨⟩
          exact ⟨rfl, planned, hnow, hneeds.symm⟩
    · rintro d ⟨⟩
      exact ⟨rfl, planned, hnow, (Bool.eq_false_of_not_eq_true hneeds).symm⟩

lemma obeys_planOne : Obeys (reading cfg (EndsDue user)) () h (planOne cfg user id) := by
  refine ⟨⟨trivial, trivial⟩, fun backoff _ => ?_⟩
  show Obeys _ () _ (if backoff.1 > backoff.2 then _ else _ : KeeperProg (Option Due))
  split_ifs with hleft
  · rintro d ⟨⟩
  · have hclear : Cleared user id (h ++ [⟨.backoff user id, backoff⟩]) :=
      ⟨backoff.1, backoff.2, since_concat _ _ h, not_lt.mp hleft⟩
    refine (obeys_plan hclear).bind fun h r hr => ?_
    cases r with
    | ok due => exact hr
    | error e => rintro d ⟨⟩

lemma obeys_dueOf (ids : List ℕ) :
    Obeys (reading cfg fun h due => ∀ d ∈ due, DueNow user d h) () h (dueOf cfg user ids) := by
  induction ids generalizing h with
  | nil =>
    intro d hd
    cases hd
  | cons id ids ih =>
    refine obeys_planOne.bind fun h due hdue => ?_
    have hstay : Undisturbed Reading (EndsDue user · due) := fun m h h' hm hins hall d hd =>
      undisturbed_dueNow inPass_of_reading d m h h' hm hins (hall d hd)
    refine ih.bind_keeping hstay hdue fun h rest hrest hdue => ?_
    intro d hd
    rcases List.mem_append.mp hd with hd | hd
    · exact hdue d (Option.mem_toList.mp hd)
    · exact hrest d hd

/-- The newest live rule is live. -/
lemma live_of_newestLive {rules : List ContextRule} {rule : ContextRule}
    (hrule : newestLive cfg latest rules = some rule) : live rule.validUntil latest = true := by
  have hmem := (List.mem_insertionSort _).mp (List.mem_of_getLast? hrule)
  have hfilter := (List.mem_filter.mp hmem).2
  simp only [Bool.and_eq_true] at hfilter
  exact hfilter.2

/-- One signer that is an Ed25519 key. -/
lemma eq_of_length_filter {signers : List SignerType}
    (h : ((signers.filter (· == .ed25519)).length == 1) = true) :
    signers.filter (· == .ed25519) = [.ed25519] := by
  obtain ⟨x, hx⟩ := List.length_eq_one_iff.mp (beq_iff_eq.mp h)
  have hmem : x ∈ signers.filter (· == .ed25519) := hx ▸ List.mem_singleton_self x
  rw [hx, beq_iff_eq.mp (List.mem_filter.mp hmem).2]

/-- Sets the grant of a wallet that was listed. -/
lemma obeys_setGrant {g : Grant} (hkit : OwnKit cfg user g.kit) (hlisted : ListedNow cfg g h)
    (hlatest : LatestIs latest h) (hlive : g.agentRuleId ≠ none → live g.validUntil latest = true) :
    Obeys (reading cfg (OnOk fun h g => Vetted cfg user g h)) () h (tell (.setGrant user g)).run := by
  refine ⟨⟨⟨hkit, hlisted⟩, trivial⟩, fun r hr => ?_⟩
  obtain ⟨t, rfl⟩ := hr
  have hstay := undisturbed_latestIs inPass_of_reading latest
  exact ⟨hkit, .inr ⟨g, since_concat _ _ h⟩, latest,
    hstay.concat hlatest (c := .setGrant user g) trivial _, hlive⟩

lemma obeys_relist {count : ℕ} {kit : Kit} (hkit : OwnKit cfg user kit)
    (hlatest : LatestIs latest h) :
    Obeys (reading cfg (OnOk fun h g => Vetted cfg user g h)) () h
      (relist cfg user latest count kit).run := by
  refine Thrower.obeys_ask_then ⟨trivial, trivial⟩ (fun r rules _ hread => ?_) fun _ _ _ _ => trivial
  obtain rfl : r = .ok rules := hread
  have hstay := undisturbed_latestIs inPass_of_reading latest
  have hlist := since_last ⟨.list kit, .ok rules⟩ InPass h
  replace hlatest := hstay.concat hlatest (c := .list kit) trivial (.ok rules)
  cases hrule : newestLive cfg latest rules with
  | none =>
    refine obeys_setGrant hkit ⟨rules, latest, hlist, hlatest, ?_, ?_⟩ hlatest fun hne => ?_
    · rintro id ⟨⟩
    · rintro ⟨⟩
    · exact absurd rfl hne
  | some rule =>
    refine Thrower.obeys_ask_then ⟨trivial, trivial⟩ (fun r signers _ _ => ?_) fun _ _ _ _ => trivial
    replace hlist := hlist.concat (c := .getAvailableSigners kit) Cmd.noConfusion r
    replace hlatest := hstay.concat hlatest (c := .getAvailableSigners kit) trivial r
    refine obeys_setGrant hkit ⟨rules, latest, hlist, hlatest, ?_, ?_⟩ hlatest
      fun _ => live_of_newestLive hrule
    · rintro id ⟨⟩
      exact ⟨rule, hrule, rfl, rfl⟩
    · exact eq_of_length_filter

lemma obeys_fresh (hlatest : LatestIs latest h) :
    Obeys (reading cfg (OnOk fun h kit => OwnKit cfg user kit ∧ LatestIs latest h)) () h
      (fresh cfg user).run := by
  refine Thrower.obeys_ask_then ⟨trivial, trivial⟩ (fun r _ _ _ => ?_) fun _ _ _ _ => trivial
  have hstay := undisturbed_latestIs inPass_of_reading latest
  exact ⟨rfl, hstay.concat hlatest (c := .connect _) trivial r⟩

/-- The grant of a wallet, by one listing. -/
lemma obeys_fresh_relist {count : ℕ} (hlatest : LatestIs latest h) :
    Obeys (reading cfg (OnOk fun h g => Vetted cfg user g h)) () h
      (fresh cfg user >>= fun kit => relist cfg user latest count kit).run :=
  Thrower.obeys_bind (obeys_fresh hlatest) (fun _ _ hkit => obeys_relist hkit.1 hkit.2)
    fun _ _ _ => trivial

lemma obeys_grantFor (hlatest : LatestIs latest h) :
    Obeys (reading cfg (OnOk fun h g => Vetted cfg user g h)) () h
      (grantFor cfg user latest).run := by
  have hstay := undisturbed_latestIs inPass_of_reading latest
  refine Thrower.obeys_ask_then ⟨trivial, trivial⟩ (fun r seen hcan hread => ?_)
    fun _ _ _ _ => trivial
  obtain rfl := Except.ok.inj hread
  have hseen := since_last ⟨.grant user, r⟩ InPass h
  replace hlatest := hstay.concat hlatest (c := .grant user) trivial r
  obtain ⟨known, now⟩ := r
  cases known with
  | none =>
    refine Thrower.obeys_bind (obeys_fresh hlatest) (fun h kit hkit => ?_) fun _ _ _ => trivial
    refine Thrower.obeys_ask_then ⟨trivial, trivial⟩ (fun r _ _ _ => ?_) fun _ _ _ _ => trivial
    exact obeys_relist hkit.1 (hstay.concat hkit.2 (c := .count kit) trivial r)
  | some known =>
    have hkit : OwnKit cfg user known.kit := hcan known rfl
    dsimp only
    split_ifs with hfresh
    · exact ⟨hkit, .inl ⟨known, now, known.checkedAt, hseen, rfl, .inl hfresh.1⟩, latest, hlatest,
        fun _ => hfresh.2⟩
    refine Thrower.obeys_ask_then ⟨trivial, trivial⟩ (fun r count _ hread => ?_)
      fun _ _ _ _ => trivial
    obtain rfl : r = .ok count := hread
    replace hseen := hseen.concat (c := .count known.kit) Cmd.noConfusion (.ok count)
    replace hlatest := hstay.concat hlatest (c := .count known.kit) trivial (.ok count)
    split_ifs with hsame
    · obtain ⟨rfl, hlive⟩ := hsame
      have hcount := since_last ⟨.count known.kit, .ok known.count⟩ InPass
        (h ++ [⟨.grant user, (some known, now)⟩])
      refine Thrower.obeys_ask_then ⟨trivial, trivial⟩ (fun t t' _ _ => ?_) fun _ _ _ _ => trivial
      refine ⟨hkit, .inl ⟨known, now, t', ?_, rfl, .inr ?_⟩, latest, ?_, fun _ => hlive⟩
      · exact hseen.concat Cmd.noConfusion t
      · exact hcount.concat Cmd.noConfusion t
      · exact hstay.concat hlatest (c := .setChecked user) trivial t
    · exact obeys_fresh_relist hlatest

lemma sends_idsOf : Sends Free (idsOf user).run := by
  refine Thrower.sends_bind (Thrower.sends_ask trivial) fun cached => ?_
  split
  · exact trivial
  · refine Thrower.sends_bind (Thrower.sends_ask trivial) fun ids => ?_
    exact Thrower.sends_bind (Thrower.sends_ask trivial) fun _ => trivial

/-- How the reads of a wallet end: with what this pass knows of it. -/
def EndsPlan (cfg : Config) (user : Address) (h : Heard Cmd.Reply) (plan : Option UserPlan) : Prop :=
  ∀ p ∈ plan, PlannedNow cfg user p h

lemma obeys_planUser (hlatest : LatestIs latest h) :
    Obeys (reading cfg (OnOk (EndsPlan cfg user))) () h (planUser cfg user latest).run := by
  have hstay := undisturbed_latestIs inPass_of_reading latest
  refine Thrower.obeys_bind ((obeys_of_free sends_idsOf).and_keeps hstay hlatest)
    (fun h ids hids => ?_) fun _ _ _ => trivial
  split_ifs
  · rintro p ⟨⟩
  refine Thrower.obeys_ask_then ⟨trivial, trivial⟩ (fun r _ _ _ => ?_) fun _ _ _ _ => trivial
  have hlatest := hstay.concat hids.2 (c := .autopilots ids.length) trivial r
  refine Thrower.obeys_bind (obeys_grantFor hlatest) (fun h grant hgrant => ?_) fun _ _ _ => trivial
  split_ifs with hno
  · rintro p ⟨⟩
  rw [not_or, Bool.not_eq_false] at hno
  rw [Thrower.run_lift_bind]
  refine (obeys_dueOf ids).bind_keeping (undisturbed_vetted inPass_of_reading grant) hgrant
    fun h due hdue hvetted => ?_
  split_ifs
  · rintro p ⟨⟩
  · rintro p ⟨⟩
    exact ⟨hvetted, hno.2, hdue⟩

lemma obeys_planWallet (hlatest : LatestIs latest h) :
    Obeys (reading cfg fun _ _ => True) () h (planWallet cfg latest user) := by
  refine (obeys_planUser hlatest).bind fun h r hr => ?_
  cases r with
  | error e => exact ⟨⟨trivial, trivial⟩, fun _ _ => trivial⟩
  | ok plan =>
    cases plan with
    | none => exact trivial
    | some plan => exact ⟨⟨hr plan rfl, trivial⟩, fun _ _ => trivial⟩

/-- How a worker of the read half ends: it found no wallet left, or has taken so many. -/
def Emptied (t : ℕ) (h : Heard Cmd.Reply) : Prop :=
  Since ⟨.next, none⟩ SameQueue h ∨ t ≤ (taken h).length

lemma undisturbed_emptied (t : ℕ) : Undisturbed Reading (Emptied t) := fun m h h' hm hins =>
  Or.imp (undisturbed_since sameQueue_of_reading m h h' hm hins)
    (undisturbed_length_taken t m h h' hm hins)

lemma obeys_reader (n : ℕ) (hlatest : LatestIs latest h) {t : ℕ} (ht : t ≤ (taken h).length) :
    Obeys (reading cfg fun h _ => Emptied (t + n) h) () h (reader cfg latest n) := by
  have hstay := undisturbed_latestIs inPass_of_reading latest
  induction n generalizing h t with
  | zero => exact .inr ht
  | succ n ih =>
    refine ⟨⟨trivial, trivial⟩, fun user _ => ?_⟩
    replace hlatest := hstay.concat hlatest (c := .next) trivial user
    cases user with
    | none => exact .inl (since_concat _ _ h)
    | some user =>
      have htaken : t + 1 ≤ (taken (h ++ [⟨.next, some user⟩])).length := by
        rw [taken, List.foldl_append]
        simpa [took, taken] using ht
      rw [Nat.add_comm n 1, ← Nat.add_assoc]
      refine ((obeys_planWallet hlatest).and_keeps hstay hlatest).bind_keeping
        (undisturbed_length_taken (t + 1)) htaken fun h _ hlatest htaken => ih hlatest.2 htaken

end ReadHalf

/-! ## The write half -/

section WriteHalf

variable {cfg : Config} {worker : ℕ} {h : Heard Cmd.Reply}

/-- The rules of one worker of the write half, for a part that ends as `E` has it. -/
abbrev writing (cfg : Config) (worker : ℕ) {α : Type} (E : Heard Cmd.Reply → α → Prop) :
    Discipline Unit Cmd.Reply α :=
  ((keeping cfg).only (Writing cfg worker)).ending E

/-- Everything that the worker pays for is settled. -/
abbrev Done (cfg : Config) (worker : ℕ) {α : Type} (h : Heard Cmd.Reply) (_ : α) : Prop :=
  Settled (cfg.account worker) h

/-- A message that neither starts nor settles a submission. -/
lemma Settled.concat {payer : Payer} (hh : Settled payer h) {m : Message}
    (hs : submits payer m = false) (hr : results payer m = false) : Settled payer (h ++ [m]) := by
  unfold Settled at hh ⊢
  rw [List.countP_append, List.countP_append, List.countP_singleton, List.countP_singleton, hs, hr, hh]

/-- A submission and its result. -/
lemma Settled.submitted {payer : Payer} {s : Submission} (hh : Settled payer h)
    (hpayer : s.kit.payer = payer) (r : Except String Submitted) :
    Settled payer (h ++ [⟨.submit s, ()⟩] ++ [⟨.result s, r⟩]) := by
  unfold Settled at hh ⊢
  have hsubmit : submits payer ⟨.submit s, ()⟩ = true := beq_iff_eq.mpr hpayer
  have hresult : results payer ⟨.result s, r⟩ = true := beq_iff_eq.mpr hpayer
  have hs : submits payer ⟨.result s, r⟩ = false := rfl
  have hr : results payer ⟨.submit s, ()⟩ = false := rfl
  simp only [List.countP_append, List.countP_singleton, hsubmit, hresult, hs, hr, hh, if_true,
    Bool.false_eq_true, if_false, Nat.add_zero]

lemma settled_of_free {payer : Payer} : Undisturbed Free (Settled payer) := by
  refine undisturbed_settled fun m hm => ?_
  obtain ⟨c, r⟩ := m
  cases c with
  | submit s => exact hm.elim
  | result s => exact hm.elim
  | _ => exact ⟨rfl, rfl⟩

lemma writes_of_free {α : Type} {p : KeeperProg α} (hp : Sends Free p)
    (hh : Settled (cfg.account worker) h) :
    Obeys (writing cfg worker (Done cfg worker)) () h p := by
  have hfree : Obeys (((keeping cfg).only Free).ending fun _ _ => True) () h p :=
    hp.obeys_only fun _ _ hc => ⟨may_of_free hc, hc⟩
  have hkeeps := (hfree.and_keeps settled_of_free hh).only_mono (P := Writing cfg worker)
    fun c hc => writing_of_free hc
  exact hkeeps.mono fun h a ha => ha.2

lemma obeys_send {s : Submission} (hh : Settled (cfg.account worker) h)
    (hpayer : s.kit.payer = cfg.account worker) (hplan : FromPlan s h) :
    Obeys (writing cfg worker (Done cfg worker)) () h (send s).run := by
  refine Thrower.obeys_ask_then ⟨⟨hpayer ▸ hh, hplan⟩, hpayer⟩ (fun u _ _ _ => ?_) fun _ e _ heq => ?_
  · refine Thrower.obeys_ask_then ⟨trivial, hpayer⟩ (fun r submitted _ _ => ?_) fun r _ _ _ => ?_
    · have hh := hh.submitted hpayer r
      cases submitted with
      | failure lastSim message =>
        exact Thrower.obeys_ask_then ⟨trivial, trivial⟩ (fun _ _ _ _ => hh.concat rfl rfl)
          fun _ _ _ _ => hh.concat rfl rfl
      | success hash =>
        refine writes_of_free ?_ hh
        exact Thrower.sends_bind (Thrower.sends_ask trivial) fun _ => Thrower.sends_ask trivial
    · exact hh.submitted hpayer r
  · cases heq

/-- Whatever the router asks to be signed, the tick is one of those that are planned. -/
def Ready (due : Due) (grant : Grant) (agentRuleId : ℕ) (h : Heard Cmd.Reply) : Prop :=
  ∀ entries, FromPlan (submission due grant agentRuleId entries) h

lemma undisturbed_ready (due : Due) (grant : Grant) (agentRuleId : ℕ) :
    Undisturbed (Writing cfg worker) (Ready due grant agentRuleId) :=
  fun m h h' hm hins hready entries =>
    undisturbed_fromPlan inPass_of_writing _ m h h' hm hins (hready entries)

section Submit

variable {user : Address} {due : Due} {grant : Grant} {agentRuleId : ℕ}
  (hpayer : grant.kit.payer = cfg.account worker)

include hpayer

lemma obeys_submitTick (hh : Settled (cfg.account worker) h) (hready : Ready due grant agentRuleId h)
    (tx : AssembledTick) :
    Obeys (writing cfg worker (Done cfg worker)) () h
      (submitTick cfg due grant agentRuleId tx).run := by
  unfold submitTick
  split
  · exact writes_of_free (Thrower.sends_ask trivial) hh
  · exact writes_of_free (Thrower.sends_ask trivial) hh
  · split
    · exact hh
    · exact writes_of_free sends_logNone hh
    · split_ifs
      · exact hh
      · exact obeys_send hh hpayer (hready _)

lemma obeys_submitOne (hh : Settled (cfg.account worker) h) (hready : Ready due grant agentRuleId h) :
    Obeys (writing cfg worker (Done cfg worker)) () h
      (submitOne cfg due grant agentRuleId).run := by
  refine Thrower.obeys_ask_then ⟨trivial, trivial⟩ (fun r r' _ _ => ?_) fun _ _ _ _ => hh.concat rfl rfl
  have hh' : Settled (cfg.account worker) (h ++ [⟨.tick due, r⟩]) := hh.concat rfl rfl
  cases r' with
  | error e => exact writes_of_free (Thrower.sends_ask trivial) hh'
  | ok tx =>
    have hstay : Undisturbed (Writing cfg worker) (Ready due grant agentRuleId) :=
      undisturbed_ready due grant agentRuleId
    exact obeys_submitTick hpayer hh' (hstay.concat hready (c := .tick due) trivial r) tx

lemma obeys_submitDue (hh : Settled (cfg.account worker) h) (hready : Ready due grant agentRuleId h) :
    Obeys (writing cfg worker (Done cfg worker)) () h
      (submitDue cfg user grant agentRuleId due) := by
  refine ⟨⟨trivial, trivial⟩, fun before _ => ?_⟩
  have hh' : Settled (cfg.account worker) (h ++ [⟨.failures, before⟩]) := hh.concat rfl rfl
  have hstay : Undisturbed (Writing cfg worker) (Ready due grant agentRuleId) :=
    undisturbed_ready due grant agentRuleId
  have hone := obeys_submitOne hpayer hh' (hstay.concat hready (c := .failures) trivial before)
  have hhandled : Obeys (writing cfg worker (Done cfg worker)) () _
      (handle (submitOne cfg due grant agentRuleId) fun _ => perform .caught) :=
    hone.bind fun h r hr => by
      cases r with
      | ok u => exact hr
      | error e => exact ⟨⟨trivial, trivial⟩, fun _ _ => hr.concat rfl rfl⟩
  refine hhandled.bind fun h _ hh => ⟨⟨trivial, trivial⟩, fun after _ => ?_⟩
  show Obeys _ () _ (if after > before then _ else _ : KeeperProg Unit)
  split_ifs
  · exact ⟨⟨trivial, trivial⟩, fun _ _ => (hh.concat rfl rfl).concat rfl rfl⟩
  · exact hh.concat rfl rfl

lemma obeys_submitUser {dues : List Due} (hh : Settled (cfg.account worker) h)
    (hready : ∀ due ∈ dues, Ready due grant agentRuleId h) :
    Obeys (writing cfg worker (Done cfg worker)) () h
      (submitUser cfg user grant agentRuleId dues) := by
  induction dues generalizing h with
  | nil => exact hh
  | cons due dues ih =>
    obtain ⟨hdue, hdues⟩ := List.forall_mem_cons.mp hready
    have hstay : Undisturbed (Writing cfg worker) fun h =>
        ∀ due ∈ dues, Ready due grant agentRuleId h := fun m h h' hm hins hall d hd =>
      undisturbed_ready d grant agentRuleId m h h' hm hins (hall d hd)
    exact (obeys_submitDue hpayer hh hdue).bind_keeping hstay hdues fun h _ hh hdues => ih hh hdues

end Submit

/-- What the workers of the write half find planned. -/
structure Found (cfg : Config) (planned : List (Address × UserPlan)) (h : Heard Cmd.Reply) : Prop where
  since : Since ⟨.planned, planned⟩ InPass h
  kits : ∀ entry ∈ planned, OwnKit cfg entry.1 entry.2.grant.kit

lemma obeys_submitEntry {planned : List (Address × UserPlan)} {user : Address} {plan : UserPlan}
    (hh : Settled (cfg.account worker) h) (hfound : Found cfg planned h)
    (hmem : (user, plan) ∈ planned) :
    Obeys (writing cfg worker (Done cfg worker)) () h (submitEntry cfg worker user plan) := by
  unfold submitEntry
  split
  · exact hh
  · next agentRuleId hrule =>
    split_ifs with hshard
    · have hkit : plan.grant.kit = ⟨user, cfg.payer user⟩ := hfound.kits _ hmem
      have hpayer : plan.grant.kit.payer = cfg.account worker := by
        rw [hkit, ← hshard]
        rfl
      refine obeys_submitUser hpayer hh fun due hdue entries => ?_
      exact ⟨planned, user, plan, agentRuleId, entries, hfound.since, hmem, hdue, hrule, rfl⟩
    · exact hh

lemma obeys_submitOwn {planned entries : List (Address × UserPlan)}
    (hh : Settled (cfg.account worker) h) (hfound : Found cfg planned h)
    (hsub : entries ⊆ planned) :
    Obeys (writing cfg worker (Done cfg worker)) () h (submitOwn cfg worker entries) := by
  induction entries generalizing h with
  | nil => exact hh
  | cons entry entries ih =>
    obtain ⟨hentry, hsub⟩ := List.cons_subset.mp hsub
    refine (obeys_submitEntry hh hfound hentry).bind_keeping (undisturbed_since inPass_of_writing)
      hfound.since fun h _ hh hsince => ih hh ⟨hsince, hfound.kits⟩ hsub

lemma obeys_submitter (hh : Settled (cfg.account worker) h) (htaken : Exhausted h ∧ FromRouter h) :
    Obeys (writing cfg worker (Done cfg worker)) () h (submitter cfg worker) := by
  refine ⟨⟨htaken, trivial⟩, fun planned hkits => ?_⟩
  exact obeys_submitOwn (hh.concat rfl rfl) ⟨since_concat _ _ h, hkits⟩ (List.Subset.refl _)

end WriteHalf

/-! ## Passes -/

section Passes

variable {cfg : Config} {h : Heard Cmd.Reply}

/-- Every submission has its result. -/
def AllSettled (cfg : Config) (h : Heard Cmd.Reply) : Prop :=
  ∀ worker ∈ List.range cfg.PARALLEL, Settled (cfg.account worker) h

abbrev passing (cfg : Config) : Discipline Unit Cmd.Reply Unit :=
  (keeping cfg).ending fun h _ => AllSettled cfg h

lemma AllSettled.concat (hh : AllSettled cfg h) {m : Message} (hs : ∀ payer, submits payer m = false)
    (hr : ∀ payer, results payer m = false) : AllSettled cfg (h ++ [m]) :=
  fun worker hworker => (hh worker hworker).concat (hs _) (hr _)

lemma allSettled_of_free : Undisturbed Free (AllSettled cfg) :=
  fun m h h' hm hins hh worker hworker => settled_of_free m h h' hm hins (hh worker hworker)

lemma settled_of_reading {payer : Payer} : Undisturbed Reading (Settled payer) := by
  refine undisturbed_settled fun m hm => ?_
  obtain ⟨c, r⟩ := m
  cases c with
  | submit s => exact hm.elim
  | result s => exact hm.elim
  | _ => exact ⟨rfl, rfl⟩

lemma passes_of_free {p : KeeperProg Unit} (hp : Sends Free p) (hh : AllSettled cfg h) :
    Obeys (passing cfg) () h p := by
  have hfree : Obeys (((keeping cfg).only Free).ending fun _ _ => True) () h p :=
    hp.obeys_only fun _ _ hc => ⟨may_of_free hc, hc⟩
  exact (hfree.and_keeps allSettled_of_free hh).of_only.mono fun h a ha => ha.2

lemma sends_refreshMockOracle : Sends Free (refreshMockOracle cfg).run := by
  unfold refreshMockOracle
  split
  · exact trivial
  · refine Thrower.sends_bind (Thrower.sends_ask trivial) fun v => ?_
    cases v with
    | none => exact trivial
    | some v =>
      refine Thrower.sends_bind (Thrower.sends_ask trivial) fun now => ?_
      split_ifs
      · exact trivial
      · exact Thrower.sends_ask trivial

lemma sends_beat (started wallets : ℕ) : Sends Free (beat cfg started wallets) := by
  refine ⟨trivial, fun due => ?_⟩
  show Sends Free (if cfg.once || due then _ else _ : KeeperProg Unit)
  split_ifs
  · exact ⟨trivial, fun _ => ⟨trivial, fun _ => ⟨trivial, fun _ => ⟨trivial, fun _ =>
      ⟨trivial, fun _ => trivial⟩⟩⟩⟩⟩
  · exact trivial

/-- The crew of the read half leaves no wallet. -/
lemma obeys_readers {latest : ℕ} {users : List Address} (hlatest : LatestIs latest h)
    (hh : AllSettled cfg h) (horder : order h = users) (hrouter : FromRouter h) :
    Obeys ((keeping cfg).ending fun h _ => AllSettled cfg h ∧ Exhausted h ∧ FromRouter h) () h
      (all ((List.range (min cfg.READS users.length)).map fun _ =>
        reader cfg latest (users.length + 1))) := by
  have hcrew := obeys_all (d := keeping cfg) (i := ()) (h := h) (G := fun _ => Reading)
    (E := fun _ => Emptied (0 + (users.length + 1)))
    (List.nodup_range (n := min cfg.READS users.length))
    (fun _ _ => obeys_reader (users.length + 1) hlatest (Nat.zero_le _))
    (fun _ _ _ _ _ => undisturbed_reading) fun _ _ _ _ _ m h h' hm hins hend =>
      undisturbed_emptied _ m h h' hm hins hend
  have hkeeps : Undisturbed (fun c => ∃ k ∈ List.range (min cfg.READS users.length), Reading c)
      fun h => AllSettled cfg h ∧ order h = users ∧ FromRouter h := by
    rintro m h h' ⟨-, -, hm⟩ hins ⟨hh, horder, hrouter⟩
    refine ⟨fun worker hworker => settled_of_reading m h h' hm hins (hh worker hworker), ?_, ?_⟩
    · rw [order_inserted (sameQueue_of_reading m.1 hm) hins, horder]
    · exact undisturbed_fromRouter (fun c hc => ⟨inPass_of_reading c hc, sameQueue_of_reading c hc⟩)
        m h h' hm hins hrouter
  refine (hcrew.and_keeps hkeeps ⟨hh, horder, hrouter⟩).of_only.mono fun h a ha => ?_
  obtain ⟨hends, hh, horder, hrouter⟩ := ha
  refine ⟨hh, ?_, hrouter⟩
  rcases Nat.eq_zero_or_pos users.length with hnone | hsome
  · exact .inl (horder.trans (List.length_eq_zero_iff.mp hnone))
  · have hreads : 0 < cfg.READS := by
      unfold Config.READS
      omega
    have hend := hends 0 (List.mem_range.mpr (lt_min hreads hsome))
    rw [Exhausted, horder]
    exact .inr (hend.imp_right fun hle => by omega)

/-- The crew of the write half. -/
lemma obeys_submitters (hh : AllSettled cfg h) (htaken : Exhausted h ∧ FromRouter h) :
    Obeys ((keeping cfg).ending fun h _ => AllSettled cfg h) () h
      (all ((List.range cfg.PARALLEL).map (submitter cfg))) := by
  refine (obeys_all (G := Writing cfg) List.nodup_range (fun worker hworker => ?_) ?_ ?_).of_only
  · exact obeys_submitter (hh worker hworker) htaken
  · intro w hw w' hw' hne
    exact undisturbed_writing (List.mem_range.mp hw) (List.mem_range.mp hw') hne
  · intro w hw w' hw' hne
    exact settled_of_writing (List.mem_range.mp hw) (List.mem_range.mp hw') hne

/-- The queue as it is set. -/
lemma order_setQueue (users : List Address) : order (h ++ [⟨.setQueue users, ()⟩]) = users := by
  rw [order, List.foldl_append]
  rfl

lemma obeys_pass (hh : AllSettled cfg h) : Obeys (passing cfg) () h (pass cfg) := by
  refine ⟨trivial, fun started _ => ?_⟩
  have hstart : AllSettled cfg (h ++ [⟨.begin, started⟩]) := hh.concat (fun _ => rfl) fun _ => rfl
  have hrefresh : Sends Free (handle (refreshMockOracle cfg) fun _ => return ()) :=
    sends_handle sends_refreshMockOracle fun _ => trivial
  refine (passes_of_free hrefresh hstart).bind fun h _ hh => ?_
  refine ⟨trivial, fun users _ => ⟨trivial, fun latest _ => ⟨trivial, fun order _ =>
    ⟨trivial, fun _ _ => ?_⟩⟩⟩⟩
  have husers := since_last ⟨.list_users, users⟩ InPass h
  replace husers := husers.concat (c := .getLatestLedger) Cmd.noConfusion latest
  replace husers := husers.concat (c := .shuffle _) Cmd.noConfusion order
  replace husers := husers.concat (c := .setQueue order.1) Cmd.noConfusion ()
  have hlatest := since_last ⟨.getLatestLedger, latest⟩ InPass
    (h ++ [⟨.list_users, users⟩])
  replace hlatest := hlatest.concat (c := .shuffle _) Cmd.noConfusion order
  replace hlatest := hlatest.concat (c := .setQueue order.1) Cmd.noConfusion ()
  have hquiet : AllSettled cfg _ := (((hh.concat (m := ⟨.list_users, users⟩) (fun _ => rfl)
    fun _ => rfl).concat (m := ⟨.getLatestLedger, latest⟩) (fun _ => rfl) fun _ => rfl).concat
    (m := ⟨.shuffle _, order⟩) (fun _ => rfl) fun _ => rfl).concat
    (m := ⟨.setQueue order.1, ()⟩) (fun _ => rfl) fun _ => rfl
  have hrouter : FromRouter _ := ⟨users, husers, (order_setQueue order.1).symm ▸ order.2⟩
  refine (obeys_readers ⟨latest, hlatest, rfl⟩ hquiet (order_setQueue order.1) hrouter).bind
    fun h _ hread => ?_
  refine (obeys_submitters hread.1 hread.2).bind fun h _ hh => ?_
  refine (passes_of_free (sends_beat started _) hh).bind fun h _ hh => ?_
  show Obeys _ () h (if cfg.once then _ else _ : KeeperProg Unit)
  split_ifs
  · exact hh
  · exact ⟨trivial, fun _ _ => hh.concat (fun _ => rfl) fun _ => rfl⟩

/-- **The keeper keeps the rules**, for any number of passes and in every order of its workers'
commands. -/
theorem keeper_obeys (n : ℕ) (hh : AllSettled cfg h) : Obeys (passing cfg) () h (keeper cfg n) := by
  induction n generalizing h with
  | zero => exact hh
  | succ n ih =>
    refine (obeys_pass hh).bind fun h _ hh => ?_
    show Obeys _ () h (if cfg.once then _ else _ : KeeperProg Unit)
    split_ifs
    · exact hh
    · exact ih hh

end Passes

end Koul.Keeper
