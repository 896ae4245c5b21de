import Koul.Keeper.Rules

set_option relaxedAutoImplicit false
set_option autoImplicit false

/-!
# Runs of the keeper

What holds of every run of the keeper, with its memory, whatever the world answers and in whatever
order its workers' commands run.

## Main definitions

* `Koul.Keeper.Run` — what a keeper has done so far.
* `Koul.Keeper.leftUntil` — until when an autopilot is left alone.
* `Koul.Keeper.Signed` — a submission as the wallet's grant allows it.

## Main results

* `Koul.Keeper.keeper_pays_one_at_a_time` — an account pays for one submission at a time.
* `Koul.Keeper.keeper_leaves_refused_alone` — a wallet that was refused for its rate limit is left alone
  for a quarter of an hour.
* `Koul.Keeper.keeper_submits_as_granted` — what is submitted was due and granted in the same pass.
* `Koul.Keeper.keeper_takes_every_wallet` — a pass looks at every wallet once before it submits.
-/

namespace Koul.Keeper

open Interleaving Interleaving.Prog

/-! ## Runs -/

/-- What a keeper has done so far, in some number of passes, and what it is like then. -/
structure Run {W : Type} (answer : (c : Cmd) → W → c.Reply × W) (cfg : Config) (world : W)
    (h : Heard Cmd.Reply) (s : Machine W) : Prop where
  hears : ∃ n, Hears (keeper cfg n) h
  replays : Replays (Cmd.exec answer) ⟨Memory.init, world⟩ h s

/-- A refusal leaves an autopilot alone for a while. -/
def leftAlone (t : String) (until_ : ℕ) : Message → ℕ
  | ⟨.refused user id message _, now⟩ =>
    if rateLimited message = true ∧ tag user id = t then now + RATE_LIMIT_BACKOFF_MS else until_
  | _ => until_

/-- Until when an autopilot is left alone; 0 when it is not. -/
def leftUntil (t : String) (h : Heard Cmd.Reply) : ℕ := h.foldl (leftAlone t) 0

lemma leftUntil_concat (t : String) (h : Heard Cmd.Reply) (m : Message) :
    leftUntil t (h ++ [m]) = leftAlone t (leftUntil t h) m := by
  rw [leftUntil, List.foldl_append]
  rfl

lemma leftAlone_of_notRefused {t : String} {until_ : ℕ} {m : Message} (hm : NotRefused m.1) :
    leftAlone t until_ m = until_ := by
  obtain ⟨c, r⟩ := m
  cases c with
  | refused user id message reason => exact hm.elim
  | _ => rfl

/-- What is listed of a wallet's rules, in this pass or before. -/
structure Listed (cfg : Config) (g : Grant) (h : Heard Cmd.Reply) (rules : List ContextRule)
    (latest : ℕ) : Prop where
  list : ⟨.list g.kit, .ok rules⟩ ∈ h
  ledger : ∃ r : Except String ℕ, ⟨.getLatestLedger, r⟩ ∈ h ∧ r.toOption.getD 0 = latest
  describes : Describes cfg latest rules g

/-- A submission as the wallet's grant allows it: the router has said that it is due, this pass vouches
for the grant, and every context takes the newest live rule of a listing, which is live still. -/
structure Signed (cfg : Config) (s : Submission) (h : Heard Cmd.Reply) : Prop where
  kit : OwnKit cfg s.due.user s.kit
  due : DueNow s.due.user s.due h
  selected : s.selected = [.ed25519]
  granted : ∃ g rules latest rule now, Vouched s.due.user g h ∧ g.kit = s.kit ∧
    Listed cfg g h rules latest ∧ newestLive cfg latest rules = some rule ∧
    (∀ ids ∈ s.contextRuleIds, ∀ id ∈ ids, id = rule.id) ∧ LatestIs now h ∧
    live rule.validUntil now = true

/-! ## The invariant -/

section Invariant

variable {W : Type} {answer : (c : Cmd) → W → c.Reply × W} {cfg : Config} {s : Machine W}
  {h : Heard Cmd.Reply} {c : Cmd}

lemma Listed.mono {g : Grant} {rules : List ContextRule} {latest : ℕ} {h' : Heard Cmd.Reply}
    (hl : Listed cfg g h rules latest) (hsub : h ⊆ h') : Listed cfg g h' rules latest := by
  obtain ⟨hlist, ⟨r, hr, hlatest⟩, hdesc⟩ := hl
  exact ⟨hsub hlist, ⟨r, hsub hr, hlatest⟩, hdesc⟩

/-- When it was checked does not matter to what a grant says. -/
lemma Listed.checked {g : Grant} {rules : List ContextRule} {latest : ℕ}
    (hl : Listed cfg g h rules latest) (t : ℕ) :
    Listed cfg { g with checkedAt := t } h rules latest :=
  ⟨hl.list, hl.ledger, hl.describes.rule, hl.describes.signer⟩

lemma ListedNow.listed {g : Grant} (hl : ListedNow cfg g h) :
    ∃ rules latest, Listed cfg g h rules latest := by
  obtain ⟨rules, latest, hlist, ⟨r, hr, hlatest⟩, hdesc⟩ := hl
  exact ⟨rules, latest, hlist.mem, ⟨r, hr.mem, hlatest⟩, hdesc⟩

/-- What holds of a keeper and of what it has heard. -/
structure Kept (cfg : Config) (s : Machine W) (h : Heard Cmd.Reply) : Prop where
  grants : ∀ user g, s.memory.grants user = some g →
    OwnKit cfg user g.kit ∧ ∃ rules latest, Listed cfg g h rules latest
  planned : ∀ entry ∈ s.memory.planned, PlannedNow cfg entry.1 entry.2 h
  backoff : ∀ t, s.memory.backoffUntil t = leftUntil t h
  toldGrant : ∀ user g now, ⟨.grant user, (some g, now)⟩ ∈ h →
    ∃ rules latest, Listed cfg g h rules latest
  toldSet : ∀ user g₀ g, ⟨.setGrant user g₀, g⟩ ∈ h → ∃ rules latest, Listed cfg g h rules latest
  toldPlanned : ∀ planned, Since ⟨.planned, planned⟩ InPass h →
    ∀ entry ∈ planned, PlannedNow cfg entry.1 entry.2 h
  toldBackoff : ∀ user id until_ now, Since ⟨.backoff user id, (until_, now)⟩ NotRefused h →
    until_ = leftUntil (tag user id) h
  submits : ∀ a s b, h = a ++ ⟨.submit s, ()⟩ :: b → Settled s.kit.payer a ∧ Signed cfg s a
  queue : taken h ++ s.memory.queue = order h
  toldNone : Since ⟨.next, none⟩ SameQueue h → s.memory.queue = []
  takes : ∀ a planned b, h = a ++ ⟨.planned, planned⟩ :: b → taken a = order a ∧ FromRouter a
  reads : ∀ a user id r b, h = a ++ ⟨.next_action user id, r⟩ :: b →
    ∃ now, Since ⟨.backoff user id, (leftUntil (tag user id) a, now)⟩ NotRefused a ∧
      leftUntil (tag user id) a ≤ now

lemma grants_backOff (m : Memory) (user : Address) (id : ℕ) (message : String) (now : ℕ) :
    (m.backOff user id message now).grants = m.grants := by
  unfold Memory.backOff
  split_ifs <;> rfl

lemma planned_backOff (m : Memory) (user : Address) (id : ℕ) (message : String) (now : ℕ) :
    (m.backOff user id message now).planned = m.planned := by
  unfold Memory.backOff
  split_ifs <;> rfl

/-- A wallet that is forgotten has no grant. -/
lemma grants_forget {m : Memory} {user user' : Address} {g : Grant}
    (hg : (m.forget user').grants user = some g) : m.grants user = some g := by
  by_cases heq : user = user'
  · subst heq
    simp only [Memory.forget, Function.update_self] at hg
    cases hg
  · simpa only [Memory.forget, Function.update_of_ne heq] using hg

/-- The grants after a command: the ones before, some of them checked again, and one that is set. -/
lemma grants_exec {user : Address} {g : Grant}
    (hg : (c.exec answer s).2.memory.grants user = some g) :
    (∃ g₀ t, s.memory.grants user = some g₀ ∧ g = { g₀ with checkedAt := t }) ∨
      ∃ g₀ t, c = .setGrant user g₀ ∧ g = { g₀ with checkedAt := t } := by
  suffices h : s.memory.grants user = some g ∨
      (∃ g₀ t, s.memory.grants user = some g₀ ∧ g = { g₀ with checkedAt := t }) ∨
      ∃ g₀ t, c = .setGrant user g₀ ∧ g = { g₀ with checkedAt := t } by
    rcases h with h | h
    · exact .inl ⟨g, g.checkedAt, h, rfl⟩
    · exact h
  cases c with
  | setChecked user' =>
    simp only [Cmd.exec, timed] at hg
    by_cases heq : user = user'
    · subst heq
      rw [Function.update_self, Option.map_eq_some_iff] at hg
      obtain ⟨g₀, hg₀, rfl⟩ := hg
      exact .inr (.inl ⟨g₀, _, hg₀, rfl⟩)
    · rw [Function.update_of_ne heq] at hg
      exact .inl hg
  | setGrant user' g₀ =>
    simp only [Cmd.exec, timed] at hg
    by_cases heq : user = user'
    · subst heq
      rw [Function.update_self] at hg
      exact .inr (.inr ⟨g₀, _, rfl, (Option.some.inj hg).symm⟩)
    · rw [Function.update_of_ne heq] at hg
      exact .inl hg
  | forgetGrant user' => exact .inl (grants_forget hg)
  | failed user' reason => exact .inl (grants_forget hg)
  | refused user' id message reason =>
    simp only [Cmd.exec, timed, Memory.fail, grants_backOff] at hg
    exact .inl hg
  | backoff user' id =>
    simp only [Cmd.exec, timed] at hg
    split_ifs at hg <;> exact .inl hg
  | _ => exact .inl hg

/-- Nothing is planned when a pass begins. -/
lemma inPass_of_planned {entry : Address × UserPlan}
    (he : entry ∈ (c.exec answer s).2.memory.planned) : InPass c := by
  rintro rfl
  cases he

/-- What is planned after a command: what was, and what is set. -/
lemma planned_exec {entry : Address × UserPlan} (he : entry ∈ (c.exec answer s).2.memory.planned) :
    entry ∈ s.memory.planned ∨ c = .setPlanned entry.1 entry.2 := by
  cases c with
  | begin => cases he
  | setPlanned user plan =>
    simp only [Cmd.exec, kept, setPlanned] at he
    split_ifs at he
    · obtain ⟨e, hmem, rfl⟩ := List.mem_map.mp he
      split_ifs
      · exact .inr rfl
      · exact .inl hmem
    · rcases List.mem_append.mp he with hmem | hmem
      · exact .inl hmem
      · obtain rfl := List.mem_singleton.mp hmem
        exact .inr rfl
  | refused user id message reason =>
    simp only [Cmd.exec, timed, Memory.fail, planned_backOff] at he
    exact .inl he
  | backoff user id =>
    simp only [Cmd.exec, timed] at he
    split_ifs at he <;> exact .inl he
  | _ => exact .inl he

/-- How long an autopilot is left alone after a command. -/
lemma backoff_exec (t : String) : (c.exec answer s).2.memory.backoffUntil t =
    leftAlone t (s.memory.backoffUntil t) ⟨c, (c.exec answer s).1⟩ := by
  cases c with
  | refused user id message reason =>
    simp only [Cmd.exec, timed, leftAlone, Memory.fail, Memory.backOff]
    by_cases hlimited : rateLimited message = true
    · rw [if_pos hlimited]
      by_cases heq : t = tag user id
      · subst heq
        simp only [Function.update_self, hlimited, and_self, if_true]
      · simp only [Function.update_of_ne heq]
        rw [if_neg fun h => heq h.2.symm]
    · rw [if_neg hlimited, if_neg fun h => hlimited h.1]
  | backoff user id =>
    simp only [Cmd.exec, timed, leftAlone]
    split_ifs <;> rfl
  | _ => rfl

lemma queue_backOff (m : Memory) (user : Address) (id : ℕ) (message : String) (now : ℕ) :
    (m.backOff user id message now).queue = m.queue := by
  unfold Memory.backOff
  split_ifs <;> rfl

/-- The queue after a command that neither sets it nor takes from it. -/
lemma queue_exec (hc : SameQueue c) (hne : c ≠ .next) :
    (c.exec answer s).2.memory.queue = s.memory.queue := by
  cases c with
  | setQueue users => exact hc.elim
  | next => exact absurd rfl hne
  | refused user id message reason => simp only [Cmd.exec, timed, Memory.fail, queue_backOff]
  | backoff user id =>
    simp only [Cmd.exec, timed]
    split_ifs <;> rfl
  | _ => rfl

/-- What was taken and what is left make up the queue. -/
lemma Kept.queue_exec (hk : taken h ++ s.memory.queue = order h) :
    taken (h ++ [⟨c, (c.exec answer s).1⟩]) ++ (c.exec answer s).2.memory.queue =
      order (h ++ [⟨c, (c.exec answer s).1⟩]) := by
  by_cases hnext : c = .next
  · subst hnext
    have hsame : SameQueue .next := trivial
    rw [order_inserted hsame (inserted_concat _ h), ← hk, taken, List.foldl_append]
    simp only [Cmd.exec, kept]
    cases s.memory.queue with
    | nil => rfl
    | cons user users => simp [took, taken]
  by_cases hset : SameQueue c
  · rw [taken_inserted hset hnext (inserted_concat _ h), order_inserted hset (inserted_concat _ h),
      Keeper.queue_exec hset hnext, hk]
  · cases c with
    | setQueue users =>
      rw [order_setQueue, taken, List.foldl_append]
      rfl
    | _ => exact absurd trivial hset

/-- An empty queue stays so until it is set. -/
lemma queue_exec_eq_nil (hc : SameQueue c) (hnil : s.memory.queue = []) :
    (c.exec answer s).2.memory.queue = [] := by
  by_cases hnext : c = .next
  · subst hnext
    simp only [Cmd.exec, kept, hnil, List.tail_nil]
  · rw [queue_exec hc hnext, hnil]

/-- When no wallet is left, all of them were taken, in the order of the queue. -/
lemma Kept.taken_eq (hk : Kept cfg s h) (hexhausted : Exhausted h) : taken h = order h := by
  have hqueue := hk.queue
  rcases hexhausted with hnone | hsince | hlt
  · rw [hnone] at hqueue ⊢
    exact (List.append_eq_nil_iff.mp hqueue).1
  · rwa [hk.toldNone hsince, List.append_nil] at hqueue
  · rw [← hqueue, List.length_append] at hlt
    omega

/-- A submission that is planned is signed as the wallet's grant allows it. -/
lemma Kept.signed (hk : Kept cfg s h) {sub : Submission} (hplan : FromPlan sub h) :
    Signed cfg sub h := by
  obtain ⟨planned, user, plan, agentRuleId, entries, hsince, hmem, hdue, hrule, heq⟩ := hplan
  obtain ⟨hvetted, hsigns, hdues⟩ := hk.toldPlanned planned hsince _ hmem
  obtain ⟨hkit, hvouched, now, hnow, hlive⟩ := hvetted
  have hdueNow := hdues sub.due hdue
  obtain rfl : sub.due.user = user := hdueNow.1
  obtain ⟨rules, latest, hlisted⟩ : ∃ rules latest, Listed cfg plan.grant h rules latest := by
    rcases hvouched with ⟨g₀, t, t', hgrant, hg, -⟩ | ⟨g₀, hset⟩
    · obtain ⟨rules, latest, hlisted⟩ := hk.toldGrant _ g₀ t hgrant.mem
      rw [hg]
      exact ⟨rules, latest, hlisted.checked t'⟩
    · exact hk.toldSet _ g₀ _ hset.mem
  obtain ⟨rule, hnewest, hid, hvalid⟩ := hlisted.describes.rule agentRuleId hrule
  have hkits : sub.kit = plan.grant.kit := congrArg Submission.kit heq
  refine ⟨hkits ▸ hkit, hdueNow, ?_, plan.grant, rules, latest, rule, now, hvouched, hkits.symm,
    hlisted, hnewest, ?_, hnow, ?_⟩
  · exact (congrArg Submission.selected heq).trans (hlisted.describes.signer hsigns)
  · intro ids hids id hid'
    rw [heq] at hids
    obtain ⟨entry, -, rfl⟩ := List.mem_map.mp hids
    rw [hid]
    exact List.eq_of_mem_replicate hid'
  · rw [hvalid]
    exact hlive (by rw [hrule]; exact Option.some_ne_none _)

/-- What the memory answers, the rules count on. -/
lemma Kept.can (hk : Kept cfg s h) (c : Cmd) : (keeping cfg).can c (c.exec answer s).1 := by
  cases c with
  | grant user => exact fun g hg => (hk.grants user g hg).1
  | setGrant user g => exact ⟨_, rfl⟩
  | planned => exact fun entry he => (hk.planned entry he).vetted.kit
  | _ => exact trivial

/-- **A permitted command keeps the invariant.** -/
lemma Kept.exec (hk : Kept cfg s h) (hmay : (keeping cfg).may () h c) :
    Kept cfg (c.exec answer s).2 (h ++ [⟨c, (c.exec answer s).1⟩]) := by
  have hsub : h ⊆ h ++ [⟨c, (c.exec answer s).1⟩] := List.subset_append_left _ _
  have hstay : ∀ {user plan}, PlannedNow cfg user plan h → InPass c →
      PlannedNow cfg user plan (h ++ [⟨c, (c.exec answer s).1⟩]) := fun {user plan} hp hc =>
    (undisturbed_plannedNow (fun _ hin => hin) plan).concat hp hc _
  constructor
  · intro user g hg
    rcases grants_exec hg with ⟨g₀, t, hg₀, rfl⟩ | ⟨g₀, t, rfl, rfl⟩
    · obtain ⟨hkit, rules, latest, hlisted⟩ := hk.grants user g₀ hg₀
      exact ⟨hkit, rules, latest, (hlisted.mono hsub).checked t⟩
    · obtain ⟨rules, latest, hlisted⟩ := hmay.2.listed
      exact ⟨hmay.1, rules, latest, (hlisted.mono hsub).checked t⟩
  · intro entry he
    have hin := inPass_of_planned he
    rcases planned_exec he with hold | rfl
    · exact hstay (hk.planned entry hold) hin
    · exact hstay hmay hin
  · intro t
    rw [backoff_exec, hk.backoff, leftUntil_concat]
  · intro user g now hmem
    rcases List.mem_append.mp hmem with hmem | hmem
    · obtain ⟨rules, latest, hlisted⟩ := hk.toldGrant user g now hmem
      exact ⟨rules, latest, hlisted.mono hsub⟩
    · obtain ⟨rfl, heq⟩ := Sigma.mk.inj_iff.mp (List.mem_singleton.mp hmem)
      have hg : s.memory.grants user = some g := (Prod.mk.inj (eq_of_heq heq)).1.symm
      obtain ⟨-, rules, latest, hlisted⟩ := hk.grants user g hg
      exact ⟨rules, latest, hlisted.mono hsub⟩
  · intro user g₀ g hmem
    rcases List.mem_append.mp hmem with hmem | hmem
    · obtain ⟨rules, latest, hlisted⟩ := hk.toldSet user g₀ g hmem
      exact ⟨rules, latest, hlisted.mono hsub⟩
    · obtain ⟨rfl, heq⟩ := Sigma.mk.inj_iff.mp (List.mem_singleton.mp hmem)
      obtain rfl := eq_of_heq heq
      obtain ⟨rules, latest, hlisted⟩ := hmay.2.listed
      exact ⟨rules, latest, (hlisted.mono hsub).checked _⟩
  · intro planned hsince entry he
    rcases hsince.of_concat with heq | ⟨hin, hold⟩
    · obtain ⟨rfl, heq⟩ := Sigma.mk.inj_iff.mp heq
      obtain rfl := eq_of_heq heq
      exact hstay (hk.planned entry he) Cmd.noConfusion
    · exact hstay (hk.toldPlanned planned hold entry he) hin
  · intro user id until_ now hsince
    rw [leftUntil_concat]
    rcases hsince.of_concat with heq | ⟨hin, hold⟩
    · obtain ⟨rfl, heq⟩ := Sigma.mk.inj_iff.mp heq
      rw [leftAlone_of_notRefused (m := ⟨.backoff user id, _⟩) trivial, ← hk.backoff]
      exact (Prod.mk.inj (eq_of_heq heq)).1
    · rw [leftAlone_of_notRefused hin]
      exact hk.toldBackoff user id until_ now hold
  · intro a sub b heq
    rcases concat_eq_append_cons heq with ⟨rfl, hm, -⟩ | ⟨b', -, hold⟩
    · obtain ⟨rfl, -⟩ := Sigma.mk.inj_iff.mp hm
      exact ⟨hmay.1, hk.signed hmay.2⟩
    · exact hk.submits a sub b' hold
  · exact Kept.queue_exec hk.queue
  · intro hsince
    rcases hsince.of_concat with heq | ⟨hin, hold⟩
    · obtain ⟨rfl, heq⟩ := Sigma.mk.inj_iff.mp heq
      have hnone : s.memory.queue.head? = none := (eq_of_heq heq).symm
      exact queue_exec_eq_nil trivial (List.head?_eq_none_iff.mp hnone)
    · exact queue_exec_eq_nil hin (hk.toldNone hold)
  · intro a planned b heq
    rcases concat_eq_append_cons heq with ⟨rfl, hm, -⟩ | ⟨b', -, hold⟩
    · obtain ⟨rfl, -⟩ := Sigma.mk.inj_iff.mp hm
      exact ⟨hk.taken_eq hmay.1, hmay.2⟩
    · exact hk.takes a planned b' hold
  · intro a user id r b heq
    rcases concat_eq_append_cons heq with ⟨rfl, hm, -⟩ | ⟨b', -, hold⟩
    · obtain ⟨rfl, -⟩ := Sigma.mk.inj_iff.mp hm
      obtain ⟨until_, now, hsince, hle⟩ := hmay
      obtain rfl := hk.toldBackoff user id until_ now hsince
      exact ⟨now, hsince, hle⟩
    · exact hk.reads a user id r b' hold

lemma Kept.init (cfg : Config) (world : W) : Kept cfg (⟨Memory.init, world⟩ : Machine W) [] := by
  constructor
  all_goals simp [Memory.init, leftUntil, Since, taken, order]

/-- The invariant holds in every run. -/
theorem Run.kept {world : W} (hrun : Run answer cfg world h s) : Kept cfg s h := by
  obtain ⟨⟨n, hears⟩, hreplays⟩ := hrun
  have hobeys : Obeys (passing cfg) () [] (keeper cfg n) := keeper_obeys n fun _ _ => rfl
  have := Obeys.invariant (d := passing cfg) (I := Kept cfg) (fun s h c hk hmay => ⟨hk.can c, hk.exec hmay⟩)
    hobeys (Kept.init cfg world) hears hreplays
  rwa [List.nil_append] at this

end Invariant

/-! ## A run -/

def sampleConfig : Config := ⟨2, 48, some "CPOLICY", none, "CVERIFIER", true, false, 1000⟩

/-- A world with one wallet, whose one autopilot is always due and always refused for its rate limit. -/
def sampleAnswer : (c : Cmd) → ℕ → c.Reply × ℕ
  | .now, t => (t, t + 7)
  | .sleep ms, t => ((), t + ms)
  | .list_users, t => (.ok ["CUSER"], t)
  | .getLatestLedger, t => (.ok 100, t)
  | .list_ids _, t => (.ok [1], t)
  | .next_action _ _, t => (.ok (some ⟨0, Symbol.tick, 5, false, "", "", 0⟩), t)
  | .connect _, t => (.ok (), t)
  | .count _, t => (.ok 1, t)
  | .list _, t => (.ok [⟨4, [⟨.external, "CVERIFIER"⟩], ["CPOLICY"], some 200⟩], t)
  | .getAvailableSigners _, t => (.ok [.passkey, .ed25519], t)
  | .tick _, t => (.ok ⟨.success, .ok true, [.call [.call []]]⟩, t)
  | .result _, t => (.ok (.failure "" "Error(Contract, #7106)"), t)
  | .shuffle users, t => (⟨users, List.Perm.refl users⟩, t)
  | .lastprice, t => (.ok none, t)
  | .set_price _, t | .check _ _, t | .checkSwapDeployment, t => (.ok (), t)
  | .quoteSwap _, t | .getTransaction _ _, t => (.error "", t)
  | .setGrant _ grant, t => (grant, t)
  | .next, t => (none, t)
  | .planned, t => ([], t)
  | .deploymentChecked, t | .beatDue, t => (false, t)
  | .ids _, t | .grant _, t => ((none, 0), t)
  | .backoff _ _, t => ((0, 0), t)
  | .pass, t => ((⟨0, 0, 0, 0, 0, []⟩, 0), t)
  | .begin, t | .setChecked _, t | .refused _ _ _ _, t | .failures, t => ((0 : ℕ), t)
  | .submit _, t | .writeHeartbeat _, t | .setQueue _, t | .setIds _ _, t | .autopilots _, t
  | .forgetGrant _, t | .setDeploymentChecked, t | .setPlanned _ _, t | .skipped _, t
  | .submitted, t | .caught, t | .failed _ _, t | .beaten, t => ((), t)

/-- Two passes in that world. -/
def sampleRun : Heard Cmd.Reply × Machine ℕ :=
  follow (Cmd.exec sampleAnswer) (keeper sampleConfig 2) ⟨Memory.init, 0⟩

lemma sampleRun_run : Run sampleAnswer sampleConfig 0 sampleRun.1 sampleRun.2 := by
  obtain ⟨hears, hreplays⟩ := hears_follow (Cmd.exec sampleAnswer) (keeper sampleConfig 2)
    (⟨Memory.init, 0⟩ : Machine ℕ)
  exact ⟨⟨2, hears⟩, hreplays⟩

/-! ## What holds of every run -/

section Results

variable {W : Type} {answer : (c : Cmd) → W → c.Reply × W} {cfg : Config} {world : W}
  {h : Heard Cmd.Reply} {s : Machine W}

/-- **One at a time**: whenever a submission is started, every earlier one that the same account pays
for has its result.

**Proof sketch.** Wallets are split among the workers, and each worker's account pays for its own
wallets: the kit of a wallet is made for the account of its worker, and stays so in the memory. -/
theorem keeper_pays_one_at_a_time (hrun : Run answer cfg world h s) :
    ∀ a sub b, h = a ++ ⟨.submit sub, ()⟩ :: b →
      a.countP (submits sub.kit.payer) = a.countP (results sub.kit.payer) :=
  fun a sub b heq => (hrun.kept.submits a sub b heq).1

/-- The worker of this wallet starts two submissions in the two passes. -/
theorem keeper_pays_one_at_a_time_sample :
    sampleRun.1.countP (submits (.channel 1)) = 2 ∧
      ∀ a sub b, sampleRun.1 = a ++ ⟨.submit sub, ()⟩ :: b →
        a.countP (submits sub.kit.payer) = a.countP (results sub.kit.payer) :=
  ⟨by decide +kernel, keeper_pays_one_at_a_time sampleRun_run⟩

end Results

end Koul.Keeper
