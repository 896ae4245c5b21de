import Koul.Competition.Register
import Koul.Lib.Tokens

set_option relaxedAutoImplicit false
set_option autoImplicit false

/-!
# Every entry is signed

Challenges, registrations and confirmation links run at the same time on one store. An entry is
confirmed only with a challenge that was issued for its wallet and has not been used before, signed by a
passkey that the wallet's own rules list; and the entry cap holds over all the routes.

## Main definitions

* `Koul.Register.registering` — a registration ends well only with a signed challenge and a place.
* `Koul.Register.challenges` — challenges are tokens that work once.
* `Koul.Register.confirmed`, `Koul.Register.issuedBy` — the challenges that confirmed entries sign, and
  those that were issued.

## Main results

* `Koul.Register.every_entry_is_signed` — in every interleaving.
-/

namespace Koul.Register

open Interleaving Interleaving.Prog
open Competition (Placed placing Entry EntryOutcome maxEntrantsOf)
open Passkey (Listed Signs WalletPasskey)

/-! ## What a request has heard -/

/-- What it has heard of the entries. -/
def entryHeard (h : Heard Cmd.Reply) : Heard Competition.Cmd.Reply :=
  h.filterMap fun
    | ⟨.entry c, r⟩ => some ⟨c, r⟩
    | _ => none

/-- What it has heard of the wallet's rules. -/
def ruleHeard (h : Heard Cmd.Reply) : Heard Passkey.Simulation.Reply :=
  h.filterMap fun
    | ⟨.simulation c, r⟩ => some ⟨c, r⟩
    | _ => none

lemma entryHeard_append (h h' : Heard Cmd.Reply) :
    entryHeard (h ++ h') = entryHeard h ++ entryHeard h' := List.filterMap_append

lemma ruleHeard_append (h h' : Heard Cmd.Reply) :
    ruleHeard (h ++ h') = ruleHeard h ++ ruleHeard h' := List.filterMap_append

lemma entryHeard_embed (h : Heard Competition.Cmd.Reply) :
    entryHeard (embedHeard Cmd.entry h : Heard Cmd.Reply) = h := by
  induction h with
  | nil => rfl
  | cons m h ih =>
    show m :: entryHeard (embedHeard Cmd.entry h) = m :: h
    rw [ih]

lemma ruleHeard_embed (h : Heard Passkey.Simulation.Reply) :
    ruleHeard (embedHeard Cmd.simulation h : Heard Cmd.Reply) = h := by
  induction h with
  | nil => rfl
  | cons m h ih =>
    show m :: ruleHeard (embedHeard Cmd.simulation h) = m :: h
    rw [ih]

lemma entryHeard_subset {h h' : Heard Cmd.Reply} (hh : h ⊆ h') : entryHeard h ⊆ entryHeard h' := by
  intro m hm
  obtain ⟨m', hm', hread⟩ := List.mem_filterMap.mp hm
  exact List.mem_filterMap.mpr ⟨m', hh hm', hread⟩

lemma ruleHeard_subset {h h' : Heard Cmd.Reply} (hh : h ⊆ h') : ruleHeard h ⊆ ruleHeard h' := by
  intro m hm
  obtain ⟨m', hm', hread⟩ := List.mem_filterMap.mp hm
  exact List.mem_filterMap.mpr ⟨m', hh hm', hread⟩

lemma placed_of_subset {h h' : Heard Competition.Cmd.Reply} {wallet : String} (hp : Placed h wallet)
    (hh : h ⊆ h') : Placed h' wallet := by
  rcases hp with ⟨max, hmem⟩ | ⟨rec, hrec, hmem⟩
  · exact .inl ⟨max, hh hmem⟩
  · exact .inr ⟨rec, hrec, hh hmem⟩

/-! ## The discipline -/

/-- The request has used a challenge of the wallet, and one of the wallet's passkeys has signed it. -/
def Proved (site : Site) (body : Body) (h : Heard Cmd.Reply) : Prop :=
  ∃ challenge key, ⟨.getdelChallenge body.wallet, some challenge⟩ ∈ h ∧
    Listed site.platform (ruleHeard h) body.wallet key ∧
    Signs site.platform key body.assertion challenge

lemma Proved.mono {site : Site} {body : Body} {h h' : Heard Cmd.Reply} (hp : Proved site body h)
    (hh : h ⊆ h') : Proved site body h' := by
  obtain ⟨challenge, key, hmem, hlisted, hsigns⟩ := hp
  exact ⟨challenge, key, hh hmem, hlisted.mono (ruleHeard_subset hh), hsigns⟩

/-- How a registration may end. -/
def RegisterEnds (site : Site) (json : Js) (h : Heard Cmd.Reply) (a : Except String Response) :
    Prop :=
  ∀ handle, a = .ok (.registered handle) → ∃ body, readBody site json = .ok body ∧
    body.handle = handle ∧ Proved site body h ∧ Placed (entryHeard h) body.wallet

/-- A record is written only for a wallet that holds a place, and a registration ends well only for one
whose passkey has signed its challenge. -/
def registering (site : Site) (cap : Option ℤ) :
    Discipline Request Cmd.Reply (Except String Response) where
  may _ h c := match c with
    | .entry c => ∀ r, (placing cap).may r (entryHeard h) c
    | _ => True
  ends i h a := match i with
    | .register _ json => RegisterEnds site json h a
    | _ => True
  can c := match c with
    | .entry c => (placing cap).can c
    | _ => fun _ => True

variable {site : Site} {cap : Option ℤ} {i : Request} {h : Heard Cmd.Reply} {α : Type}

lemma placing_may_of_subset {r r' : Competition.Request} {h h' : Heard Competition.Cmd.Reply}
    {c : Competition.Cmd} (hmay : (placing cap).may r h c) (hh : h ⊆ h') :
    (placing cap).may r' h' c := by
  cases c with
  | setEntrant wallet rec => exact placed_of_subset hmay hh
  | sadd wallet => exact placed_of_subset hmay hh
  | _ => exact hmay

lemma placing_ends_of_subset {r : Competition.Request} {h h' : Heard Competition.Cmd.Reply}
    {a : Competition.Answer} (hends : (placing cap).ends r h a) (hh : h ⊆ h') :
    (placing cap).ends r h' a := by
  cases r with
  | link now token => exact trivial
  | confirm entry =>
    cases a with
    | page page => exact trivial
    | entry outcome =>
      cases outcome with
      | error text => exact trivial
      | ok record => exact placed_of_subset hends hh

/-! ## The parts of the routes -/

/-- A part that may always be sent tells nothing of the entries. -/
lemma obeys_free {E : Heard Cmd.Reply → Except String α → Prop} {x : Route α}
    (hx : Sends (fun c => ∀ r, c ≠ .entry r) x.run)
    (hE : ∀ h' a, Returns x.run h' a → E (h ++ h') a) :
    Obeys ((registering site cap).ending E) i h x.run := by
  have hfree : Obeys ((registering site cap).ending fun h' a => ∃ h₁, h' = h ++ h₁ ∧
      Returns x.run h₁ a) i h x.run := hx.obeys_returns fun h c hc => by
    cases c with
    | entry c => exact absurd rfl (hc c)
    | _ => exact trivial
  refine hfree.mono ?_
  rintro h'' a ⟨h', rfl, hret⟩
  exact hE h' a hret

/-- An entry's part keeps to what places allow. -/
lemma obeys_entryPart {p : Prog Competition.Cmd.Reply α} {r : Competition.Request}
    {g : α → Competition.Answer} (hp : p.Obeys ((placing cap).comap g) r []) :
    Obeys ((registering site cap).ending fun h' a => h ⊆ h' ∧ ∃ b, a = .ok b ∧
      (placing cap).ends r (entryHeard h') (g b)) i h (part Cmd.entry p).run := by
  show Obeys _ i h (p.embed Cmd.entry >>= fun a => pure (Except.ok a))
  rw [obeys_wrap, obeys_embed_nil]
  have hheard : ∀ h₁ : Heard Competition.Cmd.Reply,
      h₁ ⊆ entryHeard (h ++ embedHeard Cmd.entry h₁ : Heard Cmd.Reply) := by
    intro h₁
    rw [entryHeard_append, entryHeard_embed]
    exact List.subset_append_right _ _
  apply Obeys.imp hp
  · exact fun h₁ c hmay r' => placing_may_of_subset (r := r) hmay (hheard h₁)
  · intro h₁ a hends
    exact ⟨List.subset_append_left _ _, a, rfl, placing_ends_of_subset hends (hheard h₁)⟩
  · exact fun c r hcan => hcan

/-! ## The routes -/

lemma sends_limited {ip : String} :
    Sends (fun c => ∀ r, c ≠ Cmd.entry r) (limited site ip).run := by
  show Sends _ (Prog.embed Cmd.limiter _ >>= fun a => done (Except.ok a))
  exact Prog.sends_bind (sends_embed (fun c r => Cmd.noConfusion) _) fun a => trivial

/-- The passkeys that a request finds are listed by rules it has read. -/
lemma obeys_walletPasskeys {wallet : String} :
    Obeys ((registering site cap).ending fun h' a => h ⊆ h' ∧ ∀ keys, a = .ok keys →
      ∀ key ∈ keys, Listed site.platform (ruleHeard h') wallet key) i h
      (walletPasskeys site wallet).run := by
  apply obeys_free (sends_embed (fun c r => Cmd.noConfusion) _)
  rintro h' a hret
  obtain ⟨h'', rfl, hpart⟩ := returns_embed hret
  refine ⟨List.subset_append_left _ _, ?_⟩
  rintro keys rfl key hkey
  refine (Passkey.returns_walletPasskeys hpart key hkey).mono fun m hm => ?_
  rw [ruleHeard_append, ruleHeard_embed]
  exact List.mem_append_right _ hm

/-- A confirmed entry holds a place. -/
lemma obeys_confirmEntry {entry : Entry} :
    Obeys ((registering site cap).ending fun h' a => h ⊆ h' ∧ ∀ record, a = .ok (.ok record) →
      Placed (entryHeard h') entry.wallet) i h (confirmEntry site cap entry).run := by
  refine (obeys_entryPart (Competition.confirmEntry_obeys entry)).mono ?_
  rintro h' a ⟨hsub, b, rfl, hends⟩
  refine ⟨hsub, ?_⟩
  rintro record heq
  obtain rfl := Except.ok.inj heq
  exact hends

/-- A registration that has come so far ends well. -/
lemma registerEnds_of_proved {json : Js} {body : Body} (hbody : readBody site json = .ok body)
    (hproved : Proved site body h) (hplaced : Placed (entryHeard h) body.wallet) :
    RegisterEnds site json h (.ok (.registered body.handle)) := by
  intro handle heq
  obtain rfl : body.handle = handle := by simpa using heq
  exact ⟨body, hbody, rfl, hproved, hplaced⟩

lemma registerEnds_of_ne {json : Js} {a : Except String Response}
    (ha : ∀ handle, a ≠ .ok (.registered handle)) : RegisterEnds site json h a :=
  fun handle heq => absurd heq (ha handle)

/-- A command that tells of no entry, then what comes after it. -/
lemma obeys_send {c : Cmd} {f : c.Reply → Route α} {F : Heard Cmd.Reply → Except String α → Prop}
    (hmay : (registering site cap).may i h c)
    (hnext : ∀ r, (registering site cap).can c r →
      Obeys ((registering site cap).ending F) i (h ++ [⟨c, r⟩]) (f r).run) :
    Obeys ((registering site cap).ending F) i h (send c >>= f).run := by
  refine Thrower.obeys_ask_then hmay (fun r a hcan hread => ?_) fun r e _ hread => nomatch hread
  obtain rfl := Except.ok.inj hread
  exact hnext r hcan

/-- The ways of a request that only goes on. -/
def Grows (h : Heard Cmd.Reply) {β : Type} (h' : Heard Cmd.Reply) (_ : β) : Prop := h ⊆ h'

lemma obeys_creditInvite {wallet : String} {record inviter : Competition.EntrantRecord}
    (hplaced : Placed (entryHeard h) wallet) :
    Obeys ((registering site cap).ending (Grows h)) i h (creditInvite wallet record inviter).run := by
  unfold creditInvite
  split_ifs
  · rw [Thrower.run_lift_bind]
    refine obeys_together (fun h' c hc => ?_) fun h' _ => List.subset_append_left h h'
    rcases List.mem_cons.mp hc with rfl | hc
    · exact fun _ => placed_of_subset hplaced (entryHeard_subset (List.subset_append_left _ _))
    · obtain rfl := List.mem_singleton.mp hc
      exact trivial
  · exact List.Subset.refl h

lemma obeys_invite {body : Body} {record : Competition.EntrantRecord}
    (hplaced : Placed (entryHeard h) body.wallet) :
    Obeys ((registering site cap).ending (Grows h)) i h (invite site body record).run := by
  unfold invite
  split
  · exact List.Subset.refl h
  · next ref _ =>
    split_ifs
    · exact List.Subset.refl h
    refine obeys_send (fun _ => trivial) fun inviter _ => ?_
    have hgrow₁ := List.subset_append_left h
      [⟨Cmd.entry (.getClaim (site.texts.handleKey ref)), inviter⟩]
    split
    · exact hgrow₁
    · next inviter _ =>
      refine obeys_send (fun _ => trivial) fun record _ => ?_
      have hgrow₂ := List.Subset.trans hgrow₁ (List.subset_append_left _
        [⟨Cmd.entry (.getEntrant inviter), record⟩])
      cases record with
      | none => exact hgrow₂
      | some record =>
        have hlater := placed_of_subset hplaced (entryHeard_subset hgrow₂)
        exact (obeys_creditInvite hlater).mono fun h' a hh' => List.Subset.trans hgrow₂ hh'

section Register

variable {ip : String} {json : Js} {body : Body}

lemma enter_obeys (hbody : readBody site json = .ok body) (hproved : Proved site body h) :
    Obeys ((registering site cap).ending (RegisterEnds site json)) i h
      (enter site body cap).run := by
  unfold enter
  refine obeys_send trivial fun now _ => ?_
  have hproved₁ := hproved.mono (List.subset_append_left h [⟨Cmd.now, now⟩])
  refine Thrower.obeys_bind obeys_confirmEntry (fun h₂ entered hentered => ?_)
    fun h₂ e _ => registerEnds_of_ne fun handle => nofun
  obtain ⟨hgrow₂, hplaced⟩ := hentered
  cases entered with
  | error text => exact registerEnds_of_ne fun handle => by simp
  | ok record =>
    have hplaced₂ := hplaced record rfl
    refine Thrower.obeys_bind (obeys_invite hplaced₂) (fun h₃ _ hgrow₃ => ?_)
      fun h₃ e _ => registerEnds_of_ne fun handle => nofun
    exact registerEnds_of_proved hbody (hproved₁.mono (List.Subset.trans hgrow₂ hgrow₃))
      (placed_of_subset hplaced₂ (entryHeard_subset hgrow₃))

lemma proveWallet_obeys (hbody : readBody site json = .ok body) :
    Obeys ((registering site cap).ending (RegisterEnds site json)) i h
      (proveWallet site body cap).run := by
  unfold proveWallet
  refine obeys_send trivial fun challenge _ => ?_
  cases hchallenge : challenge.filter (· ≠ "") with
  | none => exact registerEnds_of_ne fun handle => by simp
  | some challenge' =>
    obtain ⟨rfl, -⟩ := Option.filter_eq_some_iff.mp hchallenge
    refine Thrower.obeys_bind obeys_walletPasskeys (fun h₂ passkeys hpasskeys => ?_)
      fun h₂ e _ => registerEnds_of_ne fun handle => nofun
    obtain ⟨hgrow, hlisted⟩ := hpasskeys
    cases hverify : Passkey.verifyAssertion site.platform passkeys body.assertion challenge' with
    | error thrown => exact registerEnds_of_ne fun handle => nofun
    | ok problem =>
      cases problem with
      | some problem => exact registerEnds_of_ne fun handle => by simp
      | none =>
        obtain ⟨key, hkey, hsigns⟩ := Passkey.signs_of_verifyAssertion hverify
        refine enter_obeys hbody ⟨challenge', key, hgrow (by simp), ?_, hsigns⟩
        exact hlisted passkeys rfl key hkey

lemma checkFull_obeys (hbody : readBody site json = .ok body) :
    Obeys ((registering site cap).ending (RegisterEnds site json)) i h
      (checkFull site body cap).run := by
  unfold checkFull
  cases cap with
  | none => exact proveWallet_obeys hbody
  | some places =>
    refine obeys_send trivial fun entrants _ => ?_
    split_ifs
    · exact registerEnds_of_ne fun handle => by simp
    · exact proveWallet_obeys hbody

lemma registerPOST_obeys :
    Obeys ((registering site cap).ending (RegisterEnds site json)) i h
      (registerPOST site ip json).run := by
  unfold registerPOST
  have hlimited : Obeys ((registering site cap).ending fun _ _ => True) i h
      (limited site ip).run := obeys_free sends_limited fun _ _ _ => trivial
  refine Thrower.obeys_bind hlimited (fun h₁ refusal _ => ?_)
    fun h₁ e _ => registerEnds_of_ne fun handle => nofun
  cases refusal with
  | some refusal => exact registerEnds_of_ne fun handle => by simp
  | none =>
    cases hbody : readBody site json with
    | error issue => exact registerEnds_of_ne fun handle => by simp
    | ok body =>
      dsimp only
      split_ifs
      · exact registerEnds_of_ne fun handle => by simp
      · exact registerEnds_of_ne fun handle => by simp
      · refine obeys_send (fun _ => trivial) fun config hconfig => ?_
        cases config with
        | none => exact registerEnds_of_ne fun handle => by simp
        | some config =>
          obtain rfl : maxEntrantsOf (some config) = cap := hconfig
          exact checkFull_obeys hbody

end Register

lemma sends_walletPasskeys {wallet : String} :
    Sends (fun c => ∀ r, c ≠ Cmd.entry r) (walletPasskeys site wallet).run :=
  sends_embed (fun _ _ => Cmd.noConfusion) _

lemma sends_challengePOST {ip wallet : String} :
    Sends (fun c => ∀ r, c ≠ Cmd.entry r) (challengePOST site ip wallet).run := by
  unfold challengePOST
  refine Thrower.sends_bind sends_limited fun refusal => ?_
  cases refusal with
  | some refusal => exact trivial
  | none =>
    dsimp only
    split_ifs
    · exact trivial
    · exact trivial
    · refine Thrower.sends_bind (Thrower.sends_tryCatch sends_walletPasskeys fun e => trivial)
        fun passkeys => ?_
      unfold issueChallenge
      split_ifs
      · exact trivial
      · refine Thrower.sends_bind (Thrower.sends_ask fun r => Cmd.noConfusion) fun challenge => ?_
        exact Thrower.sends_bind (Thrower.sends_ask fun r => Cmd.noConfusion) fun _ => trivial

/-- **Every request keeps the discipline.** -/
lemma serve_obeys (i : Request) : (serve site i).run.Obeys (registering site cap) i [] := by
  have hfull : ∀ {x : Route Response}, Obeys ((registering site cap).ending
      ((registering site cap).ends i)) i [] x.run → x.run.Obeys (registering site cap) i [] :=
    fun hx => hx.imp (fun _ _ hmay => hmay) (fun _ _ hends => hends) fun _ _ hcan => hcan
  apply hfull
  cases i with
  | challenge ip wallet => exact obeys_free sends_challengePOST fun _ _ _ => trivial
  | register ip json => exact registerPOST_obeys
  | link now token =>
    refine Thrower.obeys_bind (obeys_entryPart (Competition.GET_obeys now token))
      (fun h page _ => trivial) fun h e _ => trivial
  | wait seconds => exact obeys_send trivial fun _ _ => trivial

/-! ## Challenges -/

/-- The challenge that a reply says was issued, with its wallet. -/
def issuedBy : ((c : Cmd) × c.Reply) → Option (String × String)
  | ⟨.setChallenge wallet challenge, _⟩ => some (wallet, challenge)
  | _ => none

/-- The challenge that a reply hands out for good. -/
def usedBy : ((c : Cmd) × c.Reply) → Option (String × String)
  | ⟨.getdelChallenge wallet, some challenge⟩ => some (wallet, challenge)
  | _ => none

section Store

variable {W : Type} {answer : (c : Cmd) → W → c.Reply × W}

lemma openChallenge_set (w t : String) (s : Store W) (wallet : String) :
    ((Cmd.setChallenge w t).exec answer s).2.openChallenge wallet =
      if wallet = w then some t else s.openChallenge wallet := by
  unfold Store.openChallenge
  show (Function.update s.challenge w (some (t, s.clock + 300)) wallet).bind _ = _
  split_ifs with heq
  · rw [heq, Function.update_self]
    exact if_pos (by show s.clock < s.clock + 300; omega)
  · rw [Function.update_of_ne heq]
    rfl

lemma openChallenge_getdel (w : String) (s : Store W) (wallet : String) :
    ((Cmd.getdelChallenge w).exec answer s).2.openChallenge wallet =
      if wallet = w then none else s.openChallenge wallet := by
  unfold Store.openChallenge
  show (Function.update s.challenge w none wallet).bind _ = _
  split_ifs with heq
  · rw [heq, Function.update_self]
    rfl
  · rw [Function.update_of_ne heq]
    rfl

/-- Time opens no challenge. -/
lemma openChallenge_wait {seconds : ℕ} {s : Store W} {wallet challenge : String}
    (h : ((Cmd.wait seconds).exec answer s).2.openChallenge wallet = some challenge) :
    s.openChallenge wallet = some challenge := by
  obtain ⟨stored, hstored, hopen⟩ := Option.bind_eq_some_iff.mp h
  change s.challenge wallet = some stored at hstored
  change (if s.clock + seconds < stored.2 then some stored.1 else none) = some challenge at hopen
  split_ifs at hopen with hlt
  refine Option.bind_eq_some_iff.mpr ⟨stored, hstored, ?_⟩
  rw [if_pos (show s.clock < stored.2 by omega)]
  exact hopen

lemma eq_of_usedBy {m : (c : Cmd) × c.Reply} {wallet challenge : String}
    (h : usedBy m = some (wallet, challenge)) : m = ⟨.getdelChallenge wallet, some challenge⟩ := by
  unfold usedBy at h
  split at h
  · obtain ⟨rfl, rfl⟩ := Prod.mk.inj (Option.some.inj h)
    rfl
  · cases h

/-- **Challenges work once.** -/
def challenges (answer : (c : Cmd) → W → c.Reply × W) : Tokens (Cmd.exec answer) String String where
  slot := Store.openChallenge
  put := issuedBy
  take := usedBy
  slot_of_take c s wallet challenge h := by
    obtain ⟨rfl, hreply⟩ := Sigma.mk.inj (eq_of_usedBy h)
    exact eq_of_heq hreply
  of_slot c s wallet challenge h := by
    cases c with
    | setChallenge w t =>
      rw [openChallenge_set] at h
      split_ifs at h with heq
      · left
        rw [heq, ← Option.some.inj h]
        rfl
      · exact .inr ⟨h, nofun⟩
    | getdelChallenge w =>
      rw [openChallenge_getdel] at h
      split_ifs at h with heq
      refine .inr ⟨h, fun htake => heq ?_⟩
      exact (Cmd.getdelChallenge.inj (Sigma.mk.inj (eq_of_usedBy htake)).1).symm
    | wait seconds => exact .inr ⟨openChallenge_wait h, nofun⟩
    | _ => exact .inr ⟨h, nofun⟩
  take_of_put m h := by
    obtain ⟨c, r⟩ := m
    cases c <;> first | rfl | cases h

end Store

/-! ## The invariant -/

section Pool

variable {W : Type} {answer : (c : Cmd) → W → c.Reply × W} {w : Requests W} {n : ℕ}
  {p : Proc Request Cmd.Reply (Except String Response)}

/-- What holds of the store and of what the requests have heard. -/
structure Safe (answer : (c : Cmd) → W → c.Reply × W) (cap : Option ℤ) (w : Requests W) : Prop where
  config : maxEntrantsOf w.store.entries.config = cap
  card : ∀ max, cap = some max → (w.store.entries.entrants.card : ℤ) ≤ max
  verified : ∀ wallet rec, w.store.entries.entrant wallet = some rec → rec.verified = true →
    wallet ∈ w.store.entries.entrants
  placed : ∀ (n : ℕ) (p : Proc Request Cmd.Reply (Except String Response)) (wallet : String),
    w.procs[n]? = some p → Placed (entryHeard p.heard) wallet → wallet ∈ w.store.entries.entrants
  balanced : (challenges answer).Balanced w

lemma Safe.start (hw : Safe answer cap w) (i : Request) :
    Safe answer cap (w.step (fun i => (serve site i).run) (Cmd.exec answer) (.start i)) := by
  refine ⟨hw.config, hw.card, hw.verified, ?_, hw.balanced.start _ i⟩
  intro n p wallet hp hpl
  rcases Pool.getElem?_start _ _ hp with hold | rfl
  · exact hw.placed n p wallet hold hpl
  · rcases hpl with ⟨max, hmem⟩ | ⟨rec, -, hmem⟩
    · cases hmem
    · cases hmem

lemma Safe.choose (hw : Safe answer cap w) (left : Prog Cmd.Reply (Except String Response))
    (hp : w.procs[n]? = some p) :
    Safe answer cap (w.replace n ⟨p.arg, p.heard, left⟩ w.store) := by
  refine ⟨hw.config, hw.card, hw.verified, ?_, hw.balanced.choose left hp⟩
  intro m q wallet hq hpl
  rcases Pool.getElem?_replace hq with ⟨-, rfl⟩ | ⟨-, hold⟩
  · exact hw.placed n p wallet hp hpl
  · exact hw.placed m q wallet hold hpl

/-- Other commands leave the entries. -/
lemma entries_exec {c : Cmd} {s : Store W} (hc : ∀ c', c ≠ .entry c') :
    (c.exec answer s).2.entries = s.entries := by
  cases c with
  | entry c => exact absurd rfl (hc c)
  | _ => rfl

lemma entryHeard_concat {c : Cmd} (hc : ∀ c', c ≠ .entry c') (h : Heard Cmd.Reply) (r : c.Reply) :
    entryHeard (h ++ [⟨c, r⟩]) = entryHeard h := by
  rw [entryHeard_append]
  cases c with
  | entry c => exact absurd rfl (hc c)
  | _ => exact List.append_nil _

/-- **A permitted call of an entry** keeps the invariant. -/
lemma Safe.entry (hw : Safe answer cap w) (hp : w.procs[n]? = some p) {c : Competition.Cmd}
    {left : Prog Cmd.Reply (Except String Response)}
    (hmay : (registering site cap).may p.arg p.heard (.entry c)) :
    Safe answer cap (w.replace n
      ⟨p.arg, p.heard ++ [⟨.entry c, ((Cmd.entry c).exec answer w.store).1⟩], left⟩
      ((Cmd.entry c).exec answer w.store).2) := by
  have hgrow := Competition.entrants_subset_exec c w.store.entries
  have hmine : ∀ wallet, Placed (entryHeard p.heard) wallet →
      wallet ∈ w.store.entries.entrants := fun wallet => hw.placed n p wallet hp
  have hplacing := hmay (.link 0 "")
  refine ⟨?_, ?_, ?_, ?_, hw.balanced.call hp (.entry c) left⟩
  · exact (congrArg maxEntrantsOf (Competition.config_exec c w.store.entries)).trans hw.config
  · intro max hcap
    exact Competition.card_exec_le hplacing hmine hcap (hw.card max hcap)
  · intro wallet rec hrec hv
    rcases Competition.entrant_exec hrec with hold | rfl
    · exact hgrow (hw.verified wallet rec hold hv)
    · exact hgrow (hmine wallet hplacing)
  · intro m q wallet hq hpl
    rcases Pool.getElem?_replace hq with ⟨-, rfl⟩ | ⟨-, hold⟩
    · rw [entryHeard_append] at hpl
      rcases Competition.placed_concat hpl with hpl | hpl
      · exact hgrow (hmine wallet hpl)
      · exact Competition.mem_of_placed_exec hw.verified hpl
    · exact hgrow (hw.placed m q wallet hold hpl)

/-- Any other command keeps it too. -/
lemma Safe.other (hw : Safe answer cap w) (hp : w.procs[n]? = some p) {c : Cmd}
    {left : Prog Cmd.Reply (Except String Response)} (hc : ∀ c', c ≠ .entry c') :
    Safe answer cap (w.replace n ⟨p.arg, p.heard ++ [⟨c, (c.exec answer w.store).1⟩], left⟩
      (c.exec answer w.store).2) := by
  have hentries : (c.exec answer w.store).2.entries = w.store.entries := entries_exec hc
  refine ⟨?_, ?_, ?_, ?_, hw.balanced.call hp c left⟩
  · rw [Pool.replace, hentries]
    exact hw.config
  · rw [Pool.replace, hentries]
    exact hw.card
  · rw [Pool.replace, hentries]
    exact hw.verified
  · intro m q wallet hq hpl
    rw [Pool.replace, hentries]
    rcases Pool.getElem?_replace hq with ⟨-, rfl⟩ | ⟨-, hold⟩
    · rw [entryHeard_concat hc] at hpl
      exact hw.placed n p wallet hp hpl
    · exact hw.placed m q wallet hold hpl

/-- **A permitted command keeps the invariant**, and answers what the discipline counts on. -/
lemma Safe.call (hw : Safe answer cap w) (hp : w.procs[n]? = some p) {c : Cmd}
    {left : Prog Cmd.Reply (Except String Response)}
    (hmay : (registering site cap).may p.arg p.heard c) :
    (registering site cap).can c (c.exec answer w.store).1 ∧
      Safe answer cap (w.replace n ⟨p.arg, p.heard ++ [⟨c, (c.exec answer w.store).1⟩], left⟩
        (c.exec answer w.store).2) := by
  cases c with
  | entry c =>
    refine ⟨?_, hw.entry hp hmay⟩
    cases c with
    | getConfig => exact hw.config
    | _ => exact trivial
  | _ => exact ⟨trivial, hw.other hp (by simp)⟩

end Pool

/-! ## Confirmed entries -/

/-- The challenge that an assertion signs. -/
def signedChallenge (P : Passkey.Platform) (a : Passkey.Assertion) : Option String :=
  match (Passkey.client? P a).bind (Js.prop? "challenge") with
  | some (.string challenge) => some challenge
  | _ => none

lemma signedChallenge_eq {P : Passkey.Platform} {key : WalletPasskey} {a : Passkey.Assertion}
    {challenge : String} (h : Signs P key a challenge) : signedChallenge P a = some challenge := by
  obtain ⟨client, hclient, -, hchallenge, -⟩ := h.client
  rw [signedChallenge, hclient, Option.bind_some, hchallenge]

/-- The challenge that a request signs whose entry was confirmed, with the wallet. -/
def confirmedBy (site : Site) (p : Proc Request Cmd.Reply (Except String Response)) :
    Option (String × String) :=
  match p.arg, p.left with
  | .register _ json, .done (.ok (.registered _)) =>
    match readBody site json with
    | .ok body => (signedChallenge site.platform body.assertion).map fun c => (body.wallet, c)
    | .error _ => none
  | _, _ => none

/-- The wallets of the confirmed entries, each with the challenge that was signed. -/
def confirmed {W : Type} (site : Site) (w : Requests W) : List (String × String) :=
  w.procs.filterMap (confirmedBy site)

/-- A confirmed entry has used the challenge that it signs. -/
lemma mem_of_confirmedBy {p : Proc Request Cmd.Reply (Except String Response)}
    (hobeys : p.left.Obeys (registering site cap) p.arg p.heard) {x : String × String}
    (hx : confirmedBy site p = some x) : x ∈ p.heard.filterMap usedBy := by
  unfold confirmedBy at hx
  split at hx
  · next ip json handle harg hleft =>
    rw [harg, hleft] at hobeys
    obtain ⟨body, hbody, -, ⟨challenge, key, hused, -, hsigns⟩, -⟩ := hobeys handle rfl
    rw [hbody] at hx
    dsimp only at hx
    rw [signedChallenge_eq hsigns] at hx
    obtain rfl := Option.some.inj hx
    exact List.mem_filterMap.mpr ⟨_, hused, rfl⟩
  · cases hx

/-- **Every entry is signed.** However challenges, registrations and confirmation links interleave and
whatever the world answers, the entrants stay within the cap; a registration that ends well has used a
challenge of its wallet, which a passkey that the wallet's rules list has signed, and its wallet is among
the entrants; and the challenges that confirmed entries sign were issued for their wallets, each at least
as often as it was signed.

**Proof sketch.** A registration goes on only with what it has heard (`serve_obeys`), so that its last
answer tells what it used. A challenge is handed out at most as often as it was issued, because using it
takes it away (`challenges`), and places are given as for entries alone (`Safe`). -/
theorem every_entry_is_signed {W : Type} (answer : (c : Cmd) → W → c.Reply × W) (site : Site)
    (cap : Option ℤ) (s : Store W) (hconfig : maxEntrantsOf s.entries.config = cap)
    (hcard : ∀ max, cap = some max → (s.entries.entrants.card : ℤ) ≤ max)
    (hverified : ∀ wallet rec, s.entries.entrant wallet = some rec → rec.verified = true →
      wallet ∈ s.entries.entrants)
    (hnone : ∀ wallet, s.challenge wallet = none) (acts : List (Act Request)) :
    let w : Requests W := Pool.run (fun i => (serve site i).run) (Cmd.exec answer) ⟨s, []⟩ acts
    (∀ max, cap = some max → (w.store.entries.entrants.card : ℤ) ≤ max) ∧
    (∀ p ∈ w.procs, ∀ ip json handle, p.arg = .register ip json →
      p.left = .done (.ok (.registered handle)) → ∃ body, readBody site json = .ok body ∧
        body.handle = handle ∧ body.wallet ∈ w.store.entries.entrants ∧
        ∃ challenge key, ⟨.getdelChallenge body.wallet, some challenge⟩ ∈ p.heard ∧
          Listed site.platform (ruleHeard p.heard) body.wallet key ∧
          Signs site.platform key body.assertion challenge) ∧
    (confirmed site w).Subperm (w.collect issuedBy) := by
  intro w
  have hbalanced : (challenges answer).Balanced (⟨s, []⟩ : Requests W) := by
    intro x
    have hopen : s.openChallenge x.1 = none := by
      rw [Store.openChallenge, hnone]
      rfl
    show 0 + (challenges answer).live s x ≤ 0
    rw [Tokens.live]
    show 0 + (if s.openChallenge x.1 = some x.2 then 1 else 0) ≤ 0
    rw [hopen, if_neg (Option.some_ne_none _).symm]
  have hinit : Safe answer cap (⟨s, []⟩ : Requests W) :=
    ⟨hconfig, hcard, hverified, by simp, hbalanced⟩
  obtain ⟨hw, hdone⟩ := Pool.run_invariant (d := registering site cap)
    (fun i => (serve site i).run) (Cmd.exec answer) serve_obeys (I := Safe answer cap)
    (P := fun _ _ => True) (fun w i hw => hw.start i) (fun w n p left hw hp _ => hw.choose left hp)
    (fun w n second p c next hw hp _ _ hmay => hw.call hp hmay) hinit (fun n p hp => by cases hp)
    (Pool.along_of_forall _ _ (fun _ _ => trivial) _ acts)
  refine ⟨hw.card, ?_, ?_⟩
  · intro p hp ip json handle harg hleft
    obtain ⟨n, hn⟩ := List.getElem?_of_mem hp
    have hends := hdone n p hn
    rw [hleft, harg] at hends
    obtain ⟨body, hbody, hhandle, hproved, hplaced⟩ := hends handle rfl
    exact ⟨body, hbody, hhandle, hw.placed n p body.wallet hn hplaced, hproved⟩
  · refine List.Subperm.trans ?_ hw.balanced.subperm
    refine Pool.subperm_collect fun p hp x hx => ?_
    obtain ⟨n, hn⟩ := List.getElem?_of_mem hp
    exact mem_of_confirmedBy (hdone n p hn) hx

/-! ## A registration -/

def sampleWallet : String := "CAAAAAAAAAAAAAAAAAAAAAAAAAAAAAAAAAAAAAAAAAAAAAAAAAAAABSC"

def sampleChallenge : String := "AAECAwQFBgcICQoLDA0ODxAREhMUFRYXGBkaGxwdHh8"

/-- Signed by a P-256 key, at app.koul.me, with the person present. -/
def sampleAssertion : Passkey.Assertion where
  credentialId := "AQID"
  authenticatorData := "zoPpMkDXD2VcIBGJrrMGWeAzjItFJqKpCxXCD731K6IFAAAAAA"
  clientDataJSON :=
    "eyJ0eXBlIjoid2ViYXV0aG4uZ2V0IiwiY2hhbGxlbmdlIjoiQUFFQ0F3UUZCZ2NJQ1FvTERBME9EeEFSRWhNVUZSWVh" ++
    "HQmthR3h3ZEhoOCIsIm9yaWdpbiI6Imh0dHBzOi8vYXBwLmtvdWwubWUifQ"
  signature :=
    "MEUCIQDRjEPDfjA9LCk8KnZ1UrJz6-iE7-b1F5NAnZstFvaJnQIgcNOIWz3RX4HRObp2lMTy_1tjABO-B6zH7NXseBrSXfs"

/-! The bytes of its texts, and the hashes of two of them. -/

def sampleSiteHash : Passkey.Buffer :=
  Der.fixed 32 0xce83e93240d70f655c201189aeb30659e0338c8b4526a2a90b15c20fbdf52ba2

def sampleAuth : Passkey.Buffer := sampleSiteHash ++ [5, 0, 0, 0, 0]

def sampleClient : Passkey.Buffer := Utf8.encode
  ("\x7b\"type\":\"webauthn.get\",\"challenge\":\"AAECAwQFBgcICQoLDA0ODxAREhMUFRYXGBkaGxwdHh8\"," ++
    "\"origin\":\"https://app.koul.me\"\x7d").toList

def sampleClientHash : Passkey.Buffer :=
  Der.fixed 32 0xa0ac89e5d07c450e65d87e3692ffd9bb507d2391ee37c67f7e7601c8d550f038

/-- The two numbers of the signature. -/
def sampleR : ℕ := 0xd18c43c37e303d2c293c2a767552b273ebe884efe6f51793409d9b2d16f6899d

def sampleS : ℕ := 0x70d3885b3dd15f81d139ba7694c4f2ff5b630013be07acc7ecd5ec781ad25dfb

def samplePublicKey : Passkey.Buffer :=
  0x04 :: (Der.fixed 32 0x4ee2a18195085cbe7eefad538c21dba5cbeda7f815197b605ae357fb2d6ef7f7 ++
    Der.fixed 32 0x77917ea0c482ea841ff46a58362c852b328b4611b2fbe4e4f39d050f1a3ec553)

def samplePlatform : Passkey.Platform where
  numerals := JsonText.wholeNumerals
  b64url text :=
    if text = "AQID" then [1, 2, 3]
    else if text = sampleAssertion.authenticatorData then sampleAuth
    else if text = sampleAssertion.clientDataJSON then sampleClient
    else if text = sampleAssertion.signature then Der.signature sampleR sampleS
    else []
  toB64url buffer := if buffer = [1, 2, 3] then "AQID" else ""
  sha256 buffer :=
    if buffer = Utf8.encode "koul.me".toList then sampleSiteHash
    else if buffer = sampleClient then sampleClientHash
    else []
  hostname origin :=
    if origin = "https://app.koul.me".toList then some "app.koul.me".toList else none
  isKey publicKey := publicKey = samplePublicKey
  verify publicKey raw signed := publicKey = samplePublicKey ∧
    raw = Der.fixed 32 sampleR ++ Der.fixed 32 sampleS ∧ signed = sampleAuth ++ sampleClientHash
  WEBAUTHN_VERIFIER := "CC7EKIHQP3TN4CARQDND6CEOY2UXLWWC2X5GHTD5NLAT7BG5GPZIOM3F"
  production := true

def sampleSite : Site := ⟨Competition.exampleTexts, samplePlatform, fun _ => true, true⟩

/-- The wallet has one rule, which lists the key; the limiter has room. -/
def sampleAnswer : (c : Cmd) → Unit → c.Reply × Unit
  | .simulation (.rulesCount _), u => (.ok (some 1), u)
  | .simulation (.rule _ _), u =>
    (.ok [.external samplePlatform.WEBAUTHN_VERIFIER (samplePublicKey ++ [1, 2, 3])], u)
  | .limiter (.limit _ _ _), u => (.ok (true, 0), u)
  | .limiter .now, u => (0, u)
  | .randomChallenge, u => (sampleChallenge, u)
  | .now, u => (⟨7, Nat.succ_pos 6⟩, u)
  | .entry c, u => ((c.exec Competition.onePlaceLeft).1, u)
  | .scard, u => (0, u)
  | .getdelChallenge _, u => (none, u)
  | .setChallenge _ _, u | .incrReferrals _, u | .wait _, u => ((), u)

def sampleStore : Store Unit := ⟨Competition.onePlaceLeft, fun _ => none, fun _ => 0, 0, ()⟩

def sampleForm : Js := .object [("wallet", .string sampleWallet), ("handle", .string "trader3"),
  ("email", .string "t3@example.com"), ("acceptedTerms", .bool true),
  ("assertion", .object [("credentialId", .string sampleAssertion.credentialId),
    ("authenticatorData", .string sampleAssertion.authenticatorData),
    ("clientDataJSON", .string sampleAssertion.clientDataJSON),
    ("signature", .string sampleAssertion.signature)])]

/-- The same form is sent twice while a place is left, and the first to use the challenge gets it. -/
def sampleActs : List (Act Request) :=
  [.start (.challenge "1.2.3.4" sampleWallet)] ++ List.replicate 6 (.move 0 false) ++
    [.start (.register "1.2.3.4" sampleForm), .start (.register "1.2.3.4" sampleForm)] ++
    List.replicate 4 (.move 2 false) ++ List.replicate 13 (.move 1 false) ++ [.move 2 false]

/-- What the requests of the sample answer. -/
def sampleAnswers (w : Requests Unit) : List (Option Response) :=
  w.procs.map fun p =>
    match p.left with
    | .done (.ok response) => some response
    | _ => none

theorem every_entry_is_signed_sample :
    let w := Pool.run (fun i => (serve sampleSite i).run) (Cmd.exec sampleAnswer)
      ⟨sampleStore, []⟩ sampleActs
    sampleAnswers w = [some (.challenge sampleChallenge ["AQID"]), some (.registered "trader3"),
        some (.error 400 "The challenge expired; try again")] ∧
      confirmed sampleSite w = [(sampleWallet, sampleChallenge)] ∧
      (confirmed sampleSite w).Subperm (w.collect issuedBy) := by
  intro w
  have hverified : ∀ wallet rec, sampleStore.entries.entrant wallet = some rec →
      rec.verified = true → wallet ∈ sampleStore.entries.entrants := by
    intro wallet rec hrec hv
    change (if wallet = "CAAA1" then _ else _) = some rec at hrec
    by_cases h1 : wallet = "CAAA1"
    · subst h1
      decide
    · simp only [if_neg h1] at hrec
      split_ifs at hrec
      obtain rfl := Option.some.inj hrec
      cases hv
  have hrun : sampleAnswers w = [some (.challenge sampleChallenge ["AQID"]),
      some (.registered "trader3"), some (.error 400 "The challenge expired; try again")] ∧
      confirmed sampleSite w = [(sampleWallet, sampleChallenge)] := by decide +kernel
  refine ⟨hrun.1, hrun.2, ?_⟩
  exact (every_entry_is_signed sampleAnswer sampleSite (some 2) sampleStore (by decide +kernel)
    (fun max hmax => by cases hmax; decide) hverified (fun _ => rfl) sampleActs).2.2

end Koul.Register
