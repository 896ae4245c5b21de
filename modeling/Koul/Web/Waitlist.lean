import Koul.Lib.Embedded
import Koul.Web.Admitted

set_option relaxedAutoImplicit false
set_option autoImplicit false

/-!
# The requests beside each other

Any number of requests, of anyone, are served at the same time on one store, whose calls fail at any
time, having done what they were asked for or not. What a request may do by what it has heard, and what
it has heard, stay what they are whatever the others do.

## Main definitions

* `Koul.Invite.World`, `Koul.Invite.Serves` — the store and the mails sent, and what the calls do.
* `Koul.Invite.World.Bears` — what was heard is true.
* `Koul.Invite.serving` — what each request does.

## Main results

* `Koul.Invite.later_of_answers` — nothing that was stored is lost.
* `Koul.Invite.serve_obeys` — every request keeps the discipline.
-/

namespace Koul.Invite

open Interleaving Interleaving.Prog
open Url (Text)
open AppHost (Route routeFor)

variable {env : Env} {cfg : Config}

/-! ## The world -/

/-- The store, and the mails that were sent. -/
structure World where
  joined : List Text
  source : Text → Option Text
  /-- The code of an approved email. -/
  approved : Text → Option Text
  /-- The email of a code. -/
  invites : Text → Option Text
  mails : List Mail

def World.empty : World := ⟨[], fun _ => none, fun _ => none, fun _ => none, []⟩

/-- What a command does. -/
def World.after (w : World) : Cmd → World
  | .zadd email => if email ∈ w.joined then w else { w with joined := w.joined ++ [email] }
  | .hsetnxFrom email source =>
    if (w.source email).isSome then w
    else { w with source := Function.update w.source email (some source) }
  | .hsetnx email code =>
    if (w.approved email).isSome then w
    else { w with approved := Function.update w.approved email (some code) }
  | .set code email => { w with invites := Function.update w.invites code (some email) }
  | .mail m => { w with mails := w.mails ++ [m] }
  | _ => w

/-- What a command answers when it does not fail. -/
def World.says (w : World) : (c : Cmd) → c.Reply → Prop
  | .zadd email, r => r = .ok (decide (email ∉ w.joined))
  | .hsetnxFrom email _, r => r = .ok (w.source email).isNone
  | .zcard, r => r = .ok w.joined.length
  | .hget email, r => r = .ok (w.approved email)
  | .hsetnx email _, r => r = .ok (w.approved email).isNone
  | .set _ _, r => r = .ok ()
  | .existsKey code, r => r = .ok (w.invites code).isSome
  | .randomLetters, _ => True
  | .mail _, r => r = true

/-- A command fails. -/
def fails : (c : Cmd) → c.Reply → Prop
  | .zadd _, r => r.isOk = false
  | .hsetnxFrom _ _, r => r.isOk = false
  | .zcard, r => r.isOk = false
  | .hget _, r => r.isOk = false
  | .hsetnx _ _, r => r.isOk = false
  | .set _ _, r => r.isOk = false
  | .existsKey _, r => r.isOk = false
  | .randomLetters, _ => False
  | .mail _, r => r = false

/-- What a command does and answers: when it fails, it may have done what it was asked for. -/
def Answers (c : Cmd) (w : World) (r : c.Reply) (w' : World) : Prop :=
  w.says c r ∧ w' = w.after c ∨ fails c r ∧ (w' = w ∨ w' = w.after c)

def Serves {σ : Type} (view : σ → World) (exec : (c : Cmd) → σ → c.Reply × σ) : Prop :=
  ∀ c x, Answers c (view x) (exec c x).1 (view (exec c x).2)

/-- What a mail confirms: the signup of its receiver, or to the owner that of another. -/
def confirms (m : Mail) : Option (Bool × Text) :=
  if m.subject = "You're on the Koul waitlist".toList then some (false, m.receiver)
  else if "Waitlist: ".toList.isPrefixOf m.subject then some (true, m.subject.drop 10)
  else none

lemma confirms_welcome (email : Text) : confirms (welcome email) = some (false, email) := if_pos rfl

lemma confirms_notice (owner email source : Text) (count : ℕ) :
    confirms (notice env cfg owner email source count) = some (true, email) := by
  have hsubject : (notice env cfg owner email source count).subject = "Waitlist: ".toList ++ email := rfl
  have hprefix : "Waitlist: ".toList.isPrefixOf ("Waitlist: ".toList ++ email) = true :=
    List.isPrefixOf_iff_prefix.mpr (List.prefix_append _ _)
  rw [confirms, hsubject, if_neg, if_pos hprefix]
  · rfl
  · intro heq
    have hhead : some 'W' = some 'Y' := congrArg List.head? heq
    exact absurd hhead (by decide)

lemma confirms_invite (email code : Text) : confirms (invite cfg email code) = none := by
  have hsubject : (invite cfg email code).subject = "You're in: your Koul invite".toList := rfl
  rw [confirms, hsubject, if_neg (by decide +kernel), if_neg (by decide +kernel)]

/-- The world some time later. -/
structure World.Later (w w' : World) : Prop where
  joined : w.joined ⊆ w'.joined
  approved : ∀ email code, w.approved email = some code → w'.approved email = some code
  invites : ∀ code, (w.invites code).isSome → (w'.invites code).isSome
  mails : w.mails ⊆ w'.mails

lemma World.Later.refl (w : World) : w.Later w :=
  ⟨List.Subset.refl _, fun _ _ => id, fun _ => id, List.Subset.refl _⟩

lemma later_after (w : World) (c : Cmd) : w.Later (w.after c) := by
  cases c with
  | zadd email =>
    rw [World.after]
    split_ifs
    · exact .refl w
    · exact ⟨List.subset_append_left _ _, fun _ _ => id, fun _ => id, List.Subset.refl _⟩
  | hsetnxFrom email source =>
    rw [World.after]
    split_ifs
    · exact .refl w
    · exact ⟨List.Subset.refl _, fun _ _ => id, fun _ => id, List.Subset.refl _⟩
  | hsetnx email code =>
    rw [World.after]
    split_ifs with hsome
    · exact .refl w
    · refine ⟨List.Subset.refl _, fun email' code' h => ?_, fun _ => id, List.Subset.refl _⟩
      show Function.update w.approved email (some code) email' = some code'
      rw [Function.update_of_ne, h]
      rintro rfl
      rw [h] at hsome
      exact hsome rfl
  | set code email =>
    refine ⟨List.Subset.refl _, fun _ _ => id, fun code' h => ?_, List.Subset.refl _⟩
    show (Function.update w.invites code (some email) code').isSome
    by_cases hcode : code' = code
    · subst hcode
      rw [Function.update_self]
      rfl
    · rwa [Function.update_of_ne hcode]
  | mail m => exact ⟨List.Subset.refl _, fun _ _ => id, fun _ => id, List.subset_append_left _ _⟩
  | _ => exact .refl w

lemma later_of_answers {c : Cmd} {w w' : World} {r : c.Reply} (h : Answers c w r w') : w.Later w' := by
  rcases h with ⟨-, rfl⟩ | ⟨-, rfl | rfl⟩
  · exact later_after _ c
  · exact .refl _
  · exact later_after _ c

/-! ## What was heard -/

/-- What was heard is true. -/
def World.Bears (w : World) : ((c : Cmd) × c.Reply) → Prop
  | ⟨.zadd email, r⟩ => r = .ok true → email ∈ w.joined
  | ⟨.hsetnx email code, r⟩ => r = .ok true → w.approved email = some code
  | ⟨.hget email, r⟩ => ∀ code, r = .ok (some code) → w.approved email = some code
  | ⟨.set code _, r⟩ => r = .ok () → (w.invites code).isSome
  | ⟨.existsKey code, r⟩ => r = .ok true → (w.invites code).isSome
  | _ => True

lemma World.Bears.later {w w' : World} {m : (c : Cmd) × c.Reply} (h : w.Bears m) (hl : w.Later w') :
    w'.Bears m := by
  obtain ⟨c, r⟩ := m
  cases c with
  | zadd email => exact fun hr => hl.joined (h hr)
  | hsetnx email code => exact fun hr => hl.approved _ _ (h hr)
  | hget email => exact fun code hr => hl.approved _ _ (h code hr)
  | set code email => exact fun hr => hl.invites _ (h hr)
  | existsKey code => exact fun hr => hl.invites _ (h hr)
  | _ => trivial

lemma bears_of_fails {w : World} {c : Cmd} {r : c.Reply} (h : fails c r) : w.Bears ⟨c, r⟩ := by
  cases c with
  | zadd email =>
    rintro rfl
    cases h
  | hsetnx email code =>
    rintro rfl
    cases h
  | hget email =>
    rintro code rfl
    cases h
  | set code email =>
    rintro rfl
    cases h
  | existsKey code =>
    rintro rfl
    cases h
  | _ => trivial

lemma bears_of_says {w : World} {c : Cmd} {r : c.Reply} (h : w.says c r) :
    (w.after c).Bears ⟨c, r⟩ := by
  cases c with
  | zadd email =>
    intro _
    rw [World.after]
    split_ifs with hmem
    · exact hmem
    · exact List.mem_append_right _ (List.mem_singleton.mpr rfl)
  | hsetnx email code =>
    rintro rfl
    have hnone : (w.approved email).isNone = true := (Except.ok.inj h).symm
    rw [World.after, if_neg (by simpa using hnone)]
    exact Function.update_self ..
  | hget email =>
    rintro code rfl
    exact (Except.ok.inj h).symm
  | set code email =>
    intro _
    show (Function.update w.invites code (some email) code).isSome
    rw [Function.update_self]
    rfl
  | existsKey code =>
    rintro rfl
    exact (Except.ok.inj h).symm
  | _ => trivial

/-- **An answer** is true. -/
lemma bears_of_answers {c : Cmd} {w w' : World} {r : c.Reply} (h : Answers c w r w') :
    w'.Bears ⟨c, r⟩ := by
  rcases h with ⟨hsay, rfl⟩ | ⟨hfails, -⟩
  · exact bears_of_says hsay
  · exact bears_of_fails hfails

/-! ## What a request may do -/

/-- What each request does: it makes a code for the email of its link, stores the code that it made,
confirms a signup once that it has added, and answers what it has heard. -/
def serving (env : Env) (cfg : Config) : Discipline Request Cmd.Reply Answer where
  may i h c := match c with
    | .hsetnx email _ => ∃ search, i = .sendCode search ∧ signedEmail env cfg search = some email
    | .set code email => ⟨.hsetnx email code, .ok true⟩ ∈ h
    | .mail m => ∀ k, confirms m = some k →
        ⟨.zadd k.2, .ok true⟩ ∈ h ∧ ∀ m' r, ⟨.mail m', r⟩ ∈ h → confirms m' ≠ some k
    | _ => True
  ends i h a := match a with
    | .approved email code true _ => ⟨.hsetnx email code, .ok true⟩ ∈ h ∧ ⟨.set code email, .ok ()⟩ ∈ h
    | .approved email code false _ => ⟨.hget email, .ok (some code)⟩ ∈ h
    | .page page =>
      (∀ target c, page = .admitted target c → c ∈ cfg.listed env ∨ ∃ secret code,
        cfg.secret? = some secret ∧ c = signInvite env code secret ∧ ⟨.existsKey code, .ok true⟩ ∈ h) ∧
      ∀ host path search cookie, i = .visit host path search cookie → page.shows path = true →
        cfg.gated = true → ∃ c, cookie = some c ∧ goodCookie env cfg c = true
    | _ => True
  can _ _ := True

section Obeys

variable {i : Request} {h : Heard Cmd.Reply}

/-- A visit looks up a code at most. -/
lemma sends_proxy (host path search : Text) (cookie : Option Text) :
    Sends (fun c => ∃ code, c = .existsKey code) (proxy env cfg host path search cookie) := by
  have hgate : Sends (fun c => ∃ code, c = .existsKey code)
      (gateFor env cfg path search cookie) := by
    unfold gateFor
    split_ifs
    · exact trivial
    · exact trivial
    cases invited env search with
    | none => exact trivial
    | some code =>
      dsimp only
      split_ifs
      · exact trivial
      · cases cfg.secret? with
        | none => exact trivial
        | some secret =>
          refine sends_bind ?_ fun found => trivial
          unfold personalCodeExists
          split_ifs
          · exact trivial
          · exact ⟨⟨code, rfl⟩, fun r => trivial⟩
          · exact trivial
  unfold proxy
  cases routeFor host path search with
  | redirect target status => exact trivial
  | rewrite target =>
    dsimp only
    split_ifs
    · exact sends_bind hgate fun gate => trivial
    · exact trivial
  | next =>
    dsimp only
    split_ifs
    · exact sends_bind hgate fun gate => trivial
    · exact trivial

/-- A request keeps the discipline when it ends as the discipline has it. -/
lemma obeys_of_ending {p : Prog Cmd.Reply Answer}
    (hp : Obeys ((serving env cfg).ending ((serving env cfg).ends i)) i h p) :
    Obeys (serving env cfg) i h p :=
  Prog.Obeys.imp hp (fun _ _ => id) (fun _ _ => id) fun _ _ => id

lemma visit_obeys (host path search : Text) (cookie : Option Text) :
    (serve env cfg (.visit host path search cookie)).Obeys (serving env cfg)
      (.visit host path search cookie) [] := by
  have hproxy : Obeys ((serving env cfg).ending fun h page => ∃ h', h = [] ++ h' ∧
      Returns (proxy env cfg host path search cookie) h' page) (.visit host path search cookie) []
      (proxy env cfg host path search cookie) := by
    refine Sends.obeys_returns (sends_proxy host path search cookie) ?_
    rintro h _ ⟨code, rfl⟩
    exact trivial
  refine obeys_of_ending (hproxy.bind ?_)
  rintro _ page ⟨h, rfl, hret⟩
  refine ⟨?_, ?_⟩
  · rintro target c rfl
    rcases proxy_returns hret with ⟨t, status, heq⟩ | ⟨-, hpage⟩
    · cases heq
    · split_ifs at hpage
      · obtain ⟨gate, hgate, heq⟩ := hpage
        cases gate with
        | opened => exact absurd heq.symm (ofRoute_ne_admitted _ target c)
        | waitlist invalid => cases heq
        | admitted t c' =>
          cases heq
          obtain ⟨-, -, code, -, ⟨hlisted, rfl⟩ | ⟨secret, hsecret, rfl, hmem⟩⟩ := admits hgate
          · exact .inl hlisted
          · exact .inr ⟨secret, code, hsecret, rfl, hmem⟩
      · exact absurd hpage.symm (ofRoute_ne_admitted _ target c)
  · rintro _ _ _ _ ⟨⟩ hshows hgated
    rcases proxy_returns hret with ⟨t, status, rfl⟩ | ⟨hroute, hpage⟩
    · cases hshows
    · split_ifs at hpage with happ
      · obtain ⟨gate, hgate, rfl⟩ := hpage
        cases gate with
        | opened => exact opens hgate hgated
        | waitlist invalid => cases hshows
        | admitted t c' => cases hshows
      · rw [hpage, shows_ofRoute hroute] at hshows
        exact absurd hshows happ

/-- No mail was sent. -/
def Quiet (h : Heard Cmd.Reply) : Prop := ∀ m r, ⟨.mail m, r⟩ ∉ h

lemma Quiet.concat (hh : Quiet h) {c : Cmd} (hc : ∀ m, c ≠ .mail m) (r : c.Reply) :
    Quiet (h ++ [⟨c, r⟩]) := by
  intro m r' hmem
  rcases List.mem_append.mp hmem with hmem | hmem
  · exact hh m r' hmem
  · have heq := congrArg Sigma.fst (List.mem_singleton.mp hmem)
    exact hc m heq.symm

lemma obeys_sendMail {m : Mail} (hmay : (serving env cfg).may i h (.mail m)) :
    Obeys ((serving env cfg).ending fun h' _ => h' = h ∨ ∃ r, h' = h ++ [⟨.mail m, r⟩]) i h
      (sendMail cfg m) := by
  unfold sendMail
  split_ifs
  · exact ⟨hmay, fun r _ => .inr ⟨r, rfl⟩⟩
  · exact .inl rfl

/-- A mail that is the first to confirm what it does. -/
lemma may_mail {m : Mail} {k : Bool × Text} (hm : confirms m = some k)
    (hadded : ⟨.zadd k.2, .ok true⟩ ∈ h)
    (hfirst : ∀ m' r, ⟨.mail m', r⟩ ∈ h → confirms m' ≠ some k) :
    (serving env cfg).may i h (.mail m) := by
  intro k' hk'
  obtain rfl : k = k' := Option.some.inj (hm.symm.trans hk')
  exact ⟨hadded, hfirst⟩

/-- Two mails that confirm different things of a signup, one after the other. -/
lemma obeys_two {email : Text} {m m' : Mail} {b b' : Bool} (hm : confirms m = some (b, email))
    (hm' : confirms m' = some (b', email)) (hne : b ≠ b')
    (hadded : ⟨.zadd email, .ok true⟩ ∈ h) (hquiet : Quiet h) {α : Type} {f : Prog Cmd.Reply α}
    (hf : ∀ h', (h' = h ∨ ∃ r, h' = h ++ [⟨.mail m, r⟩]) → (serving env cfg).may i h' (.mail m') →
      Obeys ((serving env cfg).ending fun _ _ => True) i h' f) :
    Obeys ((serving env cfg).ending fun _ _ => True) i h (sendMail cfg m >>= fun _ => f) := by
  have hfirst : (serving env cfg).may i h (.mail m) :=
    may_mail hm hadded fun m'' r hmem => absurd hmem (hquiet m'' r)
  refine (obeys_sendMail hfirst).bind fun h' _ hh' => hf h' hh' ?_
  rcases hh' with rfl | ⟨r, rfl⟩
  · exact may_mail hm' hadded fun m'' r hmem => absurd hmem (hquiet m'' r)
  · refine may_mail hm' (List.mem_append_left _ hadded) fun m'' r' hmem => ?_
    rcases List.mem_append.mp hmem with hmem | hmem
    · exact absurd hmem (hquiet m'' r')
    · obtain rfl : m'' = m := Cmd.mail.inj (congrArg Sigma.fst (List.mem_singleton.mp hmem))
      rw [hm]
      exact fun heq => hne (Prod.mk.inj (Option.some.inj heq)).1

lemma obeys_signupMails {email source : Text} {count : ℕ} (hadded : ⟨.zadd email, .ok true⟩ ∈ h)
    (hquiet : Quiet h) : Obeys ((serving env cfg).ending fun _ _ => True) i h
      (signupMails env cfg email source count) := by
  have hmay : ∀ m k, confirms m = some (k, email) → (serving env cfg).may i h (.mail m) :=
    fun m k hm => may_mail hm hadded fun m'' r hmem => absurd hmem (hquiet m'' r)
  unfold signupMails notifyOwner
  cases cfg.notifyTo.filter (· ≠ []) with
  | none =>
    refine ⟨?_, ?_⟩
    · exact (obeys_sendMail (hmay _ _ (confirms_welcome email))).bind fun _ _ _ => trivial
    · exact (obeys_sendMail (hmay _ _ (confirms_welcome email))).bind fun _ _ _ => trivial
  | some owner =>
    have hnotice : confirms (notice env cfg owner email source count) = some (true, email) :=
      confirms_notice owner email source count
    refine ⟨?_, ?_⟩
    · refine obeys_two (confirms_welcome email) hnotice (by decide) hadded hquiet fun h' _ hmay' => ?_
      exact (obeys_sendMail hmay').bind fun _ _ _ => trivial
    · refine obeys_two hnotice (confirms_welcome email) (by decide) hadded hquiet fun h' _ hmay' => ?_
      exact (obeys_sendMail hmay').bind fun _ _ _ => trivial

open Thrower (EndsWith obeys_then obeys_ask obeys_pure obeys_throw)

/-- The two calls of a signup: a mail needs the answer of the first. -/
lemma obeys_both (email source : Text) : Obeys ((serving env cfg).ending
    (EndsWith [] fun h (r : Bool × Bool) => Quiet h ∧ (r.1 = true → ⟨.zadd email, .ok true⟩ ∈ h))) i []
    (both (ask (Cmd.zadd email)) (ask (Cmd.hsetnxFrom email source))).run := by
  have hquiet : ∀ (a : Except String Bool) (b : Except String Bool),
      Quiet [⟨.zadd email, a⟩, ⟨.hsetnxFrom email source, b⟩] ∧
        Quiet [⟨.hsetnxFrom email source, b⟩, ⟨.zadd email, a⟩] := by
    intro a b
    refine ⟨fun m r hmem => ?_, fun m r hmem => ?_⟩
    all_goals
      rcases List.mem_cons.mp hmem with heq | hmem
      · cases heq
      · cases List.mem_singleton.mp hmem
  have hadd : ∀ (a b : Except String Bool) (r : Bool × Bool),
      (do return (← a, ← b) : Except String (Bool × Bool)) = .ok r → a = .ok r.1 := by
    intro a b r hr
    cases a with
    | error e => cases hr
    | ok a =>
      cases b with
      | error e => cases hr
      | ok b =>
        cases hr
        rfl
  refine ⟨⟨trivial, fun a _ => ⟨trivial, fun b _ => ⟨List.nil_prefix, fun r hr => ?_⟩⟩⟩,
    ⟨trivial, fun b _ => ⟨trivial, fun a _ => ⟨List.nil_prefix, fun r hr => ?_⟩⟩⟩⟩
  · obtain rfl := hadd a b r hr
    refine ⟨(hquiet _ b).1, fun htrue => ?_⟩
    rw [htrue]
    exact List.mem_cons_self
  · obtain rfl := hadd a b r hr
    refine ⟨(hquiet _ b).2, fun htrue => ?_⟩
    rw [htrue]
    exact List.mem_cons_of_mem _ List.mem_cons_self

lemma obeys_joinWaitlist (email source : Text) : Obeys ((serving env cfg).ending
    (EndsWith [] fun h (r : Option (Bool × ℕ)) => Quiet h ∧ ∀ count, r = some (true, count) →
      ⟨.zadd email, .ok true⟩ ∈ h)) i [] (joinWaitlist cfg email source).run := by
  unfold joinWaitlist
  split_ifs
  · refine obeys_then (obeys_both email source) fun h added _ hadded => ?_
    refine obeys_then (obeys_ask trivial) ?_
    rintro _ count - ⟨r, rfl, -⟩
    refine obeys_pure ⟨hadded.1.concat (fun m => Cmd.noConfusion) r, ?_⟩
    rintro count' heq
    obtain ⟨htrue, -⟩ := Prod.mk.inj (Option.some.inj heq)
    exact List.mem_append_left _ (hadded.2 htrue)
  · refine obeys_pure ⟨fun m r => List.not_mem_nil, ?_⟩
    rintro count ⟨⟩

lemma signUp_obeys (raw : Text) (source company : Option Text) :
    (serve env cfg (.signUp raw source company)).Obeys (serving env cfg)
      (.signUp raw source company) [] := by
  show Obeys _ _ _ (signUp env cfg raw source company)
  unfold signUp
  cases emailOf env raw with
  | none => exact trivial
  | some email =>
    dsimp only
    split_ifs
    · exact trivial
    · exact trivial
    refine obeys_of_ending ((obeys_joinWaitlist email _).bind ?_)
    rintro h r ⟨-, hr⟩
    cases r with
    | error e => exact trivial
    | ok r =>
      cases r with
      | none => exact trivial
      | some r =>
        obtain ⟨added, count⟩ := r
        obtain ⟨hquiet, hadded⟩ := hr _ rfl
        dsimp only
        split_ifs with hsend
        · obtain ⟨rfl, -⟩ := (Bool.and_eq_true _ _).mp hsend
          exact (obeys_signupMails (hadded count rfl) hquiet).bind fun _ _ _ => trivial
        · exact trivial

/-- What an approval ends with was heard. -/
lemma obeys_approve {search email : Text} (hi : i = .sendCode search)
    (hsigned : signedEmail env cfg search = some email) : Obeys ((serving env cfg).ending
    (EndsWith [] fun h (r : Option (Text × Bool)) => ∀ code fresh, r = some (code, fresh) →
      ∀ sent, (serving env cfg).ends i h (.approved email code fresh sent))) i []
    (approve cfg email).run := by
  have hfound : ∀ {h : Heard Cmd.Reply} {code : Text}, ⟨.hget email, .ok (some code)⟩ ∈ h →
      Obeys ((serving env cfg).ending (EndsWith h fun h (r : Option (Text × Bool)) =>
        ∀ code fresh, r = some (code, fresh) → ∀ sent,
          (serving env cfg).ends i h (.approved email code fresh sent))) i h
      (pure (some (code, false)) : Run (Option (Text × Bool))).run := by
    intro h code hmem
    refine obeys_pure ?_
    rintro _ _ ⟨⟩ sent
    exact hmem
  unfold approve
  split_ifs
  · refine obeys_then (obeys_ask trivial) ?_
    rintro _ existing - ⟨r, rfl, rfl⟩
    cases hexisting : existing.filter (· ≠ []) with
    | some code =>
      have hsome := (Option.filter_eq_some_iff.mp hexisting).1
      exact hfound (List.mem_append_right _ (List.mem_singleton.mpr (by rw [hsome])))
    | none =>
      refine obeys_then (obeys_ask trivial) ?_
      rintro _ letters - ⟨r, rfl, hr⟩
      refine obeys_then (obeys_ask ⟨search, hi, hsigned⟩) ?_
      rintro _ first - ⟨r', rfl, rfl⟩
      cases first with
      | true =>
        rw [if_pos rfl]
        have hmade : ∀ h : Heard Cmd.Reply, (⟨.hsetnx email (newCode letters), .ok true⟩ :
            (c : Cmd) × c.Reply) ∈ h ++ [⟨.hsetnx email (newCode letters), .ok true⟩] :=
          fun h => List.mem_append_right _ (List.mem_singleton.mpr rfl)
        refine obeys_then (obeys_ask (hmade _)) ?_
        rintro _ _ - ⟨r'', rfl, rfl⟩
        refine obeys_pure ?_
        rintro _ _ ⟨⟩ sent
        exact ⟨List.mem_append_left _ (hmade _), List.mem_append_right _ (List.mem_singleton.mpr rfl)⟩
      | false =>
        rw [if_neg (by decide)]
        refine obeys_then (obeys_ask trivial) ?_
        rintro _ won - ⟨r'', rfl, rfl⟩
        cases won with
        | none => exact obeys_throw _
        | some code => exact hfound (List.mem_append_right _ (List.mem_singleton.mpr rfl))
  · refine obeys_pure ?_
    rintro _ _ ⟨⟩

lemma sendCode_obeys (search : Text) :
    (serve env cfg (.sendCode search)).Obeys (serving env cfg) (.sendCode search) [] := by
  show Obeys _ _ _ (sendCode env cfg search)
  unfold sendCode
  cases hsigned : signedEmail env cfg search with
  | none => exact trivial
  | some email =>
    refine obeys_of_ending ((obeys_approve rfl hsigned).bind ?_)
    rintro h r ⟨-, hr⟩
    cases r with
    | error e => exact trivial
    | ok r =>
      cases r with
      | none => exact trivial
      | some r =>
        obtain ⟨code, fresh⟩ := r
        have hmay : (serving env cfg).may (.sendCode search) h (.mail (invite cfg email code)) := by
          intro k hk
          rw [confirms_invite] at hk
          cases hk
        refine (obeys_sendMail hmay).bind fun h' sent hh' => ?_
        have hends := hr _ rfl code fresh rfl sent
        have hsub : h ⊆ h' := by
          rcases hh' with rfl | ⟨r, rfl⟩
          · exact List.Subset.refl _
          · exact List.subset_append_left _ _
        cases fresh with
        | true => exact ⟨hsub hends.1, hsub hends.2⟩
        | false => exact hsub hends

/-- **Every request keeps the discipline.** -/
theorem serve_obeys (i : Request) : (serve env cfg i).Obeys (serving env cfg) i [] := by
  cases i with
  | signUp raw source company => exact signUp_obeys raw source company
  | openLink search =>
    show (serving env cfg).ends _ _ (openLink env cfg search)
    unfold openLink
    cases signedEmail env cfg search with
    | none => exact trivial
    | some email => exact trivial
  | sendCode search => exact sendCode_obeys search
  | visit host path search cookie => exact visit_obeys host path search cookie

end Obeys

/-- A store and a mail service that never fail. -/
def sampleExec (c : Cmd) (w : World) : c.Reply × World :=
  ⟨match c with
    | .zadd email => .ok (decide (email ∉ w.joined))
    | .hsetnxFrom email _ => .ok (w.source email).isNone
    | .zcard => .ok w.joined.length
    | .hget email => .ok (w.approved email)
    | .hsetnx email _ => .ok (w.approved email).isNone
    | .set _ _ => .ok ()
    | .existsKey code => .ok (w.invites code).isSome
    | .randomLetters => Fin.castAdd 23
    | .mail _ => true, w.after c⟩

lemma sampleExec_serves : Serves id sampleExec := by
  intro c w
  refine .inl ⟨?_, rfl⟩
  cases c with
  | randomLetters => trivial
  | _ => rfl

end Koul.Invite
