import Koul.Web.Invite

set_option relaxedAutoImplicit false
set_option autoImplicit false

/-!
# Through the gate

What the gate and the proxy answer, whatever the store does: whom they admit, and that who is admitted
gets the page that was asked for with the next request.

## Main definitions

* `Koul.Invite.Page.shows` — an app page is shown.

## Main results

* `Koul.Invite.opens`, `Koul.Invite.admits` — when the gate opens, and when it admits.
* `Koul.Invite.admitted_then_opened` — who is admitted gets the page next, the rest of the query kept.
-/

namespace Koul.Invite

open AppHost (Route routeFor underApp)
open Interleaving Interleaving.Prog
open Url (Text IsQuery)

variable {env : Env} {cfg : Config}

/-- An app page is shown. -/
def Page.shows (path : Text) : Page → Bool
  | .rewrite _ => true
  | .next => (underApp path).isSome
  | _ => false

/-- The query decides neither whether a page is redirected nor whether it is the app's. -/
lemma route_cases (host path search search' : Text) :
    (∃ target target' status, routeFor host path search = .redirect target status ∧
      routeFor host path search' = .redirect target' status) ∨
    ((∀ target status, routeFor host path search' ≠ .redirect target status) ∧
      rendersApp (routeFor host path search) path = rendersApp (routeFor host path search') path) := by
  unfold routeFor
  dsimp only
  by_cases hhost : AppHost.isAppHost (AppHost.hostName host) = true
  · rw [if_pos hhost, if_pos hhost]
    cases underApp path with
    | some stripped => exact .inl ⟨_, _, _, rfl, rfl⟩
    | none =>
      dsimp only
      by_cases hpage : (decide (path = "/".toList) || AppHost.isAppPage path) = true
      · rw [if_pos hpage, if_pos hpage]
        exact .inr ⟨fun _ _ => Route.noConfusion, rfl⟩
      · rw [if_neg hpage, if_neg hpage]
        exact .inr ⟨fun _ _ => Route.noConfusion, rfl⟩
  · rw [if_neg hhost, if_neg hhost]
    cases (underApp path).or (if AppHost.isAppPage path then some path else none) with
    | none => exact .inr ⟨fun _ _ => Route.noConfusion, rfl⟩
    | some appPath =>
      dsimp only
      by_cases hlanding : AppHost.LANDING_HOSTS.contains (AppHost.hostName host) = true
      · rw [if_pos hlanding, if_pos hlanding]
        exact .inl ⟨_, _, _, rfl, rfl⟩
      · rw [if_neg hlanding, if_neg hlanding]
        by_cases hpage : AppHost.isAppPage path = true
        · rw [if_pos hpage, if_pos hpage]
          exact .inl ⟨_, _, _, rfl, rfl⟩
        · rw [if_neg hpage, if_neg hpage]
          exact .inr ⟨fun _ _ => Route.noConfusion, rfl⟩

/-- Where a page that is not redirected goes. -/
lemma proxy_of_route {host path search : Text} {cookie : Option Text}
    (hroute : ∀ target status, routeFor host path search ≠ .redirect target status) :
    proxy env cfg host path search cookie =
      if rendersApp (routeFor host path search) path then do
        let gate ← gateFor env cfg path search cookie
        return .ofGate (routeFor host path search) gate
      else pure (.ofRoute (routeFor host path search)) := by
  unfold proxy
  cases hr : routeFor host path search with
  | redirect target status => exact absurd hr (hroute target status)
  | rewrite target => rfl
  | next => rfl

/-- What the proxy answers: the redirect, or the page where the gate opens it, or one that is not the
app's. -/
lemma proxy_returns {host path search : Text} {cookie : Option Text} {h : Heard Cmd.Reply} {page : Page}
    (hret : Returns (proxy env cfg host path search cookie) h page) :
    (∃ target status, page = .redirect target status) ∨
    ((∀ target status, routeFor host path search ≠ .redirect target status) ∧
      if rendersApp (routeFor host path search) path then
        ∃ gate, Returns (gateFor env cfg path search cookie) h gate ∧
          page = .ofGate (routeFor host path search) gate
      else page = .ofRoute (routeFor host path search)) := by
  by_cases hroute : ∀ target status, routeFor host path search ≠ .redirect target status
  · refine .inr ⟨hroute, ?_⟩
    rw [proxy_of_route hroute] at hret
    split_ifs at hret ⊢ with happ
    · obtain ⟨h₁, gate, h₂, rfl, hgate, rfl, rfl⟩ := returns_bind.mp hret
      rw [List.append_nil]
      exact ⟨gate, hgate, rfl⟩
    · exact hret.2.symm
  · push Not at hroute
    obtain ⟨target, status, hr⟩ := hroute
    unfold proxy at hret
    rw [hr] at hret
    exact .inl ⟨target, status, hret.2.symm⟩

/-- A page that is not redirected is shown as the app's exactly when it is. -/
lemma shows_ofRoute {host path search : Text}
    (hroute : ∀ target status, routeFor host path search ≠ .redirect target status) :
    (Page.ofRoute (routeFor host path search)).shows path =
      rendersApp (routeFor host path search) path := by
  cases hr : routeFor host path search with
  | redirect target status => exact absurd hr (hroute target status)
  | rewrite target => rfl
  | next => rfl

lemma ofRoute_ne_admitted (route : Route) (target c : Text) : Page.ofRoute route ≠ .admitted target c := by
  cases route <;> exact Page.noConfusion

/-- A code that exists was found. -/
lemma mem_of_personalCodeExists {code : Text} {h : Heard Cmd.Reply}
    (hret : Returns (personalCodeExists cfg code) h true) : ⟨.existsKey code, .ok true⟩ ∈ h := by
  unfold personalCodeExists at hret
  split_ifs at hret
  · cases hret.2
  · obtain ⟨r, h', rfl, -, hr⟩ := hret
    cases r with
    | error e => cases hr
    | ok found =>
      cases hr
      exact List.mem_cons_self
  · cases hret.2

/-- What the gate comes to while the waitlist is on. -/
lemma gateFor_cases {path search : Text} {cookie : Option Text} {h : Heard Cmd.Reply} {gate : Gate}
    (hret : Returns (gateFor env cfg path search cookie) h gate) (hgated : cfg.gated = true) :
    (gate = .opened ∧ ∃ c, cookie = some c ∧ goodCookie env cfg c = true) ∨
      (∃ invalid, gate = .waitlist invalid) ∨
      ∃ code c, gate = .admitted (withoutInvite path search) c ∧ invited env search = some code ∧
        (code ∈ cfg.listed env ∧ c = code ∨ ∃ secret, cfg.secret? = some secret ∧
          c = signInvite env code secret ∧ ⟨.existsKey code, .ok true⟩ ∈ h) := by
  unfold gateFor at hret
  rw [if_neg (by simp [hgated])] at hret
  split_ifs at hret with hgood
  · cases cookie with
    | none => cases hgood
    | some c => exact .inl ⟨hret.2.symm, c, rfl, hgood⟩
  cases hinvited : invited env search with
  | none =>
    rw [hinvited] at hret
    exact .inr (.inl ⟨false, hret.2.symm⟩)
  | some code =>
    rw [hinvited] at hret
    dsimp only at hret
    split_ifs at hret with hlisted
    · exact .inr (.inr ⟨code, code, hret.2.symm, rfl, .inl ⟨List.contains_iff_mem.mp hlisted, rfl⟩⟩)
    · cases hsecret : cfg.secret? with
      | none =>
        rw [hsecret] at hret
        exact .inr (.inl ⟨true, hret.2.symm⟩)
      | some secret =>
        rw [hsecret] at hret
        obtain ⟨h₁, found, h₂, rfl, hfound, hret⟩ := returns_bind.mp hret
        cases found with
        | false => exact .inr (.inl ⟨true, hret.2.symm⟩)
        | true =>
          have hmem := List.mem_append_left h₂ (mem_of_personalCodeExists hfound)
          exact .inr (.inr ⟨code, _, hret.2.symm, rfl, .inr ⟨secret, rfl, rfl, hmem⟩⟩)

/-- **Opening**: while the waitlist is on, only for a good cookie. -/
lemma opens {path search : Text} {cookie : Option Text} {h : Heard Cmd.Reply}
    (hret : Returns (gateFor env cfg path search cookie) h .opened) (hgated : cfg.gated = true) :
    ∃ c, cookie = some c ∧ goodCookie env cfg c = true := by
  rcases gateFor_cases hret hgated with ⟨-, hgood⟩ | ⟨invalid, heq⟩ | ⟨code, c, heq, -⟩
  · exact hgood
  · cases heq
  · cases heq

/-- **Admitting**: the cookie is the code that was tried, of the environment, or signed. -/
lemma admits {path search : Text} {cookie : Option Text} {h : Heard Cmd.Reply} {target c : Text}
    (hret : Returns (gateFor env cfg path search cookie) h (.admitted target c)) :
    cfg.gated = true ∧ target = withoutInvite path search ∧ ∃ code, invited env search = some code ∧
      (code ∈ cfg.listed env ∧ c = code ∨ ∃ secret, cfg.secret? = some secret ∧
        c = signInvite env code secret ∧ ⟨.existsKey code, .ok true⟩ ∈ h) := by
  have hgated : cfg.gated = true := by
    by_contra hopen
    unfold gateFor at hret
    rw [if_pos (by simpa using hopen)] at hret
    cases hret.2
  rcases gateFor_cases hret hgated with ⟨heq, -⟩ | ⟨invalid, heq⟩ | ⟨code, c', heq, hcode, hc⟩
  · cases heq
  · cases heq
  · cases heq
    exact ⟨hgated, rfl, code, hcode, hc⟩

lemma ne_nil_of_invited {search code : Text} (h : invited env search = some code) : code ≠ [] := by
  have := (Option.filter_eq_some_iff.mp h).2
  simpa using this

/-- A query without a name, read again. -/
lemma ofSearch_serialize (ps : List (Text × Text)) :
    Form.ofSearch (if Form.serialize ps = [] then [] else '?' :: Form.serialize ps) = ps := by
  have hround := Form.parse_serialize ps
  split_ifs with hnil
  · rw [hnil] at hround
    exact hround
  · exact hround

/-- **Who is admitted gets in**: the page that a visit with a good code is sent to is the one it asked
for, the query without the code, and with the cookie it opens, without a call.

**Proof sketch.** A cookie of the environment is on the list, and a signed one verifies
(`verifyInvite_iff`). The parameters are read as they were written (`Form.parse_serialize`), and the
query does not decide where a page goes (`route_cases`). -/
theorem admitted_then_opened {host path search : Text} {cookie : Option Text} {h : Heard Cmd.Reply}
    {target c : Text} (hret : Returns (proxy env cfg host path search cookie) h (.admitted target c)) :
    ∃ search', target = path ++ search' ∧ IsQuery search' ∧
      Form.ofSearch search' = Form.delete "invite".toList (Form.ofSearch search) ∧
      ∃ page, proxy env cfg host path search' (some c) = .done page ∧ page.shows path = true := by
  set rest := Form.delete "invite".toList (Form.ofSearch search) with hrest
  set search' : Text := if Form.serialize rest = [] then [] else '?' :: Form.serialize rest with hs
  have hquery : IsQuery search' := by
    rw [hs]
    split_ifs
    · exact .inl rfl
    · exact .inr ⟨_, rfl⟩
  rcases proxy_returns hret with ⟨t, status, heq⟩ | ⟨hroute, hpage⟩
  · cases heq
  rcases route_cases host path search search' with ⟨t, t', status, hr, -⟩ | ⟨hroute', hsame⟩
  · exact absurd hr (hroute t status)
  split_ifs at hpage with happ
  · obtain ⟨gate, hgate, heq⟩ := hpage
    cases gate with
    | opened => exact absurd heq.symm (ofRoute_ne_admitted _ target c)
    | waitlist invalid => cases heq
    | admitted t c' =>
      cases heq
      obtain ⟨hgated, rfl, code, hcode, hc⟩ := admits hgate
      have hne := ne_nil_of_invited hcode
      have hgood : goodCookie env cfg c = true := by
        unfold goodCookie
        rcases hc with ⟨hlisted, rfl⟩ | ⟨secret, hsecret, rfl, -⟩
        · simp [hne, hlisted]
        · have hverify : verifyInvite env (signInvite env code secret) secret = true :=
            verifyInvite_iff.mpr ⟨code, hne, rfl⟩
          have hfull : signInvite env code secret ≠ [] := by
            rw [signInvite]
            exact List.append_ne_nil_of_left_ne_nil hne _
          simp [hfull, hsecret, hverify]
      have hopen : gateFor env cfg path search' (some c) = .done .opened := by
        unfold gateFor
        rw [if_neg (by simp [hgated]), if_pos (show (some c).any (goodCookie env cfg) = true from hgood)]
        rfl
      refine ⟨search', rfl, hquery, ofSearch_serialize rest, .ofRoute (routeFor host path search'), ?_, ?_⟩
      · rw [proxy_of_route hroute', ← hsame, if_pos happ, hopen]
        rfl
      · rw [shows_ofRoute hroute', ← hsame]
        exact happ
  · exact absurd hpage.symm (ofRoute_ne_admitted _ target c)

/-- A visit that tries a code of the environment, beside another parameter. -/
theorem admitted_then_opened_sample :
    ∃ search', "/?tab=a".toList = "/".toList ++ search' ∧ IsQuery search' ∧
      Form.ofSearch search' = Form.delete "invite".toList (Form.ofSearch "?tab=a&invite=Ada".toList) ∧
      ∃ page, proxy sampleEnv { sampleConfig with codes := some "ada".toList } "app.koul.me".toList
        "/".toList search' (some "ada".toList) = .done page ∧ page.shows "/".toList = true :=
  have hret : Returns (proxy sampleEnv { sampleConfig with codes := some "ada".toList }
      "app.koul.me".toList "/".toList "?tab=a&invite=Ada".toList none) []
      (.admitted "/?tab=a".toList "ada".toList) := ⟨rfl, rfl⟩
  admitted_then_opened hret

end Koul.Invite
