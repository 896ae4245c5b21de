import Koul.Lib.Url
import Mathlib.Logic.Relation

set_option relaxedAutoImplicit false
set_option autoImplicit false

/-!
# The two hosts of the site

app.koul.me is the app and koul.me the landing. `routeFor` decides where a page request goes, and the
proxy reads the target of a redirect against the request's URL. On the app host a path loses `/app` in
front, and what is left may begin with two slashes: the parser then reads a host where there was a path.

## Main definitions

* `Koul.AppHost.routeFor` — where a page request goes.
* `Koul.AppHost.Request.follow` — the request that follows a redirect.
* `Koul.AppHost.Request.NamesKoul` — the path of a request names no other host once it has lost `/app`.

## Main results

* `Koul.AppHost.staysOnKoul_iff` — a redirect stays on Koul exactly when its path names no other host.
* `Koul.AppHost.exists_follow_none` — the redirects of every request end.
-/

namespace Koul.AppHost

open Url (Text IsQuery authority? parseAuthority pieces cleanEnd showHost isC0OrSpace)

def APP_HOST : Text := "app.koul.me".toList

lemma APP_HOST_eq : APP_HOST = ['a', 'p', 'p', '.', 'k', 'o', 'u', 'l', '.', 'm', 'e'] := by
  decide +kernel

def LANDING_HOSTS : List Text := ["koul.me", "www.koul.me"].map String.toList

def APP_PAGES : List Text :=
  ["autopilot", "activity", "account", "deposit", "withdraw", "join"].map String.toList

/-- Where a page request goes: a path on the same host, or a full URL when it leaves for the app. -/
inductive Route
  | next
  | rewrite (target : Text)
  | redirect (target : Text) (status : ℕ)
deriving DecidableEq, Repr

/-- `host.split(":")[0]`. -/
def hostName (host : Text) : Text := host.takeWhile (· ≠ ':')

def isAppHost (host : Text) : Bool := "app.".toList.isPrefixOf (hostName host)

def isAppPage (path : Text) : Bool :=
  APP_PAGES.any fun p => path == '/' :: p || ('/' :: p ++ ['/']).isPrefixOf path

/-- The path without `/app` in front; `none` when it is not under it. -/
def underApp (path : Text) : Option Text :=
  if path = "/app".toList then some "/".toList
  else if "/app/".toList.isPrefixOf path then some (path.drop 4)
  else none

def routeFor (host path search : Text) : Route :=
  let name := hostName host
  if isAppHost name then
    match underApp path with
    | some stripped => .redirect (stripped ++ search) 308
    | none =>
      if path = "/".toList || isAppPage path then
        .rewrite ("/app".toList ++ (if path = "/".toList then [] else path) ++ search)
      else .next
  else
    match (underApp path).or (if isAppPage path then some path else none) with
    | none => .next
    | some appPath =>
      if LANDING_HOSTS.contains name then
        .redirect ("https://".toList ++ APP_HOST ++ appPath ++ search) 308
      else if isAppPage path then .redirect ("/app".toList ++ path ++ search) 307
      else .next

/-! ## Requests -/

/-- What the proxy reads of a request: its `Host` header, and the path, the query and the whole of its
URL. -/
structure Request where
  host : Text
  path : Text
  search : Text
  url : Url
deriving DecidableEq, Repr

namespace Request

/-- The request that a browser sends for a URL. -/
def ofUrl (u : Url) : Request := ⟨u.hostText, u.pathname, u.search, u⟩

/-- The target of a request's redirect. -/
def target? (r : Request) : Option Text :=
  match routeFor r.host r.path r.search with
  | .redirect target _ => some target
  | _ => none

variable (parseHost : Text → Option Text)

/-- The request that follows the redirect of a request. -/
def follow (r : Request) : Option Request :=
  r.target?.bind fun target => (Url.parse parseHost r.url target).map ofUrl

/-- A redirect of the request is to its own host, or to app.koul.me. -/
def StaysOnKoul (r : Request) : Prop :=
  ∀ target, r.target? = some target → ∃ u, Url.parse parseHost r.url target = some u ∧
    (u.hostText = r.url.hostText ∨ u.hostText = APP_HOST)

/-- On the app host, a path under `/app` names no authority once it has lost `/app`, or that of its
own host or of app.koul.me. -/
def NamesKoul (r : Request) : Prop :=
  isAppHost r.host = true → ∀ rest authority, r.path = "/app/".toList ++ rest →
    authority? ('/' :: (rest ++ r.search)) = some authority →
    ∃ host port, parseAuthority parseHost r.url.scheme authority = some (host, port) ∧
      (showHost host port = r.url.hostText ∨ showHost host port = APP_HOST)

end Request

/-! ## Routes -/

lemma isAppHost_hostName (host : Text) : isAppHost (hostName host) = isAppHost host := by
  rw [isAppHost, isAppHost, hostName, hostName, List.takeWhile_idem]

/-- A path under `/app`, and what it is without. -/
lemma underApp_eq_some {path stripped : Text} (h : underApp path = some stripped) :
    (path = "/app".toList ∧ stripped = ['/']) ∨
      ∃ rest, path = "/app/".toList ++ rest ∧ stripped = '/' :: rest := by
  rw [underApp] at h
  split_ifs at h with happ hunder
  · exact .inl ⟨happ, (Option.some.inj h).symm⟩
  · obtain ⟨rest, rfl⟩ := List.isPrefixOf_iff_prefix.mp hunder
    exact .inr ⟨rest, rfl, (Option.some.inj h).symm⟩

lemma underApp_app_slash (rest : Text) : underApp ("/app/".toList ++ rest) = some ('/' :: rest) := rfl

/-- An app page begins with a slash. -/
lemma exists_of_isAppPage {path : Text} (h : isAppPage path = true) : ∃ rest, path = '/' :: rest := by
  obtain ⟨p, -, hp⟩ := List.any_eq_true.mp h
  rcases Bool.or_eq_true_iff.mp hp with hp | hp
  · exact ⟨p, beq_iff_eq.mp hp⟩
  · obtain ⟨rest, rfl⟩ := List.isPrefixOf_iff_prefix.mp hp
    exact ⟨_, rfl⟩

/-- **The redirects**: off `/app` on the app host, from the landing to the app host, and under `/app`
on any other. -/
lemma target?_eq_some {r : Request} {target : Text} (h : r.target? = some target) :
    (isAppHost r.host = true ∧ ∃ stripped, underApp r.path = some stripped ∧
      target = stripped ++ r.search) ∨
    (isAppHost r.host = false ∧ LANDING_HOSTS.contains (hostName r.host) = true ∧ ∃ appPath,
      target = "https://".toList ++ APP_HOST ++ appPath ++ r.search ∧
      (underApp r.path = some appPath ∨ isAppPage r.path = true ∧ appPath = r.path)) ∨
    (isAppHost r.host = false ∧ LANDING_HOSTS.contains (hostName r.host) = false ∧
      isAppPage r.path = true ∧ target = "/app".toList ++ r.path ++ r.search) := by
  rw [Request.target?] at h
  simp only [routeFor, isAppHost_hostName] at h
  cases hhost : isAppHost r.host with
  | true =>
    simp only [hhost, if_true] at h
    cases hunder : underApp r.path with
    | some stripped =>
      rw [hunder] at h
      exact .inl ⟨rfl, stripped, rfl, (Option.some.inj h).symm⟩
    | none =>
      rw [hunder] at h
      split_ifs at h
  | false =>
    simp only [hhost, Bool.false_eq_true, if_false] at h
    cases happ : (underApp r.path).or (if isAppPage r.path then some r.path else none) with
    | none =>
      rw [happ] at h
      cases h
    | some appPath =>
      rw [happ] at h
      have hpath : underApp r.path = some appPath ∨ isAppPage r.path = true ∧ appPath = r.path := by
        rw [Option.or_eq_some_iff] at happ
        rcases happ with happ | ⟨-, happ⟩
        · exact .inl happ
        · split_ifs at happ with hpage
          exact .inr ⟨hpage, (Option.some.inj happ).symm⟩
      cases hlanding : LANDING_HOSTS.contains (hostName r.host) with
      | true =>
        simp only [hlanding, if_true] at h
        exact .inr (.inl ⟨rfl, rfl, appPath, (Option.some.inj h).symm, hpath⟩)
      | false =>
        simp only [hlanding, Bool.false_eq_true, if_false] at h
        split_ifs at h with hpage
        exact .inr (.inr ⟨rfl, rfl, hpage, (Option.some.inj h).symm⟩)

/-! ## Where a redirect leads -/

section Redirects

variable {parseHost : Text → Option Text} (hkoul : parseHost APP_HOST = some APP_HOST)

/-- What follows the slash names no host when it does not begin with another. -/
lemma authority?_eq_none (c : Char) (text : Text) (hc : isC0OrSpace c = false)
    (hslash : Url.isSlash c = false) : authority? ('/' :: c :: text) = none := by
  rw [authority?, Url.clean_slash, Url.cleanEnd_cons hc]
  simp [hslash]

lemma authority?_isQuery {search : Text} (h : IsQuery search) :
    authority? ('/' :: search) = none := by
  rcases h with rfl | ⟨rest, rfl⟩
  · rfl
  · exact authority?_eq_none _ _ rfl rfl

include hkoul in
/-- A redirect of the landing is to app.koul.me. -/
lemma parse_app (base : Url) (text : Text) :
    Url.parse parseHost base ("https://".toList ++ APP_HOST ++ '/' :: text) =
      some ⟨.https, APP_HOST, none, Url.pathState [] (Url.segments (cleanEnd text)),
        Url.query? (cleanEnd text)⟩ := by
  have hname : ∀ c ∈ APP_HOST, isC0OrSpace c = false ∧ Url.endsAuthority c = false := by
    rw [APP_HOST_eq]
    simp only [List.forall_mem_cons, List.not_mem_nil, false_implies, implies_true, and_true]
    decide
  have hauthority : parseAuthority parseHost .https APP_HOST = some (APP_HOST, none) := by
    have hsplit : Url.splitPort false (APP_HOST.rtakeWhile (· ≠ '@')) = (APP_HOST, none) := by
      decide +kernel
    have hne : APP_HOST ≠ [] := by
      rw [APP_HOST_eq]
      exact List.cons_ne_nil _ _
    rw [parseAuthority, hsplit]
    simp only [if_neg hne, hkoul]
    rfl
  rw [APP_HOST_eq] at hname hauthority ⊢
  rw [Url.parse_https parseHost base hname text, hauthority]
  rfl

/-- On the app host a path under `/app` is sent to what it is without. -/
lemma target?_of_app {r : Request} (hhost : isAppHost r.host = true) {rest : Text}
    (hpath : r.path = "/app/".toList ++ rest) : r.target? = some ('/' :: (rest ++ r.search)) := by
  rw [Request.target?]
  simp only [routeFor, isAppHost_hostName, hhost, if_true, hpath, underApp_app_slash]
  rfl

variable (parseHost) in
/-- A path on the app host, read as a URL, is on its own host unless it names an authority. -/
lemma parse_of_authority?_none (base : Url) {text : Text} (h : authority? ('/' :: text) = none) :
    ∃ u, Url.parse parseHost base ('/' :: text) = some u ∧ u.hostText = base.hostText := by
  rw [Url.parse_slash, h]
  exact ⟨_, rfl, rfl⟩

/-- The path of a redirect begins with a slash. -/
lemma exists_of_appPath {path appPath : Text}
    (h : underApp path = some appPath ∨ isAppPage path = true ∧ appPath = path) :
    ∃ text, appPath = '/' :: text := by
  rcases h with hunder | ⟨hpage, rfl⟩
  · rcases underApp_eq_some hunder with ⟨-, rfl⟩ | ⟨rest, -, rfl⟩
    · exact ⟨[], rfl⟩
    · exact ⟨rest, rfl⟩
  · exact exists_of_isAppPage hpage

include hkoul in
/-- **A redirect stays on Koul** exactly when its path, once it has lost `/app`, names no other host. -/
theorem staysOnKoul_iff {r : Request} (hsearch : IsQuery r.search) :
    r.StaysOnKoul parseHost ↔ r.NamesKoul parseHost := by
  constructor
  · intro h hhost rest authority hpath hauthority
    obtain ⟨u, hu, hkept⟩ := h _ (target?_of_app hhost hpath)
    rw [Url.parse_slash, hauthority] at hu
    obtain ⟨⟨host, port⟩, hparsed, rfl⟩ := Option.map_eq_some_iff.mp hu
    exact ⟨host, port, hparsed, hkept⟩
  · intro h target htarget
    rcases target?_eq_some htarget with ⟨hhost, stripped, hunder, rfl⟩ |
      ⟨-, -, appPath, rfl, happ⟩ | ⟨-, -, -, rfl⟩
    · rcases underApp_eq_some hunder with ⟨-, rfl⟩ | ⟨rest, hpath, rfl⟩
      · obtain ⟨u, hu, hsame⟩ := parse_of_authority?_none parseHost r.url
          (authority?_isQuery hsearch)
        exact ⟨u, hu, .inl hsame⟩
      · cases hauthority : authority? ('/' :: (rest ++ r.search)) with
        | none =>
          obtain ⟨u, hu, hsame⟩ := parse_of_authority?_none parseHost r.url hauthority
          exact ⟨u, hu, .inl hsame⟩
        | some authority =>
          obtain ⟨host, port, hparsed, hkept⟩ := h hhost rest authority hpath hauthority
          have hu : ∃ u, Url.parse parseHost r.url ('/' :: (rest ++ r.search)) = some u ∧
              u.hostText = showHost host port := by
            rw [Url.parse_slash, hauthority]
            simp only [hparsed]
            exact ⟨_, rfl, rfl⟩
          obtain ⟨u, hu, hnamed⟩ := hu
          exact ⟨u, hu, hnamed ▸ hkept⟩
    · obtain ⟨text, rfl⟩ := exists_of_appPath happ
      rw [List.append_assoc _ ('/' :: text), List.cons_append]
      exact ⟨_, parse_app hkoul r.url (text ++ r.search), .inr rfl⟩
    · obtain ⟨u, hu, hsame⟩ := parse_of_authority?_none parseHost r.url
        (authority?_eq_none 'a' ("pp".toList ++ r.path ++ r.search) rfl rfl)
      exact ⟨u, hu, .inl hsame⟩

end Redirects

/-! ## The redirects end -/

section Hops

open Request (ofUrl)

def appSegment : Text := "app".toList

lemma appSegment_ne : appSegment ≠ [] := by decide +kernel

lemma percent_notMem_appSegment : '%' ∉ appSegment := by decide +kernel

lemma pieces_app {tail : Text} (h : IsQuery tail) : pieces ("/app".toList ++ tail) = [[], appSegment] := by
  rcases h with rfl | ⟨rest, rfl⟩ <;> rfl

lemma pieces_app_slash (rest : Text) :
    pieces ("/app/".toList ++ rest) = [] :: appSegment :: pieces rest := by
  show ("/app/".toList ++ rest.takeWhile (!Url.endsPath ·)).splitOnP Url.isSlash = _
  have hsplit : "/app/".toList ++ rest.takeWhile (!Url.endsPath ·) =
      '/' :: (appSegment ++ '/' :: rest.takeWhile (!Url.endsPath ·)) := rfl
  have hslash : ∀ c ∈ appSegment, Url.isSlash c = false := by
    simp [appSegment, Url.isSlash]
  rw [hsplit, Url.splitOnP_slash, List.splitOnP_append_cons_of_forall_mem hslash '/' rfl]
  rfl

/-- A path under `/app`, once it has lost it, has a segment less. -/
lemma count_underApp {u : Url} (hu : u.Normal) {stripped : Text}
    (h : underApp u.pathname = some stripped) : ∃ text, stripped = '/' :: text ∧
      (pieces (cleanEnd (text ++ u.search))).count appSegment < u.path.count appSegment := by
  have hpieces : pieces (u.pathname ++ u.search) = [] :: u.path :=
    Url.pieces_path hu.path (Url.isQuery_search u)
  have hchars := hu.isC0OrSpace
  rcases underApp_eq_some h with ⟨hpath, rfl⟩ | ⟨rest, hpath, rfl⟩
  · refine ⟨[], rfl, ?_⟩
    rw [hpath] at hpieces hchars
    rw [pieces_app (Url.isQuery_search u), List.cons.injEq] at hpieces
    have hclean : cleanEnd u.search = u.search :=
      Url.cleanEnd_eq_self fun c hc => hchars c (List.mem_append_right _ hc)
    have hnil : pieces u.search = [[]] := by
      rw [pieces, Url.takeWhile_isQuery (Url.isQuery_search u)]
      rfl
    rw [List.nil_append, hclean, hnil, ← hpieces.2]
    decide +kernel
  · refine ⟨rest, rfl, ?_⟩
    rw [hpath, List.append_assoc] at hpieces hchars
    rw [pieces_app_slash, List.cons.injEq] at hpieces
    have hclean : cleanEnd (rest ++ u.search) = rest ++ u.search :=
      Url.cleanEnd_eq_self fun c hc => hchars c (List.mem_append_right _ hc)
    rw [hclean, ← hpieces.2, List.count_cons_self]
    exact Nat.lt_succ_self _

/-- An app page sent to the app has the segments it had. -/
lemma count_appPage {u : Url} (hu : u.Normal) (h : isAppPage u.pathname = true) :
    ∃ text, u.pathname = '/' :: text ∧ pieces (cleanEnd (text ++ u.search)) = u.path := by
  obtain ⟨text, htext⟩ := exists_of_isAppPage h
  have hpieces : pieces (u.pathname ++ u.search) = [] :: u.path :=
    Url.pieces_path hu.path (Url.isQuery_search u)
  have hchars := hu.isC0OrSpace
  rw [htext] at hpieces hchars
  have hclean : cleanEnd (text ++ u.search) = text ++ u.search :=
    Url.cleanEnd_eq_self fun c hc => hchars c (List.mem_cons_of_mem _ hc)
  refine ⟨text, htext, ?_⟩
  rw [pieces, List.cons_append, List.takeWhile_cons_of_pos rfl, Url.splitOnP_slash,
    List.cons.injEq] at hpieces
  rw [hclean, pieces]
  exact hpieces.2

/-- No app page is under `/app`. -/
lemma isAppPage_app (rest : Text) : isAppPage ("/app/".toList ++ rest) = false := rfl

/-- How far a URL is from one that is not redirected: the redirects off `/app` each take a segment, and
one may change to the app host. -/
def hops (u : Url) : ℕ :=
  2 * u.path.count appSegment + if isAppHost u.hostText then 0 else 1

variable {parseHost : Text → Option Text}

/-- A path sent under `/app` stays on its host, and is the same path there. -/
lemma parse_appPage {u v : Url} (hu : u.Normal)
    (h : Url.parse parseHost u ("/app".toList ++ u.pathname ++ u.search) = some v) :
    v.hostText = u.hostText ∧ v.pathname = "/app".toList ++ u.pathname := by
  have htext : "/app".toList ++ u.pathname ++ u.search =
      '/' :: (appSegment ++ u.pathname ++ u.search) := rfl
  have hauthority : authority? ('/' :: (appSegment ++ u.pathname ++ u.search)) = none :=
    authority?_eq_none 'a' ("pp".toList ++ u.pathname ++ u.search) rfl rfl
  have happ : ∀ c ∈ appSegment, isC0OrSpace c = false := by simp [appSegment, isC0OrSpace]
  have hclean : cleanEnd (appSegment ++ u.pathname ++ u.search) =
      appSegment ++ u.pathname ++ u.search := by
    rw [List.append_assoc, Url.cleanEnd_append happ, Url.cleanEnd_eq_self hu.isC0OrSpace]
  have hsegments : ∀ s ∈ appSegment :: u.path, Url.NormalSegment s :=
    List.forall_mem_cons.mpr ⟨⟨by decide +kernel, by decide +kernel,
      by simp [appSegment, Url.pathSet, Url.isSlash]⟩, hu.path⟩
  have hpath : Url.pathState [] (Url.segments (appSegment ++ u.pathname ++ u.search)) =
      appSegment :: u.path :=
    Url.pathState_segments hsegments (Url.isQuery_search u) rfl
  rw [htext, Url.parse_slash, hauthority] at h
  obtain rfl := Option.some.inj h
  refine ⟨rfl, ?_⟩
  rw [hclean]
  show (Url.pathState [] (Url.segments (appSegment ++ u.pathname ++ u.search))).flatMap
    ('/' :: ·) = _
  rw [hpath]
  rfl

/-- A redirect off `/app` takes a segment away. -/
lemma hops_lt_of_underApp {u v : Url} (hu : u.Normal) (hhost : isAppHost u.hostText = true)
    {stripped : Text} (hunder : underApp u.pathname = some stripped)
    (hparse : Url.parse parseHost u (stripped ++ u.search) = some v) : hops v < hops u := by
  obtain ⟨text, rfl, hcount⟩ := count_underApp hu hunder
  have hle := Url.count_parse_slash_le parseHost appSegment_ne percent_notMem_appSegment hparse
  have hself : (if isAppHost v.hostText then 0 else 1) ≤ 1 := by split_ifs <;> omega
  rw [hops, hops, if_pos hhost]
  change v.path.count appSegment ≤ (pieces (cleanEnd (text ++ u.search))).count appSegment at hle
  omega

/-- A page sent under `/app` stays there. -/
lemma target?_eq_none_of_page {u v : Url} (hu : u.Normal) (hhost : isAppHost u.hostText = false)
    (hlanding : LANDING_HOSTS.contains (hostName u.hostText) = false)
    (hpage : isAppPage u.pathname = true)
    (hparse : Url.parse parseHost u ("/app".toList ++ u.pathname ++ u.search) = some v) :
    (ofUrl v).target? = none := by
  obtain ⟨hsame, hpath⟩ := parse_appPage hu hparse
  obtain ⟨text, htext⟩ := exists_of_isAppPage hpage
  have hmoved : v.pathname = "/app/".toList ++ text := by
    rw [hpath, htext]
    rfl
  have hnot : isAppPage v.pathname = false := by
    rw [hmoved]
    exact isAppPage_app text
  by_contra hsome
  obtain ⟨target, htarget⟩ := Option.ne_none_iff_exists'.mp hsome
  have hhost' : (ofUrl v).host = u.hostText := hsame
  rcases target?_eq_some htarget with ⟨happ, -⟩ | ⟨-, happ, -⟩ | ⟨-, -, happ, -⟩
  · rw [hhost', hhost] at happ
    cases happ
  · rw [hhost', hlanding] at happ
    cases happ
  · exact absurd happ (by simp [ofUrl, hnot])

variable (hkoul : parseHost APP_HOST = some APP_HOST)
include hkoul

/-- **The request that follows a redirect** is one of a normal URL. -/
lemma normal_of_follow {r r' : Request} (h : r.follow parseHost = some r') :
    ∃ u : Url, u.Normal ∧ r' = ofUrl u := by
  obtain ⟨target, htarget, h⟩ := Option.bind_eq_some_iff.mp h
  obtain ⟨u, hu, rfl⟩ := Option.map_eq_some_iff.mp h
  refine ⟨u, ?_, rfl⟩
  rcases target?_eq_some htarget with ⟨-, stripped, hunder, rfl⟩ | ⟨-, -, appPath, rfl, happ⟩ |
    ⟨-, -, -, rfl⟩
  · have happ : underApp r.path = some stripped ∨ isAppPage r.path = true ∧ stripped = r.path :=
      .inl hunder
    obtain ⟨text, rfl⟩ := exists_of_appPath happ
    exact Url.normal_parse_slash parseHost hu
  · obtain ⟨text, rfl⟩ := exists_of_appPath happ
    rw [List.append_assoc _ ('/' :: text), List.cons_append, parse_app hkoul] at hu
    obtain rfl := Option.some.inj hu
    exact Url.normal_read _ _ _ _ _
  · have hslash : Url.parse parseHost r.url ('/' :: ("app".toList ++ r.path ++ r.search)) =
        some u := hu
    exact Url.normal_parse_slash parseHost hslash

/-- A redirect to the app host leaves no more segments, and no change of the host. -/
lemma hops_lt_of_landing {u v : Url} (hu : u.Normal) (hhost : isAppHost u.hostText = false)
    {appPath : Text}
    (happ : underApp u.pathname = some appPath ∨ isAppPage u.pathname = true ∧ appPath = u.pathname)
    (hparse : Url.parse parseHost u ("https://".toList ++ APP_HOST ++ appPath ++ u.search) = some v) :
    hops v < hops u := by
  have hle : ∃ text, appPath = '/' :: text ∧
      (pieces (cleanEnd (text ++ u.search))).count appSegment ≤ u.path.count appSegment := by
    rcases happ with hunder | ⟨hpage, rfl⟩
    · obtain ⟨text, htext, hcount⟩ := count_underApp hu hunder
      exact ⟨text, htext, le_of_lt hcount⟩
    · obtain ⟨text, htext, hpieces⟩ := count_appPage hu hpage
      exact ⟨text, htext, by rw [hpieces]⟩
  obtain ⟨text, rfl, hle⟩ := hle
  rw [List.append_assoc _ ('/' :: text), List.cons_append, parse_app hkoul] at hparse
  obtain rfl := Option.some.inj hparse
  have hread := Url.count_read_le appSegment_ne percent_notMem_appSegment
    (cleanEnd (text ++ u.search))
  have happ : isAppHost APP_HOST = true := rfl
  rw [hops, hops, hhost]
  show 2 * (Url.pathState [] (Url.segments (cleanEnd (text ++ u.search)))).count appSegment +
    (if isAppHost APP_HOST then 0 else 1) < _
  rw [if_pos happ]
  simp only [Bool.false_eq_true, if_false]
  omega

/-- **One redirect** of a normal URL is the last, or brings it closer to the last. -/
lemma hops_follow {u : Url} (hu : u.Normal) {r' : Request}
    (h : (ofUrl u).follow parseHost = some r') :
    ∃ v : Url, v.Normal ∧ r' = ofUrl v ∧ (r'.target? = none ∨ hops v < hops u) := by
  obtain ⟨v, hv, rfl⟩ := normal_of_follow hkoul h
  refine ⟨v, hv, rfl, ?_⟩
  obtain ⟨target, htarget, h⟩ := Option.bind_eq_some_iff.mp h
  obtain ⟨v', hparse, hv'⟩ := Option.map_eq_some_iff.mp h
  obtain rfl : v' = v := congrArg Request.url hv'
  rcases target?_eq_some htarget with ⟨hhost, stripped, hunder, rfl⟩ |
    ⟨hhost, -, appPath, rfl, happ⟩ | ⟨hhost, hlanding, hpage, rfl⟩
  · exact .inr (hops_lt_of_underApp hu hhost hunder hparse)
  · exact .inr (hops_lt_of_landing hkoul hu hhost happ hparse)
  · exact .inl (target?_eq_none_of_page hu hhost hlanding hpage hparse)

/-- **The redirects** of a normal URL end, by induction on how far it is from the last. -/
lemma exists_last {u : Url} (hu : u.Normal) : ∃ r',
    Relation.ReflTransGen (fun a b => Request.follow parseHost a = some b) (ofUrl u) r' ∧
      r'.follow parseHost = none ∧ IsQuery r'.search := by
  induction hn : hops u using Nat.strong_induction_on generalizing u with
  | _ n ih =>
    cases hfollow : (ofUrl u).follow parseHost with
    | none => exact ⟨ofUrl u, .refl, hfollow, Url.isQuery_search u⟩
    | some r' =>
      obtain ⟨v, hv, rfl, hlast | hlt⟩ := hops_follow hkoul hu hfollow
      · refine ⟨ofUrl v, .single hfollow, ?_, Url.isQuery_search v⟩
        rw [Request.follow, hlast]
        rfl
      · obtain ⟨r', hchain, hend⟩ := ih (hops v) (hn ▸ hlt) hv rfl
        exact ⟨r', .head hfollow hchain, hend⟩

/-- **The redirects end**, in a request that is not redirected or in one whose target is no URL. -/
theorem exists_follow_none {r : Request} (hsearch : IsQuery r.search) : ∃ r',
    Relation.ReflTransGen (fun a b => Request.follow parseHost a = some b) r r' ∧
      r'.follow parseHost = none ∧ IsQuery r'.search := by
  cases hfollow : r.follow parseHost with
  | none => exact ⟨r, .refl, hfollow, hsearch⟩
  | some r' =>
    obtain ⟨u, hu, rfl⟩ := normal_of_follow hkoul hfollow
    obtain ⟨r', hchain, hend⟩ := exists_last hkoul hu
    exact ⟨r', .head hfollow hchain, hend⟩

/-- **Redirects stay on Koul and end.** A redirect stays exactly when its path names no other host,
and the redirects of any request lead to one that is not redirected, unless to one that does. -/
theorem redirects_iff {r : Request} (hsearch : IsQuery r.search) :
    (r.StaysOnKoul parseHost ↔ r.NamesKoul parseHost) ∧ ∃ r',
      Relation.ReflTransGen (fun a b => Request.follow parseHost a = some b) r r' ∧
        (r'.target? = none ∨ ¬ r'.NamesKoul parseHost) := by
  refine ⟨staysOnKoul_iff hkoul hsearch, ?_⟩
  obtain ⟨r', hchain, hend, hsearch'⟩ := exists_follow_none hkoul hsearch
  refine ⟨r', hchain, ?_⟩
  cases htarget : r'.target? with
  | none => exact .inl rfl
  | some target =>
    right
    rw [← staysOnKoul_iff hkoul hsearch']
    intro hstays
    obtain ⟨u, hu, -⟩ := hstays target htarget
    rw [Request.follow, htarget, Option.bind_some, hu] at hend
    cases hend

end Hops

/-- The host parser on names of letters, digits, hyphens and dots. -/
def plainHost (name : Text) : Option Text :=
  if name.all fun c => c.isAlphanum || c == '-' || c == '.' then some (Url.lower name) else none

def appUrl (path : List Text) : Url := ⟨.https, APP_HOST, none, path, none⟩

/-- A page of the app, asked for under `/app`. -/
theorem redirects_iff_account :
    (Request.mk APP_HOST "/app/account".toList "?x=1".toList
        (appUrl ["app".toList, "account".toList])).StaysOnKoul plainHost := by
  refine (redirects_iff (by decide +kernel) (.inr ⟨_, rfl⟩)).1.mpr ?_
  intro _ rest authority hpath hauthority
  have hrest : "/app/".toList ++ "account".toList = "/app/".toList ++ rest := hpath
  obtain rfl := List.append_cancel_left hrest
  have hnone : authority? ('/' :: ("account".toList ++ "?x=1".toList)) = none := by decide +kernel
  exact absurd hauthority (by rw [hnone]; simp)

/-- A path with a name after two slashes leaves for that name. -/
theorem double_slash_leaves : ¬ ∀ r : Request, r.path.head? = some '/' → IsQuery r.search →
    r.StaysOnKoul plainHost := by
  intro h
  obtain ⟨u, hu, hhost⟩ := h ⟨APP_HOST, "/app//evil".toList, [],
    appUrl ["app".toList, [], "evil".toList]⟩ (by decide +kernel) (.inl rfl) "//evil".toList
      (by decide +kernel)
  have hevil : Url.parse plainHost (appUrl ["app".toList, [], "evil".toList]) "//evil".toList =
      some ⟨.https, "evil".toList, none, [[]], none⟩ := by decide +kernel
  obtain rfl := Option.some.inj (hevil.symm.trans hu)
  revert hhost
  decide +kernel

end Koul.AppHost
