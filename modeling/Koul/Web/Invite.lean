import Koul.Lib.Base64
import Koul.Lib.Crew
import Koul.Lib.Form
import Koul.Lib.Js
import Koul.Lib.Utf16
import Koul.Web.AppHost

set_option relaxedAutoImplicit false
set_option autoImplicit false

/-!
# The waitlist

While the waitlist is closed, the app opens only to who holds an invite: a code of the environment, or a
personal code. Somebody signs up, the owner is mailed a link with a signature, and opening it and
pressing its button makes the personal code and mails it. The first visit with `?invite=` turns the
code into a cookie, which is signed, so later visits are checked without a call.

`web/lib/invite.ts`, `web/lib/waitlist-server.ts`, `web/lib/waitlist-mail.ts`, the gate of
`web/lib/app-host.ts`, `web/proxy.ts` and the two routes of `web/app/api/waitlist`.

## Main definitions

* `Koul.Invite.signInvite`, `Koul.Invite.verifyInvite` — the cookie of a personal code.
* `Koul.Invite.gateFor`, `Koul.Invite.proxy` — whether a page opens, and where its request goes.
* `Koul.Invite.signUp`, `Koul.Invite.approveLink`, `Koul.Invite.sendCode` — the two routes.
* `Koul.Invite.Cmd` — what they ask the store and the mail service for.

## Main results

* `Koul.Invite.sameString_iff` — the comparison in constant time is one.
* `Koul.Invite.verifyInvite_iff` — the cookies that are good.
-/

namespace Koul.Invite

open AppHost (Route routeFor underApp)
open Interleaving Interleaving.Prog
open Url (Text)

/-! ## Signatures -/

/-- What the code uses of the language, of Web Crypto and of Zod. -/
structure Env where
  /-- `toLowerCase`. -/
  lower : Text → Text
  /-- HMAC with SHA-256, of a key and a message. -/
  mac : List UInt8 → List UInt8 → List UInt8
  /-- The form of an email address. -/
  isEmail : Text → Bool

/-- What is set for the deployment. -/
structure Config where
  /-- `WAITLIST_GATED`. -/
  gated : Bool
  /-- `KOUL_INVITE_CODES`. -/
  codes : Option Text
  /-- `WAITLIST_SECRET`. -/
  secret : Option Text
  /-- `WAITLIST_NOTIFY_TO`. -/
  notifyTo : Option Text
  /-- `RESEND_API_KEY` is set. -/
  mailKey : Bool
  /-- The address of the store is set. -/
  store : Bool
  site : Text
  app : Text

/-- A variable that is set and not empty. -/
def Config.secret? (cfg : Config) : Option Text := cfg.secret.filter (· ≠ [])

def b64url (bytes : List UInt8) : Text :=
  ((Base64.btoa bytes).map fun c => if c = '+' then '-' else if c = '/' then '_' else c).rdropWhile
    (· == '=')

def hmac (env : Env) (message secret : Text) : Text :=
  b64url (env.mac (Utf8.encode secret) (Utf8.encode message))

/-- Compares two strings in time that does not depend on where they differ. -/
def sameString (a b : Text) : Bool :=
  let a := Utf16.ofText a
  let b := Utf16.ofText b
  a.length == b.length && (List.zipWith (· ^^^ ·) a b).foldl (· ||| ·) 0 == 0

def inviteMessage (code : Text) : Text := "invite:".toList ++ code

/-- The cookie value for a personal code. -/
def signInvite (env : Env) (code secret : Text) : Text :=
  code ++ '.' :: hmac env (inviteMessage code) secret

/-- A cookie is good when what is after its last dot signs what is before. -/
def verifyInvite (env : Env) (cookie secret : Text) : Bool :=
  let front := cookie.rdropWhile (· ≠ '.')
  if front.length ≤ 1 then false
  else sameString (cookie.rtakeWhile (· ≠ '.')) (hmac env (inviteMessage front.dropLast) secret)

/-- The signature on an owner's link for one email. -/
def approveSignature (env : Env) (email secret : Text) : Text :=
  hmac env ("approve:".toList ++ email) secret

/-! ## Mail -/

structure Mail where
  receiver : Text
  subject : Text
  text : Text
  html : Text
deriving DecidableEq, Repr

def escape (s : Text) : Text :=
  s.flatMap fun c =>
    if "&<>\"'".toList.contains c then "&#".toList ++ (toString c.toNat).toList ++ [';'] else [c]

def welcome (email : Text) : Mail where
  receiver := email
  subject := "You're on the Koul waitlist".toList
  text := ("Thanks for joining. Koul opens in batches, and we'll email you when it's your turn.\n\n" ++
    "Koul\nhttps://koul.me").toList
  html := ("<p>Thanks for joining. Koul opens in batches, and we'll email you when it's your turn." ++
    "</p><p>Koul<br><a href=\"https://koul.me\">koul.me</a></p>").toList

/-- The query of the owner's link. -/
def approveQuery (env : Env) (email secret : Text) : Text :=
  Form.serialize [("email".toList, email), ("sig".toList, approveSignature env email secret)]

/-- The owner's link. Opening it only shows a page; the invite goes out on its button. -/
def approveLink (env : Env) (cfg : Config) (email : Text) : Option Text :=
  cfg.secret?.map fun secret =>
    cfg.site ++ "/api/waitlist/approve?".toList ++ approveQuery env email secret

/-- The owner's notice of a signup. -/
def notice (env : Env) (cfg : Config) (owner email source : Text) (count : ℕ) : Mail :=
  let line := email ++ " joined the waitlist from ".toList ++ source ++ ". ".toList ++
    (toString count).toList ++ " on the list.".toList
  let link := approveLink env cfg email
  { receiver := owner
    subject := "Waitlist: ".toList ++ email
    text := link.elim line fun link => line ++ "\n\nApprove and send an invite: ".toList ++ link
    html := "<p>".toList ++ escape line ++ "</p>".toList ++ link.elim [] fun link =>
      "<p><a href=\"".toList ++ escape link ++ "\">Approve and send an invite</a></p>".toList }

def invite (cfg : Config) (email code : Text) : Mail :=
  let link := cfg.app ++ "/?invite=".toList ++ code
  { receiver := email
    subject := "You're in: your Koul invite".toList
    text := "You're off the waitlist. Open Koul here:\n".toList ++ link ++
      ("\n\nOn another device, enter this code under \"Have a code?\" on koul.me:\n").toList ++ code ++
      "\n\nKoul\nhttps://koul.me".toList
    html := "<p>You're off the waitlist.</p><p><a href=\"".toList ++ escape link ++
      ("\">Open Koul</a></p><p>On another device, enter this code under \"Have a code?\" on " ++
        "koul.me:<br><strong style=\"font-family:monospace;font-size:18px\">").toList ++
      escape code ++ "</strong></p><p>Koul<br><a href=\"https://koul.me\">koul.me</a></p>".toList }

/-! ## What the routes ask for -/

inductive Cmd
  /-- Adds an email to the list, unless it is on it. -/
  | zadd (email : Text)
  /-- Where an email first signed up from. -/
  | hsetnxFrom (email source : Text)
  /-- How many are on the list. -/
  | zcard
  /-- The personal code of an approved email. -/
  | hget (email : Text)
  | hsetnx (email code : Text)
  /-- The email that a personal code was made for. -/
  | set (code email : Text)
  | existsKey (code : Text)
  /-- The random letters of a code. -/
  | randomLetters
  | mail (m : Mail)

@[reducible] def Cmd.Reply : Cmd → Type
  | zadd _ => Except String Bool
  | hsetnxFrom _ _ => Except String Bool
  | zcard => Except String ℕ
  | hget _ => Except String (Option Text)
  | hsetnx _ _ => Except String Bool
  | set _ _ => Except String Unit
  | existsKey _ => Except String Bool
  | randomLetters => Fin 8 → Fin 31
  | mail _ => Bool

abbrev Run (α : Type) : Type := Thrower Cmd.Reply String α

/-! ## The gate -/

def PERSONAL_PREFIX : Text := "inv".toList

/-- A personal code exists. Any error of the store counts as no. -/
def personalCodeExists (cfg : Config) (code : Text) : Prog Cmd.Reply Bool :=
  if !(PERSONAL_PREFIX ++ ['-']).isPrefixOf code then pure false
  else if cfg.store then do
    let r : Except String Bool ← ask (Cmd.existsKey code)
    return r.toOption.getD false
  else pure false

/-- The codes of the environment, between commas and white space. -/
def parseInviteCodes (env : Env) (raw : Text) : List Text :=
  ((env.lower raw).splitOnP fun c => Js.isSpace c || c == ',').filter (· ≠ [])

def Config.listed (cfg : Config) (env : Env) : List Text := parseInviteCodes env (cfg.codes.getD [])

inductive Gate
  | opened
  | admitted (target cookie : Text)
  | waitlist (invalid : Bool)
deriving DecidableEq, Repr

/-- The code that a visit tries. -/
def invited (env : Env) (search : Text) : Option Text :=
  ((Form.get "invite".toList (Form.ofSearch search)).map fun v => env.lower (Js.trim v)).filter (· ≠ [])

/-- The page that was asked for, without the code. -/
def withoutInvite (path search : Text) : Text :=
  let rest := Form.serialize (Form.delete "invite".toList (Form.ofSearch search))
  path ++ if rest = [] then [] else '?' :: rest

/-- The cookie of a visit is good. -/
def goodCookie (env : Env) (cfg : Config) (cookie : Text) : Bool :=
  cookie ≠ [] && ((cfg.listed env).contains cookie || cfg.secret?.any (verifyInvite env cookie ·))

/-- While the waitlist is on, whether an app page opens. Only a visit with a code ever looks one up. -/
def gateFor (env : Env) (cfg : Config) (path search : Text) (cookie : Option Text) :
    Prog Cmd.Reply Gate :=
  if !cfg.gated then pure .opened
  else if cookie.any (goodCookie env cfg) then pure .opened
  else
    match invited env search with
    | none => pure (.waitlist false)
    | some code =>
      let target := withoutInvite path search
      if (cfg.listed env).contains code then pure (.admitted target code)
      else
        match cfg.secret? with
        | none => pure (.waitlist true)
        | some secret => do
          let found ← personalCodeExists cfg code
          return if found then .admitted target (signInvite env code secret) else .waitlist true

/-- A request that is not redirected renders an app page. -/
def rendersApp (route : Route) (path : Text) : Bool :=
  match route with
  | .rewrite _ => true
  | _ => (underApp path).isSome

/-- Where the proxy sends the request of a page. -/
inductive Page
  | redirect (target : Text) (status : ℕ)
  | waitlist (invalid : Bool)
  | admitted (target cookie : Text)
  | rewrite (target : Text)
  | next
deriving DecidableEq, Repr

def Page.ofRoute : Route → Page
  | .redirect target status => .redirect target status
  | .rewrite target => .rewrite target
  | .next => .next

def Page.ofGate (route : Route) : Gate → Page
  | .opened => .ofRoute route
  | .admitted target cookie => .admitted target cookie
  | .waitlist invalid => .waitlist invalid

def proxy (env : Env) (cfg : Config) (host path search : Text) (cookie : Option Text) :
    Prog Cmd.Reply Page :=
  match routeFor host path search with
  | .redirect target status => pure (.redirect target status)
  | route =>
    if rendersApp route path then do
      let gate ← gateFor env cfg path search cookie
      return .ofGate route gate
    else pure (.ofRoute route)

/-! ## Signing up -/

inductive Answer
  | ok
  | refused (status : ℕ)
  /-- The page that asks to approve a signup. -/
  | confirm (email : Text)
  /-- The page that says the invite is made, and whether it was mailed. -/
  | approved (email code : Text) (fresh sent : Bool)
  | page (p : Page)
deriving DecidableEq, Repr

/-- Sends a mail; without a key nothing is sent. -/
def sendMail (cfg : Config) (m : Mail) : Prog Cmd.Reply Bool :=
  if cfg.mailKey then ask (Cmd.mail m) else pure false

/-- Two calls that are sent together: either may come first, and an error of one leaves the other. -/
def both {α β : Type} (p : Prog Cmd.Reply (Except String α)) (q : Prog Cmd.Reply (Except String β)) :
    Run (α × β) :=
  ExceptT.mk (either (do let a ← p; let b ← q; return do return (← a, ← b))
    (do let b ← q; let a ← p; return do return (← a, ← b)))

/-- Adds an email to the waitlist: whether it was not on it, and how many are; nothing when no store is
set. -/
def joinWaitlist (cfg : Config) (email source : Text) : Run (Option (Bool × ℕ)) :=
  if cfg.store then do
    let added ← both (ask (Cmd.zadd email)) (ask (Cmd.hsetnxFrom email source))
    let count ← Thrower.ask .zcard id
    return some (added.1, count)
  else return none

def notifyOwner (env : Env) (cfg : Config) (email source : Text) (count : ℕ) :
    Prog Cmd.Reply Bool :=
  match cfg.notifyTo.filter (· ≠ []) with
  | none => pure false
  | some owner => sendMail cfg (notice env cfg owner email source count)

/-- The mails of a new signup, in any order. -/
def signupMails (env : Env) (cfg : Config) (email source : Text) (count : ℕ) : Prog Cmd.Reply Unit :=
  either
    (do let _ ← sendMail cfg (welcome email); let _ ← notifyOwner env cfg email source count)
    (do let _ ← notifyOwner env cfg email source count; let _ ← sendMail cfg (welcome email))

/-- The email of a body, when it has the form of one. -/
def emailOf (env : Env) (raw : Text) : Option Text :=
  let email := env.lower (Js.trim raw)
  if env.isEmail email ∧ (Utf16.ofText email).length ≤ 254 then some email else none

/-- `POST /api/waitlist`: only a new signup sends mail, so an address gets one confirmation at most. -/
def signUp (env : Env) (cfg : Config) (raw : Text) (source company : Option Text) :
    Prog Cmd.Reply Answer :=
  match emailOf env raw with
  | none => pure (.refused 400)
  | some email =>
    if source.any fun s => 32 < (Utf16.ofText s).length then pure (.refused 400)
    else if company.any (· ≠ []) then pure .ok
    else do
      let joined ← (joinWaitlist cfg email (source.getD "unknown".toList)).run
      match joined with
      | .error _ => return .refused 502
      | .ok none => return .refused 503
      | .ok (some (added, count)) =>
        if added && cfg.gated then do
          signupMails env cfg email (source.getD "unknown".toList) count
          return .ok
        else return .ok

/-! ## Approving -/

/-- The generator's letters, of which none is taken for another. -/
def ALPHABET : List Char := "23456789abcdefghjkmnpqrstuvwxyz".toList

lemma length_ALPHABET : ALPHABET.length = 31 := by decide +kernel

def newCode (letters : Fin 8 → Fin 31) : Text :=
  PERSONAL_PREFIX ++ '-' :: List.ofFn fun i => ALPHABET.get ((letters i).cast length_ALPHABET.symm)

/-- Approves an email: its code, made the first time and used again after; nothing when no store is
set. -/
def approve (cfg : Config) (email : Text) : Run (Option (Text × Bool)) :=
  if cfg.store then do
    let existing ← Thrower.ask (.hget email) id
    match existing.filter (· ≠ []) with
    | some code => return some (code, false)
    | none => do
      let letters ← Thrower.ask .randomLetters .ok
      let code := newCode letters
      -- of two approvals at once the first code wins and both send it
      let first ← Thrower.ask (.hsetnx email code) id
      if first then do
        Thrower.ask (.set code email) id
        return some (code, true)
      else do
        let won ← Thrower.ask (.hget email) id
        match won with
        | some code => return some (code, false)
        | none => throw "Cannot read properties of null (reading 'replace')"
  else return none

/-- The email of a link whose signature holds. -/
def signedEmail (env : Env) (cfg : Config) (search : Text) : Option Text := do
  let secret ← cfg.secret?
  let email ← ((Form.get "email".toList (Form.ofSearch search)).map fun v =>
    env.lower (Js.trim v)).filter (· ≠ [])
  let sig ← (Form.get "sig".toList (Form.ofSearch search)).filter (· ≠ [])
  if sameString sig (approveSignature env email secret) then some email else none

/-- `GET` of the owner's link. -/
def openLink (env : Env) (cfg : Config) (search : Text) : Answer :=
  (signedEmail env cfg search).elim (.refused 403) .confirm

/-- `POST` of the owner's link. -/
def sendCode (env : Env) (cfg : Config) (search : Text) : Prog Cmd.Reply Answer :=
  match signedEmail env cfg search with
  | none => pure (.refused 403)
  | some email => do
    let approved ← (approve cfg email).run
    match approved with
    | .error _ => return .refused 502
    | .ok none => return .refused 503
    | .ok (some (code, fresh)) =>
      let sent ← sendMail cfg (invite cfg email code)
      return .approved email code fresh sent

/-! ## Requests -/

inductive Request
  | signUp (email : Text) (source company : Option Text)
  | openLink (search : Text)
  | sendCode (search : Text)
  | visit (host path search : Text) (cookie : Option Text)
deriving DecidableEq, Repr

def serve (env : Env) (cfg : Config) : Request → Prog Cmd.Reply Answer
  | .signUp email source company => signUp env cfg email source company
  | .openLink search => pure (openLink env cfg search)
  | .sendCode search => sendCode env cfg search
  | .visit host path search cookie => do
    let p ← proxy env cfg host path search cookie
    return .page p

/-! ## Good cookies -/

lemma foldl_or_eq_zero {us : List UInt16} {acc : UInt16} :
    us.foldl (· ||| ·) acc = 0 ↔ acc = 0 ∧ ∀ u ∈ us, u = 0 := by
  induction us generalizing acc with
  | nil => simp
  | cons u us ih => rw [List.foldl_cons, ih, UInt16.or_eq_zero_iff, List.forall_mem_cons, and_assoc]

lemma eq_of_zipWith_xor {as bs : List UInt16} (hlen : as.length = bs.length)
    (h : ∀ u ∈ List.zipWith (· ^^^ ·) as bs, u = 0) : as = bs := by
  induction as generalizing bs with
  | nil => exact (List.length_eq_zero_iff.mp hlen.symm).symm
  | cons a as ih =>
    cases bs with
    | nil => cases hlen
    | cons b bs =>
      rw [List.zipWith_cons_cons, List.forall_mem_cons] at h
      rw [UInt16.xor_eq_zero_iff.mp h.1, ih (Nat.succ.inj hlen) h.2]

lemma ofText_injective : Function.Injective Utf16.ofText := by
  intro a b h
  have hpoints := congrArg Utf16.codePoints h
  rw [Utf16.codePoints_ofText, Utf16.codePoints_ofText] at hpoints
  exact List.map_injective_iff.mpr (fun _ _ heq => Utf16.CodePoint.scalar.inj heq) hpoints

/-- **The comparison** in constant time is one. -/
theorem sameString_iff {a b : Text} : sameString a b = true ↔ a = b := by
  unfold sameString
  rw [Bool.and_eq_true, beq_iff_eq, beq_iff_eq, foldl_or_eq_zero]
  constructor
  · rintro ⟨hlen, -, hzero⟩
    exact ofText_injective (eq_of_zipWith_xor hlen hzero)
  · rintro rfl
    refine ⟨rfl, rfl, fun u hu => ?_⟩
    obtain ⟨i, hi, rfl⟩ := List.getElem_of_mem hu
    rw [List.getElem_zipWith, UInt16.xor_self]

/-- A signature has no dot. -/
lemma dot_notMem_hmac (env : Env) (message secret : Text) : '.' ∉ hmac env message secret := by
  have hchar : ∀ n < 64, Base64.char n ≠ '.' := by decide
  intro hmem
  have hmap := (List.rdropWhile_prefix _ _).subset hmem
  obtain ⟨c, hc, heq⟩ := List.mem_map.mp hmap
  have hdot : c = '.' := by
    split_ifs at heq
    · cases heq
    · cases heq
    · exact heq
  subst hdot
  rcases List.mem_append.mp hc with hc | hc
  · obtain ⟨n, hn, heq⟩ := List.mem_map.mp hc
    exact hchar n (Base64.sixes_lt _ n hn) heq
  · exact absurd (List.eq_of_mem_replicate hc) (by decide)

/-- A text ends with what is after its last dot. -/
lemma rdropWhile_append_rtakeWhile (text : Text) :
    text.rdropWhile (· ≠ '.') ++ text.rtakeWhile (· ≠ '.') = text := by
  rw [List.rdropWhile, List.rtakeWhile, ← List.reverse_append, List.takeWhile_append_dropWhile,
    List.reverse_reverse]

lemma ne_dot_of_mem_hmac {env : Env} {message secret : Text} :
    ∀ c ∈ hmac env message secret, decide (c ≠ '.') = true := by
  intro c hc
  refine decide_eq_true ?_
  rintro rfl
  exact dot_notMem_hmac env _ _ hc

lemma rdropWhile_signInvite (env : Env) (code secret : Text) :
    (signInvite env code secret).rdropWhile (· ≠ '.') = code ++ ['.'] := by
  rw [signInvite, List.append_cons, List.rdropWhile, List.reverse_append,
    List.dropWhile_append_of_pos fun c hc => ne_dot_of_mem_hmac c (List.mem_reverse.mp hc),
    List.reverse_append]
  simp

lemma rtakeWhile_signInvite (env : Env) (code secret : Text) :
    (signInvite env code secret).rtakeWhile (· ≠ '.') = hmac env (inviteMessage code) secret := by
  rw [signInvite, List.append_cons, List.rtakeWhile, List.reverse_append,
    List.takeWhile_append_of_pos fun c hc => ne_dot_of_mem_hmac c (List.mem_reverse.mp hc),
    List.reverse_append]
  simp

/-- **The good cookies** are the codes with their signatures. -/
theorem verifyInvite_iff {env : Env} {cookie secret : Text} : verifyInvite env cookie secret = true ↔
    ∃ code, code ≠ [] ∧ cookie = signInvite env code secret := by
  constructor
  · intro h
    unfold verifyInvite at h
    dsimp only at h
    split_ifs at h with hshort
    have hsig := sameString_iff.mp h
    refine ⟨(cookie.rdropWhile (· ≠ '.')).dropLast, ?_, ?_⟩
    · intro hnil
      have hlen := congrArg List.length hnil
      rw [List.length_dropLast, List.length_nil] at hlen
      omega
    · have hne : cookie.rdropWhile (· ≠ '.') ≠ [] := by
        intro hnil
        rw [hnil] at hshort
        exact hshort (Nat.zero_le 1)
      have hlast : (cookie.rdropWhile (· ≠ '.')).getLast hne = '.' := by
        have := List.rdropWhile_last_not _ cookie hne
        simpa using this
      have hfront := List.dropLast_append_getLast hne
      rw [hlast] at hfront
      rw [signInvite, ← hsig, List.append_cons, hfront, rdropWhile_append_rtakeWhile]
  · rintro ⟨code, hne, rfl⟩
    unfold verifyInvite
    dsimp only
    rw [rdropWhile_signInvite, rtakeWhile_signInvite, List.dropLast_concat, if_neg]
    · exact sameString_iff.mpr rfl
    · rw [List.length_append, List.length_singleton]
      have := List.length_pos_iff.mpr hne
      omega

/-! ## A deployment -/

def sampleEnv : Env where
  lower := List.map Char.toLower
  mac := fun key message => key ++ message
  isEmail := fun email => email.contains '@'

def sampleConfig : Config where
  gated := true
  codes := none
  secret := some "s3cret".toList
  notifyTo := some "owner@koul.me".toList
  mailKey := true
  store := true
  site := "https://koul.me".toList
  app := "https://app.koul.me".toList

def sampleEmail : Text := "ada@x.io".toList

def sampleCode : Text := "inv-23456789".toList

end Koul.Invite
