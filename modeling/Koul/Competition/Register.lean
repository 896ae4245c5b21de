import Koul.Competition.Cap
import Koul.Core.Schema
import Koul.Lib.Embedded
import Koul.Lib.Js
import Koul.Lib.Zod
import Koul.Web.Assertion
import Koul.Web.RateLimit

set_option relaxedAutoImplicit false
set_option autoImplicit false

/-!
# The registration routes

The challenge that a wallet's passkey signs, and the registration that it confirms: the routes
`web/app/api/competition/challenge` and `web/app/api/competition/register`, as programs of what they ask
the store, the chain and the limiter. The parts of the store that an entry reads and writes, and the
programs on them, are those of an entry.

## Main definitions

* `Koul.Register.Cmd.exec` — what the store does for a command; the rest of the world answers the others.
* `Koul.Register.Body` — the form, once it is read.
* `Koul.Register.challengePOST`, `Koul.Register.registerPOST` — the routes.
* `Koul.Register.serve` — what a request runs.
-/

namespace Koul.Register

open Interleaving Interleaving.Prog
open Competition (EntrantRecord Texts Entry EntryOutcome CompetitionConfig maxEntrantsOf fullText)
open Passkey (Platform Assertion)

/-! ## The store -/

/-- What the server runs with. -/
structure Site where
  texts : Texts
  platform : Platform
  /-- Whether the schema takes a text as an email. -/
  isEmail : String → Bool
  hasStore : Bool

inductive Cmd
  /-- A call that an entry makes, or the confirmation link. -/
  | entry (c : Competition.Cmd)
  | simulation (c : Passkey.Simulation)
  | limiter (c : RateLimit.Cmd)
  /-- `SCARD` of the entrants. -/
  | scard
  /-- `SET`, for 300 seconds. -/
  | setChallenge (wallet challenge : String)
  | getdelChallenge (wallet : String)
  | incrReferrals (handle : String)
  /-- `randomBytes(32)` as a text. -/
  | randomChallenge
  | now
  /-- Time passes for the store. -/
  | wait (seconds : ℕ)
deriving DecidableEq, Repr

@[reducible] def Cmd.Reply : Cmd → Type
  | entry c => c.Reply
  | simulation c => c.Reply
  | limiter c => c.Reply
  | scard => ℕ
  | getdelChallenge _ => Option String
  | randomChallenge => String
  -- `Date.now()` is past the epoch
  | now => {n : ℕ // 0 < n}
  | setChallenge _ _ | incrReferrals _ | wait _ => Unit

/-- The store, its clock and the world outside it. A challenge stands until its deadline. -/
structure Store (W : Type) where
  entries : Competition.Store
  challenge : String → Option (String × ℕ)
  referrals : String → ℕ
  clock : ℕ
  world : W

/-- The challenge that a wallet can still use. -/
def Store.openChallenge {W : Type} (s : Store W) (wallet : String) : Option String :=
  (s.challenge wallet).bind fun stored => if s.clock < stored.2 then some stored.1 else none

def Cmd.exec {W : Type} (answer : (c : Cmd) → W → c.Reply × W) :
    (c : Cmd) → Store W → c.Reply × Store W
  | .entry c, s => ((c.exec s.entries).1, { s with entries := (c.exec s.entries).2 })
  | .scard, s => (s.entries.entrants.card, s)
  | .setChallenge wallet challenge, s =>
    ((), { s with
      challenge := Function.update s.challenge wallet (some (challenge, s.clock + 300)) })
  | .getdelChallenge wallet, s =>
    (s.openChallenge wallet, { s with challenge := Function.update s.challenge wallet none })
  | .incrReferrals handle, s =>
    ((), { s with referrals := Function.update s.referrals handle (s.referrals handle + 1) })
  | .wait seconds, s => ((), { s with clock := s.clock + seconds })
  | c, s => ((answer c s.world).1, { s with world := (answer c s.world).2 })

/-! ## The form -/

/-- `HANDLE_PATTERN`. -/
def isHandle (s : String) : Bool :=
  3 ≤ s.length && s.length ≤ 20 && s.toList.all fun c => c.isAlphanum || c == '_'

def RESERVED_HANDLES : List String := ["leaderboard", "join", "rules", "admin", "koul"]

def TERMS_MESSAGE : String := "Accept the competition terms to enter"

structure Body where
  wallet : String
  handle : String
  email : String
  acceptedTerms : Bool
  ref : Option String
  assertion : Assertion
deriving DecidableEq, Repr

open Zod in
def assertionSchema : Schema Assertion := object fun o =>
  Assertion.mk <$> o.get "credentialId" string <*> o.get "authenticatorData" string <*>
    o.get "clientDataJSON" string <*> o.get "signature" string

open Zod in
def emailSchema (site : Site) : Schema String :=
  check (check
    (Zod.map (fun s => site.texts.toLowerCase (String.ofList (Js.trim s.toList))) string)
    site.isEmail .invalidString) (fun s => Core.jsLength s ≤ 254) .tooBig

open Zod in
def bodySchema (site : Site) : Schema Body := object fun o =>
  Body.mk <$> o.get "wallet" (check string Core.isContractId .invalidString) <*>
    o.get "handle" (check string isHandle
      (.custom "A handle is 3 to 20 letters, digits or underscores")) <*>
    o.get "email" (emailSchema site) <*>
    o.get "acceptedTerms" (refine boolean some TERMS_MESSAGE) <*>
    o.get "ref" (optional (check string isHandle .invalidString)) <*>
    o.get "assertion" assertionSchema

/-- The form, or the first issue with it. -/
def readBody (site : Site) (json : Js) : Except (Option Zod.Issue) Body :=
  let parsed := bodySchema site [] json
  match parsed.value, parsed.issues with
  | some body, [] => .ok body
  | _, issues => .error issues.head?

/-! ## The routes -/

inductive Response
  | refused (refusal : RateLimit.Refusal)
  /-- 400, with the message of the issue. -/
  | invalid (issue : Option Zod.Issue)
  | error (status : ℕ) (text : String)
  | challenge (challenge : String) (credentialIds : List String)
  | registered (handle : String)
  | page (page : Competition.Page)
  | waited
deriving DecidableEq, Repr

/-- A route; what it throws is answered with 500. -/
abbrev Route (α : Type) : Type := Thrower Cmd.Reply String α

/-- One command. -/
def send (c : Cmd) : Route c.Reply := Thrower.ask c .ok

/-- A part of the commands, which does not throw. -/
def part {Part α : Type} (f : Part → Cmd) (p : Prog (fun c => (f c).Reply) α) : Route α :=
  liftM (p.embed f)

def limited (site : Site) (ip : String) : Route (Option RateLimit.Refusal) :=
  part .limiter (RateLimit.rateLimit site.hasStore ip .register none)

def walletPasskeys (site : Site) (wallet : String) : Route (List Passkey.WalletPasskey) :=
  ExceptT.mk (Prog.embed Cmd.simulation (Passkey.walletPasskeys site.platform wallet).run)

def confirmEntry (site : Site) (max : Option ℤ) (entry : Entry) : Route EntryOutcome :=
  part .entry (Competition.confirmEntry site.texts max entry)

/-- Issues a challenge to a wallet with passkeys. -/
def issueChallenge (site : Site) (wallet : String) (passkeys : List Passkey.WalletPasskey) :
    Route Response := do
  if passkeys.isEmpty then return .error 400 "No passkey found on that wallet"
  else
    let challenge ← send .randomChallenge
    send (.setChallenge wallet challenge)
    return .challenge challenge (passkeys.map fun p => site.platform.toB64url p.credentialId)

/-- A one-time challenge for the wallet's passkey to sign, valid 5 minutes. -/
def challengePOST (site : Site) (ip wallet : String) : Route Response := do
  match ← limited site ip with
  | some refusal => return .refused refusal
  | none =>
  if !Core.isContractId wallet then return .error 400 "A smart wallet address is required" else
  if !site.hasStore then return .error 503 "Registration is not open" else
  let passkeys ← tryCatch (walletPasskeys site wallet) fun _ => return []
  issueChallenge site wallet passkeys

/-- Credits the invite: once, for a confirmed entrant other than yourself. -/
def creditInvite (wallet : String) (record : EntrantRecord) (inviter : EntrantRecord) :
    Route Unit :=
  if inviter.verified ∧ record.referredBy.getD "" = "" then do
    let _ ← (liftM (Prog.together [
      .entry (.setEntrant wallet { record with referredBy := some inviter.handle }),
      .incrReferrals inviter.handle]) : Route (Heard Cmd.Reply))
    return ()
  else return ()

/-- The invite that a person came through. -/
def invite (site : Site) (body : Body) (record : EntrantRecord) : Route Unit :=
  match body.ref with
  | none => return ()
  | some ref =>
    if ref = "" ∨ site.texts.toLowerCase ref = site.texts.toLowerCase body.handle then return ()
    else do
      let inviter ← send (.entry (.getClaim (site.texts.handleKey ref)))
      match inviter.filter (fun wallet => wallet ≠ "" ∧ wallet ≠ body.wallet) with
      | none => return ()
      | some inviter => do
        let inviterRecord ← send (.entry (.getEntrant inviter))
        match inviterRecord with
        | none => return ()
        | some inviterRecord => creditInvite body.wallet record inviterRecord

/-- The entry, once the wallet is proved. -/
def enter (site : Site) (body : Body) (max : Option ℤ) : Route Response := do
  let now ← send .now
  let entered ← confirmEntry site max ⟨body.wallet, body.handle, body.email, now.1, now.2⟩
  match entered with
  | .error text => return .error 409 text
  | .ok record => do
    invite site body record
    return .registered body.handle

/-- The proof that the person controls the wallet. The challenge works once. -/
def proveWallet (site : Site) (body : Body) (max : Option ℤ) : Route Response := do
  let challenge ← send (.getdelChallenge body.wallet)
  match challenge.filter (· ≠ "") with
  | none => return .error 400 "The challenge expired; try again"
  | some challenge =>
    let passkeys ← walletPasskeys site body.wallet
    match Passkey.verifyAssertion site.platform passkeys body.assertion challenge with
    | .error thrown => throw thrown
    | .ok (some problem) => return .error 403 problem
    | .ok none => enter site body max

/-- Entries close once the cap is reached. -/
def checkFull (site : Site) (body : Body) (max : Option ℤ) : Route Response :=
  match max with
  | none => proveWallet site body none
  | some places => do
    let entrants ← send .scard
    if (entrants : ℤ) ≥ places then return .error 409 (fullText max)
    else proveWallet site body max

/-- Enters the competition. -/
def registerPOST (site : Site) (ip : String) (json : Js) : Route Response := do
  match ← limited site ip with
  | some refusal => return .refused refusal
  | none =>
  match readBody site json with
  | .error issue => return .invalid issue
  | .ok body =>
  if site.texts.toLowerCase body.handle ∈ RESERVED_HANDLES then
    return .error 409 "That handle is taken"
  else if !site.hasStore then return .error 503 "Registration is not open"
  else
    let config ← send (.entry .getConfig)
    match config with
    | none => return .error 409 "There is no competition open right now"
    | some config => checkFull site body (maxEntrantsOf (some config))

/-- A request to one of the routes, or time that passes. -/
inductive Request
  | challenge (ip wallet : String)
  | register (ip : String) (json : Js)
  | link (now : ℕ) (token : String)
  | wait (seconds : ℕ)

/-- What a request runs. -/
def serve (site : Site) : Request → Route Response
  | .challenge ip wallet => challengePOST site ip wallet
  | .register ip json => registerPOST site ip json
  | .link now token => do
    let page ← part .entry (Competition.GET now token)
    return .page page
  | .wait seconds => do
    send (.wait seconds)
    return .waited

abbrev Requests (W : Type) : Type := Pool (Store W) Request Cmd.Reply (Except String Response)

end Koul.Register
