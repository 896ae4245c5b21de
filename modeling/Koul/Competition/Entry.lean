import Koul.Lib.Interleaving
import Mathlib.Data.Finset.Card
import Mathlib.Data.Rat.Floor
import Mathlib.Logic.Function.Basic

set_option relaxedAutoImplicit false
set_option autoImplicit false

/-!
# Entering the competition

The two ways into the competition, as programs of store commands: `confirmEntry` of
`web/lib/competition-server.ts`, which the register route calls once a passkey signature has been
checked, and the confirmation link of `web/app/api/competition/verify/route.ts`.

## Main definitions

* `Koul.Competition.Store` — the keys of the store that an entry reads and writes.
* `Koul.Competition.Cmd.exec` — what the store does for a command, at once.
* `Koul.Competition.takePlace`, `Koul.Competition.confirmEntry`, `Koul.Competition.GET` — the
  programs.

## Main results

* `Koul.Competition.obeys_claim`, `Koul.Competition.obeys_takePlace`,
  `Koul.Competition.obeys_release` — what the parts of the programs send.
-/

namespace Koul.Competition

open Interleaving

/-! ## Settings and records -/

/-- The settings of a run of the competition that the modelled functions read. -/
structure CompetitionConfig where
  startLedger : ℤ
  endLedger : Option ℤ
  startingCapitalUsd : ℚ
  startingBasket : Option (List (String × ℚ))
  maxEntrants : Option ℚ
  autopilotOnly : Bool
  excludeTokens : List String
deriving DecidableEq, Repr

/-- The entry cap; `none` when there is none. -/
def maxEntrantsOf (config : Option CompetitionConfig) : Option ℤ :=
  match config.bind (·.maxEntrants) with
  | some m => if m > 0 then some ⌊m⌋ else none
  | none => none

/-- What the registration stores per entrant. -/
structure EntrantRecord where
  wallet : String
  handle : String
  email : String
  registeredAt : ℕ
  verifiedAt : Option ℕ
  acceptedTermsAt : Option ℕ
  referredBy : Option String
deriving DecidableEq, Repr

/-- `verifiedAt` is there and not 0. -/
def EntrantRecord.verified (rec : EntrantRecord) : Bool :=
  match rec.verifiedAt with
  | some t => t ≠ 0
  | none => false

/-! ## The store -/

/-- The keys that claim a handle or an email: `COMP_KEYS.handle` and `entryEmailKey`. -/
inductive ClaimKey
  | handle (lower : String)
  | email (hash : String)
deriving DecidableEq, Repr

/-- The functions on texts that the claim keys are made with. -/
structure Texts where
  toLowerCase : String → String
  sha256 : String → String

/-- The functions on the texts of the examples: handles are ASCII. -/
def exampleTexts : Texts where
  toLowerCase handle := String.ofList (handle.toList.map Char.toLower)
  sha256 email :=
    if email = "t1@example.com" then
      "cf5adc84529f45b4f32b940825b4f79b66fc382bef168a1b2610ae6c1c191ba8"
    else if email = "t2@example.com" then
      "6965291c77c63a7b4d7e45ed867072d08647a422d8d7082790531f170ac8523d"
    else if email = "t3@example.com" then
      "dce7c44552d49b0d314828af8cc0bf974a24da2e5f3cb47f8ead90da37bf6a67"
    else ""

def Texts.handleKey (tx : Texts) (handle : String) : ClaimKey := .handle (tx.toLowerCase handle)

def Texts.entryEmailKey (tx : Texts) (email : String) : ClaimKey := .email (tx.sha256 email)

/-- The claim keys a record names. -/
def Texts.keys (tx : Texts) (rec : EntrantRecord) : List ClaimKey :=
  [tx.handleKey rec.handle, tx.entryEmailKey rec.email]

structure Store where
  config : Option CompetitionConfig
  entrants : Finset String
  entrant : String → Option EntrantRecord
  claims : ClaimKey → Option String
  pending : String → Option String

def Store.empty : Store := ⟨none, ∅, fun _ => none, fun _ => none, fun _ => none⟩

/-- `PLACE_SCRIPT`: 1 when the wallet holds a place, and the set after it. -/
def PLACE_SCRIPT (entrants : Finset String) (wallet : String) (max : ℤ) : ℕ × Finset String :=
  if wallet ∈ entrants then (1, entrants)
  else if max ≥ 0 ∧ (entrants.card : ℤ) ≥ max then (0, entrants)
  else (1, insert wallet entrants)

/-- The store calls that an entry needs. -/
inductive Cmd
  | getConfig
  | getEntrant (wallet : String)
  | setEntrant (wallet : String) (rec : EntrantRecord)
  | getClaim (key : ClaimKey)
  | setClaim (key : ClaimKey) (wallet : String)
  | delClaims (keys : List ClaimKey)
  | eval (wallet : String) (max : ℤ)
  | sadd (wallet : String)
  | getPending (token : String)
  | delPending (token : String)
deriving DecidableEq, Repr

/-- The reply to a call. `setClaim` is `SET NX`: it says whether the key was free. -/
@[reducible] def Cmd.Reply : Cmd → Type
  | getConfig => Option CompetitionConfig
  | getEntrant _ => Option EntrantRecord
  | getClaim _ => Option String
  | setClaim _ _ => Bool
  | eval _ _ => ℕ
  | getPending _ => Option String
  | setEntrant _ _ | delClaims _ | sadd _ | delPending _ => Unit

/-- The store runs a call at once. -/
def Cmd.exec : (c : Cmd) → Store → c.Reply × Store
  | getConfig, s => (s.config, s)
  | getEntrant wallet, s => (s.entrant wallet, s)
  | setEntrant wallet rec, s => ((), { s with entrant := Function.update s.entrant wallet (some rec) })
  | getClaim key, s => (s.claims key, s)
  | setClaim key wallet, s =>
    ((s.claims key).isNone,
      { s with claims :=
          if (s.claims key).isNone then Function.update s.claims key (some wallet) else s.claims })
  | delClaims keys, s => ((), { s with claims := fun k => if k ∈ keys then none else s.claims k })
  | eval wallet max, s =>
    ((PLACE_SCRIPT s.entrants wallet max).1,
      { s with entrants := (PLACE_SCRIPT s.entrants wallet max).2 })
  | sadd wallet, s => ((), { s with entrants := insert wallet s.entrants })
  | getPending token, s => (s.pending token, s)
  | delPending token, s => ((), { s with pending := Function.update s.pending token none })

/-- Only `setEntrant` writes a record. -/
lemma entrant_exec {c : Cmd} {s : Store} {wallet : String} {rec : EntrantRecord}
    (h : (c.exec s).2.entrant wallet = some rec) :
    s.entrant wallet = some rec ∨ c = .setEntrant wallet rec := by
  cases c with
  | setEntrant wallet' rec' =>
    have hupdate : Function.update s.entrant wallet' (some rec') wallet = some rec := h
    by_cases heq : wallet = wallet'
    · subst heq
      rw [Function.update_self] at hupdate
      obtain rfl := Option.some.inj hupdate
      exact .inr rfl
    · rw [Function.update_of_ne heq] at hupdate
      exact .inl hupdate
  | _ => exact .inl h

lemma entrant_exec_set (wallet : String) (rec : EntrantRecord) (s : Store) :
    ((Cmd.setEntrant wallet rec).exec s).2.entrant wallet = some rec := by
  show Function.update s.entrant wallet (some rec) wallet = some rec
  rw [Function.update_self]

/-- Other commands leave a record. -/
lemma entrant_exec_of_some {c : Cmd} {s : Store} {wallet : String} {rec : EntrantRecord}
    (h : s.entrant wallet = some rec) (hset : ∀ rec', c ≠ .setEntrant wallet rec') :
    (c.exec s).2.entrant wallet = some rec := by
  cases c with
  | setEntrant wallet' rec' =>
    have hne : wallet ≠ wallet' := by
      rintro rfl
      exact hset rec' rfl
    show Function.update s.entrant wallet' (some rec') wallet = some rec
    rw [Function.update_of_ne hne]
    exact h
  | _ => exact h

/-- A key that was free is the claimer's. -/
lemma claims_exec_set {key : ClaimKey} {wallet : String} {s : Store} (h : s.claims key = none) :
    ((Cmd.setClaim key wallet).exec s).2.claims key = some wallet := by
  show (if (s.claims key).isNone then Function.update s.claims key (some wallet)
    else s.claims) key = some wallet
  rw [h, Option.isNone_none, if_pos rfl, Function.update_self]

/-! ## The programs -/

abbrev EntryProg (α : Type) : Type := Prog Cmd.Reply α

open Prog (together Obeys)

/-- One call to the store. -/
def redis (c : Cmd) : EntryProg c.Reply := Prog.ask c

/-- Takes a scored place for the wallet, in one script. -/
def takePlace (wallet : String) (max : Option ℤ) : EntryProg Bool := do
  let n ← redis (.eval wallet (max.getD (-1)))
  return n == 1

inductive EntryOutcome
  | ok (record : EntrantRecord)
  | error (text : String)
deriving DecidableEq, Repr

/-- What `confirmEntry` is called with, less the cap. -/
structure Entry where
  wallet : String
  handle : String
  email : String
  now : ℕ
  /-- `Date.now()` is past the epoch. -/
  now_pos : 0 < now
deriving DecidableEq, Repr

/-- The record an entry stores. -/
def Entry.record (entry : Entry) : EntrantRecord :=
  ⟨entry.wallet, entry.handle, entry.email, entry.now, some entry.now, some entry.now, none⟩

lemma Entry.record_verified (entry : Entry) : entry.record.verified = true :=
  decide_eq_true entry.now_pos.ne'

/-- `claim`: whether the wallet holds the key, and the keys it has claimed so far. -/
def claim (wallet : String) (claimed : List ClaimKey) (key : ClaimKey) :
    EntryProg (Bool × List ClaimKey) := do
  if ← redis (.setClaim key wallet) then return (true, claimed ++ [key])
  else
    let owner : Option String ← redis (.getClaim key)
    return (owner == some wallet, claimed)

/-- Deletes the keys, in one call, if there are any: `release`, and what lets a replaced entry's
keys go. -/
def release (keys : List ClaimKey) : EntryProg Unit :=
  if keys.length ≠ 0 then redis (.delClaims keys) else return ()

/-- Whether a reply says that the wallet holds the key. -/
def heldBy (owners : Heard Cmd.Reply) (wallet : String) (key : ClaimKey) : Bool :=
  owners.any fun
    | ⟨.getClaim k, owner⟩ => k == key && owner == some wallet
    | _ => false

/-- The keys of the pending entry that the new one does not use. -/
def staleKeys (tx : Texts) (existing : EntrantRecord) (entry : Entry) : List ClaimKey :=
  (if tx.toLowerCase existing.handle ≠ tx.toLowerCase entry.handle
    then [tx.handleKey existing.handle] else []) ++
  (if existing.email ≠ entry.email then [tx.entryEmailKey existing.email] else [])

/-- Lets the handle or email go that a replaced pending entry no longer uses. -/
def releaseStale (tx : Texts) (existing : Option EntrantRecord) (entry : Entry) :
    EntryProg Unit :=
  match existing with
  | none => return ()
  | some existing => do
    let stale := staleKeys tx existing entry
    let owners ← together (stale.map .getClaim)
    release (stale.filter (heldBy owners entry.wallet))

/-- The text of a full competition. -/
def fullText (max : Option ℤ) : String :=
  "Entries are full: all " ++
    (match max with
    | some m => toString m
    | none => "null") ++ " places are taken."

/-- Confirms an entry whose passkey signature has been checked: claims the handle and the email
for the wallet, takes a place under the cap and stores the record as verified. -/
def confirmEntry (tx : Texts) (max : Option ℤ) (entry : Entry) : EntryProg EntryOutcome := do
  let existing : Option EntrantRecord ← redis (.getEntrant entry.wallet)
  match existing.filter (·.verified) with
  | some existing => return .error s!"This wallet is already entered as {existing.handle}"
  | none =>
  let (handleOk, claimed) ← claim entry.wallet [] (tx.handleKey entry.handle)
  if !handleOk then return .error "That handle is taken" else
  let (emailOk, claimed) ← claim entry.wallet claimed (tx.entryEmailKey entry.email)
  if !emailOk then
    release claimed
    return .error "That email already has an entry"
  else
  let placed ← takePlace entry.wallet max
  if !placed then
    release claimed
    return .error (fullText max)
  else
  redis (.setEntrant entry.wallet entry.record)
  releaseStale tx existing entry
  return .ok entry.record

/-- The title and the status of a page. -/
structure Page where
  title : String
  status : ℕ
deriving DecidableEq, Repr

/-- `/^[A-Za-z0-9_-]{20,64}$/`. -/
def isToken (token : String) : Bool :=
  token.toList.all (fun c => c.isAlphanum || c == '_' || c == '-') &&
    20 ≤ token.length && token.length ≤ 64

/-- The writes of a confirmation link, sent together. -/
def markVerified (now : ℕ) (token wallet : String) (rec : EntrantRecord) : EntryProg Page := do
  let _ ← together [
    .setEntrant wallet { rec with verifiedAt := some (rec.verifiedAt.getD now) },
    .sadd wallet,
    .delPending token]
  return ⟨"You're in", 200⟩

/-- The link in the confirmation emails: marks the entry verified, unless the entry cap filled up
while the link waited. -/
def GET (now : ℕ) (token : String) : EntryProg Page := do
  if !isToken token then return ⟨"Link not valid", 400⟩ else
  let wallet : Option String ← redis (.getPending token)
  match wallet with
  | none => return ⟨"Link expired", 410⟩
  | some wallet =>
  let rec? : Option EntrantRecord ← redis (.getEntrant wallet)
  match rec? with
  | none => return ⟨"Entry not found", 404⟩
  | some rec =>
  let placed ← if rec.verified then pure true else do
    let config : Option CompetitionConfig ← redis .getConfig
    takePlace wallet (maxEntrantsOf config)
  if !placed then return ⟨"Entries are full", 409⟩
  else markVerified now token wallet rec

/-! ## What the programs send -/

section Obeys

variable {ι α : Type} {d : Discipline ι Cmd.Reply α} {i : ι} {h : Heard Cmd.Reply}

lemma obeys_redis {c : Cmd} {f : c.Reply → EntryProg α} : Obeys d i h (redis c >>= f) ↔
    d.may i h c ∧ ∀ r, d.can c r → Obeys d i (h ++ [⟨c, r⟩]) (f r) := Iff.rfl

/-- What a claim hears, whether the wallet holds the key after it and the keys claimed by then. -/
inductive ClaimAnswer (wallet : String) (key : ClaimKey) (claimed : List ClaimKey) :
    Heard Cmd.Reply → Bool → List ClaimKey → Prop
  | won : ClaimAnswer wallet key claimed [⟨.setClaim key wallet, true⟩] true (claimed ++ [key])
  | own : ClaimAnswer wallet key claimed
      [⟨.setClaim key wallet, false⟩, ⟨.getClaim key, some wallet⟩] true claimed
  | other (owner : Option String) (h : owner ≠ some wallet) : ClaimAnswer wallet key claimed
      [⟨.setClaim key wallet, false⟩, ⟨.getClaim key, owner⟩] false claimed

/-- Claiming a key asks for its owner when it is not free. -/
lemma obeys_claim {wallet : String} {claimed : List ClaimKey} {key : ClaimKey}
    {f : Bool × List ClaimKey → EntryProg α} (hset : d.may i h (.setClaim key wallet))
    (hget : d.may i (h ++ [⟨.setClaim key wallet, false⟩]) (.getClaim key))
    (hf : ∀ h' ok claimed', ClaimAnswer wallet key claimed h' ok claimed' →
      Obeys d i (h ++ h') (f (ok, claimed'))) :
    Obeys d i h (claim wallet claimed key >>= f) := by
  refine ⟨hset, fun free _ => ?_⟩
  cases free with
  | true => exact hf _ _ _ .won
  | false =>
    refine ⟨hget, fun owner _ => ?_⟩
    show Obeys d i _ (f (owner == some wallet, claimed))
    rw [List.append_assoc]
    by_cases howner : owner = some wallet
    · subst howner
      rw [beq_self_eq_true]
      exact hf _ _ _ .own
    · rw [beq_false_of_ne howner]
      exact hf _ _ _ (.other owner howner)

lemma obeys_takePlace {wallet : String} {max : Option ℤ} {f : Bool → EntryProg α} :
    Obeys d i h (takePlace wallet max >>= f) ↔
      d.may i h (.eval wallet (max.getD (-1))) ∧
      ∀ n : ℕ, d.can (.eval wallet (max.getD (-1))) n →
        Obeys d i (h ++ [⟨.eval wallet (max.getD (-1)), n⟩]) (f (n == 1)) := Iff.rfl

/-- Letting go of nothing sends nothing. -/
lemma obeys_release {keys : List ClaimKey} {f : Unit → EntryProg α}
    (hnone : keys = [] → Obeys d i h (f ()))
    (hdel : keys ≠ [] → d.may i h (.delClaims keys) ∧
      Obeys d i (h ++ [⟨.delClaims keys, ()⟩]) (f ())) :
    Obeys d i h (release keys >>= f) := by
  unfold release
  cases keys with
  | nil => exact hnone rfl
  | cons key keys =>
    obtain ⟨hmay, hnext⟩ := hdel (List.cons_ne_nil key keys)
    exact ⟨hmay, fun _ _ => hnext⟩

end Obeys

end Koul.Competition
