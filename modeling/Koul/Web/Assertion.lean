import Koul.Lib.Heard
import Koul.Lib.JsonText
import Koul.Lib.Utf8
import Koul.Web.PasskeyProof
import Mathlib.Algebra.Order.Floor.Semiring
import Mathlib.Data.Rat.Floor

set_option relaxedAutoImplicit false
set_option autoImplicit false

/-!
# Proof that a person controls a wallet

A passkey signature over a one-time challenge, checked against the passkeys that the wallet itself
stores on chain: `walletPasskeys` and `verifyAssertion` of `web/lib/passkey-proof.ts`.

## Main definitions

* `Koul.Passkey.walletPasskeys` — every passkey signer across the wallet's context rules.
* `Koul.Passkey.verifyAssertion` — what is wrong with an assertion, if anything is.
* `Koul.Passkey.Signs` — the key has signed the challenge, for a Koul origin, with the person present.

## Main results

* `Koul.Passkey.signs_of_verifyAssertion` — an assertion with which nothing is wrong is signed by one of
  the keys.
* `Koul.Passkey.Signs.challenge_eq` — an assertion signs one challenge.
-/

namespace Koul.Passkey

open Interleaving Interleaving.Prog

abbrev Text := List Char

/-- What the platform does: hashes, signatures, URLs and the texts of bytes. -/
structure Platform where
  numerals : JsonText.Numerals
  /-- `Buffer.from(text, "base64url")`. -/
  b64url : String → Buffer
  /-- `buffer.toString("base64url")`. -/
  toB64url : Buffer → String
  sha256 : Buffer → Buffer
  /-- `new URL(origin).hostname`, `none` where it throws. -/
  hostname : Text → Option Text
  /-- Whether bytes are imported as a P-256 public key; others throw. -/
  isKey : Buffer → Bool
  verify (publicKey raw signed : Buffer) : Bool
  WEBAUTHN_VERIFIER : String
  production : Bool

/-! ## The wallet's passkeys -/

structure WalletPasskey where
  publicKey : Buffer
  credentialId : Buffer
deriving DecidableEq, Repr

/-- A signer of a context rule, as it is read. -/
inductive Signer
  | external (verifier : String) (data : Buffer)
  | other
deriving DecidableEq, Repr

/-- The simulated calls: `get_context_rules_count` and `get_context_rule`. -/
inductive Simulation
  | rulesCount (wallet : String)
  | rule (wallet : String) (id : ℕ)
deriving DecidableEq, Repr

/-- What a simulation answers, if the network does: the count as a number, `none` when it is none, and
the signers of the rule. -/
@[reducible] def Simulation.Reply : Simulation → Type
  | rulesCount _ => Except String (Option ℚ)
  | rule _ _ => Except String (List Signer)

def simulate {α : Type} (c : Simulation) (read : c.Reply → Except String α) :
    Thrower Simulation.Reply String α := Thrower.ask c read

variable (P : Platform)

/-- The passkeys among a rule's signers: 65 bytes of public key and the credential id. -/
def passkeysOf (signers : List Signer) : List WalletPasskey :=
  signers.filterMap fun
    | .external verifier data =>
      if verifier ≠ P.WEBAUTHN_VERIFIER ∨ data.length ≤ 65 then none
      else some ⟨data.take 65, data.drop 65⟩
    | .other => none

def rulePasskeys (wallet : String) : List ℕ → Thrower Simulation.Reply String (List WalletPasskey)
  | [] => return []
  | i :: ids => do
    let signers ← simulate (.rule wallet i) id
    let rest ← rulePasskeys wallet ids
    return passkeysOf P signers ++ rest

/-- Every passkey signer across the wallet's context rules. -/
def walletPasskeys (wallet : String) : Thrower Simulation.Reply String (List WalletPasskey) := do
  let count ← simulate (.rulesCount wallet) id
  rulePasskeys P wallet (List.range ⌈min (count.getD 0) 32⌉₊)

/-! ## The assertion -/

structure Assertion where
  credentialId : String
  authenticatorData : String
  clientDataJSON : String
  signature : String
deriving DecidableEq, Repr

/-- The relying party that a browser at `origin` signs for: koul.me on every koul.me host. -/
def rpIdFor (origin : Text) : Option Text :=
  match P.hostname origin with
  | none => none
  | some host =>
    if host = "koul.me".toList ∨ ".koul.me".toList <:+ host then some "koul.me".toList
    else if P.production = false ∧ (host = "localhost".toList ∨ ".localhost".toList <:+ host) then
      some host
    else none

/-- `JSON.parse` of the client's data. -/
def client? (a : Assertion) : Option Js :=
  JsonText.parse? P.numerals (Utf8.run .start (P.b64url a.clientDataJSON))

/-- The bytes that the passkey signs. -/
def signed (a : Assertion) : Buffer :=
  P.b64url a.authenticatorData ++ P.sha256 (P.b64url a.clientDataJSON)

/-- The last checks: the key and the signature. -/
def verifySignature (key : WalletPasskey) (a : Assertion) : Except String (Option String) :=
  if !P.isKey key.publicKey then .error "The key data is not valid"
  else
    match derToRaw (P.b64url a.signature) with
    | .error _ => .ok (some "The passkey signature is malformed")
    | .ok raw =>
      if P.verify key.publicKey raw (signed P a) then .ok none
      else .ok (some "The passkey signature does not verify")

/-- The checks of what the authenticator says. -/
def verifyAuthenticator (key : WalletPasskey) (a : Assertion) (rpId : Text) :
    Except String (Option String) :=
  let auth := P.b64url a.authenticatorData
  if auth.length < 37 ∨ auth.take 32 ≠ P.sha256 (Utf8.encode rpId) then
    .ok (some "The passkey belongs to another site")
  else if (auth.getD 32 0 &&& 0x01) = 0 then
    .ok (some "The passkey was not confirmed by the person")
  else verifySignature P key a

/-- The checks of what the client says. -/
def verifyClient (key : WalletPasskey) (a : Assertion) (challenge : String) (client : Js) :
    Except String (Option String) :=
  match Js.prop? "type" client, Js.prop? "challenge" client, Js.prop? "origin" client with
  | some type, some answered, some origin =>
    if !Js.isText type "webauthn.get" then .ok (some "The passkey answer is not a sign-in")
    else if !Js.isText answered challenge then
      .ok (some "The challenge does not match; ask for a new one")
    else
      match if Js.truthy origin then rpIdFor P (JsonText.toText P.numerals origin) else none with
      | none => .ok (some "The passkey answer comes from another site")
      | some rpId => verifyAuthenticator P key a rpId
  -- `client` is null
  | _, _, _ => .error "Cannot read properties of null (reading 'type')"

/-- Checks one assertion against the wallet's passkeys: `none` when it holds, otherwise why not. -/
def verifyAssertion (passkeys : List WalletPasskey) (a : Assertion) (challenge : String) :
    Except String (Option String) :=
  match passkeys.find? fun p => p.credentialId == P.b64url a.credentialId with
  | none => .ok (some "That passkey does not belong to this wallet")
  | some key =>
    match client? P a with
    | none => .ok (some "The passkey answer is malformed")
    | some client => verifyClient P key a challenge client

/-! ## What an assertion proves -/

/-- The key has signed the challenge, for a Koul origin, with the person present. -/
structure Signs (key : WalletPasskey) (a : Assertion) (challenge : String) : Prop where
  credential : key.credentialId = P.b64url a.credentialId
  client : ∃ client, client? P a = some client ∧
    Js.prop? "type" client = some (.string "webauthn.get") ∧
    Js.prop? "challenge" client = some (.string challenge) ∧
    ∃ origin rpId, Js.prop? "origin" client = some origin ∧
      rpIdFor P (JsonText.toText P.numerals origin) = some rpId ∧
      (P.b64url a.authenticatorData).take 32 = P.sha256 (Utf8.encode rpId)
  present : ∃ flags, (P.b64url a.authenticatorData)[32]? = some flags ∧ flags &&& 0x01 ≠ 0
  verified : ∃ raw, derToRaw (P.b64url a.signature) = .ok raw ∧
    P.verify key.publicKey raw (signed P a) = true

variable {P} {key : WalletPasskey} {a : Assertion} {challenge : String}

lemma verifySignature_eq_none (h : verifySignature P key a = .ok none) :
    ∃ raw, derToRaw (P.b64url a.signature) = .ok raw ∧
      P.verify key.publicKey raw (signed P a) = true := by
  unfold verifySignature at h
  split_ifs at h with hkey
  cases hraw : derToRaw (P.b64url a.signature) with
  | error e =>
    rw [hraw] at h
    cases h
  | ok raw =>
    rw [hraw] at h
    dsimp only at h
    split_ifs at h with hverify
    · exact ⟨raw, rfl, hverify⟩
    · cases h

lemma verifyAuthenticator_eq_none {rpId : Text} (h : verifyAuthenticator P key a rpId = .ok none) :
    (P.b64url a.authenticatorData).take 32 = P.sha256 (Utf8.encode rpId) ∧
      (∃ flags, (P.b64url a.authenticatorData)[32]? = some flags ∧ flags &&& 0x01 ≠ 0) ∧
      verifySignature P key a = .ok none := by
  unfold verifyAuthenticator at h
  dsimp only at h
  split_ifs at h with hsite hpresent
  · cases h
  · cases h
  · obtain ⟨hlength, hhash⟩ := not_or.mp hsite
    have h32 : 32 < (P.b64url a.authenticatorData).length := by omega
    refine ⟨not_not.mp hhash, ⟨_, List.getElem?_eq_getElem h32, ?_⟩, h⟩
    rw [List.getD_eq_getElem?_getD, List.getElem?_eq_getElem h32, Option.getD_some] at hpresent
    exact hpresent

lemma verifyClient_eq_none {client : Js} (h : verifyClient P key a challenge client = .ok none) :
    Js.prop? "type" client = some (.string "webauthn.get") ∧
      Js.prop? "challenge" client = some (.string challenge) ∧
      ∃ origin rpId, Js.prop? "origin" client = some origin ∧
        rpIdFor P (JsonText.toText P.numerals origin) = some rpId ∧
        verifyAuthenticator P key a rpId = .ok none := by
  unfold verifyClient at h
  cases htype : Js.prop? "type" client with
  | none => simp [htype] at h
  | some type =>
    cases hanswered : Js.prop? "challenge" client with
    | none => simp [hanswered] at h
    | some answered =>
      cases horigin : Js.prop? "origin" client with
      | none => simp [horigin] at h
      | some origin =>
        simp only [htype, hanswered, horigin] at h
        split_ifs at h with ht hc hs
        · cases h
        · cases h
        · rw [Bool.not_eq_true', Bool.not_eq_false, Js.isText_eq_true_iff] at ht hc
          cases hrp : rpIdFor P (JsonText.toText P.numerals origin) with
          | none =>
            rw [hrp] at h
            cases h
          | some rpId =>
            rw [hrp] at h
            exact ⟨congrArg some ht, congrArg some hc, origin, rpId, rfl, hrp, h⟩
        · cases h

/-- An assertion with which nothing is wrong is signed by one of the keys. -/
theorem signs_of_verifyAssertion {passkeys : List WalletPasskey}
    (h : verifyAssertion P passkeys a challenge = .ok none) :
    ∃ key ∈ passkeys, Signs P key a challenge := by
  unfold verifyAssertion at h
  cases hfind : passkeys.find? fun p => p.credentialId == P.b64url a.credentialId with
  | none =>
    rw [hfind] at h
    cases h
  | some key =>
    rw [hfind] at h
    dsimp only at h
    have hcredential : key.credentialId = P.b64url a.credentialId := by
      simpa using List.find?_some hfind
    cases hclient : client? P a with
    | none =>
      rw [hclient] at h
      cases h
    | some client =>
      rw [hclient] at h
      obtain ⟨htype, hchallenge, origin, rpId, horigin, hrp, hauth⟩ := verifyClient_eq_none h
      obtain ⟨hhash, hpresent, hsignature⟩ := verifyAuthenticator_eq_none hauth
      exact ⟨key, List.mem_of_find?_eq_some hfind, hcredential,
        ⟨client, hclient, htype, hchallenge, origin, rpId, horigin, hrp, hhash⟩, hpresent,
        verifySignature_eq_none hsignature⟩

/-- An assertion signs one challenge. -/
lemma Signs.challenge_eq {key' : WalletPasskey} {challenge' : String} (h : Signs P key a challenge)
    (h' : Signs P key' a challenge') : challenge = challenge' := by
  obtain ⟨client, hclient, -, hchallenge, -⟩ := h.client
  obtain ⟨client', hclient', -, hchallenge', -⟩ := h'.client
  obtain rfl := Option.some.inj (hclient.symm.trans hclient')
  exact Js.string.inj (Option.some.inj (hchallenge.symm.trans hchallenge'))

/-! ## What the passkeys were read from -/

/-- The request has heard a rule of the wallet that lists the key under the WebAuthn verifier. -/
def Listed (P : Platform) (h : Heard Simulation.Reply) (wallet : String) (key : WalletPasskey) :
    Prop :=
  key.publicKey.length = 65 ∧ ∃ i signers, ⟨.rule wallet i, .ok signers⟩ ∈ h ∧
    .external P.WEBAUTHN_VERIFIER (key.publicKey ++ key.credentialId) ∈ signers

lemma Listed.mono {h h' : Heard Simulation.Reply} {wallet : String} (hl : Listed P h wallet key)
    (hh : ∀ m ∈ h, m ∈ h') : Listed P h' wallet key := by
  obtain ⟨hlength, i, signers, hmem, hsigner⟩ := hl
  exact ⟨hlength, i, signers, hh _ hmem, hsigner⟩

lemma listed_passkeysOf {signers : List Signer} (hkey : key ∈ passkeysOf P signers) :
    key.publicKey.length = 65 ∧
      .external P.WEBAUTHN_VERIFIER (key.publicKey ++ key.credentialId) ∈ signers := by
  obtain ⟨signer, hsigner, hread⟩ := List.mem_filterMap.mp hkey
  cases signer with
  | other => cases hread
  | external verifier data =>
    dsimp only at hread
    split_ifs at hread with hskip
    obtain ⟨hverifier, hlength⟩ := not_or.mp hskip
    obtain rfl := Option.some.inj hread
    obtain rfl := not_not.mp hverifier
    refine ⟨by simp; omega, ?_⟩
    dsimp only
    rw [List.take_append_drop]
    exact hsigner

lemma returns_rulePasskeys {wallet : String} {ids : List ℕ} {h : Heard Simulation.Reply}
    {keys : List WalletPasskey} (hret : Returns (rulePasskeys P wallet ids).run h (.ok keys)) :
    ∀ key ∈ keys, Listed P h wallet key := by
  induction ids generalizing h keys with
  | nil =>
    obtain ⟨-, heq⟩ := hret
    obtain rfl := Except.ok.inj heq
    simp
  | cons i ids ih =>
    obtain ⟨h₁, signers, h₂, rfl, hask, hrest⟩ := Thrower.returns_bind_ok.mp hret
    obtain ⟨h₃, rest, h₄, rfl, hih, -, heq⟩ := Thrower.returns_bind_ok.mp hrest
    obtain rfl := Except.ok.inj heq
    obtain ⟨answer, rfl, hanswer⟩ := Thrower.returns_ask_iff.mp hask
    obtain rfl : answer = .ok signers := hanswer
    intro key hkey
    rcases List.mem_append.mp hkey with hkey | hkey
    · obtain ⟨hlength, hsigner⟩ := listed_passkeysOf hkey
      exact ⟨hlength, i, signers, List.mem_cons_self, hsigner⟩
    · refine (ih hih key hkey).mono fun m hm => ?_
      exact List.mem_append_right _ (List.mem_append_left _ hm)

/-- **The passkeys of a wallet** are listed by its rules. -/
lemma returns_walletPasskeys {wallet : String} {h : Heard Simulation.Reply}
    {keys : List WalletPasskey} (hret : Returns (walletPasskeys P wallet).run h (.ok keys)) :
    ∀ key ∈ keys, Listed P h wallet key := by
  obtain ⟨h₁, count, h₂, rfl, -, hrest⟩ := Thrower.returns_bind_ok.mp hret
  intro key hkey
  exact (returns_rulePasskeys hrest key hkey).mono fun m hm => List.mem_append_right _ hm

end Koul.Passkey
