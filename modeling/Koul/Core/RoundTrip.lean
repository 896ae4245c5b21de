import Koul.Core.ScVal
import Koul.Router.Registry

set_option relaxedAutoImplicit false
set_option autoImplicit false

/-!
# Round trips of the codec

What the encoder writes is read back unchanged, and which stored autopilots the decoder reads:
it parses with the schema, so those whose tokens are contracts and whose FX assets have a text.

## Main definitions

* `Koul.Core.Encodable` — a valid autopilot with real token ids and symbols for its assets.
* `Koul.Core.exampleSdk` — an SDK that does what the documentation says.

## Main results

* `Koul.Core.decode_encode` — decoding undoes encoding, so encoding is injective.
* `Koul.Core.decode_stored_iff` — which stored autopilots are read, and written back the same.
-/

namespace Koul.Core

open Zod.Outcome

/-! ## Tokens -/

def Condition.tokens : Condition → List String
  | .tokenPrice token _ _ => [token]
  | .tokenBalance token _ _ => [token]
  | _ => []

def Action.tokens : Action → List String
  | .swapFromWallet tokenIn tokenOut _ _ => [tokenIn, tokenOut]
  | .withdrawAndSwap _ tokenOut _ _ => [tokenOut]
  | _ => []

def Rule.tokens (r : Rule) : List String := r.conditions.flatMap (·.tokens) ++ r.action.tokens

/-- The token ids that the rules name. -/
def Autopilot.tokens (ap : Autopilot) : List String := ap.rules.flatMap (·.tokens)

@[simp] lemma tokens_printCondition (c : Router.Condition) :
    (printCondition c).tokens = c.tokens := by cases c <;> rfl

@[simp] lemma tokens_printAction (a : Router.Action) : (printAction a).tokens = a.tokens := by
  cases a <;> rfl

/-- Printing keeps the tokens. -/
@[simp] lemma tokens_printAutopilot (ap : Router.Autopilot) :
    (printAutopilot ap).tokens = ap.tokens := by
  simp [Autopilot.tokens, Router.Autopilot.tokens, printAutopilot, Rule.tokens,
    Router.Rule.tokens, printRule, List.flatMap_map]

lemma assets_printCondition (c : Router.Condition) :
    (printCondition c).assets = c.assets.map (·.name) := by cases c <;> rfl

/-- Printing keeps the names of the assets. -/
lemma assets_printAutopilot (ap : Router.Autopilot) :
    (printAutopilot ap).assets = ap.assets.map (·.name) := by
  simp [Autopilot.assets, Router.Autopilot.assets, printAutopilot, Rule.assets, printRule,
    List.flatMap_map, List.map_flatMap, assets_printCondition]

/-- The tokens of an autopilot that the schema accepts are contract ids. -/
lemma isContractId_of_schemaOk {ap : Autopilot} (h : ap.SchemaOk) :
    ∀ t ∈ ap.tokens, isContractId t = true := by
  have hcondition : ∀ c : Condition, c.SchemaOk → ∀ t ∈ c.tokens, isContractId t = true := by
    intro c hc
    cases c <;> simp_all [Condition.tokens, Condition.SchemaOk]
  have haction : ∀ a : Action, a.SchemaOk → ∀ t ∈ a.tokens, isContractId t = true := by
    intro a ha
    cases a <;> simp_all [Action.tokens, Action.SchemaOk]
  intro t ht
  obtain ⟨r, hr, ht⟩ := List.mem_flatMap.mp ht
  rcases List.mem_append.mp ht with ht | ht
  · obtain ⟨c, hc, ht⟩ := List.mem_flatMap.mp ht
    exact hcondition c ((h.rules r hr).conditions c hc) t ht
  · exact haction r.action (h.rules r hr).action t ht

/-- Their assets are not empty. -/
lemma ne_empty_of_schemaOk {ap : Autopilot} (h : ap.SchemaOk) : ∀ a ∈ ap.assets, a ≠ "" := by
  have hcondition : ∀ c : Condition, c.SchemaOk → ∀ a ∈ c.assets, a ≠ "" := by
    intro c hc a ha
    cases c with
    | fxPrice asset cmp level maxAgeSecs =>
      obtain rfl := List.mem_singleton.mp ha
      rintro rfl
      exact absurd hc.1.1 (by decide)
    | _ => cases ha
  intro a ha
  obtain ⟨r, hr, ha⟩ := List.mem_flatMap.mp ha
  obtain ⟨c, hc, ha⟩ := List.mem_flatMap.mp ha
  exact hcondition c ((h.rules r hr).conditions c hc) a ha

/-- What prints an accepted autopilot passes the validator when no asset is empty. -/
lemma validate_print {ap : Router.Autopilot} (h : Accepted ap)
    (hassets : ∀ a ∈ ap.assets, a.name ≠ "") :
    validate (printAutopilot ap).toJs = some [] := by
  obtain ⟨hlimits, hsymbols⟩ := accepted_iff_inLimits.mp ⟨ap, rfl, h⟩
  refine validate_eq_nil_iff.mpr ⟨_, (printAutopilot ap).same_toJs,
    valid_iff_inLimits.mpr ⟨hlimits, fun a ha => ?_⟩⟩
  refine assetLengthOk_of_isSymbol (hsymbols a ha) ?_
  rw [assets_printAutopilot] at ha
  obtain ⟨s, hs, rfl⟩ := List.mem_map.mp ha
  exact hassets s hs

/-! ## Decoding undoes encoding -/

/-- A value that denotes a valid autopilot whose token ids have valid checksums and whose FX
assets are symbols. -/
structure Encodable (sdk : StellarSdk) (v : Js) (ap : Autopilot) : Prop where
  same : Js.Same ap.toJs v
  valid : validate v = some []
  tokens : ∀ t ∈ ap.tokens, (sdk.addressToScVal t).isSome
  assets : ∀ a ∈ ap.assets, IsSymbol a

/-- An encodable autopilot is encoded, and what it is encoded to is decoded to it. -/
lemma Encodable.roundTrip {sdk : StellarSdk} (hsdk : sdk.Documented) {v : Js} {ap : Autopilot}
    (h : Encodable sdk v ap) :
    ∃ val, sdk.encodeAutopilot v = .ok val ∧ sdk.decodeAutopilot val = .ok ap := by
  obtain ⟨ap₀, hsame, hvalid⟩ := validate_eq_nil_iff.mp h.valid
  obtain rfl := Autopilot.eq_of_same h.same hsame
  obtain ⟨ap', rfl, haccepted⟩ :=
    accepted_iff_inLimits.mpr ⟨(valid_iff_inLimits.mp hvalid).1, h.assets⟩
  have htokens : ∀ t ∈ ap'.tokens, sdk.addressToScVal t = some (.scvAddress t) := by
    intro t ht
    rw [← tokens_printAutopilot] at ht
    obtain ⟨val, hval⟩ := Option.isSome_iff_exists.mp (h.tokens t ht)
    rw [hval, hsdk.address t val hval]
  refine ⟨ap'.toScVal, StellarSdk.encodeAutopilot_print hsdk haccepted.fits haccepted.ok htokens
    h.same h.valid, ?_⟩
  rw [StellarSdk.decodeAutopilot_toScVal hsdk, parseAutopilot_eq_ok]
  exact autopilotSchema_eq_valid_iff.mpr ⟨(printAutopilot ap').same_toJs, hvalid.1⟩

/-- **Decoding undoes encoding**: a valid autopilot with real token ids and symbols is encoded,
the value is decoded to the same autopilot, field for field, and no other autopilot is encoded
to it. -/
theorem decode_encode {sdk : StellarSdk} (hsdk : sdk.Documented) {v : Js} {ap : Autopilot}
    (h : Encodable sdk v ap) :
    (∃ val, sdk.encodeAutopilot v = .ok val ∧ sdk.decodeAutopilot val = .ok ap) ∧
      ∀ v' ap', Encodable sdk v' ap' → sdk.encodeAutopilot v' = sdk.encodeAutopilot v →
        ap' = ap := by
  obtain ⟨val, hencode, hdecode⟩ := h.roundTrip hsdk
  refine ⟨⟨val, hencode, hdecode⟩, fun v' ap' h' heq => ?_⟩
  obtain ⟨val', hencode', hdecode'⟩ := h'.roundTrip hsdk
  rw [hencode', hencode, Except.ok.injEq] at heq
  rw [heq, hdecode, Except.ok.injEq] at hdecode'
  exact hdecode'.symm

mutual

/-- A contract value in JavaScript. -/
def exampleNative : ScVal → Js
  | .scvBool b => .bool b
  | .scvU32 n => .number n
  | .scvU64 n => .bigint n
  | .scvI128 z => .bigint z
  | .scvSymbol s => .string s
  | .scvAddress a => .string a
  | .scvVec vs => .array (exampleItems vs)
  | .scvMap entries => .object (exampleFields entries)

def exampleItems : List ScVal → List Js
  | [] => []
  | v :: vs => exampleNative v :: exampleItems vs

def exampleFields : List (String × ScVal) → List (String × Js)
  | [] => []
  | (k, v) :: entries => (k, exampleNative v) :: exampleFields entries

end

/-- An SDK that does what the documentation says, on ids with valid checksums. -/
def exampleSdk : StellarSdk where
  nativeToU64 z := if 0 ≤ z ∧ z ≤ 0xffffffffffffffff then some (.scvU64 z.toNat) else none
  nativeToI128 z := if Router.FitsI128 z then some (.scvI128 z) else none
  addressToScVal s := if s.length = 56 then some (.scvAddress s) else none
  scValToNative := exampleNative

lemma exampleSdk_documented : exampleSdk.Documented where
  u64 := by
    intro n hn
    have hfits : (0 : ℤ) ≤ n ∧ (n : ℤ) ≤ 0xffffffffffffffff := by
      unfold Router.FitsU64 at hn
      omega
    exact if_pos hfits
  i128 _ hz := if_pos hz
  address := by
    intro s v h
    simp only [exampleSdk] at h
    split_ifs at h
    exact (Option.some.inj h).symm
  nativeBool _ := rfl
  nativeU32 _ := rfl
  nativeU64 _ := rfl
  nativeI128 _ := rfl
  nativeSymbol _ := rfl
  nativeAddress _ := rfl
  nativeVec := by
    intro vs
    have hitems : exampleItems vs = vs.map exampleNative := by
      induction vs with
      | nil => rfl
      | cons v vs ih => rw [exampleItems, ih, List.map_cons]
    show exampleNative (.scvVec vs) = _
    rw [exampleNative, hitems]
    rfl
  nativeMap := by
    intro entries hnodup
    clear hnodup
    have hfields : exampleFields entries = entries.map fun e => (e.1, exampleNative e.2) := by
      induction entries with
      | nil => rfl
      | cons e entries ih =>
        obtain ⟨k, v⟩ := e
        rw [exampleFields, ih, List.map_cons]
    show exampleNative (.scvMap entries) = _
    rw [exampleNative, hfields]
    rfl

/-- An autopilot with an FX rule and a swap of two tokens. -/
def exampleAutopilot : Autopilot :=
  ⟨"18446744073709551615", [
    ⟨[.fxPrice "TRY" .below "2000000000000" "900"], true,
      .repayWithCollateral 2 1 (.fixed "10000000"), 1⟩,
    ⟨[.tokenPrice "CAAVTMCBXEIBPR64EAASKFXERVPYFZA2JYP5A3BG6PESWEFUJX5IHKN4" .atOrAbove
        "100000000000000", .idleBalance .atOrAbove "0"], false,
      .swapFromWallet "CAAVTMCBXEIBPR64EAASKFXERVPYFZA2JYP5A3BG6PESWEFUJX5IHKN4"
        "CBIELTK6YBZJU5UP2WWQEUCYKLPU6AUNZ2BQ4WWFEIE3USCIHMXQDAMA" (.percent 5000) 100, 300⟩]⟩

/-- It is encoded and decoded to itself. -/
theorem decode_encode_example : ∃ val, exampleSdk.encodeAutopilot exampleAutopilot.toJs = .ok val ∧
    exampleSdk.decodeAutopilot val = .ok exampleAutopilot :=
  (decode_encode exampleSdk_documented
    ⟨exampleAutopilot.same_toJs, by decide +kernel, by decide +kernel, by decide +kernel⟩).1

/-! ## What the router stores -/

/-- **Stored autopilots** are read, and written back the same, exactly when every token they name
is a contract and no FX asset is the empty symbol.
**Proof sketch.** The decoder parses the printed autopilot with the schema, which wants contract
ids and a text of 1 to 32 characters; all its other bounds are the router's own. -/
theorem decode_stored_iff {sdk : StellarSdk} (hsdk : sdk.Documented) {σ : Type}
    {w w' : Router.World σ} {auth : Bool} {user : Address} {id : ℕ} {ap : Router.Autopilot}
    (hstored : Router.setAutopilot auth user id ap w = .ok w') (hfits : ap.Fits)
    (haddresses : ∀ t ∈ ap.tokens, sdk.addressToScVal t = some (.scvAddress t)) :
    (∃ ap', sdk.decodeAutopilot ap.toScVal = .ok ap' ∧
      sdk.encodeAutopilot ap'.toJs = .ok ap.toScVal) ↔
    (∀ t ∈ ap.tokens, isContractId t = true) ∧ ∀ a ∈ ap.assets, a.name ≠ "" := by
  obtain ⟨-, hok, -, -⟩ := Router.setAutopilot_ok hstored
  simp only [StellarSdk.decodeAutopilot_toScVal hsdk, parseAutopilot_eq_ok,
    autopilotSchema_eq_valid_iff]
  constructor
  · rintro ⟨ap', ⟨hsame, hschema⟩, -⟩
    obtain rfl := Autopilot.eq_of_same hsame (printAutopilot ap).same_toJs
    refine ⟨fun t ht => isContractId_of_schemaOk hschema t (by simpa using ht), fun a ha => ?_⟩
    refine ne_empty_of_schemaOk hschema a.name ?_
    rw [assets_printAutopilot]
    exact List.mem_map_of_mem ha
  · rintro ⟨htokens, hassets⟩
    have hvalid := validate_print ⟨hfits, htokens, hok⟩ hassets
    obtain ⟨ap₀, hsame₀, hschema₀, -⟩ := validate_eq_nil_iff.mp hvalid
    obtain rfl := Autopilot.eq_of_same hsame₀ (printAutopilot ap).same_toJs
    exact ⟨printAutopilot ap, ⟨(printAutopilot ap).same_toJs, hschema₀⟩,
      StellarSdk.encodeAutopilot_print hsdk hfits hok haddresses (printAutopilot ap).same_toJs
        hvalid⟩

/-- A new router. -/
def emptyRouter : Router.World Unit :=
  .init "admin" ⟨"controller", "pool", "usdc", "oracle", 1⟩ ⟨1000, 0⟩ ()

/-- A rule on the balance of `token`. -/
def balanceAutopilot (token : Address) : Router.Autopilot :=
  ⟨1, [⟨[.tokenBalance token .atOrAbove 0], true, .supplyFromWallet 1 .all, 60⟩]⟩

/-- A stored autopilot on a contract token is read, and written back the same. -/
theorem decode_stored_contractToken :
    let ap := balanceAutopilot "CAAVTMCBXEIBPR64EAASKFXERVPYFZA2JYP5A3BG6PESWEFUJX5IHKN4"
    ∃ ap', exampleSdk.decodeAutopilot ap.toScVal = .ok ap' ∧
      exampleSdk.encodeAutopilot ap'.toJs = .ok ap.toScVal := by
  intro ap
  have hfits : ap.Fits := by
    refine ⟨by decide, fun r hr => ?_⟩
    obtain rfl := List.mem_singleton.mp hr
    refine ⟨fun c hc => ?_, ⟨by decide, trivial⟩, by decide⟩
    obtain rfl := List.mem_singleton.mp hc
    exact ⟨by decide, by decide⟩
  have haddresses : ∀ t ∈ ap.tokens, exampleSdk.addressToScVal t = some (.scvAddress t) := by
    intro t ht
    have hlength : t.length = 56 := by
      rw [List.mem_singleton.mp ht]
      decide +kernel
    exact if_pos hlength
  have hstored : Router.setAutopilot true "wallet" 1 ap emptyRouter = .ok _ := rfl
  exact (decode_stored_iff exampleSdk_documented hstored hfits haddresses).mpr
    ⟨by decide +kernel, by decide⟩

/-- The router stores a rule on the balance of an account's address, as no check of it looks at
that token, and the decoder refuses to read it. -/
theorem decode_stored_accountToken :
    let ap := balanceAutopilot "GAAZI4TCR3TY5OJHCTJC2A4QSY6CJWJH5IAJTGKIN2ER7LBNVKOCCWN7"
    (Router.setAutopilot true "wallet" 1 ap emptyRouter).isOk = true ∧
      exampleSdk.decodeAutopilot ap.toScVal = .error (.zod
        [⟨["rules", "0", "conditions", "0", "token"],
          .custom "Must be a contract address (C...)"⟩]) := by
  intro ap
  refine ⟨by decide +kernel, ?_⟩
  rw [StellarSdk.decodeAutopilot_toScVal exampleSdk_documented]
  decide +kernel

end Koul.Core
