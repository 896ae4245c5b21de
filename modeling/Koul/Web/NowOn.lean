import Koul.Core.RoundTrip
import Koul.Router.Refinement
import Koul.Web.ReadBack

set_option relaxedAutoImplicit false
set_option autoImplicit false

/-!
# The card marked as current

`useAutopilotLive` of `web/hooks/use-autopilot-live.ts`: which card the page marks as the one a tick
would run. It takes the rule from a simulated tick, and where the simulation says nothing, the first
rule that `check` has as ready and holding. The router also passes over a rule that has nothing to
move, which `check` does not say.

## Main definitions

* `Koul.Web.simulateTick`, `Koul.Web.states` — the two reads of the page.
* `Koul.Web.nowOnUi` — the card marked, counted from 0.
* `Koul.Web.HoldsAt` — the rule of an index is off cooldown and holds.

## Main results

* `Koul.Web.findIdx?_states` — the first rule that `check` has as ready and holding.
* `Koul.Web.nowOnUi_eq_next_iff` — when the card marked is the one of `next_action`.
-/

namespace Koul.Web

open Koul.Router

variable {σ : Type} (x : Contracts σ) (w : World σ) (user : Address) (id : ℕ)

/-! ## The source -/

/-- `reader.simulateTick(address, id).catch(() => null)`: a tick without a route. -/
def simulateTick : Option Executed :=
  match tick x true user id none w with
  | .ok (ex, _) => ex
  | .error _ => none

/-- `readCheck`: nothing when the call fails. -/
def states : Option (List RuleState) := (check x w user id).toOption

/-- The card marked, from what the page read; `contractToUi` is the card of each contract rule. -/
def nowOnUi (contractToUi : List ℕ) (tick : Option Executed) (states : Option (List RuleState)) :
    Option ℕ :=
  match tick with
  | some ex => contractToUi[ex.ruleIndex]?
  | none =>
    match states with
    | some states =>
      match states.findIdx? fun s => s.ready && s.holds with
      | some i => contractToUi[i]?
      | none => none
    | none => none

/-- The card of what `next_action` answers. -/
def nextUi (contractToUi : List ℕ) : Option ℕ :=
  match nextAction x w user id with
  | .ok (some p) => contractToUi[p.ruleIndex]?
  | _ => none

/-- The rule of index `i` is off cooldown and its conditions hold. -/
def HoldsAt (ap : Router.Autopilot) (i : ℕ) : Prop :=
  ∃ r, ap.rules[i]? = some r ∧
    ready (w.store.lastFiredAt user id i) w.ledger.sequence r.cooldownLedgers = true ∧
    ((w.reads x).evaluateRule user ap.accountId r).1 = true

/-! ## What the reads say -/

variable {x w user id}

/-- `findIndex` finds the least index of an item that passes. -/
lemma findIdx?_eq_some_iff_isLeast {T : Type} {p : T → Bool} {l : List T} {i : ℕ} :
    l.findIdx? p = some i ↔ IsLeast {j | ∃ a, l[j]? = some a ∧ p a = true} i := by
  rw [List.findIdx?_eq_some_iff_getElem]
  constructor
  · rintro ⟨hlt, hp, hbefore⟩
    refine ⟨⟨l[i], List.getElem?_eq_getElem hlt, hp⟩, fun j hj => ?_⟩
    obtain ⟨a, ha, hpa⟩ := hj
    obtain ⟨hjlt, rfl⟩ := List.getElem?_eq_some_iff.mp ha
    exact not_lt.mp fun hji => hbefore j hji hpa
  · rintro ⟨⟨a, ha, hpa⟩, hleast⟩
    obtain ⟨hlt, rfl⟩ := List.getElem?_eq_some_iff.mp ha
    refine ⟨hlt, hpa, fun j hji hpj => ?_⟩
    exact absurd (hleast ⟨l[j], List.getElem?_eq_getElem (hji.trans hlt), hpj⟩) (not_le.mpr hji)

/-- A property of some number has a least one. -/
lemma exists_isLeast {P : ℕ → Prop} {i : ℕ} (h : P i) : ∃ j, IsLeast {j | P j} j :=
  ⟨_, isLeast_csInf ⟨i, h⟩⟩

/-- **The page's choice** among the states is the least rule that is ready and holds. -/
theorem findIdx?_states {ap : Router.Autopilot} (hap : w.store.autopilot user id = some ap) :
    ∃ states, Web.states x w user id = some states ∧
      ∀ i, states.findIdx? (fun s => s.ready && s.holds) = some i ↔
        IsLeast {i | HoldsAt x w user id ap i} i := by
  refine ⟨_, by rw [Web.states, check, hap]; rfl, fun i => ?_⟩
  rw [findIdx?_eq_some_iff_isLeast]
  refine iff_of_eq (congrArg (IsLeast · i) (Set.ext fun j => ?_))
  simp only [Set.mem_ofPred_eq, HoldsAt, List.getElem?_map, List.getElem?_zipIdx, Option.map_map,
    Option.map_eq_some_iff, zero_add]
  constructor
  · rintro ⟨s, ⟨r, hr, rfl⟩, hs⟩
    exact ⟨r, hr, (Bool.and_eq_true_iff ..).mp hs⟩
  · rintro ⟨r, hr, hs⟩
    exact ⟨_, ⟨r, hr, rfl⟩, (Bool.and_eq_true_iff ..).mpr hs⟩

/-- A rule that is due holds. -/
lemma HoldsAt.of_dueAt {ap : Router.Autopilot} {i : ℕ} (h : DueAt x w user id ap i) :
    HoldsAt x w user id ap i := by
  obtain ⟨r, hr, hready, hholds, -⟩ := h
  exact ⟨r, hr, hready, hholds⟩

/-- The stored autopilot as the page reads it is the printed one. -/
lemma eq_printAutopilot {sdk : Core.StellarSdk} (hsdk : sdk.Documented) {ap : Router.Autopilot}
    {core : Core.Autopilot} (h : sdk.decodeAutopilot ap.toScVal = .ok core) :
    core = Core.printAutopilot ap := by
  rw [Core.StellarSdk.decodeAutopilot_toScVal hsdk, Core.parseAutopilot_eq_ok,
    Core.autopilotSchema_eq_valid_iff] at h
  exact Core.Autopilot.eq_of_same h.1 (Core.printAutopilot ap).same_toJs

/-- Every contract rule has a card. -/
lemma length_contractToUi (d : ReadDoubles) (fxOn : Bool) (ap : Router.Autopilot) :
    (foldCoreRules d fxOn (Core.printAutopilot ap)).contractToUi.length = ap.rules.length := by
  rw [(foldCoreRules_spec fxOn (Core.printAutopilot ap)).1, Stutter.length_runOf]
  simp [Core.printAutopilot]

/-- With nothing due the simulated tick says nothing. -/
lemma simulateTick_of_none {ap : Router.Autopilot} (hap : w.store.autopilot user id = some ap)
    (hdue : firstDue x w user id ap.accountId ap.rules 0 = none) :
    simulateTick x w user id = none := by
  rw [simulateTick, tick_of_none hap hdue]
  cases closeSession x user w <;> rfl

/-- A simulated tick that ran a rule ran the first one that is due. -/
lemma simulateTick_of_some {ap : Router.Autopilot} {idx : ℕ} {r : Router.Rule} {p : Plan}
    {ex : Executed} (hap : w.store.autopilot user id = some ap)
    (hdue : firstDue x w user id ap.accountId ap.rules 0 = some (idx, r, p))
    (hex : simulateTick x w user id = some ex) : ex.ruleIndex = idx := by
  rw [simulateTick] at hex
  split at hex
  · next ex' w' htick =>
    obtain ⟨ex'', hdone, hacts⟩ := tick_of_some hap hdue htick
    obtain rfl : ex'' = ex := Option.some.inj (hdone.symm.trans hex)
    rw [hacts.index, Plan.planned_ruleIndex]
  · cases hex

/-! ## When the page is right -/

/-- **The card marked** is the one of `next_action` exactly when no rule is ready and holding, or a
rule is due and either the simulated tick ran it, or the first rule that is ready and holding, whether
or not it has anything to move, is on the same card. -/
theorem nowOnUi_eq_next_iff (d : ReadDoubles) (fxOn : Bool) {ap : Router.Autopilot}
    (hap : w.store.autopilot user id = some ap) :
    let contractToUi := (foldCoreRules d fxOn (Core.printAutopilot ap)).contractToUi
    nowOnUi contractToUi (simulateTick x w user id) (states x w user id) =
        nextUi x w user id contractToUi ↔
      (∀ i, ¬HoldsAt x w user id ap i) ∨
      ∃ idx, IsLeast {i | DueAt x w user id ap i} idx ∧
        ((simulateTick x w user id).isSome ∨
          ∃ i, IsLeast {i | HoldsAt x w user id ap i} i ∧
            contractToUi[i]? = contractToUi[idx]?) := by
  intro contractToUi
  have hlength : contractToUi.length = ap.rules.length := length_contractToUi d fxOn ap
  obtain ⟨states, hstates, hfirst⟩ := findIdx?_states (x := x) hap
  have hnext := nextAction_eq (x := x) hap
  cases hdue : firstDue x w user id ap.accountId ap.rules 0 with
  | none =>
    have hnot := not_dueAt_of_firstDue hdue
    rw [hdue, Option.map_none] at hnext
    simp only [nowOnUi, simulateTick_of_none hap hdue, hstates, nextUi, hnext]
    constructor
    · intro h
      refine .inl fun i hi => ?_
      obtain ⟨j, hj⟩ := exists_isLeast hi
      rw [(hfirst j).mpr hj] at h
      obtain ⟨r, hr, -⟩ := hj.1
      have hlt : j < ap.rules.length := (List.getElem?_eq_some_iff.mp hr).1
      exact absurd (List.getElem?_eq_none_iff.mp h) (by omega)
    · rintro (hnone | ⟨idx, hidx, -⟩)
      · cases hfind : states.findIdx? fun s => s.ready && s.holds with
        | none => rfl
        | some i => exact absurd ((hfirst i).mp hfind).1 (hnone i)
      · exact absurd hidx.1 (hnot idx)
  | some due =>
    obtain ⟨idx, r, p⟩ := due
    obtain ⟨hleast, -⟩ := firstDue_spec hdue
    obtain ⟨i, hi⟩ := exists_isLeast (HoldsAt.of_dueAt hleast.1)
    rw [hdue, Option.map_some] at hnext
    simp only [nextUi, hnext, Plan.planned_ruleIndex]
    cases hex : simulateTick x w user id with
    | some ex =>
      rw [nowOnUi, simulateTick_of_some hap hdue hex]
      exact iff_of_true rfl (.inr ⟨idx, hleast, .inl rfl⟩)
    | none =>
      simp only [nowOnUi, hstates, (hfirst i).mpr hi]
      constructor
      · intro h
        exact .inr ⟨idx, hleast, .inr ⟨i, hi, h⟩⟩
      · rintro (hnone | ⟨idx', hleast', hsome | ⟨i', hi', hcard⟩⟩)
        · exact absurd hi.1 (hnone i)
        · cases hsome
        · rwa [hleast.unique hleast', hi.unique hi']

/-- A rule that puts idle USDC to work when the health factor is low, which has nothing to put. -/
def idleAutopilot : Router.Autopilot where
  accountId := 12
  rules := [⟨[.healthFactor .below 1200000000000000000], true, .supplyFromWallet 1 .all, 100⟩]

def idleWorld : World Unit where
  store :=
    { Storage.init "admin" Reads.illiquidHub.cfg with
      autopilot := fun _ _ => some idleAutopilot }
  ledger := Reads.illiquidHub.ledger
  ext := ()
  events := []
  calls := []

/-- There a tick would run nothing, and the page marks the rule's card. -/
theorem nowOnUi_idle :
    let contractToUi :=
      (foldCoreRules realDoubles false (Core.printAutopilot idleAutopilot)).contractToUi
    nextAction illiquidContracts idleWorld "wallet" 1 = .ok none ∧
    nowOnUi contractToUi (simulateTick illiquidContracts idleWorld "wallet" 1)
      (states illiquidContracts idleWorld "wallet" 1) = some 0 ∧
    ¬nowOnUi contractToUi (simulateTick illiquidContracts idleWorld "wallet" 1)
      (states illiquidContracts idleWorld "wallet" 1) =
        nextUi illiquidContracts idleWorld "wallet" 1 contractToUi := by
  intro contractToUi
  have hnext : nextAction illiquidContracts idleWorld "wallet" 1 = .ok none := by decide +kernel
  have htick : simulateTick illiquidContracts idleWorld "wallet" 1 = none := by decide +kernel
  have hcards : contractToUi = [0] := (foldCoreRules_spec false _).1
  have hfirst : ((states illiquidContracts idleWorld "wallet" 1).map fun states =>
      states.findIdx? fun s => s.ready && s.holds) = some (some 0) := by decide +kernel
  obtain ⟨states', hstates, hfind⟩ := Option.map_eq_some_iff.mp hfirst
  have hmarked : nowOnUi contractToUi (simulateTick illiquidContracts idleWorld "wallet" 1)
      (states illiquidContracts idleWorld "wallet" 1) = some 0 := by
    simp only [nowOnUi, htick, hstates, hfind, hcards]
    rfl
  refine ⟨hnext, hmarked, fun heq => ?_⟩
  rw [hmarked, nextUi, hnext] at heq
  cases heq

theorem nowOnUi_eq_next_iff_illiquid :
    let contractToUi :=
      (foldCoreRules realDoubles false (Core.printAutopilot Router.illiquidAutopilot)).contractToUi
    nowOnUi contractToUi (simulateTick illiquidContracts illiquidWorld "wallet" 1)
      (states illiquidContracts illiquidWorld "wallet" 1) =
        nextUi illiquidContracts illiquidWorld "wallet" 1 contractToUi := by
  have hex : (simulateTick illiquidContracts illiquidWorld "wallet" 1).isSome = true := by
    decide +kernel
  have hdue : firstDue illiquidContracts illiquidWorld "wallet" 1
      illiquidAutopilot.accountId illiquidAutopilot.rules 0 = some (1, _, _) := rfl
  exact (nowOnUi_eq_next_iff realDoubles false rfl).mpr
    (.inr ⟨1, (firstDue_spec hdue).1, .inl hex⟩)

end Koul.Web
