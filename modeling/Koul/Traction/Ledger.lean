import Koul.Traction.Summary

set_option relaxedAutoImplicit false
set_option autoImplicit false

/-!
# The traction ledger

The router's events are added up in three places, per wallet, per UTC day and per hour, by the index of
the wallet. Over every sequence of runs the days of a wallet add up to its totals, and the summary
splits the totals with whatever team set it is asked with.

## Main definitions

* `Koul.Traction.Reachable` — the states that runs leave.
* `Koul.Traction.daySum` — what a wallet's days add up to.
* `Koul.Traction.Ledger` — the invariant.

## Main results

* `Koul.Traction.Ledger.countEvent` — an event keeps the invariant.
* `Koul.Traction.ledger_of_reachable` — so it holds of every reachable state.
* `Koul.Traction.ledger_holds` — addresses, indices, sums over the days, and the summary's split.
-/

namespace Koul.Traction

open Competition (Prices)

/-! ## What an event is worth -/

/-- Fired, swaps, volume, sets, clears and paid out. -/
abbrev Tally : Type := ℕ × ℕ × ℚ × ℕ × ℕ × ℚ

def DayCell.tally (c : DayCell) : Tally :=
  (c.fired, c.swaps, c.volumeUsd, c.sets, c.clears, c.volumeOutUsd.getD 0)

def TractionWallet.tally (w : TractionWallet) : Tally :=
  (w.trades, w.swaps, w.volumeUsd, w.sets, w.clears, w.volumeOutUsd.getD 0)

def worth (prices : Prices) (e : RouterEvent) : Tally :=
  match e.body with
  | .autopilot_set _ _ => (0, 0, 0, 1, 0, 0)
  | .autopilot_cleared _ => (0, 0, 0, 0, 1, 0)
  | .fired _ _ _ => (1, 0, 0, 0, 0, 0)
  | .swapped tokenIn tokenOut amountIn amountOut =>
    (0, 1, cents ((swapUsd tokenIn amountIn prices).getD 0), 0, 0,
      cents ((swapUsd tokenOut amountOut prices).getD 0))

/-- A day's volumes are whole cents. -/
def CentCell (c : DayCell) : Prop := IsCents c.volumeUsd ∧ IsCents (c.volumeOutUsd.getD 0)

lemma tally_countWallet (prices : Prices) (e : RouterEvent) {w : TractionWallet}
    (hw : CentWallet w) : (countWallet prices e w).tally = w.tally + worth prices e := by
  rw [worth, countWallet]
  cases e.body <;>
    simp [TractionWallet.tally, cents_add hw.1, cents_add hw.2]

lemma tally_countCell (prices : Prices) (e : RouterEvent) {c : DayCell} (hc : CentCell c) :
    (countCell prices e c).tally = c.tally + worth prices e := by
  rw [worth, countCell]
  cases e.body <;>
    simp [DayCell.tally, cents_add hc.1, cents_add hc.2]

lemma centWallet_countWallet (prices : Prices) (e : RouterEvent) {w : TractionWallet}
    (hw : CentWallet w) : CentWallet (countWallet prices e w) := by
  rw [countWallet]
  cases e.body with
  | swapped tokenIn tokenOut amountIn amountOut => exact ⟨isCents_cents _, isCents_cents _⟩
  | _ => exact hw

lemma centCell_countCell (prices : Prices) (e : RouterEvent) {c : DayCell} (hc : CentCell c) :
    CentCell (countCell prices e c) := by
  rw [countCell]
  cases e.body with
  | swapped tokenIn tokenOut amountIn amountOut => exact ⟨isCents_cents _, isCents_cents _⟩
  | _ => exact hc

lemma centCell_emptyCell : CentCell emptyCell := ⟨isCents_zero, isCents_zero⟩

lemma address_countWallet (prices : Prices) (e : RouterEvent) (w : TractionWallet) :
    (countWallet prices e w).address = w.address := by
  rw [countWallet]
  cases e.body <;> rfl

/-- The runs of all kinds. -/
def kindSum (w : TractionWallet) : ℕ := (w.kinds.map Prod.snd).sum

/-- A run is one of its kind too. -/
lemma kindSum_countWallet (prices : Prices) (e : RouterEvent) {w : TractionWallet}
    (hw : kindSum w = w.trades) :
    kindSum (countWallet prices e w) = (countWallet prices e w).trades := by
  rw [countWallet]
  cases e.body with
  | fired kind amount tx =>
    show ((Grouped.set kind.text _ w.kinds).map Prod.snd).sum = w.trades + 1
    rw [← hw]
    refine Grouped.sum_map_set (id : ℕ → ℕ) ?_
    cases Grouped.get? kind.text w.kinds <;> rfl
  | _ => exact hw

/-! ## The days of a wallet -/

/-- What the days of the wallet with an index add up to. -/
def daySum {M : Type} [AddCommMonoid M] (f : DayCell → M) (i : ℕ) (s : TractionState) : M :=
  (s.days.map fun d => ((Grouped.get? i d.2).map f).getD 0).sum

lemma map_daySum {M N : Type} [AddCommMonoid M] [AddCommMonoid N] (φ : M →+ N) (f : DayCell → M)
    (i : ℕ) (s : TractionState) : φ (daySum f i s) = daySum (fun c => φ (f c)) i s := by
  rw [daySum, map_list_sum, List.map_map, daySum]
  congr 2
  funext d
  rw [Function.comp_apply]
  cases Grouped.get? i d.2 with
  | none => exact map_zero φ
  | some c => rfl

/-- Days without a cell of the wallet add up to nothing. -/
lemma daySum_eq_zero {M : Type} [AddCommMonoid M] (f : DayCell → M) {i : ℕ} {s : TractionState}
    (h : ∀ d ∈ s.days, ∀ c ∈ d.2, c.1 ≠ i) : daySum f i s = 0 := by
  apply List.sum_eq_zero
  intro x hx
  obtain ⟨d, hd, rfl⟩ := List.mem_map.mp hx
  cases hget : Grouped.get? i d.2 with
  | none => rfl
  | some c => exact absurd rfl (h d hd _ (Grouped.mem_of_get? hget))

/-- A cell of a day after one is changed: the changed one, or one that was there. -/
lemma mem_countDay {day : String} {i : ℕ} {f : DayCell → DayCell}
    {days : List (String × List (ℕ × DayCell))} {d : String × List (ℕ × DayCell)}
    (hd : d ∈ countDay day i f days) {c : ℕ × DayCell} (hc : c ∈ d.2) :
    (∃ d' ∈ days, c ∈ d'.2) ∨
      c.1 = i ∧ ∃ old, c.2 = f old ∧ (old = emptyCell ∨ ∃ d' ∈ days, (i, old) ∈ d'.2) := by
  rw [countDay] at hd
  have hcells : ∀ {e}, e ∈ (Grouped.get? day days).getD [] → ∃ d' ∈ days, e ∈ d'.2 := by
    intro e he
    cases hget : Grouped.get? day days with
    | none =>
      rw [hget] at he
      exact absurd he List.not_mem_nil
    | some cells =>
      rw [hget] at he
      exact ⟨_, Grouped.mem_of_get? hget, he⟩
  rcases Grouped.mem_set hd with rfl | hold
  · rcases Grouped.mem_set hc with rfl | hold
    · refine .inr ⟨rfl, _, rfl, ?_⟩
      cases hget : Grouped.get? i ((Grouped.get? day days).getD []) with
      | none => exact .inl rfl
      | some old => exact .inr (hcells (Grouped.mem_of_get? hget))
    · exact .inl (hcells hold)
  · exact .inl ⟨d, hold, hc⟩

/-! ## The invariant -/

structure Ledger (s : TractionState) : Prop where
  /-- One wallet for each address. -/
  addresses : (s.wallets.map (·.address)).Nodup
  /-- Days and hours are of wallets that are there. -/
  days : ∀ d ∈ s.days, ∀ c ∈ d.2, c.1 < s.wallets.length
  hours : ∀ h ∈ s.hours, ∀ c ∈ h.2, c.1 < s.wallets.length
  /-- The days of a wallet add up to its totals. -/
  tally : ∀ i w, s.wallets[i]? = some w → daySum DayCell.tally i s = w.tally
  kinds : ∀ w ∈ s.wallets, kindSum w = w.trades
  /-- Volumes are whole cents. -/
  wallets : ∀ w ∈ s.wallets, CentWallet w
  cells : ∀ d ∈ s.days, ∀ c ∈ d.2, CentCell c.2

lemma ledger_empty (router : String) : Ledger (emptyTraction router) where
  addresses := List.nodup_nil
  days _ hd := absurd hd List.not_mem_nil
  hours _ hh := absurd hh List.not_mem_nil
  tally _ _ hw := by cases hw
  kinds _ hw := absurd hw List.not_mem_nil
  wallets _ hw := absurd hw List.not_mem_nil
  cells _ hd := absurd hd List.not_mem_nil

/-- A wallet that is new has no days. -/
lemma Ledger.add_wallet {s : TractionState} (h : Ledger s) {address : String}
    (hnew : ∀ w ∈ s.wallets, w.address ≠ address) :
    Ledger { s with wallets := s.wallets ++ [newWallet address] } where
  addresses := by
    rw [List.map_append, List.map_singleton, List.nodup_append]
    refine ⟨h.addresses, List.nodup_singleton _, fun a ha b hb => ?_⟩
    obtain ⟨w, hw, rfl⟩ := List.mem_map.mp ha
    rw [List.mem_singleton.mp hb]
    exact hnew w hw
  days d hd c hc := by
    rw [List.length_append]
    exact Nat.lt_add_right 1 (h.days d hd c hc)
  hours d hd c hc := by
    rw [List.length_append]
    exact Nat.lt_add_right 1 (h.hours d hd c hc)
  tally i w hw := by
    show daySum DayCell.tally i s = w.tally
    rcases Nat.lt_trichotomy i s.wallets.length with hlt | rfl | hgt
    · rw [List.getElem?_append_left hlt] at hw
      exact h.tally i w hw
    · rw [List.getElem?_append_right le_rfl, Nat.sub_self] at hw
      obtain rfl := Option.some.inj hw
      exact daySum_eq_zero _ fun d hd c hc => Nat.ne_of_lt (h.days d hd c hc)
    · rw [List.getElem?_eq_none (by rw [List.length_append]; exact hgt)] at hw
      cases hw
  kinds w hw := by
    rcases List.mem_append.mp hw with hw | hw
    · exact h.kinds w hw
    · rw [List.mem_singleton.mp hw]
      rfl
  wallets w hw := by
    rcases List.mem_append.mp hw with hw | hw
    · exact h.wallets w hw
    · rw [List.mem_singleton.mp hw]
      exact ⟨isCents_zero, isCents_zero⟩
  cells := h.cells

/-- The sums over the days after a wallet's cell is changed. -/
lemma daySum_countDay {s t : TractionState} (hcells : ∀ d ∈ s.days, ∀ c ∈ d.2, CentCell c.2)
    {day : String} {i : ℕ} {f : DayCell → DayCell} (hdays : t.days = countDay day i f s.days)
    {δ : Tally} (hf : ∀ c, CentCell c → (f c).tally = c.tally + δ) (j : ℕ) :
    daySum DayCell.tally j t = daySum DayCell.tally j s + if j = i then δ else 0 := by
  rw [daySum, hdays, countDay]
  refine Grouped.sum_map_set (fun cells => ((Grouped.get? j cells).map DayCell.tally).getD 0) ?_
  -- a day that is not there has no cells
  have hday : ((Grouped.get? day s.days).map
      fun cells => ((Grouped.get? j cells).map DayCell.tally).getD 0).getD 0 =
        ((Grouped.get? j ((Grouped.get? day s.days).getD [])).map DayCell.tally).getD 0 := by
    cases Grouped.get? day s.days <;> rfl
  rw [hday, Grouped.get?_set]
  by_cases hji : j = i
  · subst hji
    rw [if_pos rfl, if_pos rfl, Option.map_some, Option.getD_some]
    cases hget : Grouped.get? j ((Grouped.get? day s.days).getD []) with
    | none => exact hf _ centCell_emptyCell
    | some c =>
      refine hf c ?_
      cases hcell : Grouped.get? day s.days with
      | none =>
        rw [hcell] at hget
        cases hget
      | some cells =>
        rw [hcell] at hget
        exact hcells _ (Grouped.mem_of_get? hcell) _ (Grouped.mem_of_get? hget)
  · rw [if_neg hji, if_neg hji, add_zero]

/-- A wallet after one is changed: another one as it was, or the changed one. -/
lemma getElem?_modify_cases {ws : List TractionWallet} {i j : ℕ}
    {f : TractionWallet → TractionWallet} {w : TractionWallet} (h : (ws.modify i f)[j]? = some w) :
    ∃ old, ws[j]? = some old ∧ w = if i = j then f old else old := by
  rw [List.getElem?_modify] at h
  obtain ⟨old, hold, rfl⟩ := Option.map_eq_some_iff.mp h
  exact ⟨old, hold, rfl⟩

lemma map_address_modify {ws : List TractionWallet} {i : ℕ} {f : TractionWallet → TractionWallet}
    (hf : ∀ w, (f w).address = w.address) :
    (ws.modify i f).map (·.address) = ws.map (·.address) := by
  apply List.ext_getElem?
  intro j
  rw [List.getElem?_map, List.getElem?_map, List.getElem?_modify]
  cases ws[j]? with
  | none => rfl
  | some w =>
    by_cases h : i = j
    · simp [h, hf]
    · simp [h]

/-- Runs of an hour are of the wallet, or were there. -/
lemma mem_countHours {e : RouterEvent} {i : ℕ} {hours : List (ℤ × List (ℕ × ℕ))}
    {h : ℤ × List (ℕ × ℕ)} (hh : h ∈ countHours e i hours) {c : ℕ × ℕ} (hc : c ∈ h.2) :
    c.1 = i ∨ ∃ h' ∈ hours, c ∈ h'.2 := by
  unfold countHours at hh
  cases hbody : e.body with
  | fired kind amount tx =>
    simp only [hbody, countHour] at hh
    rcases Grouped.mem_set hh with rfl | hold
    · rcases Grouped.mem_set hc with rfl | hold
      · exact .inl rfl
      · cases hget : Grouped.get? (hourOf e.time) hours with
        | none =>
          rw [hget] at hold
          exact absurd hold List.not_mem_nil
        | some runs =>
          rw [hget] at hold
          exact .inr ⟨_, Grouped.mem_of_get? hget, hold⟩
    · exact .inr ⟨h, hold, hc⟩
  | _ =>
    simp only [hbody] at hh
    exact .inr ⟨h, hh, hc⟩

/-- **An event of a wallet that is there**: its totals and its day grow by the same. -/
lemma Ledger.count {s t : TractionState} (h : Ledger s) (prices : Prices) (e : RouterEvent) {i : ℕ}
    (hi : i < s.wallets.length) {day : String}
    (hwallets : t.wallets = s.wallets.modify i (countWallet prices e))
    (hdays : t.days = countDay day i (countCell prices e) s.days)
    (hhours : t.hours = countHours e i s.hours) : Ledger t := by
  have hlength : t.wallets.length = s.wallets.length := by rw [hwallets, List.length_modify]
  have hmem : ∀ w ∈ t.wallets, ∃ old ∈ s.wallets, w = old ∨ w = countWallet prices e old := by
    intro w hw
    obtain ⟨j, hj⟩ := List.mem_iff_getElem?.mp hw
    rw [hwallets] at hj
    obtain ⟨old, hold, rfl⟩ := getElem?_modify_cases hj
    refine ⟨old, List.mem_of_getElem? hold, ?_⟩
    split
    · exact .inr rfl
    · exact .inl rfl
  constructor
  · rw [hwallets, map_address_modify (address_countWallet prices e)]
    exact h.addresses
  · intro d hd c hc
    rw [hlength]
    rw [hdays] at hd
    rcases mem_countDay hd hc with ⟨d', hd', hc'⟩ | ⟨hci, -⟩
    · exact h.days d' hd' c hc'
    · rw [hci]
      exact hi
  · intro d hd c hc
    rw [hlength]
    rw [hhours] at hd
    rcases mem_countHours hd hc with hci | ⟨d', hd', hc'⟩
    · rw [hci]
      exact hi
    · exact h.hours d' hd' c hc'
  · intro j w hw
    rw [hwallets] at hw
    obtain ⟨old, hold, rfl⟩ := getElem?_modify_cases hw
    rw [daySum_countDay h.cells hdays fun c => tally_countCell prices e, h.tally j old hold]
    by_cases hij : i = j
    · rw [if_pos hij, if_pos hij.symm,
        tally_countWallet prices e (h.wallets old (List.mem_of_getElem? hold))]
    · rw [if_neg hij, if_neg fun heq => hij heq.symm, add_zero]
  · intro w hw
    obtain ⟨old, hold, rfl | rfl⟩ := hmem w hw
    · exact h.kinds _ hold
    · exact kindSum_countWallet prices e (h.kinds old hold)
  · intro w hw
    obtain ⟨old, hold, rfl | rfl⟩ := hmem w hw
    · exact h.wallets _ hold
    · exact centWallet_countWallet prices e (h.wallets old hold)
  · intro d hd c hc
    rw [hdays] at hd
    rcases mem_countDay hd hc with ⟨d', hd', hc'⟩ | ⟨-, old, hold, hwas⟩
    · exact h.cells d' hd' c hc'
    · rw [hold]
      apply centCell_countCell
      rcases hwas with rfl | ⟨d', hd', hc'⟩
      · exact centCell_emptyCell
      · exact h.cells d' hd' _ hc'

/-- **An event** keeps the ledger. -/
theorem Ledger.countEvent {prices : Prices} {s t : TractionState} {e : RouterEvent} (h : Ledger s)
    (hstep : countEvent prices s e = some t) : Ledger t := by
  rw [Traction.countEvent] at hstep
  split at hstep
  · obtain rfl := Option.some.inj hstep
    exact h
  · obtain ⟨day, -, rfl⟩ := Option.map_eq_some_iff.mp hstep
    rcases walletOf_cases s.wallets e.user with ⟨i, w, hfound, hw, -⟩ | ⟨hfound, hnew⟩
    · rw [hfound]
      exact h.count prices e (List.getElem?_eq_some_iff.mp hw).1 rfl rfl rfl
    · rw [hfound]
      refine (h.add_wallet hnew).count prices e (i := s.wallets.length) ?_ rfl rfl rfl
      show s.wallets.length < (s.wallets ++ [newWallet e.user]).length
      rw [List.length_append]
      exact Nat.lt_succ_self _

lemma Ledger.foldlM {prices : Prices} {s t : TractionState} {es : List RouterEvent} (h : Ledger s)
    (hrun : es.foldlM (Traction.countEvent prices) s = some t) : Ledger t := by
  induction es generalizing s with
  | nil =>
    obtain rfl := Option.some.inj hrun
    exact h
  | cons e es ih =>
    rw [List.foldlM_cons] at hrun
    obtain ⟨u, hu, hrest⟩ := Option.bind_eq_some_iff.mp hrun
    exact ih (h.countEvent hu) hrest

/-- **A read of events** keeps it: hours that are dropped take nothing with them. -/
lemma Ledger.applyEvents {prices : Prices} {now : ℚ} {s t : TractionState} {es : List RouterEvent}
    (h : Ledger s) (hread : applyEvents s es prices now = some t) : Ledger t := by
  obtain ⟨u, hu, rfl⟩ := Option.map_eq_some_iff.mp hread
  have hledger := h.foldlM hu
  exact ⟨hledger.addresses, hledger.days, fun d hd => hledger.hours d (List.mem_of_mem_filter hd),
    hledger.tally, hledger.kinds, hledger.wallets, hledger.cells⟩

lemma Ledger.add_wallets {s : TractionState} (h : Ledger s) {added : List String}
    (hnodup : added.Nodup) (hnew : ∀ a ∈ added, ∀ w ∈ s.wallets, w.address ≠ a) :
    Ledger { s with wallets := s.wallets ++ added.map newWallet } := by
  induction added generalizing s with
  | nil => simpa using h
  | cons a added ih =>
    obtain ⟨hhead, htail⟩ := List.nodup_cons.mp hnodup
    have hnext := ih (h.add_wallet (hnew a List.mem_cons_self)) htail fun b hb w hw => ?_
    · simpa only [List.append_assoc, List.singleton_append, List.map_cons] using hnext
    · rcases List.mem_append.mp hw with hw | hw
      · exact hnew b (List.mem_cons_of_mem a hb) w hw
      · rw [List.mem_singleton.mp hw]
        rintro rfl
        exact hhead hb

/-- The totals do not depend on the live counts. -/
lemma Ledger.set_live {s : TractionState} (h : Ledger s) (live : TractionWallet → Live) :
    Ledger { s with wallets := s.wallets.map fun w => { w with live := live w } } where
  addresses := by
    rw [List.map_map]
    exact h.addresses
  days d hd c hc := by
    rw [List.length_map]
    exact h.days d hd c hc
  hours d hd c hc := by
    rw [List.length_map]
    exact h.hours d hd c hc
  tally i w hw := by
    rw [List.getElem?_map] at hw
    obtain ⟨old, hold, rfl⟩ := Option.map_eq_some_iff.mp hw
    exact h.tally i old hold
  kinds w hw := by
    obtain ⟨old, hold, rfl⟩ := List.mem_map.mp hw
    exact h.kinds old hold
  wallets w hw := by
    obtain ⟨old, hold, rfl⟩ := List.mem_map.mp hw
    exact h.wallets old hold
  cells := h.cells

/-- **The live counts** leave the totals as they are. -/
lemma Ledger.applyLive {s : TractionState} (h : Ledger s) (live : LiveMap) :
    Ledger (applyLive s live) := by
  refine Ledger.set_live (h.add_wallets (live.nodup.filter _) fun a ha w hw heq => ?_) _
  have hunknown := (List.mem_filter.mp ha).2
  rw [decide_eq_true_eq] at hunknown
  exact hunknown (heq ▸ List.mem_map_of_mem hw)

/-! ## Every run -/

/-- The states that runs leave: each reads events and sets the live counts, in any order. -/
inductive Reachable (router : String) : TractionState → Prop
  | empty : Reachable router (emptyTraction router)
  | events {s t : TractionState} {es : List RouterEvent} {prices : Prices} {now : ℚ}
      (h : Reachable router s) (hread : applyEvents s es prices now = some t) : Reachable router t
  | live {s : TractionState} (h : Reachable router s) (live : LiveMap) :
      Reachable router (applyLive s live)

/-- **Every reachable state** is a ledger. -/
theorem ledger_of_reachable {router : String} {s : TractionState} (h : Reachable router s) :
    Ledger s := by
  induction h with
  | empty => exact ledger_empty router
  | events _ hread ih => exact ih.applyEvents hread
  | live _ live ih => exact ih.applyLive live

/-- The sums of the parts of a cell. -/
lemma Ledger.daySums {s : TractionState} (h : Ledger s) {i : ℕ} {w : TractionWallet}
    (hw : s.wallets[i]? = some w) :
    daySum DayCell.fired i s = w.trades ∧ daySum DayCell.swaps i s = w.swaps ∧
      daySum DayCell.volumeUsd i s = w.volumeUsd ∧ daySum DayCell.sets i s = w.sets ∧
      daySum DayCell.clears i s = w.clears ∧
      daySum (fun c => c.volumeOutUsd.getD 0) i s = w.volumeOutUsd.getD 0 := by
  have hpart : ∀ {N : Type} [AddCommMonoid N] (φ : Tally →+ N),
      daySum (fun c => φ c.tally) i s = φ w.tally := by
    intro N _ φ
    rw [← map_daySum φ, h.tally i w hw]
  -- the six places of a tally
  let rest₁ := AddMonoidHom.snd ℕ (ℕ × ℚ × ℕ × ℕ × ℚ)
  let rest₂ := (AddMonoidHom.snd ℕ (ℚ × ℕ × ℕ × ℚ)).comp rest₁
  let rest₃ := (AddMonoidHom.snd ℚ (ℕ × ℕ × ℚ)).comp rest₂
  let rest₄ := (AddMonoidHom.snd ℕ (ℕ × ℚ)).comp rest₃
  exact ⟨hpart (AddMonoidHom.fst _ _), hpart ((AddMonoidHom.fst _ _).comp rest₁),
    hpart ((AddMonoidHom.fst _ _).comp rest₂), hpart ((AddMonoidHom.fst _ _).comp rest₃),
    hpart ((AddMonoidHom.fst _ _).comp rest₄), hpart ((AddMonoidHom.snd _ _).comp rest₄)⟩

/-- **The traction ledger**: in every state that runs leave, with any events, prices and times,
addresses are distinct, the indices of days and hours are of wallets that are there, a wallet's days add
up to its totals and its kinds to its runs, and whatever the team set, every additive count of the
summary is that of the organic wallets and the team's together. -/
theorem ledger_holds {router : String} {s : TractionState} (h : Reachable router s) :
    (s.wallets.map (·.address)).Nodup ∧
      (∀ d ∈ s.days, ∀ c ∈ d.2, c.1 < s.wallets.length) ∧
      (∀ d ∈ s.hours, ∀ c ∈ d.2, c.1 < s.wallets.length) ∧
      (∀ i w, s.wallets[i]? = some w →
        daySum DayCell.fired i s = w.trades ∧ daySum DayCell.swaps i s = w.swaps ∧
          daySum DayCell.volumeUsd i s = w.volumeUsd ∧ daySum DayCell.sets i s = w.sets ∧
          daySum DayCell.clears i s = w.clears ∧
          daySum (fun c => c.volumeOutUsd.getD 0) i s = w.volumeOutUsd.getD 0 ∧
          (w.kinds.map Prod.snd).sum = w.trades) ∧
      ∀ (parse : String → Option ℚ) (snapshots : List TractionSnapshot) (team : Finset String)
        (created : List (String × ℚ)) (now : ℚ) (t : TractionSummary),
        tractionSummary parse s snapshots team created now = some t →
          Splits ⟨t.all, t.organic, t.team⟩ := by
  have hledger := ledger_of_reachable h
  refine ⟨hledger.addresses, hledger.days, hledger.hours, fun i w hw => ?_,
    fun parse snapshots team created now t ht => ?_⟩
  · obtain ⟨h1, h2, h3, h4, h5, h6⟩ := hledger.daySums hw
    exact ⟨h1, h2, h3, h4, h5, h6, hledger.kinds w (List.mem_of_getElem? hw)⟩
  · rw [counts_of_tractionSummary ht]
    exact splits_summaryCounts s hledger.wallets team created now

theorem ledger_holds_save : ∃ t, applyEvents (emptyTraction "CROUTER")
      [⟨"0000000000000000001-0000000000", 1793408400000, "CA", .autopilot_set 1 2⟩]
      (fun _ => none) 1793448000000 = some t ∧ (t.wallets.map (·.address)).Nodup ∧
        ∀ i w, t.wallets[i]? = some w → daySum DayCell.sets i t = w.sets := by
  have hread : (applyEvents (emptyTraction "CROUTER")
      [⟨"0000000000000000001-0000000000", 1793408400000, "CA", .autopilot_set 1 2⟩]
      (fun _ => none) 1793448000000).isSome := by decide +kernel
  obtain ⟨t, ht⟩ := Option.isSome_iff_exists.mp hread
  have hall := ledger_holds (.events .empty ht)
  exact ⟨t, ht, hall.1, fun i w hw => (hall.2.2.2.1 i w hw).2.2.2.1⟩

end Koul.Traction
