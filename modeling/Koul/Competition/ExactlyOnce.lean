import Koul.Competition.Runs

set_option relaxedAutoImplicit false
set_option autoImplicit false

/-!
# The indexer's totals are exactly-once

An entry's totals are those of one pass over the wallet's transfers up to the ledger they were read
through, whatever the cuts between the runs, and whatever runs stopped halfway or were lost in a
restart.

## Main definitions

* `Koul.Competition.Totals`, `Koul.Competition.onePass` — the totals of one pass over transfers.
* `Koul.Competition.Indexer.Scene` — the log and what stays the same over the runs.
* `Koul.Competition.Indexer.Exact` — a state with the totals of one pass.

## Main results

* `Koul.Competition.onePass_append` — the totals add up over cuts that split no transaction.
* `Koul.Competition.readFlows_totals` — reading the flows adds the pass over the transfers read.
* `Koul.Competition.Indexer.totals_exact` — every kept and every stored state is exact.
-/

namespace Koul.Competition

/-! ## Totals of one pass -/

/-- What transfers add up to. -/
@[ext]
structure Totals where
  inUsd : ℚ
  outUsd : ℚ
  outsideUnits : String → Option ℤ
  manualTxs : ℕ
  swapEdgeUsd : ℚ
  flows : ℕ

/-- The sum of what is there; `none` when nothing is. -/
def sumOrNone (xs : List ℤ) : Option ℤ := if xs = [] then none else some xs.sum

lemma sumOrNone_append (xs ys : List ℤ) :
    sumOrNone (xs ++ ys) = Option.merge (· + ·) (sumOrNone xs) (sumOrNone ys) := by
  cases xs with
  | nil => cases ys <;> rfl
  | cons x xs =>
    cases ys with
    | nil => simp [sumOrNone]
    | cons y ys => simp [sumOrNone, add_assoc]

lemma sumOrNone_perm {xs ys : List ℤ} (h : xs.Perm ys) : sumOrNone xs = sumOrNone ys := by
  rw [sumOrNone, sumOrNone, h.sum_eq]
  have hnil : xs = [] ↔ ys = [] := by
    rw [← List.length_eq_zero_iff, ← List.length_eq_zero_iff, h.length_eq]
  simp only [hnil]

/-- The totals of two stretches. -/
def Totals.merge (a b : Totals) : Totals where
  inUsd := a.inUsd + b.inUsd
  outUsd := a.outUsd + b.outUsd
  outsideUnits token := Option.merge (· + ·) (a.outsideUnits token) (b.outsideUnits token)
  manualTxs := a.manualTxs + b.manualTxs
  swapEdgeUsd := a.swapEdgeUsd + b.swapEdgeUsd
  flows := a.flows + b.flows

section OnePass

variable (prices : Prices) (isWallet : String → Bool)

/-- The transfers with outside money. -/
def outsideOf (ts : List Transfer) : List Transfer :=
  ts.filter fun t => t.where_ isWallet = .external

/-- The moves inside the wallet. -/
def insideOf (ts : List Transfer) : List InsideMove :=
  (ts.filter fun t => t.where_ isWallet = .internal).map (·.insideMove prices)

/-- **One pass** over transfers, each counted once. -/
def onePass (ts : List Transfer) (fired : List String) : Totals where
  inUsd := (((outsideOf isWallet ts).filter (·.incoming)).map (·.usd prices)).sum
  outUsd := (((outsideOf isWallet ts).filter (!·.incoming)).map (·.usd prices)).sum
  outsideUnits token :=
    sumOrNone (((outsideOf isWallet ts).filter (·.token.symbol = token)).map (·.signed))
  manualTxs := (insideMoves (insideOf prices isWallet ts) fired).manualTxs
  swapEdgeUsd := (insideMoves (insideOf prices isWallet ts) fired).swapEdgeUsd
  flows := (outsideOf isWallet ts).length

variable {prices isWallet}

/-- The hash of a move inside is that of its transfer. -/
lemma exists_of_mem_insideOf {ts : List Transfer} {m : InsideMove}
    (hm : m ∈ insideOf prices isWallet ts) : ∃ t ∈ ts, t.txHash = m.txHash := by
  obtain ⟨t, ht, rfl⟩ := List.mem_map.mp hm
  exact ⟨t, (List.mem_filter.mp ht).1, rfl⟩

/-- Which transactions the autopilot fired only matters for those of the transfers. -/
lemma manualTxs_congr {ts : List Transfer} {fired fired' : List String}
    (h : ∀ t ∈ ts, t.txHash ∈ fired ↔ t.txHash ∈ fired') :
    (insideMoves (insideOf prices isWallet ts) fired).manualTxs =
      (insideMoves (insideOf prices isWallet ts) fired').manualTxs := by
  rw [insideMoves_manualTxs, insideMoves_manualTxs]
  apply Finset.sum_congr rfl
  intro hash hhash
  obtain ⟨m, hm, rfl⟩ := List.mem_map.mp (List.mem_toFinset.mp hhash)
  obtain ⟨t, ht, heq⟩ := exists_of_mem_insideOf hm
  have hmanual : ∀ tx : TxMoves, tx.manual fired m.txHash = tx.manual fired' m.txHash := by
    intro tx
    rw [TxMoves.manual, TxMoves.manual, ← heq, decide_eq_decide.mpr (not_congr (h t ht))]
  beta_reduce
  rw [hmanual]

lemma onePass_fired {ts : List Transfer} {fired fired' : List String}
    (h : ∀ t ∈ ts, t.txHash ∈ fired ↔ t.txHash ∈ fired') :
    onePass prices isWallet ts fired = onePass prices isWallet ts fired' := by
  simp only [onePass, insideMoves_swapEdgeUsd, manualTxs_congr h]

/-- **Order**: the pass does not depend on the order of the transfers. -/
theorem onePass_perm {ts ts' : List Transfer} (h : ts.Perm ts') (fired : List String) :
    onePass prices isWallet ts fired = onePass prices isWallet ts' fired := by
  have houtside : (outsideOf isWallet ts).Perm (outsideOf isWallet ts') := h.filter _
  have hinside : (insideOf prices isWallet ts).Perm (insideOf prices isWallet ts') :=
    (h.filter _).map _
  ext token
  · exact ((houtside.filter _).map _).sum_eq
  · exact ((houtside.filter _).map _).sum_eq
  · exact Option.ext_iff.mp (sumOrNone_perm ((houtside.filter _).map _)) _
  · simp only [onePass, insideMoves_manualTxs]
    exact Grouped.sum_perm _ hinside
  · simp only [onePass, insideMoves_swapEdgeUsd]
    exact Grouped.sum_perm _ hinside
  · exact houtside.length_eq

/-- **Cuts**: where a cut splits no transaction, the passes over its two sides add up. -/
theorem onePass_append {ts ts' : List Transfer} {fired fired' all : List String}
    (hcut : ∀ t ∈ ts, ∀ t' ∈ ts', t.txHash ≠ t'.txHash)
    (hfired : ∀ t ∈ ts, t.txHash ∈ all ↔ t.txHash ∈ fired)
    (hfired' : ∀ t ∈ ts', t.txHash ∈ all ↔ t.txHash ∈ fired') :
    onePass prices isWallet (ts ++ ts') all =
      (onePass prices isWallet ts fired).merge (onePass prices isWallet ts' fired') := by
  have houtside : outsideOf isWallet (ts ++ ts') = outsideOf isWallet ts ++ outsideOf isWallet ts' :=
    List.filter_append _ _
  have hinside : insideOf prices isWallet (ts ++ ts') =
      insideOf prices isWallet ts ++ insideOf prices isWallet ts' := by
    rw [insideOf, List.filter_append, List.map_append]
    rfl
  have hkeys : ∀ m ∈ insideOf prices isWallet ts, ∀ m' ∈ insideOf prices isWallet ts',
      m.txHash ≠ m'.txHash := by
    intro m hm m' hm'
    obtain ⟨t, ht, heq⟩ := exists_of_mem_insideOf hm
    obtain ⟨t', ht', heq'⟩ := exists_of_mem_insideOf hm'
    rw [← heq, ← heq']
    exact hcut t ht t' ht'
  ext token
  · simp only [onePass, Totals.merge, houtside, List.filter_append, List.map_append, List.sum_append]
  · simp only [onePass, Totals.merge, houtside, List.filter_append, List.map_append, List.sum_append]
  · simp only [onePass, Totals.merge, houtside, List.filter_append, List.map_append,
      sumOrNone_append]
  · have hsplit : (insideMoves (insideOf prices isWallet (ts ++ ts')) all).manualTxs =
        (insideMoves (insideOf prices isWallet ts) all).manualTxs +
          (insideMoves (insideOf prices isWallet ts') all).manualTxs := by
      rw [hinside, insideMoves_manualTxs, insideMoves_manualTxs, insideMoves_manualTxs]
      exact Grouped.sum_append _ hkeys
    rw [manualTxs_congr hfired, manualTxs_congr hfired'] at hsplit
    exact hsplit
  · simp only [onePass, Totals.merge, hinside, insideMoves_swapEdgeUsd]
    exact Grouped.sum_append _ hkeys
  · simp only [onePass, Totals.merge, houtside, List.length_append]

end OnePass

/-! ## Reading the flows -/

/-- The totals an entry's state keeps. -/
def EntryState.totals (s : EntryState) : Totals where
  inUsd := s.inUsd
  outUsd := s.outUsd
  outsideUnits token := Grouped.get? token (s.outsideUnits.getD [])
  manualTxs := s.manualTxs
  swapEdgeUsd := s.swapEdgeUsd
  flows := s.flows

lemma SameTotals.totals {s s' : EntryState} (h : SameTotals s s') : s'.totals = s.totals := by
  simp only [EntryState.totals, h.inUsd, h.outUsd, h.outsideUnits, h.manualTxs, h.swapEdgeUsd,
    h.flows]

section Sorting

variable (prices : Prices) (isWallet : String → Bool)

/-- What the loop over the transfers has added to what it keeps. -/
structure Sorted.Adds (s r : Sorted) (ts : List Transfer) : Prop where
  inside : r.inside = s.inside ++ insideOf prices isWallet ts
  newFlows : r.newFlows = s.newFlows ++ (outsideOf isWallet ts).map (·.flow prices)
  inUsd : r.state.inUsd =
    s.state.inUsd + (((outsideOf isWallet ts).filter (·.incoming)).map (·.usd prices)).sum
  outUsd : r.state.outUsd =
    s.state.outUsd + (((outsideOf isWallet ts).filter (!·.incoming)).map (·.usd prices)).sum
  outsideUnits : ∀ token, Grouped.get? token (r.state.outsideUnits.getD []) =
    Option.merge (· + ·) (Grouped.get? token (s.state.outsideUnits.getD []))
      (sumOrNone (((outsideOf isWallet ts).filter (·.token.symbol = token)).map (·.signed)))
  manualTxs : r.state.manualTxs = s.state.manualTxs
  swapEdgeUsd : r.state.swapEdgeUsd = s.state.swapEdgeUsd
  flows : r.state.flows = s.state.flows
  openingUsd : r.state.openingUsd = s.state.openingUsd
  accountId : r.state.accountId = s.state.accountId
  accountCheckedAt : r.state.accountCheckedAt = s.state.accountCheckedAt
  tokensSeen : ∀ token, token ∈ r.state.tokensSeen.getD [] ↔
    token ∈ s.state.tokensSeen.getD [] ∨ ∃ t ∈ ts, t.token.symbol = token

variable {prices isWallet}

lemma Sorted.Adds.refl (s : Sorted) : Sorted.Adds prices isWallet s s [] where
  inside := (List.append_nil _).symm
  newFlows := (List.append_nil _).symm
  inUsd := (add_zero _).symm
  outUsd := (add_zero _).symm
  outsideUnits _ := Option.merge_none_right.symm
  manualTxs := rfl
  swapEdgeUsd := rfl
  flows := rfl
  openingUsd := rfl
  accountId := rfl
  accountCheckedAt := rfl
  tokensSeen _ := by simp

lemma EntryState.mem_see (state : EntryState) (t : ScoredToken) (token : String) :
    token ∈ (state.see t).tokensSeen.getD [] ↔
      token ∈ state.tokensSeen.getD [] ∨ t.symbol = token := by
  simp only [EntryState.see, Option.getD_some]
  split
  · next hmem =>
    constructor
    · exact fun h => .inl h
    · rintro (h | rfl)
      · exact h
      · exact hmem
  · rw [List.mem_append, List.mem_singleton, eq_comm]

/-- One transfer. -/
lemma Sorted.adds_add (s : Sorted) (t : Transfer) :
    Sorted.Adds prices isWallet s (s.add prices isWallet t) [t] := by
  rw [Sorted.add]
  cases hwhere : t.where_ isWallet with
  | internal =>
    have hin : insideOf prices isWallet [t] = [t.insideMove prices] := by
      simp [insideOf, hwhere]
    have hout : outsideOf isWallet [t] = [] := by
      simp [outsideOf, hwhere]
    have hseen := s.state.mem_see t.token
    constructor
    case tokensSeen => simpa using hseen
    all_goals simp [hin, hout, EntryState.see, sumOrNone]
  | external =>
    have hin : insideOf prices isWallet [t] = [] := by
      simp [insideOf, hwhere]
    have hout : outsideOf isWallet [t] = [t] := by
      simp [outsideOf, hwhere]
    have hunits : ∀ token, Grouped.get? token (((s.state.see t.token).addOutside prices
        t).outsideUnits.getD []) = Option.merge (· + ·)
          (Grouped.get? token (s.state.outsideUnits.getD []))
          (sumOrNone (([t].filter (·.token.symbol = token)).map (·.signed))) := by
      intro token
      simp only [EntryState.addOutside, EntryState.see, Option.getD_some, Grouped.get?_set]
      by_cases htoken : token = t.token.symbol
      · subst htoken
        rw [if_pos rfl, List.filter_cons_of_pos (by simp)]
        cases Grouped.get? t.token.symbol (s.state.outsideUnits.getD []) <;> simp [sumOrNone]
      · rw [if_neg htoken, List.filter_cons_of_neg (by simpa using fun h => htoken h.symm)]
        simp [sumOrNone]
    have hseen := s.state.mem_see t.token
    constructor
    case inside => simp [hin]
    case newFlows => simp [hout]
    case inUsd =>
      rw [hout]
      cases hi : t.incoming <;> simp [EntryState.addOutside, EntryState.see, hi]
    case outUsd =>
      rw [hout]
      cases hi : t.incoming <;> simp [EntryState.addOutside, EntryState.see, hi]
    case outsideUnits =>
      rw [hout]
      exact hunits
    case tokensSeen =>
      simp only [List.mem_singleton, exists_eq_left]
      exact hseen
    all_goals rfl

/-- **The loop** adds what the transfers add up to. -/
theorem Sorted.adds_foldl (s : Sorted) (ts : List Transfer) :
    Sorted.Adds prices isWallet s (ts.foldl (Sorted.add prices isWallet) s) ts := by
  induction ts using List.reverseRecOn with
  | nil => exact Sorted.Adds.refl s
  | append_singleton ts t ih =>
    have hstep := @Sorted.adds_add prices isWallet (ts.foldl (Sorted.add prices isWallet) s) t
    have houtside : outsideOf isWallet (ts ++ [t]) = outsideOf isWallet ts ++ outsideOf isWallet [t] :=
      List.filter_append _ _
    have hinside : insideOf prices isWallet (ts ++ [t]) =
        insideOf prices isWallet ts ++ insideOf prices isWallet [t] := by
      rw [insideOf, List.filter_append, List.map_append]
      rfl
    rw [List.foldl_append, List.foldl_cons, List.foldl_nil]
    constructor
    case inside => rw [hstep.inside, ih.inside, hinside, List.append_assoc]
    case newFlows => rw [hstep.newFlows, ih.newFlows, houtside, List.map_append, List.append_assoc]
    case inUsd =>
      rw [hstep.inUsd, ih.inUsd, houtside, List.filter_append, List.map_append, List.sum_append,
        add_assoc]
    case outUsd =>
      rw [hstep.outUsd, ih.outUsd, houtside, List.filter_append, List.map_append, List.sum_append,
        add_assoc]
    case outsideUnits =>
      intro token
      rw [hstep.outsideUnits, ih.outsideUnits, houtside, List.filter_append, List.map_append,
        sumOrNone_append]
      exact (Option.associative_merge _).assoc _ _ _
    case manualTxs => rw [hstep.manualTxs, ih.manualTxs]
    case swapEdgeUsd => rw [hstep.swapEdgeUsd, ih.swapEdgeUsd]
    case flows => rw [hstep.flows, ih.flows]
    case openingUsd => rw [hstep.openingUsd, ih.openingUsd]
    case accountId => rw [hstep.accountId, ih.accountId]
    case accountCheckedAt => rw [hstep.accountCheckedAt, ih.accountCheckedAt]
    case tokensSeen =>
      intro token
      rw [hstep.tokensSeen, ih.tokensSeen, or_assoc]
      simp only [List.mem_append, List.mem_singleton, or_and_right, exists_or, exists_eq_left]

end Sorting

/-- The transfers that can be read among events. -/
def transfersIn (tokens : List ScoredToken) (wallet : String) (es : List Event) : List Transfer :=
  es.filterMap fun e => (readTransfer tokens wallet e).join

lemma readTransfers_eq {tokens : List ScoredToken} {wallet : String} {es : List Event}
    {ts : List Transfer} (h : readTransfers tokens wallet es = some ts) :
    ts = transfersIn tokens wallet es := by
  obtain ⟨read, hread, rfl⟩ := Option.map_eq_some_iff.mp h
  clear h
  induction es generalizing read with
  | nil =>
    obtain rfl := Option.some.inj hread
    rfl
  | cons e es ih =>
    rw [List.mapM_cons] at hread
    cases he : readTransfer tokens wallet e with
    | none => simp [he] at hread
    | some t =>
      cases hes : es.mapM (readTransfer tokens wallet) with
      | none => simp [he, hes] at hread
      | some read' =>
        obtain rfl : t :: read' = read := by simpa [he, hes] using hread
        rw [transfersIn, List.filterMap_cons, List.filterMap_cons, he]
        cases t with
        | none => exact ih read' hes
        | some t => exact congrArg (t :: ·) (ih read' hes)

/-- What reading the flows of an activity makes of a state. -/
structure FlowsRead (run : RunArgs) (wallet : String) (activity : Activity)
    (state state' : EntryState) : Prop where
  toLedger : state'.toLedger = run.end_
  totals : state'.totals = state.totals.merge (onePass run.prices run.isWallet
    (transfersIn run.tokens wallet activity.transfers) activity.fired)
  openingUsd : state'.openingUsd = state.openingUsd
  accountId : state'.accountId = state.accountId
  accountCheckedAt : state'.accountCheckedAt = state.accountCheckedAt
  tokensSeen : ∀ token, token ∈ state'.tokensSeen.getD [] ↔ token ∈ state.tokensSeen.getD [] ∨
    ∃ t ∈ transfersIn run.tokens wallet activity.transfers, t.token.symbol = token

/-- **Reading the flows** adds the pass over the transfers read, or finds nothing to read. -/
theorem readFlows_spec {env : Env} {rpc : List Event} {run : RunArgs} {reads : Reads}
    {wallet : String} {state state' : EntryState} {newFlows : List Flow}
    (h : readFlows env rpc run reads wallet state = some (state', newFlows)) :
    run.end_ < max (state.toLedger + 1) run.oldest ∧ state' = state ∨
    max (state.toLedger + 1) run.oldest ≤ run.end_ ∧ FlowsRead run wallet
      (walletActivity env rpc run.tokens wallet (max (state.toLedger + 1) run.oldest) run.end_)
      state state' := by
  rw [readFlows] at h
  by_cases hle : max (state.toLedger + 1) run.oldest ≤ run.end_
  · refine .inr ⟨hle, ?_⟩
    rw [if_pos hle] at h
    generalize walletActivity env rpc run.tokens wallet
      (max (state.toLedger + 1) run.oldest) run.end_ = activity at h ⊢
    split at h
    · cases hread : readTransfers run.tokens wallet activity.transfers with
      | none => simp only [hread] at h; cases h
      | some transfers =>
        obtain rfl := readTransfers_eq hread
        simp only [hread, Option.some.injEq, Prod.mk.injEq] at h
        obtain ⟨rfl, -⟩ := h
        have hadds := @Sorted.adds_foldl run.prices run.isWallet
          ⟨{ state with outsideUnits := some (state.outsideUnits.getD []) }, [], []⟩
          (transfersIn run.tokens wallet activity.transfers)
        have hinside := hadds.inside
        rw [List.nil_append] at hinside
        refine ⟨rfl, ?_, hadds.openingUsd, hadds.accountId, hadds.accountCheckedAt,
          hadds.tokensSeen⟩
        ext token
        · exact hadds.inUsd
        · exact hadds.outUsd
        · exact Option.ext_iff.mp (hadds.outsideUnits token) _
        · simp only [EntryState.totals, Totals.merge, onePass, hinside, hadds.manualTxs]
        · simp only [EntryState.totals, Totals.merge, onePass, hinside, hadds.swapEdgeUsd]
        · simp only [EntryState.totals, Totals.merge, onePass, hadds.flows, hadds.newFlows,
            List.nil_append, List.length_map]
    · cases h
  · refine .inl ⟨not_le.mp hle, ?_⟩
    rw [if_neg hle] at h
    exact (Prod.mk.inj (Option.some.inj h)).1.symm

/-- The pass only asks for the counterparty and the worth of the transfers. -/
lemma onePass_congr {prices prices' : Prices} {isWallet isWallet' : String → Bool}
    {ts : List Transfer} (hwhere : ∀ t ∈ ts, t.where_ isWallet = t.where_ isWallet')
    (husd : ∀ t ∈ ts, t.usd prices = t.usd prices') (fired : List String) :
    onePass prices isWallet ts fired = onePass prices' isWallet' ts fired := by
  have houtside : outsideOf isWallet ts = outsideOf isWallet' ts :=
    List.filter_congr fun t ht => by rw [hwhere t ht]
  have hsub : ∀ t ∈ outsideOf isWallet' ts, t ∈ ts := fun t ht => (List.mem_filter.mp ht).1
  have hinside : insideOf prices isWallet ts = insideOf prices' isWallet' ts := by
    have hfilter : (ts.filter fun t => t.where_ isWallet = .internal) =
        ts.filter fun t => t.where_ isWallet' = .internal :=
      List.filter_congr fun t ht => by rw [hwhere t ht]
    rw [insideOf, insideOf, hfilter]
    apply List.map_congr_left
    intro t ht
    rw [Transfer.insideMove, Transfer.insideMove, husd t (List.mem_filter.mp ht).1]
  have hsum : ∀ p : Transfer → Bool, ((outsideOf isWallet' ts).filter p).map (·.usd prices) =
      ((outsideOf isWallet' ts).filter p).map (·.usd prices') := fun p =>
    List.map_congr_left fun t ht => husd t (hsub t (List.mem_filter.mp ht).1)
  simp only [onePass, houtside, hinside, hsum]

lemma transfersIn_append (tokens : List ScoredToken) (wallet : String) (es es' : List Event) :
    transfersIn tokens wallet (es ++ es') =
      transfersIn tokens wallet es ++ transfersIn tokens wallet es' :=
  List.filterMap_append

lemma exists_of_mem_transfersIn {tokens : List ScoredToken} {wallet : String} {es : List Event}
    {t : Transfer} (ht : t ∈ transfersIn tokens wallet es) :
    ∃ e ∈ es, t.ledger = e.ledger ∧ t.txHash = e.txHash ∧ t.token ∈ tokens := by
  obtain ⟨e, he, hread⟩ := List.mem_filterMap.mp ht
  exact ⟨e, he, readTransfer_spec (Option.join_eq_some_iff.mp hread)⟩

namespace Indexer

/-! ## The scene -/

/-- The log and what stays the same over the runs. The events of a transaction are in one ledger. -/
structure Scene where
  setup : Setup
  log : List Event
  inOrder : log.Pairwise fun e e' => e.ledger ≤ e'.ledger
  oneLedger : ∀ e ∈ log, ∀ e' ∈ log, e.txHash = e'.txHash → e.ledger = e'.ledger
  startLedger : ℤ
  tokens : List ScoredToken
  prices : Prices
  isWallet : String → Bool

namespace Scene

variable (sc : Scene)

/-- The events of the wallet's transfers in a range. -/
def transferEvents (wallet : String) (lo hi : ℤ) : List Event :=
  sc.log.filter fun e => isTransfer sc.setup.toEnv sc.tokens wallet e && e.within lo hi

/-- The transactions in a range in which the wallet's autopilot fired. -/
def fired (wallet : String) (lo hi : ℤ) : List String :=
  (sc.log.filter fun e => isRun sc.setup.toEnv sc.tokens wallet e && e.within lo hi).map (·.txHash)

/-- The wallet's transfers in a range, in the order of the log. -/
def transfers (wallet : String) (lo hi : ℤ) : List Transfer :=
  transfersIn sc.tokens wallet (sc.transferEvents wallet lo hi)

/-- **One pass** over the wallet's transfers in a range. -/
def onePass (wallet : String) (lo hi : ℤ) : Totals :=
  Competition.onePass sc.prices sc.isWallet (sc.transfers wallet lo hi) (sc.fired wallet lo hi)

variable {sc}

lemma exists_of_mem_transfers {wallet : String} {lo hi : ℤ} {t : Transfer}
    (ht : t ∈ sc.transfers wallet lo hi) :
    ∃ e ∈ sc.log, e.within lo hi ∧ t.ledger = e.ledger ∧ t.txHash = e.txHash := by
  obtain ⟨e, he, hledger, hhash, -⟩ := exists_of_mem_transfersIn ht
  obtain ⟨hmem, hmatch⟩ := List.mem_filter.mp he
  rw [Bool.and_eq_true] at hmatch
  exact ⟨e, hmem, hmatch.2, hledger, hhash⟩

lemma within_iff {lo hi : ℤ} {e : Event} : e.within lo hi = true ↔ lo ≤ e.ledger ∧ e.ledger ≤ hi := by
  rw [Event.within, Bool.and_eq_true, decide_eq_true_eq, decide_eq_true_eq]

lemma mem_fired_iff {wallet hash : String} {lo hi : ℤ} : hash ∈ sc.fired wallet lo hi ↔
    ∃ e ∈ sc.log, e.within lo hi ∧ isRun sc.setup.toEnv sc.tokens wallet e ∧ e.txHash = hash := by
  simp only [fired, List.mem_map, List.mem_filter, Bool.and_eq_true]
  constructor
  · rintro ⟨e, ⟨hmem, hrun, hwithin⟩, heq⟩
    exact ⟨e, hmem, hwithin, hrun, heq⟩
  · rintro ⟨e, hmem, hwithin, hrun, heq⟩
    exact ⟨e, ⟨hmem, hrun, hwithin⟩, heq⟩

/-- A run is in the range of a transfer of its transaction. -/
lemma mem_fired_of_mem {wallet : String} {lo hi lo' hi' : ℤ} (hlo : lo' ≤ lo) (hhi : hi ≤ hi')
    {t : Transfer} (ht : t ∈ sc.transfers wallet lo hi) :
    t.txHash ∈ sc.fired wallet lo' hi' ↔ t.txHash ∈ sc.fired wallet lo hi := by
  obtain ⟨e, hmem, hwithin, -, hhash⟩ := exists_of_mem_transfers ht
  rw [within_iff] at hwithin
  rw [mem_fired_iff, mem_fired_iff]
  constructor
  · rintro ⟨e', hmem', -, hrun, heq⟩
    have hsame := sc.oneLedger e hmem e' hmem' (hhash.symm.trans heq.symm)
    exact ⟨e', hmem', within_iff.mpr (hsame ▸ hwithin), hrun, heq⟩
  · rintro ⟨e', hmem', hwithin', hrun, heq⟩
    rw [within_iff] at hwithin'
    exact ⟨e', hmem', within_iff.mpr (by omega), hrun, heq⟩

lemma transfers_cut (wallet : String) {lo mid hi : ℤ} (hlo : lo ≤ mid + 1) (hhi : mid ≤ hi) :
    sc.transfers wallet lo hi = sc.transfers wallet lo mid ++ sc.transfers wallet (mid + 1) hi := by
  have hcut := Paged.filter_range_cut sc.inOrder (isTransfer sc.setup.toEnv sc.tokens wallet) hlo hhi
  exact (congrArg (transfersIn sc.tokens wallet) hcut).trans (transfersIn_append _ _ _ _)

/-- **Cuts of the range**: every transaction is on one side, so the passes add up. -/
theorem onePass_cut (wallet : String) {lo mid hi : ℤ} (hlo : lo ≤ mid + 1) (hhi : mid ≤ hi) :
    sc.onePass wallet lo hi =
      (sc.onePass wallet lo mid).merge (sc.onePass wallet (mid + 1) hi) := by
  rw [onePass, transfers_cut wallet hlo hhi]
  apply onePass_append
  · intro t ht t' ht' heq
    obtain ⟨e, hmem, hwithin, -, hhash⟩ := exists_of_mem_transfers ht
    obtain ⟨e', hmem', hwithin', -, hhash'⟩ := exists_of_mem_transfers ht'
    rw [within_iff] at hwithin hwithin'
    have hsame := sc.oneLedger e hmem e' hmem' (by rw [← hhash, ← hhash', heq])
    omega
  · exact fun t ht => mem_fired_of_mem le_rfl hhi ht
  · exact fun t ht => mem_fired_of_mem hlo le_rfl ht

end Scene

/-! ## One run of an entry -/

/-- A state with the totals of one pass from the start to the ledger it was read through. -/
structure Exact (sc : Scene) (wallet : String) (state : EntryState) : Prop where
  from_start : sc.startLedger ≤ state.toLedger + 1
  totals : state.totals = sc.onePass wallet sc.startLedger state.toLedger

/-- A run of an entry under the scene's settings, prices and classification. -/
structure SameScene (sc : Scene) (wallet : String) (run : RunArgs) : Prop where
  startLedger : run.config.startLedger = sc.startLedger
  tokens : run.tokens = sc.tokens
  prices : ∀ t ∈ sc.tokens, priceOf t run.prices = priceOf t sc.prices
  kinds : ∀ t ∈ transfersIn sc.tokens wallet (sc.log.filter
    (isTransfer sc.setup.toEnv sc.tokens wallet)), t.where_ run.isWallet = t.where_ sc.isWallet

/-- And one for which the RPC still has every ledger after the last one read. -/
structure SteadyArgs (sc : Scene) (wallet : String) (run : RunArgs) (prev : Option EntryState) :
    Prop extends SameScene sc wallet run where
  oldest : run.oldest ≤ (prev.getD (EntryState.blank run.config)).toLedger + 1

section Entry

variable {sc : Scene} {wallet : String} {run : RunArgs}

/-- Nothing was read of a new entry. -/
lemma exact_blank {config : CompetitionConfig} (h : config.startLedger = sc.startLedger) :
    Exact sc wallet (EntryState.blank config) where
  from_start := by simp [EntryState.blank, h]
  totals := by
    have hempty : ∀ q : Event → Bool, (sc.log.filter fun e =>
        q e && e.within sc.startLedger (EntryState.blank config).toLedger) = [] := by
      intro q
      rw [List.filter_eq_nil_iff]
      intro e _ hmatch
      rw [Bool.and_eq_true, Scene.within_iff, EntryState.blank, h] at hmatch
      have hlt := hmatch.2
      dsimp only at hlt
      omega
    rw [Scene.onePass, Scene.transfers, Scene.transferEvents, hempty]
    rfl

/-- A smaller range is within a larger one. -/
lemma within_of_within {from_ to_ lo hi : ℤ} (hfrom : from_ ≤ lo) (hto : hi ≤ to_) {e : Event}
    (he : e.within lo hi = true) : e.within from_ to_ = true := by
  rw [Scene.within_iff] at he ⊢
  omega

/-- **The transfers of a run** are the scene's, over the range it read, in some order. -/
lemma transfers_walletActivity (hids : (sc.tokens.map (·.id)).Nodup)
    (hsame : SameScene sc wallet run) {from_ to_ lo hi : ℤ} (hfrom : from_ ≤ lo) (hto : hi ≤ to_) :
    (transfersIn run.tokens wallet (walletActivity sc.setup.toEnv
      (sc.log.filter (Event.within from_ to_)) run.tokens wallet lo hi).transfers).Perm
      (sc.transfers wallet lo hi) := by
  have hsorted := sc.inOrder.sublist (List.filter_sublist (p := Event.within from_ to_))
  have hevents : ((sc.log.filter (Event.within from_ to_)).filter fun e =>
      isTransfer sc.setup.toEnv sc.tokens wallet e && e.within lo hi) =
      sc.transferEvents wallet lo hi := by
    rw [List.filter_filter, Scene.transferEvents]
    apply List.filter_congr
    intro e _
    cases hwithin : e.within lo hi with
    | false => rw [Bool.and_false, Bool.false_and]
    | true => rw [within_of_within hfrom hto hwithin, Bool.and_true, Bool.and_true]
  rw [hsame.tokens]
  exact (hevents ▸ transfers_perm sc.setup.toEnv hsorted hids wallet lo hi).filterMap _

/-- **The pass of a run** is the scene's, over the range it read. -/
lemma onePass_walletActivity (hids : (sc.tokens.map (·.id)).Nodup)
    (hsame : SameScene sc wallet run) {from_ to_ lo hi : ℤ} (hfrom : from_ ≤ lo) (hto : hi ≤ to_) :
    onePass run.prices run.isWallet
        (transfersIn run.tokens wallet (walletActivity sc.setup.toEnv
          (sc.log.filter (Event.within from_ to_)) run.tokens wallet lo hi).transfers)
        (walletActivity sc.setup.toEnv (sc.log.filter (Event.within from_ to_)) run.tokens
          wallet lo hi).fired = sc.onePass wallet lo hi := by
  have hsorted := sc.inOrder.sublist (List.filter_sublist (p := Event.within from_ to_))
  rw [onePass_perm (transfers_walletActivity hids hsame hfrom hto), hsame.tokens]
  have hkinds : ∀ t ∈ sc.transfers wallet lo hi, t.where_ run.isWallet =
      t.where_ sc.isWallet := by
    intro t ht
    apply hsame.kinds t
    apply List.Sublist.subset ?_ ht
    exact (List.monotone_filter_right _ fun e h => (Bool.and_eq_true _ _ ▸ h).1).filterMap _
  have husd : ∀ t ∈ sc.transfers wallet lo hi, t.usd run.prices = t.usd sc.prices := by
    intro t ht
    obtain ⟨-, -, -, -, htoken⟩ := exists_of_mem_transfersIn ht
    rw [Transfer.usd, Transfer.usd, hsame.prices _ htoken]
  have hfired : ∀ t ∈ sc.transfers wallet lo hi,
      t.txHash ∈ (walletActivity sc.setup.toEnv (sc.log.filter (Event.within from_ to_)) sc.tokens
        wallet lo hi).fired ↔ t.txHash ∈ sc.fired wallet lo hi := by
    intro t _
    rw [mem_fired _ hsorted, Scene.mem_fired_iff]
    constructor
    · rintro ⟨e, hmem, hwithin, hrun⟩
      exact ⟨e, (List.mem_filter.mp hmem).1, hwithin, hrun⟩
    · rintro ⟨e, hmem, hwithin, hrun⟩
      exact ⟨e, List.mem_filter.mpr ⟨hmem, within_of_within hfrom hto hwithin⟩, hwithin, hrun⟩
  exact (onePass_congr hkinds husd _).trans (onePass_fired hfired)

/-- **One run**: from an exact state, or as a new entry, to an exact state. -/
theorem indexEntry_exact {prev : Option EntryState} {reads : Reads} {rec : EntrantRecord}
    {r : EntryRun} (hids : (sc.tokens.map (·.id)).Nodup)
    (hprev : ∀ state, prev = some state → Exact sc rec.wallet state)
    (hsteady : SteadyArgs sc rec.wallet run prev) {from_ to_ : ℤ} (hfrom : from_ ≤ run.oldest)
    (hto : run.latest ≤ to_)
    (h : indexEntry sc.setup.toEnv (sc.log.filter (Event.within from_ to_)) run reads rec prev =
      some r) : Exact sc rec.wallet r.state := by
  have hbase : Exact sc rec.wallet (prev.getD (EntryState.blank run.config)) := by
    cases prev with
    | none => exact exact_blank hsteady.startLedger
    | some state => exact hprev state rfl
  have holdest := hsteady.oldest
  obtain ⟨state, newFlows, -, -, hflows, -, hsame, -, -, -⟩ := indexEntry_spec h
  suffices hstate : Exact sc rec.wallet state from
    ⟨hsame.toLedger ▸ hstate.from_start, by rw [hsame.totals, hsame.toLedger, hstate.totals]⟩
  rcases readFlows_spec hflows with ⟨-, rfl⟩ | ⟨hle, hread⟩
  · exact hbase
  · -- the range read goes on where the state's pass ended
    rw [max_eq_left holdest] at hle hread
    have hledger := hread.toLedger
    have htotals := hread.totals
    have hend : run.end_ ≤ run.latest := min_le_left _ _
    have hstart := hbase.from_start
    rw [onePass_walletActivity hids hsteady.toSameScene (by omega) (by omega)] at htotals
    refine ⟨by omega, ?_⟩
    rw [htotals, hbase.totals, hledger]
    exact (Scene.onePass_cut _ hstart (by omega)).symm

end Entry

/-! ## Runs, failures and restarts -/

section Runs

variable {sc : Scene} {wallet : String}

/-- What is kept and what is stored of the wallet is exact. -/
structure Inv (sc : Scene) (wallet : String) (p : Process) : Prop where
  kept : ∀ state, p.memory.states wallet = some state → Exact sc wallet state
  stored : ∀ state, p.store.totals wallet = some state → Exact sc wallet state

/-- An effect that keeps and writes exact states of the wallet only. -/
def Effect.Sound (sc : Scene) (wallet : String) : Effect → Prop
  | .keep done => ∀ d ∈ done, d.score.wallet = wallet → Exact sc wallet d.state
  | .mset pairs => ∀ state, .totals wallet state ∈ pairs → Exact sc wallet state
  | _ => True

lemma Inv.keep {p : Process} (h : Inv sc wallet p) {done : List EntryRun}
    (hdone : ∀ d ∈ done, d.score.wallet = wallet → Exact sc wallet d.state) :
    Inv sc wallet { p with memory := done.foldl Memory.keep p.memory } := by
  induction done generalizing p with
  | nil => exact h
  | cons d done ih =>
    have hd : Inv sc wallet { p with memory := p.memory.keep d } := by
      refine ⟨?_, h.stored⟩
      intro state hstate
      simp only [Memory.keep, put] at hstate
      split at hstate
      · next heq =>
        obtain rfl := Option.some.inj hstate
        exact hdone d List.mem_cons_self heq.symm
      · exact h.kept state hstate
    exact ih hd fun d' hd' => hdone d' (List.mem_cons_of_mem d hd')

lemma Inv.mset {p : Process} (h : Inv sc wallet p) {pairs : List Pair}
    (hpairs : ∀ state, .totals wallet state ∈ pairs → Exact sc wallet state) :
    Inv sc wallet { p with store := pairs.foldl Store.set p.store } := by
  induction pairs generalizing p with
  | nil => exact h
  | cons pair pairs ih =>
    have hset : Inv sc wallet { p with store := p.store.set pair } := by
      refine ⟨h.kept, ?_⟩
      intro state hstate
      cases pair with
      | totals w state' =>
        simp only [Store.set, put] at hstate
        split at hstate
        · next heq =>
          obtain rfl := Option.some.inj hstate
          exact hpairs _ (heq ▸ List.mem_cons_self)
        · exact h.stored state hstate
      | score w score => exact h.stored state hstate
      | board rows => exact h.stored state hstate
      | updatedAt time => exact h.stored state hstate
    exact ih hset fun state hmem => hpairs state (List.mem_cons_of_mem pair hmem)

/-- **One effect**: reading entries takes exact totals out of the store, keeping and writing puts
exact ones there. -/
lemma Inv.apply {p : Process} (h : Inv sc wallet p) {e : Effect} (he : e.Sound sc wallet) :
    Inv sc wallet (e.apply p) := by
  cases e with
  | clear raw => exact ⟨fun state hstate => absurd hstate (by simp [Effect.apply, Memory.empty]),
      h.stored⟩
  | forget wallets =>
    refine ⟨?_, h.stored⟩
    intro state hstate
    simp only [Effect.apply] at hstate
    split at hstate
    · cases hstate
    · exact h.kept state hstate
  | load wallets =>
    refine ⟨?_, h.stored⟩
    intro state hstate
    simp only [Effect.apply, loadEntries] at hstate
    split at hstate
    · split at hstate
      · next hsome => exact h.stored state (hsome.trans hstate)
      · exact h.kept state hstate
    · exact h.kept state hstate
  | push c => exact ⟨h.kept, h.stored⟩
  | keep done => exact h.keep he
  | mset pairs => exact h.mset he

lemma Inv.applyAll {es : List Effect} (hes : ∀ e ∈ es, e.Sound sc wallet) {p : Process}
    (h : Inv sc wallet p) : Inv sc wallet (applyAll es p) := by
  induction es generalizing p with
  | nil => exact h
  | cons e es ih =>
    exact ih (fun e' he' => hes e' (List.mem_cons_of_mem e he')) (h.apply (hes e List.mem_cons_self))

lemma sound_opening (raw : String) (p : Process) : ∀ e ∈ opening raw p, e.Sound sc wallet := by
  intro e he
  rw [opening, List.mem_append, List.mem_singleton] at he
  rcases he with he | rfl
  · split at he
    · cases he
    · obtain rfl := List.mem_singleton.mp he
      trivial
  · trivial

lemma sound_loading (raw : String) (p : Process) : ∀ e ∈ loading raw p, e.Sound sc wallet := by
  intro e he
  rw [loading, List.mem_append, List.mem_singleton] at he
  rcases he with he | rfl
  · exact sound_opening raw p e he
  · trivial

/-- The writes keep what the runs made and write what is then kept. -/
lemma sound_writes (setup : Setup) (r : RunReads) (entries : List EntrantRecord)
    {done : List EntryRun} {p : Process} (h : Inv sc wallet p)
    (hdone : ∀ d ∈ done, d.score.wallet = wallet → Exact sc wallet d.state) :
    ∀ e ∈ writes setup r entries done p.memory, e.Sound sc wallet := by
  intro e he
  rw [writes, List.mem_append, List.mem_cons] at he
  rcases he with he | rfl | he
  · obtain ⟨batch, -, he⟩ := List.mem_flatMap.mp he
    obtain ⟨c, -, rfl⟩ := List.mem_map.mp he
    trivial
  · exact hdone
  · obtain ⟨group, hgroup, rfl⟩ := List.mem_map.mp he
    intro state hmem
    have hpair : Pair.totals wallet state ∈ pairsOf r entries done (done.foldl Memory.keep p.memory)
        := by
      rw [← flatten_chunkBySize (K := ℕ) (pairsOf r entries done (done.foldl Memory.keep p.memory))]
      exact List.mem_flatten.mpr ⟨group, hgroup, hmem⟩
    simp only [pairsOf, List.mem_append, List.mem_map, List.mem_filterMap, List.mem_cons,
      reduceCtorEq, and_false, exists_false, false_or, or_false, Option.map_eq_some_iff,
      List.not_mem_nil] at hpair
    obtain ⟨rec, -, state', hstate, heq⟩ := hpair
    obtain ⟨rfl, rfl⟩ := Pair.totals.inj heq
    exact (h.keep hdone).kept _ hstate

/-- The scene's settings, prices and classification hold for a run, and the RPC still has every ledger
after the last one that was read for the wallet. -/
def Steady (sc : Scene) (wallet : String) (r : RunReads) (p : Process) : Prop :=
  ∀ raw config, settings sc.setup p = some (raw, config) →
    SteadyArgs sc wallet (runArgs r config (entriesOf raw p)) ((loaded raw p).memory.states wallet)

lemma nodup_tokensOf (config : CompetitionConfig) : ((tokensOf config).map (·.id)).Nodup := by
  have hall : (ALL_TOKENS.map (·.id)).Nodup := by decide
  exact hall.sublist (List.filter_sublist.map _)

/-- The effects of a run are sound. -/
lemma sound_run {r : RunReads} {p : Process} (h : Inv sc wallet p) (hsteady : Steady sc wallet r p) :
    ∀ e ∈ run sc.setup sc.log r p, e.Sound sc wallet := by
  rw [run]
  cases hsettings : settings sc.setup p with
  | none => exact fun e he => absurd he List.not_mem_nil
  | some res =>
    obtain ⟨raw, config⟩ := res
    have hargs := hsteady raw config hsettings
    have hloaded : Inv sc wallet (loaded raw p) := h.applyAll (sound_loading raw p)
    dsimp only
    split
    · exact sound_opening raw p
    · split
      · exact sound_loading raw p
      · intro e he
        rcases List.mem_append.mp he with he | he
        · exact sound_loading raw p e he
        · refine sound_writes sc.setup r _ hloaded ?_ e he
          intro d hd hwallet
          obtain ⟨rec, -, hindex⟩ := List.mem_filterMap.mp hd
          obtain ⟨-, -, -, -, -, -, -, hrec, -, -⟩ := indexEntry_spec hindex
          obtain rfl : rec.wallet = wallet := hrec.symm.trans hwallet
          have hids : (sc.tokens.map (·.id)).Nodup := by
            rw [← hargs.tokens]
            exact nodup_tokensOf config
          apply indexEntry_exact hids hloaded.kept hargs ?_ ?_ hindex
          · show r.oldestLedger.getD 1 ≤ r.oldestLedger.getD 1 + 1
            omega
          · show r.latestLedger ≤ r.latestLedger + r.later
            omega

end Runs

/-- A step is steady when a run's is. -/
def Act.Steady (sc : Scene) (wallet : String) (p : Process) : Act → Prop
  | .run r _ => Indexer.Steady sc wallet r p
  | _ => True

/-- The processes reached from a store without totals of the wallet, by runs that stop anywhere,
restarts and registrations. -/
inductive Reaches (sc : Scene) (wallet : String) : Process → Prop
  | start (store : Store) (h : store.totals wallet = none) : Reaches sc wallet ⟨Memory.empty, store⟩
  | step {p : Process} (h : Reaches sc wallet p) (a : Act) (hsteady : a.Steady sc wallet p) :
    Reaches sc wallet (step sc.setup sc.log p a)

lemma Reaches.inv {sc : Scene} {wallet : String} {p : Process} (h : Reaches sc wallet p) :
    Inv sc wallet p := by
  induction h with
  | start store h => exact ⟨fun state hstate => absurd hstate (by simp [Memory.empty]),
      fun state hstate => absurd hstate (by simp [h])⟩
  | @step p h a hsteady ih =>
    cases a with
    | run r stop =>
      exact ih.applyAll fun e he => sound_run ih hsteady e (List.mem_of_mem_take he)
    | restart => exact ⟨fun state hstate => absurd hstate (by simp [Indexer.step, Memory.empty]),
        ih.stored⟩
    | register config entrants entrant => exact ⟨ih.kept, ih.stored⟩

/-- **The totals are exactly-once**: whatever runs came before, wherever they stopped and however
often the process restarted, every kept and every stored state has the totals of one pass over the
wallet's transfers from the start to the ledger it was read through.

**Proof sketch.** One run of an entry reads the range after its state's last ledger, and every
transaction is on one side of that cut, so the pass over the range adds up with the state's
(`indexEntry_exact`). A run that stops has done some first effects of a run, and each effect takes
kept and stored states to kept and stored states, or puts an exact one there. -/
theorem totals_exact {sc : Scene} {wallet : String} {p : Process} (h : Reaches sc wallet p) :
    (∀ state, p.memory.states wallet = some state →
      state.totals = sc.onePass wallet sc.startLedger state.toLedger) ∧
    ∀ state, p.store.totals wallet = some state →
      state.totals = sc.onePass wallet sc.startLedger state.toLedger :=
  ⟨fun state hstate => (h.inv.kept state hstate).totals,
    fun state hstate => (h.inv.stored state hstate).totals⟩

/-! ### A run cut off between its writes -/

def exampleConfig : CompetitionConfig where
  startLedger := 1000
  endLedger := none
  startingCapitalUsd := 100
  startingBasket := none
  maxEntrants := none
  autopilotOnly := true
  excludeTokens := []

def exampleSetup : Setup where
  ROUTER := "CD5VSBUXQ4OQIVYI55CFF4C4YKSFQUY4OTFIOFJRNC6TUILMNN7MAO2D"
  numberText x := toString x.num
  parseConfig raw := if raw = "settings" then some exampleConfig else none
  commandBytes _ := 300
  valueBytes _ := 500

/-- A transfer of a built-in token: its topics are the sender, the receiver and the asset. -/
def transferEvent (ledger : ℤ) (txHash : String) (t : ScoredToken) (sender receiver : String)
    (amount : ℤ) : Event :=
  ⟨ledger, txHash, t.id, [.symbol "transfer", .address sender, .address receiver, .other t.symbol],
    .int amount⟩

def XLM : ScoredToken := ⟨"XLM", "CDLZFC3SYJYDZT7K67VZ75HPJVIEUVNIXF47ZG2FB2RMQQVU2HHGCYSC", 7,
  some "XLM"⟩

/-- What the RPC reads for every run of the example: XLM is at 17 cents. -/
def exampleReads (latest : ℤ) (usdc xlm : ℤ) : RunReads where
  latestLedger := latest
  oldestLedger := some 900
  later := 1
  readOracle feed := if feed = "XLM" then some (17, 2) else none
  wasmHash _ := none
  sac key :=
    if key = USDC_TESTNET.id ++ ":CAAA1" then some usdc
    else if key = XLM.id ++ ":CAAA1" then some xlm
    else some 0
  started := 1800000000000
  finished := 1800000001000
  entry _ := {
    answered := true
    tokenBalance := fun _ => some 0
    positionNft := some none
    hubAmounts := fun _ => some []
    autopilots := some []
    checkNow := 1800000000500
    foundNow := 1800000000600
    now := 1800000000700 }

/-- A deposit of 100 USDC, and a swap of 51 of them for 310 XLM, which is worth more. -/
def exampleScene : Scene where
  setup := exampleSetup
  log := [transferEvent 1002 "a1" USDC_TESTNET "GAAA9" "CAAA1" 1000000000,
    transferEvent 1010 "b2" USDC_TESTNET "CAAA1" "CPOOL" 510000000,
    transferEvent 1010 "b2" XLM "CPOOL" "CAAA1" 3100000000]
  inOrder := by decide
  oneLedger := by decide
  startLedger := 1000
  tokens := tokensOf exampleConfig
  prices := pricesOf (exampleReads 0 0 0) (tokensOf exampleConfig)
  isWallet _ := false

def exampleStore : Store where
  config := some "settings"
  entrants := ["CAAA1"]
  entrant w := if w = "CAAA1" then
    some ⟨"CAAA1", "trader1", "t1@example.com", 1000, some 1000, none, none⟩ else none
  totals _ := none
  score _ := none
  lists _ := []
  board := none
  updatedAt := none

lemma example_steady {p : Process} (h : Inv exampleScene "CAAA1" p) (latest usdc xlm : ℤ) :
    Steady exampleScene "CAAA1" (exampleReads latest usdc xlm) p := by
  intro raw config hsettings
  obtain rfl : config = exampleConfig := by
    obtain ⟨raw', -, hparse⟩ := Option.bind_eq_some_iff.mp hsettings
    obtain ⟨config', hconfig, heq⟩ := Option.map_eq_some_iff.mp hparse
    obtain ⟨-, rfl⟩ := Prod.mk.inj heq
    simp only [exampleScene, exampleSetup] at hconfig
    split at hconfig
    · exact (Option.some.inj hconfig).symm
    · cases hconfig
  have hloaded : Inv exampleScene "CAAA1" (loaded raw p) := h.applyAll (sound_loading raw p)
  refine ⟨⟨rfl, rfl, fun t _ => rfl, ?_⟩, ?_⟩
  · intro t _
    have hnone : isWallet (exampleReads latest usdc xlm) (entriesOf raw p) = fun _ => false := by
      funext c
      simp [isWallet, exampleReads]
    show t.where_ (isWallet (exampleReads latest usdc xlm) (entriesOf raw p)) = _
    rw [hnone]
    rfl
  · show (900 : ℤ) + 1 ≤ _
    cases hstate : (loaded raw p).memory.states "CAAA1" with
    | none => exact (by decide : (900 : ℤ) + 1 ≤ 1000 - 1 + 1)
    | some state =>
      have hstart := (hloaded.kept state hstate).from_start
      simp only [exampleScene] at hstart
      simp only [Option.getD_some]
      omega

/-- A run, a run that stops before it writes its totals, and one after a restart. -/
def exampleActs : List Act :=
  [.run (exampleReads 1005 1000000000 0) 20, .run (exampleReads 1011 490000000 3100000000) 3,
    .restart, .run (exampleReads 1012 490000000 3100000000) 20]

def exampleProcess : Process :=
  exampleActs.foldl (step exampleSetup exampleScene.log) ⟨Memory.empty, exampleStore⟩

/-- The restart after the cut loses nothing: the totals are those of one pass, with the edge of the
swap counted once. -/
theorem totals_exact_restart :
    ((exampleProcess.store.totals "CAAA1").map fun state => (state.toLedger, state.swapEdgeUsd)) =
      some (1012, 17 / 10) ∧
    (∀ state, exampleProcess.memory.states "CAAA1" = some state →
      state.totals = exampleScene.onePass "CAAA1" 1000 state.toLedger) ∧
    ∀ state, exampleProcess.store.totals "CAAA1" = some state →
      state.totals = exampleScene.onePass "CAAA1" 1000 state.toLedger := by
  have h0 : Reaches exampleScene "CAAA1" ⟨Memory.empty, exampleStore⟩ := .start _ rfl
  have h1 := h0.step (.run (exampleReads 1005 1000000000 0) 20) (example_steady h0.inv _ _ _)
  have h2 := h1.step (.run (exampleReads 1011 490000000 3100000000) 3)
    (example_steady h1.inv _ _ _)
  have h3 := h2.step .restart trivial
  have h4 := h3.step (.run (exampleReads 1012 490000000 3100000000) 20)
    (example_steady h3.inv _ _ _)
  refine ⟨?_, totals_exact h4⟩
  decide +kernel

end Indexer

end Koul.Competition
