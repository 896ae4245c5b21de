import Koul.Traction.State
import Koul.Lib.Overlap

set_option relaxedAutoImplicit false
set_option autoImplicit false

/-!
# Every event counts once

A keeper's run reads the router's events from a cursor on, and may read some of them again. However the
events are cut into batches, the batches leave the state that one read of all of them leaves.

## Main definitions

* `Koul.Traction.Past` — an event that is skipped.

## Main results

* `Koul.Traction.counts_countEvent` — an event that was counted is skipped from then on.
* `Koul.Traction.cleans_dropHours` — dropping old hours between batches loses nothing.
* `Koul.Traction.events_counted_once` — batches and one read leave the same state.
-/

namespace Koul.Traction

open Competition (Prices)
open Overlap (Slice Covers)

/-- The event's id is not after the last one counted. -/
def Past (s : TractionState) (e : RouterEvent) : Prop := counted s e = true

lemma counted_iff {s : TractionState} {e : RouterEvent} :
    Past s e ↔ ∃ last, s.lastEventId = some last ∧ utf16 e.id ≤ utf16 last := by
  rw [Past, counted]
  cases s.lastEventId <;> simp

/-- **An event that is counted** is the last one, and the ids before it stay behind it. -/
lemma lastEventId_countEvent {prices : Prices} {s t : TractionState} {e : RouterEvent}
    (h : countEvent prices s e = some t) : s = t ∧ Past s e ∨
      t.lastEventId = some e.id ∧ ∀ last, s.lastEventId = some last → utf16 last ≤ utf16 e.id := by
  rw [countEvent] at h
  split at h
  · next hpast => exact .inl ⟨Option.some.inj h, hpast⟩
  · next hnew =>
    obtain ⟨day, -, rfl⟩ := Option.map_eq_some_iff.mp h
    refine .inr ⟨rfl, fun last hlast => ?_⟩
    by_contra hle
    exact hnew (counted_iff.mpr ⟨last, hlast, (lt_of_not_ge hle).le⟩)

theorem counts_countEvent (prices : Prices) : Overlap.Counts (countEvent prices) Past where
  skip := by
    intro s e h
    rw [countEvent]
    exact if_pos h
  counted := by
    intro s e t h
    rcases lastEventId_countEvent h with ⟨rfl, hpast⟩ | ⟨hlast, -⟩
    · exact hpast
    · exact counted_iff.mpr ⟨e.id, hlast, le_rfl⟩
  keeps := by
    intro s e t b h hb
    rcases lastEventId_countEvent h with ⟨rfl, -⟩ | ⟨hlast, hbefore⟩
    · exact hb
    · obtain ⟨last, hs, hle⟩ := counted_iff.mp hb
      exact counted_iff.mpr ⟨e.id, hlast, hle.trans (hbefore last hs)⟩

/-- A run of an hour that is dropped leaves nothing; one of an hour that is kept, all. -/
lemma filter_countHour (q : ℤ → Bool) (hour : ℤ) (i : ℕ) (hours : List (ℤ × List (ℕ × ℕ))) :
    (countHour hour i (hours.filter fun h => q h.1)).filter (fun h => q h.1) =
      (countHour hour i hours).filter fun h => q h.1 := by
  rw [countHour, countHour, Grouped.filter_set, Grouped.filter_set, List.filter_filter]
  simp only [Bool.and_self]
  split
  · next hq => rw [Grouped.get?_filter hq]
  · rfl

lemma filter_countHours (q : ℤ → Bool) (e : RouterEvent) (i : ℕ)
    (hours : List (ℤ × List (ℕ × ℕ))) :
    (countHours e i (hours.filter fun h => q h.1)).filter (fun h => q h.1) =
      (countHours e i hours).filter fun h => q h.1 := by
  unfold countHours
  cases e.body with
  | fired kind amount tx => exact filter_countHour q _ _ _
  | _ => simp only [List.filter_filter, Bool.and_self]

/-- **Old hours may be dropped at any time**: the hours that a later drop keeps are the same. -/
theorem cleans_dropHours (prices : Prices) :
    Overlap.Cleans (countEvent prices) Past dropHours where
  again := by
    intro m n s hmn
    simp only [dropHours, List.filter_filter]
    congr 1
    apply List.filter_congr
    intro h _
    rw [Bool.eq_iff_iff]
    simp only [Bool.and_eq_true, decide_eq_true_eq, not_lt]
    exact ⟨fun hkept => hkept.1, fun hkept => ⟨hkept, by linarith⟩⟩
  step := by
    intro n s e
    have hcounted : counted (dropHours n s) e = counted s e := rfl
    rw [countEvent, countEvent, hcounted]
    split
    · simp [dropHours]
    · rw [Option.map_map, Option.map_map]
      congr 1
      funext day
      simp only [Function.comp_apply, dropHours]
      congr 1
      exact filter_countHours (fun h => ¬ (h : ℚ) < n - HOURS_KEPT * HOUR_MS) _ _ _
  past := Iff.rfl

/-- **Every event counts once**: events read in batches that are slices of them, which may overlap and
be read again as long as none starts beyond what was covered before it and the end is reached, leave
the state that one read of the events leaves, at the time of the last batch. Neither the state nor the
order of the ids matters.

**Proof sketch.** A batch's events up to the furthest point covered are skipped, since their ids are not
after the last one counted, and the others go on from there. Hours that a batch has dropped would be
dropped at the end too, and the others were kept all along. -/
theorem events_counted_once (prices : Prices) (s : TractionState) (es : List RouterEvent)
    {batches : List (Slice ℚ)} (hne : batches ≠ []) (hcover : Covers es.length 0 batches)
    (hnow : batches.Pairwise fun b b' => b.time ≤ b'.time) :
    batches.foldlM (fun s b => applyEvents s (b.items es) prices b.time) s =
      applyEvents s es prices (batches.getLast hne).time :=
  Overlap.foldlM_slices (counts_countEvent prices) (cleans_dropHours prices) s hne hcover hnow

def firstSave : RouterEvent :=
  ⟨"0000000000000000001-0000000000", 1793408400000, "CA", .autopilot_set 1 2⟩

def firstSwap : RouterEvent :=
  ⟨"0000000000000000002-0000000000", 1793408700000, "CA", .swapped
    "CBIELTK6YBZJU5UP2WWQEUCYKLPU6AUNZ2BQ4WWFEIE3USCIHMXQDAMA"
    "CAEXCVZUCB6FGYKU6YAEUJMVCLS74SPSQ2TTEOLJ27A3C6C627OQON47" 400000000 500000⟩

theorem events_counted_once_twice :
    [⟨0, 1, 1793448000000⟩, ⟨0, 2, 1793451600000⟩].foldlM
        (fun s (b : Slice ℚ) => applyEvents s (b.items [firstSave, firstSwap])
          (fun _ => some 4000) b.time) (emptyTraction "CROUTER") =
      applyEvents (emptyTraction "CROUTER") [firstSave, firstSwap] (fun _ => some 4000)
        1793451600000 :=
  events_counted_once (fun _ => some 4000) (emptyTraction "CROUTER") [firstSave, firstSwap]
    (List.cons_ne_nil _ _) ⟨Nat.le_refl 0, Nat.zero_le _, Nat.le_refl 2⟩
    (List.pairwise_pair.mpr (by norm_num))

end Koul.Traction
