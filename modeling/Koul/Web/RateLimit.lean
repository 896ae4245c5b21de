import Koul.Lib.Heard
import Mathlib.Data.Rat.Floor

set_option relaxedAutoImplicit false
set_option autoImplicit false

/-!
# Limits on requests

The limits of `web/lib/rate-limit.ts` on the routes that anyone can call: a budget for each address that
a request comes from, and on two routes one for each wallet. The limiter counts in the store; without a
store, or when it fails, requests pass.

## Main definitions

* `Koul.RateLimit.rateLimit` — the refusal of a request, if it is refused.
-/

namespace Koul.RateLimit

open Interleaving Interleaving.Prog

inductive Duration
  | minute
  | hour
  | day
deriving DecidableEq, Repr

/-- `human`. -/
def Duration.text : Duration → String
  | minute => "minute"
  | hour => "hour"
  | day => "day"

inductive LimitName
  | chat
  | parse
  | testUsdc
  | faucet
  | waitlist
  | funds
  | register
deriving DecidableEq, Repr

def LimitName.text : LimitName → String
  | chat => "chat"
  | parse => "parse"
  | testUsdc => "testUsdc"
  | faucet => "faucet"
  | waitlist => "waitlist"
  | funds => "funds"
  | register => "register"

/-- So many requests in a window. -/
abbrev Rule : Type := ℕ × Duration

/-- The budgets of an address. -/
def LIMITS : LimitName → List Rule
  | .chat | .parse => [(60, .minute), (1000, .day)]
  | .testUsdc => [(300, .day)]
  | .faucet => [(20, .day)]
  | .waitlist => [(5, .minute), (30, .day)]
  | .funds => [(20, .hour)]
  | .register => [(10, .minute), (50, .day)]

/-- The budget of a wallet, on top of them. -/
def PER_WALLET : LimitName → Option Rule
  | .testUsdc | .faucet => some (2, .day)
  | _ => none

inductive Cmd
  /-- `limit(id)` of the limiter with this key and rule. -/
  | limit (key id : String) (rule : Rule)
  | now
deriving DecidableEq, Repr

/-- The limiter answers whether there was room and when there is again, or throws. -/
@[reducible] def Cmd.Reply : Cmd → Type
  | limit _ _ _ => Except String (Bool × ℤ)
  | now => ℤ

/-- The answer 429. -/
structure Refusal where
  error : String
  retryAfter : ℤ
deriving DecidableEq, Repr

def refusal (rule : Rule) (reset now : ℤ) : Refusal :=
  let retry := max 1 ⌈((reset - now : ℤ) : ℚ) / 1000⌉
  let time := if retry < 120 then s!"{retry} seconds" else s!"about {⌈(retry : ℚ) / 60⌉} minutes"
  ⟨s!"Too many requests. Try again in {time}. The limit is {rule.1} per {rule.2.text}.", retry⟩

structure Check where
  key : String
  id : String
  rule : Rule
deriving DecidableEq, Repr

/-- The budgets that a request draws on. -/
def checks (clientIp : String) (name : LimitName) (wallet : Option String) : List Check :=
  (LIMITS name).zipIdx.map (fun (rule, i) => ⟨s!"{name.text}:ip:{i}", clientIp, rule⟩) ++
    match wallet, PER_WALLET name with
    | some wallet, some rule => if wallet = "" then [] else [⟨s!"{name.text}:wallet", wallet, rule⟩]
    | _, _ => []

/-- Asks for room in each budget, up to the first that has none. -/
def ask : List Check → Thrower Cmd.Reply String (Option Refusal)
  | [] => return none
  | check :: rest => do
    let r ← Thrower.ask (.limit check.key check.id check.rule) id
    if r.1 then ask rest
    else
      let now ← (Thrower.ask .now Except.ok : Thrower Cmd.Reply String ℤ)
      return some (refusal check.rule r.2 now)

/-- `none` when the request may go on; otherwise the refusal to return. -/
def rateLimit (hasStore : Bool) (clientIp : String) (name : LimitName) (wallet : Option String) :
    Prog Cmd.Reply (Option Refusal) :=
  if !hasStore then return none
  else do
    match ← (ask (checks clientIp name wallet)).run with
    | .ok answer => return answer
    | .error _ => return none

end Koul.RateLimit
