import Mathlib.Data.Int.Notation
import Mathlib.Data.List.Basic

set_option relaxedAutoImplicit false
set_option autoImplicit false

/-!
# Host values

The Soroban host types that the contracts and the TypeScript packages share: addresses,
symbols, byte strings and the ledger header.

## Main definitions

* `Koul.Address` — an address, by its strkey text (`C…` for a contract).
* `Koul.Symbol` — a host symbol: at most 32 characters of `[a-zA-Z0-9_]`.
* `Koul.Ledger` — the ledger's sequence number and close time.
* `Koul.Val` — a host value, as the arguments of a call hold them.
* `Koul.Context` — what a smart account is asked to authorize.

## Design

The contracts compare addresses for equality only and TypeScript holds them as their strkey
text, so the text stands for the address. Unsigned machine integers are natural numbers and
`i128` values are integers.
-/

namespace Koul

/-- An address, by its strkey text. -/
abbrev Address := String

/-- A host byte string. -/
abbrev Bytes := List UInt8

/-- The characters of a host symbol. -/
def isSymbolChar (c : Char) : Bool := c.isAlphanum || c == '_'

/-- A host symbol. -/
structure Symbol where
  name : String
  length_le : name.length ≤ 32
  chars : name.toList.all isSymbolChar = true
deriving DecidableEq, Repr

namespace Symbol

/-- Symbols with the same name are equal. -/
@[ext] lemma ext {s t : Symbol} (h : s.name = t.name) : s = t := by
  cases s; cases t; simp only at h; subst h; rfl

/-- No symbol contains a colon. -/
lemma colon_notMem (s : Symbol) : ':' ∉ s.name.toList := by
  intro h
  have := List.all_eq_true.mp s.chars ':' h
  exact absurd this (by decide)

/-! ### The function names that the contracts and the grant use -/

def tick : Symbol := ⟨"tick", by decide, by decide⟩
def transfer : Symbol := ⟨"transfer", by decide, by decide⟩
def withdraw : Symbol := ⟨"withdraw", by decide, by decide⟩
def supply : Symbol := ⟨"supply", by decide, by decide⟩
def repay : Symbol := ⟨"repay", by decide, by decide⟩
def executeStrategy : Symbol := ⟨"execute_strategy", by decide, by decide⟩

end Symbol

/-- The ledger that a call runs in. -/
structure Ledger where
  sequence : ℕ
  timestamp : ℕ
deriving DecidableEq, Repr

/-- A host value. `other` stands for the kinds that no contract here reads. -/
inductive Val
  | void
  | bool (b : Bool)
  | u32 (n : ℕ)
  | u64 (n : ℕ)
  | i128 (z : ℤ)
  | symbol (s : Symbol)
  | address (a : Address)
  | bytes (b : Bytes)
  | vec (vs : List Val)
  | map (entries : List (Symbol × Val))
  | other

namespace Val

/-- `Address::try_from_val`. -/
def toAddress? : Val → Option Address
  | address a => some a
  | _ => none

/-- `u64::try_from_val`. -/
def toU64? : Val → Option ℕ
  | u64 n => some n
  | _ => none

def isVoid : Val → Bool
  | void => true
  | _ => false

end Val

/-- A call of a contract that asks for an account's authorization. -/
structure ContractContext where
  contract : Address
  fnName : Symbol
  args : List Val

/-- What a smart account is asked to authorize: a call or the creation of a contract. -/
inductive Context
  | contract (c : ContractContext)
  | createContractHostFn
  | createContractWithCtorHostFn

end Koul
