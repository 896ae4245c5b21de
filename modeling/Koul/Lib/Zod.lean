import Koul.Lib.Js

set_option relaxedAutoImplicit false
set_option autoImplicit false

/-!
# Schemas of JavaScript values

The combinators of a `zod` schema. A schema reads a value and reports every issue it finds: a
value of the wrong type aborts, any other failed check leaves the value to the checks after it,
and an object or an array reads all its parts. A callback of a check may throw.

## Main definitions

* `Zod.Outcome`, `Zod.Schema` — what reading a value gives; a schema.
* `Zod.number`, `string`, `boolean`, `literal`, `enum`, `array`, `object`, `strictObject`, `union`,
  `discriminatedUnion` — the schemas, and `check`, `refine`, `map`, `optional` on them.

## Main results

* one lemma for each schema that says which values it accepts, and as what.
-/

namespace Zod

/-- Why a check refused a value. -/
inductive Code
  | invalidType
  | invalidLiteral
  | invalidUnion
  | invalidEnumValue
  | invalidUnionDiscriminator
  | invalidString
  | tooSmall
  | tooBig
  | unrecognizedKeys (keys : List String)
  | custom (message : String)
deriving DecidableEq, Repr

structure Issue where
  path : List String
  code : Code
deriving DecidableEq, Repr

/-- What reading a value gives: a value unless the read aborted, the issues, and whether a
callback threw, which ends the read with no answer at all. -/
structure Outcome (α : Type) where
  value : Option α
  issues : List Issue
  thrown : Bool
deriving Repr

variable {α β : Type}

namespace Outcome

/-- A value without issues. -/
def valid (a : α) : Outcome α := ⟨some a, [], false⟩

def abort (path : List String) (code : Code) : Outcome α := ⟨none, [⟨path, code⟩], false⟩

/-- A further issue, which leaves the value. -/
def report (o : Outcome α) (issue : Issue) : Outcome α := { o with issues := o.issues ++ [issue] }

def map (f : α → β) (o : Outcome α) : Outcome β := ⟨o.value.map f, o.issues, o.thrown⟩

/-- Read two parts, both to their ends. -/
def seq (f : Outcome (α → β)) (o : Outcome α) : Outcome β :=
  ⟨f.value.bind fun g => o.value.map g, f.issues ++ o.issues, f.thrown || o.thrown⟩

instance : Pure Outcome := ⟨valid⟩
instance : Functor Outcome := { map := map }
instance : Seq Outcome := ⟨fun f o => f.seq (o ())⟩

@[simp] lemma pure_eq (a : α) : (pure a : Outcome α) = valid a := rfl

@[simp] lemma valid_inj {a b : α} : valid a = valid b ↔ a = b := by simp [valid]

@[simp] lemma abort_ne_valid {path : List String} {code : Code} {a : α} :
    abort path code ≠ valid a := by simp [abort, valid]

@[simp] lemma report_ne_valid {o : Outcome α} {issue : Issue} {a : α} :
    o.report issue ≠ valid a := by simp [report, valid]

lemma ne_valid_of_value {o : Outcome α} {a : α} (hvalue : o.value = none) : o ≠ valid a := by
  rintro rfl
  cases hvalue

lemma eq_of_value {o : Outcome α} {a b : α} (hvalue : o.value = some b) (h : o = valid a) :
    b = a := by
  rw [h] at hvalue
  exact (Option.some.inj hvalue).symm

@[simp] lemma map_eq_valid_iff {f : α → β} {o : Outcome α} {b : β} :
    f <$> o = valid b ↔ ∃ a, o = valid a ∧ f a = b := by
  obtain ⟨value, issues, thrown⟩ := o
  show map f ⟨value, issues, thrown⟩ = valid b ↔ _
  cases value <;> simp [map, valid, and_comm, and_left_comm]

@[simp] lemma seq_eq_valid_iff {f : Outcome (α → β)} {o : Outcome α} {b : β} :
    f <*> o = valid b ↔ ∃ g a, f = valid g ∧ o = valid a ∧ g a = b := by
  obtain ⟨fvalue, fissues, fthrown⟩ := f
  obtain ⟨value, issues, thrown⟩ := o
  show seq ⟨fvalue, fissues, fthrown⟩ ⟨value, issues, thrown⟩ = valid b ↔ _
  cases fvalue with
  | none => simp [seq, valid]
  | some g =>
    cases value with
    | none => simp [seq, valid]
    | some a =>
      simp only [seq, valid, Outcome.mk.injEq, Option.bind_some, Option.map_some,
        Option.some.injEq, List.append_eq_nil_iff, Bool.or_eq_false_iff]
      constructor
      · rintro ⟨rfl, ⟨rfl, rfl⟩, rfl, rfl⟩
        exact ⟨g, a, ⟨rfl, rfl, rfl⟩, ⟨rfl, rfl, rfl⟩, rfl⟩
      · rintro ⟨_, _, ⟨rfl, rfl, rfl⟩, ⟨rfl, rfl, rfl⟩, rfl⟩
        exact ⟨rfl, ⟨rfl, rfl⟩, rfl, rfl⟩

end Outcome

open Outcome

/-- A schema reads the value at a path. -/
abbrev Schema (α : Type) := List String → Js → Outcome α

/-! ## Plain values -/

def string : Schema String
  | _, .string s => valid s
  | path, _ => abort path .invalidType

def number : Schema ℚ
  | _, .number q => valid q
  | path, .notFinite => abort path .invalidType
  | path, _ => abort path .invalidType

def boolean : Schema Bool
  | _, .bool b => valid b
  | path, _ => abort path .invalidType

/-- One of the given texts, each with what it stands for. -/
def enum (texts : List (String × α)) : Schema α
  | path, .string s =>
    match texts.lookup s with
    | some a => valid a
    | none => abort path .invalidEnumValue
  | path, _ => abort path .invalidType

/-- The one value that a test tells, as what it stands for. -/
def literal (test : Js → Bool) (a : α) : Schema α := fun path v =>
  if test v then valid a else abort path .invalidLiteral

/-- A value that may be `undefined`. -/
def optional (s : Schema α) : Schema (Option α)
  | _, .undefined => valid none
  | path, v => some <$> s path v

/-- A value that may be `null`. -/
def nullable (s : Schema α) : Schema (Option α)
  | _, .null => valid none
  | path, v => some <$> s path v

/-- A value that may be left out for another. -/
def default (s : Schema α) (a : α) : Schema α
  | _, .undefined => valid a
  | path, v => s path v

/-- A check of what a schema read. -/
def check (s : Schema α) (test : α → Bool) (code : Code) : Schema α := fun path v =>
  match (s path v).value with
  | some a => if test a then s path v else (s path v).report ⟨path, code⟩
  | none => s path v

/-- A check by a callback: `none` when it throws. -/
def refine (s : Schema α) (test : α → Option Bool) (message : String) : Schema α := fun path v =>
  match (s path v).value with
  | some a =>
    match test a with
    | some true => s path v
    | some false => (s path v).report ⟨path, .custom message⟩
    | none => { s path v with thrown := true }
  | none => s path v

/-- What a schema reads, as another type. -/
def map (f : α → β) (s : Schema α) : Schema β := fun path v => f <$> s path v

variable {path : List String} {v : Js}

@[simp] lemma string_eq_valid_iff {s : String} : string path v = valid s ↔ v = .string s := by
  cases v <;> simp [string]

@[simp] lemma number_eq_valid_iff {q : ℚ} : number path v = valid q ↔ v = .number q := by
  cases v <;> simp [number]

@[simp] lemma boolean_eq_valid_iff {b : Bool} : boolean path v = valid b ↔ v = .bool b := by
  cases v <;> simp [boolean]

@[simp] lemma literal_eq_valid_iff {test : Js → Bool} {a b : α} :
    literal test a path v = valid b ↔ test v = true ∧ a = b := by
  unfold literal
  by_cases h : test v = true <;> simp [h]

lemma optional_eq_valid_iff {s : Schema α} {a : Option α} : optional s path v = valid a ↔
    v = .undefined ∧ a = none ∨ v ≠ .undefined ∧ ∃ b, s path v = valid b ∧ a = some b := by
  cases v <;> simp [optional, eq_comm]

lemma nullable_eq_valid_iff {s : Schema α} {a : Option α} : nullable s path v = valid a ↔
    v = .null ∧ a = none ∨ v ≠ .null ∧ ∃ b, s path v = valid b ∧ a = some b := by
  cases v <;> simp [nullable, eq_comm]

lemma default_eq_valid_iff {s : Schema α} {a b : α} : default s b path v = valid a ↔
    v = .undefined ∧ a = b ∨ v ≠ .undefined ∧ s path v = valid a := by
  cases v <;> simp [default, eq_comm]

lemma enum_eq_valid_iff {texts : List (String × α)} (h : (texts.map Prod.fst).Nodup) {a : α} :
    enum texts path v = valid a ↔ ∃ p ∈ texts, v = .string p.1 ∧ p.2 = a := by
  have hlookup : enum texts path v = valid a ↔ ∃ s, v = .string s ∧ texts.lookup s = some a := by
    cases v with
    | string s => cases hs : texts.lookup s <;> simp [enum, hs]
    | _ => simp [enum]
  rw [hlookup]
  constructor
  · rintro ⟨s, rfl, hs⟩
    exact ⟨(s, a), (Js.lookup_eq_some_iff_mem h).mp hs, rfl, rfl⟩
  · rintro ⟨⟨s, b⟩, hp, rfl, rfl⟩
    exact ⟨s, rfl, (Js.lookup_eq_some_iff_mem h).mpr hp⟩

@[simp] lemma check_eq_valid_iff {s : Schema α} {test : α → Bool} {code : Code} {a : α} :
    check s test code path v = valid a ↔ s path v = valid a ∧ test a = true := by
  unfold check
  cases hvalue : (s path v).value with
  | none => simp [ne_valid_of_value hvalue]
  | some b =>
    by_cases hb : test b = true
    · simp only [hb, if_true]
      constructor
      · intro h
        exact ⟨h, eq_of_value hvalue h ▸ hb⟩
      · exact fun h => h.1
    · simp only [hb, if_false, report_ne_valid, false_iff, Bool.false_eq_true]
      rintro ⟨h, ha⟩
      exact hb (eq_of_value hvalue h ▸ ha)

@[simp] lemma refine_eq_valid_iff {s : Schema α} {test : α → Option Bool} {message : String}
    {a : α} : refine s test message path v = valid a ↔
      s path v = valid a ∧ test a = some true := by
  unfold refine
  cases hvalue : (s path v).value with
  | none => simp [ne_valid_of_value hvalue]
  | some b =>
    constructor
    · intro h
      cases hb : test b with
      | none =>
        simp only [hb] at h
        exact absurd (congrArg Outcome.thrown h) (by simp [valid])
      | some ok =>
        cases ok with
        | true =>
          simp only [hb] at h
          exact ⟨h, eq_of_value hvalue h ▸ hb⟩
        | false =>
          simp only [hb] at h
          exact absurd h report_ne_valid
    · rintro ⟨h, ha⟩
      rw [← eq_of_value hvalue h] at ha
      simp only [ha]
      exact h

@[simp] lemma map_apply {f : α → β} {s : Schema α} : map f s path v = f <$> s path v := rfl

/-! ## Objects -/

/-- The fields of an object that is being read, with its path. -/
structure Fields where
  path : List String
  entries : List (String × Js)

/-- Read one field. -/
def Fields.get (o : Fields) (key : String) (s : Schema α) : Outcome α :=
  s (o.path ++ [key]) (Js.field o.entries key)

/-- An object of which only the fields that are read count. -/
def object (read : Fields → Outcome α) : Schema α
  | path, .object entries => read ⟨path, entries⟩
  | path, _ => abort path .invalidType

/-- An object with no other field than the given ones. -/
def strictObject (keys : List String) (read : Fields → Outcome α) : Schema α
  | path, .object entries =>
    let extra := (entries.map Prod.fst).filter (· ∉ keys)
    if extra.isEmpty then read ⟨path, entries⟩
    else (read ⟨path, entries⟩).report ⟨path, .unrecognizedKeys extra⟩
  | path, _ => abort path .invalidType

@[simp] lemma object_eq_valid_iff {read : Fields → Outcome α} {a : α} :
    object read path v = valid a ↔ ∃ entries, v = .object entries ∧ read ⟨path, entries⟩ = valid a := by
  cases v <;> simp [object]

lemma strictObject_eq_valid_iff {keys : List String} {read : Fields → Outcome α} {a : α} :
    strictObject keys read path v = valid a ↔ ∃ entries, v = .object entries ∧
      (∀ k ∈ entries.map Prod.fst, k ∈ keys) ∧ read ⟨path, entries⟩ = valid a := by
  cases v with
  | object entries =>
    have hextra : ((entries.map Prod.fst).filter (· ∉ keys)).isEmpty = true ↔
        ∀ k ∈ entries.map Prod.fst, k ∈ keys := by
      simp [List.isEmpty_iff, List.filter_eq_nil_iff]
    simp only [strictObject, Js.object.injEq, exists_eq_left', ← hextra]
    by_cases h : ((entries.map Prod.fst).filter (· ∉ keys)).isEmpty = true
    · simp only [h, if_true, true_and]
    · simp only [h, if_false, report_ne_valid, false_and, Bool.false_eq_true]
  | _ => simp [strictObject]

/-- The option whose tag is the text of the discriminating field. -/
def discriminatedUnion (key : String) (options : List (String × Schema α)) : Schema α
  | path, .object entries =>
    match Js.field entries key with
    | .string tag =>
      match options.lookup tag with
      | some s => s path (.object entries)
      | none => abort (path ++ [key]) .invalidUnionDiscriminator
    | _ => abort (path ++ [key]) .invalidUnionDiscriminator
  | path, _ => abort path .invalidType

lemma discriminatedUnion_eq_valid_iff {key : String} {options : List (String × Schema α)}
    (h : (options.map Prod.fst).Nodup) {a : α} :
    discriminatedUnion key options path v = valid a ↔ ∃ entries, v = .object entries ∧
      ∃ o ∈ options, Js.field entries key = .string o.1 ∧ o.2 path v = valid a := by
  cases v with
  | object entries =>
    simp only [discriminatedUnion, Js.object.injEq, exists_eq_left']
    cases hfield : Js.field entries key with
    | string tag =>
      simp only [Js.string.injEq]
      cases hoption : options.lookup tag with
      | none =>
        simp only [abort_ne_valid, false_iff]
        rintro ⟨o, ho, rfl, -⟩
        rw [(Js.lookup_eq_some_iff_mem h).mpr ho] at hoption
        cases hoption
      | some s =>
        constructor
        · intro hs
          exact ⟨(tag, s), (Js.lookup_eq_some_iff_mem h).mp hoption, rfl, hs⟩
        · rintro ⟨o, ho, rfl, hs⟩
          rw [(Js.lookup_eq_some_iff_mem h).mpr ho] at hoption
          cases hoption
          exact hs
    | _ => simp
  | _ => simp [discriminatedUnion]

/-- Nothing after this outcome of an option counts. -/
def Outcome.ends (o : Outcome α) : Bool := o.thrown || o.value.isSome && o.issues.isEmpty

/-- The first option without an issue, else the first that has a value. The issue of a value that no option
reads leaves the issues of the options out. -/
def union (options : List (Schema α)) : Schema α := fun path v =>
  match options.find? fun s => (s path v).ends with
  | some s => s path v
  | none =>
    match options.find? fun s => (s path v).value.isSome with
    | some s => s path v
    | none => abort path .invalidUnion

@[simp] lemma Outcome.ends_valid {a : α} : (valid a).ends = true := rfl

/-- A union accepts what its first option with an answer accepts. -/
lemma union_eq_valid_iff {options : List (Schema α)} {a : α} :
    union options path v = valid a ↔ ∃ before s after, options = before ++ s :: after ∧
      s path v = valid a ∧ ∀ t ∈ before, (t path v).ends = false := by
  unfold union
  constructor
  · intro h
    cases hends : options.find? fun s => (s path v).ends with
    | some s =>
      rw [hends] at h
      obtain ⟨-, before, after, hoptions, hbefore⟩ := List.find?_eq_some_iff_append.mp hends
      exact ⟨before, s, after, hoptions, h, fun t ht => by simpa using hbefore t ht⟩
    | none =>
      rw [hends] at h
      dsimp only at h
      cases hsome : options.find? fun s => (s path v).value.isSome with
      | none =>
        rw [hsome] at h
        exact absurd h abort_ne_valid
      | some s =>
        rw [hsome] at h
        have hs := List.find?_eq_none.mp hends s (List.mem_of_find?_eq_some hsome)
        dsimp only at h
        rw [h] at hs
        exact absurd rfl hs
  · rintro ⟨before, s, after, rfl, hs, hbefore⟩
    have hends : (before ++ s :: after).find? (fun s => (s path v).ends) = some s :=
      List.find?_eq_some_iff_append.mpr
        ⟨by rw [hs, ends_valid], before, after, rfl, fun t ht => by rw [hbefore t ht]; rfl⟩
    rw [hends]
    exact hs

/-! ## Arrays -/

/-- Read the items of an array from index `i` on. -/
def items (s : Schema α) (path : List String) : ℕ → List Js → Outcome (List α)
  | _, [] => valid []
  | i, v :: vs => List.cons <$> s (path ++ [toString i]) v <*> items s path (i + 1) vs

/-- An array of `lo` to `hi` items. -/
def array (s : Schema α) (lo hi : ℕ) : Schema (List α)
  | path, .array vs =>
    let short := if vs.length < lo then [⟨path, .tooSmall⟩] else []
    let long := if vs.length > hi then [⟨path, .tooBig⟩] else []
    let o := items s path 0 vs
    ⟨o.value, short ++ long ++ o.issues, o.thrown⟩
  | path, _ => abort path .invalidType

/-- An array of any length. -/
def list (s : Schema α) : Schema (List α)
  | path, .array vs => items s path 0 vs
  | path, _ => abort path .invalidType

/-- The items are read one by one. -/
lemma items_eq_valid_iff {s : Schema α} {P : α → Js → Prop}
    (hs : ∀ path v a, s path v = valid a ↔ P a v) {i : ℕ} {vs : List Js} {as : List α} :
    items s path i vs = valid as ↔ List.Forall₂ P as vs := by
  induction vs generalizing i as with
  | nil =>
    rw [items, valid_inj]
    constructor
    · rintro rfl
      exact .nil
    · intro h
      cases h
      rfl
  | cons v vs ih =>
    simp only [items, seq_eq_valid_iff, map_eq_valid_iff]
    constructor
    · rintro ⟨_, as', ⟨a, ha, rfl⟩, has, rfl⟩
      exact .cons ((hs _ _ _).mp ha) (ih.mp has)
    · intro h
      cases h with
      | cons ha has => exact ⟨_, _, ⟨_, (hs _ _ _).mpr ha, rfl⟩, ih.mpr has, rfl⟩

/-- An array is accepted when its length is in bounds and every item is. -/
lemma array_eq_valid_iff {s : Schema α} {lo hi : ℕ} {P : α → Js → Prop}
    (hs : ∀ path v a, s path v = valid a ↔ P a v) {as : List α} :
    array s lo hi path v = valid as ↔ ∃ vs, v = .array vs ∧ List.Forall₂ P as vs ∧
      lo ≤ as.length ∧ as.length ≤ hi := by
  cases v with
  | array vs =>
    have hitems : items s path 0 vs = valid as ↔ List.Forall₂ P as vs := items_eq_valid_iff hs
    simp only [Js.array.injEq, exists_eq_left', ← hitems]
    have hparts : array s lo hi path (.array vs) = valid as ↔
        items s path 0 vs = valid as ∧ lo ≤ vs.length ∧ vs.length ≤ hi := by
      rw [array]
      obtain ⟨value, issues, thrown⟩ := items s path 0 vs
      simp only [valid, Outcome.mk.injEq, List.append_eq_nil_iff, ite_eq_right_iff,
        List.cons_ne_nil, imp_false, not_lt, gt_iff_lt]
      tauto
    rw [hparts]
    constructor
    · rintro ⟨h, hlo, hhi⟩
      rw [← ((items_eq_valid_iff hs).mp h).length_eq] at hlo hhi
      exact ⟨h, hlo, hhi⟩
    · rintro ⟨h, hlo, hhi⟩
      rw [((items_eq_valid_iff hs).mp h).length_eq] at hlo hhi
      exact ⟨h, hlo, hhi⟩
  | _ => simp [array]

lemma list_eq_valid_iff {s : Schema α} {P : α → Js → Prop}
    (hs : ∀ path v a, s path v = valid a ↔ P a v) {as : List α} :
    list s path v = valid as ↔ ∃ vs, v = .array vs ∧ List.Forall₂ P as vs := by
  cases v with
  | array vs => simp [list, items_eq_valid_iff hs]
  | _ => simp [list]

lemma items_of_valid {s : Schema α} {i : ℕ} {as : List α} {vs : List Js}
    (h : List.Forall₂ (fun a v => ∀ path, s path v = valid a) as vs) :
    items s path i vs = valid as := by
  induction h generalizing i with
  | nil => rfl
  | cons ha _ ih =>
    rw [items, ha, ih]
    rfl

/-- An array in bounds whose items are accepted wherever they stand. -/
lemma array_of_valid {s : Schema α} {lo hi : ℕ} {as : List α} {vs : List Js}
    (h : List.Forall₂ (fun a v => ∀ path, s path v = valid a) as vs) (hlo : lo ≤ as.length)
    (hhi : as.length ≤ hi) : array s lo hi path (.array vs) = valid as := by
  rw [h.length_eq] at hlo hhi
  rw [array, items_of_valid h, if_neg (by omega), if_neg (by omega)]
  rfl

end Zod
