import Mathlib.Data.List.Induction

set_option relaxedAutoImplicit false
set_option autoImplicit false

/-!
# Transactional runs

A service with state `σ` is given by its calls `σ → ι → Except ε σ`: a call on input `i`
either succeeds with a new state or fails, and a failed call changes nothing. This file has the
state after a run of such calls, the invariant rule for runs, and the past-time operator
"since".

## Main definitions

* `Transactional.run` — the state after a run of calls.
* `Transactional.admitted` — the inputs of its successful calls.
* `Transactional.Since` — some call of the run satisfied `A` and no later one satisfied `B`.

## Main results

* `Transactional.run_invariant` — what every successful call preserves holds after every run.
* `Transactional.since_of_flag` — a state flag that only an `A` call raises and every `B` call
  lowers witnesses `Since A B`.
-/

namespace Transactional

universe u

variable {σ ι ε : Type*}

/-- A sequence of two fallible steps succeeds when the first does and then the second. -/
lemma bind_eq_ok_iff {α β : Type u} {m : Except ε α} {f : α → Except ε β} {b : β} :
    m >>= f = .ok b ↔ ∃ a, m = .ok a ∧ f a = .ok b := by
  cases m with
  | ok a =>
    constructor
    · exact fun h => ⟨a, rfl, h⟩
    · rintro ⟨a', h, hf⟩
      cases h
      exact hf
  | error e =>
    constructor
    · exact fun h => nomatch h
    · rintro ⟨a, h, -⟩
      cases h

/-- It fails when the first does, or the second after it. -/
lemma bind_eq_error_iff {α β : Type u} {m : Except ε α} {f : α → Except ε β} {e : ε} :
    m >>= f = .error e ↔ m = .error e ∨ ∃ a, m = .ok a ∧ f a = .error e := by
  cases m with
  | ok a =>
    constructor
    · exact fun h => .inr ⟨a, rfl, h⟩
    · rintro (h | ⟨a', h, hf⟩)
      · cases h
      · cases h
        exact hf
  | error e' =>
    constructor
    · intro h
      cases h
      exact .inl rfl
    · rintro (h | ⟨a, h, -⟩)
      · cases h
        rfl
      · cases h

/-- The state after one call. -/
def after (call : σ → ι → Except ε σ) (s : σ) (i : ι) : σ :=
  match call s i with
  | .ok s' => s'
  | .error _ => s

/-- The state after a run of calls. -/
def run (call : σ → ι → Except ε σ) (s : σ) (is : List ι) : σ :=
  is.foldl (after call) s

/-- The call on `i` succeeds in state `s`. -/
def Admits (call : σ → ι → Except ε σ) (s : σ) (i : ι) : Prop :=
  ∃ s', call s i = .ok s'

variable (call : σ → ι → Except ε σ)

/-- Whether a call succeeds can be computed. -/
instance (s : σ) (i : ι) : Decidable (Admits call s i) :=
  match h : call s i with
  | .ok s' => isTrue ⟨s', h⟩
  | .error _ => isFalse fun ⟨_, h'⟩ => by rw [h] at h'; cases h'

/-- A successful call moves to its new state. -/
lemma after_of_ok {s s' : σ} {i : ι} (h : call s i = .ok s') : after call s i = s' := by
  simp only [after, h]

/-- A failed call changes nothing. -/
lemma after_of_error {s : σ} {i : ι} {e : ε} (h : call s i = .error e) : after call s i = s := by
  simp only [after, h]

@[simp] lemma run_nil (s : σ) : run call s [] = s := rfl

@[simp] lemma run_cons (s : σ) (i : ι) (is : List ι) :
    run call s (i :: is) = run call (after call s i) is := rfl

@[simp] lemma run_append (s : σ) (is js : List ι) :
    run call s (is ++ js) = run call (run call s is) js := by
  simp [run, List.foldl_append]

/-- **The invariant rule**: a property of the starting state that every successful call
preserves holds after every run. -/
theorem run_invariant {P : σ → Prop} (hstep : ∀ s i s', P s → call s i = .ok s' → P s')
    {s : σ} (hs : P s) (is : List ι) : P (run call s is) := by
  induction is generalizing s with
  | nil => exact hs
  | cons i is ih =>
    apply ih
    cases hc : call s i with
    | ok s' => rw [after_of_ok call hc]; exact hstep s i s' hs hc
    | error e => rw [after_of_error call hc]; exact hs

/-- The inputs of the calls of a run that succeeded, in order. -/
def admitted : σ → List ι → List ι
  | _, [] => []
  | s, i :: is =>
    match call s i with
    | .ok s' => i :: admitted s' is
    | .error _ => admitted s is

lemma admitted_cons_of_ok {s s' : σ} {i : ι} {is : List ι} (h : call s i = .ok s') :
    admitted call s (i :: is) = i :: admitted call s' is := by
  simp only [admitted, h]

lemma admitted_cons_of_error {s : σ} {i : ι} {is : List ι} {e : ε} (h : call s i = .error e) :
    admitted call s (i :: is) = admitted call s is := by
  simp only [admitted, h]

/-- A run admits what its first part does and then what its second part does. -/
lemma admitted_append (s : σ) (is js : List ι) :
    admitted call s (is ++ js) = admitted call s is ++ admitted call (run call s is) js := by
  induction is generalizing s with
  | nil => rfl
  | cons i is ih =>
    rw [List.cons_append, run_cons]
    cases hc : call s i with
    | ok s' =>
      rw [admitted_cons_of_ok call hc, admitted_cons_of_ok call hc, after_of_ok call hc, ih,
        List.cons_append]
    | error e =>
      rw [admitted_cons_of_error call hc, admitted_cons_of_error call hc, after_of_error call hc,
        ih]

/-- The admitted inputs come in the order of the run. -/
lemma admitted_sublist (s : σ) (is : List ι) : (admitted call s is).Sublist is := by
  induction is generalizing s with
  | nil => exact List.Sublist.refl []
  | cons i is ih =>
    cases hc : call s i with
    | ok s' =>
      rw [admitted_cons_of_ok call hc]
      exact (ih s').cons_cons i
    | error e =>
      rw [admitted_cons_of_error call hc]
      exact (ih s).cons i

/-- In the run `is` from `s`, some call satisfied `A` and no call after it satisfied `B`. -/
def Since (s : σ) (is : List ι) (A B : σ → ι → Prop) : Prop :=
  ∃ pre i post, is = pre ++ i :: post ∧ A (run call s pre) i ∧
    ∀ q j r, post = q ++ j :: r → ¬ B (run call s (pre ++ i :: q)) j

/-- A call that satisfies `A` starts `Since A B`. -/
lemma since_concat_of_start {s : σ} {is : List ι} {i : ι} {A B : σ → ι → Prop}
    (h : A (run call s is) i) : Since call s (is ++ [i]) A B :=
  ⟨is, i, [], rfl, h, fun q j r hq => by simp at hq⟩

/-- A call that does not satisfy `B` keeps `Since A B`. -/
lemma since_concat_of_keep {s : σ} {is : List ι} {i : ι} {A B : σ → ι → Prop}
    (h : Since call s is A B) (hB : ¬ B (run call s is) i) : Since call s (is ++ [i]) A B := by
  obtain ⟨pre, a, post, rfl, hA, hpost⟩ := h
  refine ⟨pre, a, post ++ [i], by simp, hA, ?_⟩
  intro q j r hq
  rcases List.eq_nil_or_concat r with rfl | ⟨r', k, rfl⟩
  · -- the new call is the last one
    have hlast : post = q ∧ i = j := by simpa using hq
    obtain ⟨rfl, rfl⟩ := hlast
    exact hB
  · have hinit : post = q ++ j :: r' ∧ i = k := by
      have hq' : post ++ [i] = (q ++ j :: r') ++ [k] := by simpa using hq
      simpa using List.append_inj' hq' rfl
    exact hpost q j r' hinit.1

/-- **The flag rule**: if a flag is down at the start, only an `A` call raises it and no `B`
call leaves it up, then after a run that ends with the flag up there was an `A` call with no
`B` call since.

**Proof sketch.** Induction on the run from its end. The last call either satisfied `A`, and
starts the interval, or found the flag up and was no `B` call, and extends the one the
induction hypothesis gives. -/
theorem since_of_flag {flag : σ → Prop} {A B : σ → ι → Prop} {s : σ} (h0 : ¬ flag s)
    (hstep : ∀ t i, flag (after call t i) → A t i ∨ flag t ∧ ¬ B t i) (is : List ι)
    (h : flag (run call s is)) : Since call s is A B := by
  induction is using List.reverseRecOn with
  | nil => exact absurd h h0
  | append_singleton is i ih =>
    rw [run_append] at h
    rcases hstep _ i h with hA | ⟨hf, hB⟩
    · exact since_concat_of_start call hA
    · exact since_concat_of_keep call (ih hf) hB

end Transactional
