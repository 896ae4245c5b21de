import Koul.Competition.Entry

set_option relaxedAutoImplicit false
set_option autoImplicit false

/-!
# One entry per handle and per email

Entries of any wallets, several of one wallet included, run at the same time from an empty store.
A claim is one `SET NX`, so two wallets never hold one key. A claim that the same wallet holds
already is accepted too, though, and its release stays with the call that made it: that call may
take the key away from a call that counts on it, or from the record that names it.

## Main definitions

* `Koul.Competition.accepted`, `Koul.Competition.owed` — the keys a call counts on, and those it
  has still to release or to name in its record.
* `Koul.Competition.claiming` — what a call claims, records and releases.
* `Koul.Competition.Orderly` — the steps that take no key away from anyone and replace no record by
  another entry's.

## Main results

* `Koul.Competition.unique_entries` — after orderly steps, when no call is in progress, handles and
  emails belong to one verified entrant each.
* `Koul.Competition.twoTraders` — a release that is not orderly lets two wallets enter with one
  handle.
-/

namespace Koul.Competition

open Interleaving Interleaving.Prog

/-- A call of `confirmEntry`: the cap it is called with and the entry. -/
abbrev EntryCall : Type := Option ℤ × Entry

/-- A call in the pool. -/
abbrev EntryProc : Type := Proc EntryCall Cmd.Reply EntryOutcome

abbrev EntryPool : Type := Pool Store EntryCall Cmd.Reply EntryOutcome

/-! ## What a call has claimed -/

/-- One reply: the keys that the call has claimed, less those it let go; its record names them
all. -/
def owedAfter (owed : List ClaimKey) : ((c : Cmd) × c.Reply) → List ClaimKey
  | ⟨.setClaim key _, true⟩ => key :: owed
  | ⟨.delClaims keys, _⟩ => owed.filter (· ∉ keys)
  | ⟨.setEntrant _ _, _⟩ => []
  | _ => owed

/-- The keys that the call has claimed and has still to release or to name. -/
def owed (h : Heard Cmd.Reply) : List ClaimKey := h.foldl owedAfter []

/-- One reply: the keys that the call has heard to be its wallet's, less those it let go. -/
def acceptedAfter (wallet : String) (accepted : List ClaimKey) :
    ((c : Cmd) × c.Reply) → List ClaimKey
  | ⟨.setClaim key _, true⟩ => key :: accepted
  | ⟨.getClaim key, owner⟩ => if owner = some wallet then key :: accepted else accepted
  | ⟨.delClaims keys, _⟩ => accepted.filter (· ∉ keys)
  | _ => accepted

/-- The keys that the call counts on. -/
def accepted (wallet : String) (h : Heard Cmd.Reply) : List ClaimKey :=
  h.foldl (acceptedAfter wallet) []

@[simp] lemma owed_append (h h' : Heard Cmd.Reply) :
    owed (h ++ h') = h'.foldl owedAfter (owed h) := List.foldl_append

@[simp] lemma accepted_append (wallet : String) (h h' : Heard Cmd.Reply) :
    accepted wallet (h ++ h') = h'.foldl (acceptedAfter wallet) (accepted wallet h) :=
  List.foldl_append

/-! ## The discipline of an entry -/

/-- An entry claims its own keys, records itself once it counts on them, and lets go of what it
has claimed; it ends with nothing left to let go, if no pending entry is in its way. -/
def claiming (tx : Texts) : Discipline EntryCall Cmd.Reply EntryOutcome where
  may i h c := match c with
    | .setClaim key wallet => wallet = i.2.wallet ∧ key ∈ tx.keys i.2.record
    | .setEntrant wallet rec => wallet = i.2.wallet ∧ rec = i.2.record ∧
        ∀ key ∈ tx.keys rec, key ∈ accepted i.2.wallet h
    | .delClaims keys => ∀ key ∈ keys, key ∈ owed h
    | .getEntrant _ | .getClaim _ | .eval _ _ => True
    | _ => False
  ends _ h _ := owed h = []
  can c := match c with
    | .getEntrant _ => fun rec? => ∀ rec ∈ rec?, rec.verified = true
    | _ => fun _ => True

variable {tx : Texts}

/-- The keys a claim leaves the call with. -/
lemma ClaimAnswer.keys {wallet : String} {key : ClaimKey} {claimed : List ClaimKey}
    {h' : Heard Cmd.Reply} {ok : Bool} {claimed' : List ClaimKey}
    (ha : ClaimAnswer wallet key claimed h' ok claimed') (h : Heard Cmd.Reply)
    (howed : ∀ k, k ∈ owed h ↔ k ∈ claimed) :
    (∀ k, k ∈ owed (h ++ h') ↔ k ∈ claimed') ∧
      (∀ k ∈ accepted wallet h, k ∈ accepted wallet (h ++ h')) ∧
      (ok = true → key ∈ accepted wallet (h ++ h')) := by
  cases ha with
  | won =>
    simp only [owed_append, accepted_append, List.foldl_cons, List.foldl_nil, owedAfter,
      acceptedAfter, List.mem_cons, List.mem_append, howed]
    exact ⟨fun k => by simp [or_comm], fun k hk => .inr hk, fun _ => .inl trivial⟩
  | own =>
    simp only [owed_append, accepted_append, List.foldl_cons, List.foldl_nil, owedAfter,
      acceptedAfter, if_pos, List.mem_cons, howed]
    exact ⟨fun _ => trivial, fun k hk => .inr hk, fun _ => .inl trivial⟩
  | other owner hne =>
    simp only [owed_append, accepted_append, List.foldl_cons, List.foldl_nil, owedAfter,
      acceptedAfter, if_neg hne, howed]
    exact ⟨fun _ => trivial, fun k hk => hk, nofun⟩

/-- A refused entry lets go of what it has claimed. -/
lemma refuse_claiming {claimed : List ClaimKey} {i : EntryCall} {text : String}
    {h : Heard Cmd.Reply} (howed : ∀ k, k ∈ owed h ↔ k ∈ claimed) :
    (release claimed >>= fun _ => pure (.error text)).Obeys (claiming tx) i h := by
  apply obeys_release
  · intro hnone
    subst hnone
    exact List.eq_nil_iff_forall_not_mem.mpr fun k hk => List.not_mem_nil ((howed k).mp hk)
  · intro _
    refine ⟨fun k hk => (howed k).mpr hk, ?_⟩
    show owed (h ++ [⟨.delClaims claimed, ()⟩]) = []
    rw [owed_append]
    exact List.filter_eq_nil_iff.mpr fun k hk => by simpa using (howed k).mp hk

/-- **An entry keeps the discipline**: by the time it writes its record it counts on both keys,
and every other way out lets its claims go. -/
lemma confirmEntry_claiming (i : EntryCall) :
    (confirmEntry tx i.1 i.2).Obeys (claiming tx) i [] := by
  unfold confirmEntry
  rw [obeys_redis]
  refine ⟨trivial, fun existing hexisting => ?_⟩
  split
  · rfl
  next hunverified =>
  -- a record that is there is verified, so there is none
  have hnone : existing = none := by
    cases existing with
    | none => rfl
    | some rec =>
      have hrec : rec.verified = true := hexisting rec rfl
      simp [Option.filter, hrec] at hunverified
  subst hnone
  set h₀ : Heard Cmd.Reply := [] ++ [⟨.getEntrant i.2.wallet, none⟩]
  have howed₀ : ∀ k, k ∈ owed h₀ ↔ k ∈ ([] : List ClaimKey) := fun _ => Iff.rfl
  have hset : ∀ h, ∀ key ∈ tx.keys i.2.record,
      (claiming tx).may i h (.setClaim key i.2.wallet) := fun _ _ hkey => ⟨rfl, hkey⟩
  apply obeys_claim (hset _ _ List.mem_cons_self) trivial
  intro h₁ handleOk claimed₁ hhandle
  obtain ⟨howed₁, -, hheld₁⟩ := hhandle.keys h₀ howed₀
  cases handleOk with
  | false =>
    cases hhandle
    exact List.eq_nil_iff_forall_not_mem.mpr fun k hk => List.not_mem_nil ((howed₁ k).mp hk)
  | true =>
    apply obeys_claim (hset _ _ (List.mem_cons_of_mem _ List.mem_cons_self)) trivial
    intro h₂ emailOk claimed₂ hemail
    obtain ⟨howed₂, hkeep₂, hheld₂⟩ := hemail.keys (h₀ ++ h₁) howed₁
    cases emailOk with
    | false => exact refuse_claiming howed₂
    | true =>
      refine obeys_takePlace.mpr ⟨trivial, fun n _ => ?_⟩
      by_cases hn : n = 1
      · subst hn
        refine ⟨⟨rfl, rfl, ?_⟩, fun _ _ => ?_⟩
        · intro key hkey
          rw [accepted_append]
          rcases List.mem_cons.mp hkey with rfl | hkey
          · exact hkeep₂ _ (hheld₁ rfl)
          · obtain rfl := List.mem_singleton.mp hkey
            exact hheld₂ rfl
        · show owed (_ ++ [⟨.setEntrant i.2.wallet i.2.record, ()⟩]) = []
          rw [owed_append]
          rfl
      · rw [beq_false_of_ne hn]
        apply refuse_claiming
        rw [owed_append]
        exact howed₂

/-! ## Orderly steps -/

/-- The step takes no key away that another call in progress of the wallet counts on, or that the
wallet's verified record names; and it replaces no record by one that names other keys. -/
def Orderly (tx : Texts) (w : EntryPool) : Act EntryCall → Prop
  | .start _ => True
  | .move n _ =>
    match w.procs[n]? with
    | none => True
    | some p =>
      match p.left with
      | .call (.delClaims keys) _ => ∀ key ∈ keys,
        (∀ q ∈ w.procs.eraseIdx n, q.left.isDone = false → q.arg.2.wallet = p.arg.2.wallet →
          key ∉ accepted q.arg.2.wallet q.heard) ∧
        ∀ rec ∈ w.store.entrant p.arg.2.wallet, rec.verified = true → key ∉ tx.keys rec
      | .call (.setEntrant wallet rec) _ =>
        ∀ old ∈ w.store.entrant wallet, old.verified = true → tx.keys old = tx.keys rec
      | _ => True

instance (tx : Texts) (w : EntryPool) (a : Act EntryCall) : Decidable (Orderly tx w a) := by
  unfold Orderly
  split
  · infer_instance
  · split
    · infer_instance
    · split <;> infer_instance

/-! ## What a command does to the keys -/

/-- The command deletes the key. -/
def Deletes (c : Cmd) (key : ClaimKey) : Prop := ∃ keys, c = .delClaims keys ∧ key ∈ keys

/-- A key that is held stays so unless it is deleted. -/
lemma claims_exec_of_some {c : Cmd} {s : Store} {key : ClaimKey} {wallet : String}
    (h : s.claims key = some wallet) (hdel : ¬ Deletes c key) :
    (c.exec s).2.claims key = some wallet := by
  cases c with
  | setClaim key' wallet' =>
    show (if (s.claims key').isNone then Function.update s.claims key' (some wallet')
      else s.claims) key = some wallet
    split
    · next hnone =>
      have hne : key ≠ key' := by
        rintro rfl
        rw [h] at hnone
        cases hnone
      rw [Function.update_of_ne hne]
      exact h
    · exact h
  | delClaims keys =>
    show (if key ∈ keys then none else s.claims key) = some wallet
    rw [if_neg fun hkey => hdel ⟨keys, rfl, hkey⟩]
    exact h
  | _ => exact h

/-- A key that is held after a command was held before, and is not deleted, or the command claimed
it. -/
lemma claims_exec {c : Cmd} {s : Store} {key : ClaimKey} {wallet : String}
    (h : (c.exec s).2.claims key = some wallet) :
    s.claims key = some wallet ∧ ¬ Deletes c key ∨
      c = .setClaim key wallet ∧ s.claims key = none := by
  cases c with
  | setClaim key' wallet' =>
    have hclaims : (if (s.claims key').isNone then Function.update s.claims key' (some wallet')
      else s.claims) key = some wallet := h
    have hno : ¬ Deletes (.setClaim key' wallet') key := fun ⟨_, hc, _⟩ => Cmd.noConfusion hc
    split at hclaims
    · next hnone =>
      by_cases heq : key = key'
      · subst heq
        rw [Function.update_self] at hclaims
        obtain rfl := Option.some.inj hclaims
        exact .inr ⟨rfl, Option.isNone_iff_eq_none.mp hnone⟩
      · rw [Function.update_of_ne heq] at hclaims
        exact .inl ⟨hclaims, hno⟩
    · exact .inl ⟨hclaims, hno⟩
  | delClaims keys =>
    have hclaims : (if key ∈ keys then none else s.claims key) = some wallet := h
    split at hclaims
    · cases hclaims
    · next hkey =>
      refine .inl ⟨hclaims, ?_⟩
      rintro ⟨keys', hc, hmem⟩
      cases hc
      exact hkey hmem
  | _ => exact .inl ⟨h, fun ⟨_, hc, _⟩ => Cmd.noConfusion hc⟩

/-- A key that a call owes after a command it owed before, and the command did not delete it, or
the command claimed it. -/
lemma mem_owedAfter {c : Cmd} {s : Store} {key : ClaimKey} {keys : List ClaimKey}
    (h : key ∈ owedAfter keys ⟨c, (c.exec s).1⟩) :
    key ∈ keys ∧ ¬ Deletes c key ∨ ∃ wallet, c = .setClaim key wallet ∧ s.claims key = none := by
  cases c with
  | setClaim key' wallet' =>
    have hno : ¬ Deletes (.setClaim key' wallet') key := fun ⟨_, hc, _⟩ => Cmd.noConfusion hc
    cases hclaims : s.claims key' with
    | some wallet =>
      simp only [Cmd.exec, hclaims, Option.isNone_some, owedAfter] at h
      exact .inl ⟨h, hno⟩
    | none =>
      simp only [Cmd.exec, hclaims, Option.isNone_none, owedAfter, List.mem_cons] at h
      rcases h with rfl | h
      · exact .inr ⟨wallet', rfl, hclaims⟩
      · exact .inl ⟨h, hno⟩
  | delClaims keys' =>
    obtain ⟨hmem, hkey⟩ := List.mem_filter.mp h
    refine .inl ⟨hmem, ?_⟩
    rintro ⟨keys'', hc, hdel⟩
    cases hc
    simp [hdel] at hkey
  | setEntrant wallet rec => cases h
  | _ => exact .inl ⟨h, fun ⟨_, hc, _⟩ => Cmd.noConfusion hc⟩

/-- A key that a call counts on after a command it counted on before, and the command did not
delete it, or the command claimed it or found it to be the wallet's. -/
lemma mem_acceptedAfter {c : Cmd} {s : Store} {key : ClaimKey} {keys : List ClaimKey}
    {wallet : String} (h : key ∈ acceptedAfter wallet keys ⟨c, (c.exec s).1⟩) :
    key ∈ keys ∧ ¬ Deletes c key ∨ (∃ wallet', c = .setClaim key wallet' ∧ s.claims key = none) ∨
      c = .getClaim key ∧ s.claims key = some wallet := by
  cases c with
  | setClaim key' wallet' =>
    have hno : ¬ Deletes (.setClaim key' wallet') key := fun ⟨_, hc, _⟩ => Cmd.noConfusion hc
    cases hclaims : s.claims key' with
    | some owner =>
      simp only [Cmd.exec, hclaims, Option.isNone_some, acceptedAfter] at h
      exact .inl ⟨h, hno⟩
    | none =>
      simp only [Cmd.exec, hclaims, Option.isNone_none, acceptedAfter, List.mem_cons] at h
      rcases h with rfl | h
      · exact .inr (.inl ⟨wallet', rfl, hclaims⟩)
      · exact .inl ⟨h, hno⟩
  | getClaim key' =>
    have hno : ¬ Deletes (.getClaim key') key := fun ⟨_, hc, _⟩ => Cmd.noConfusion hc
    have hmem : key ∈ if s.claims key' = some wallet then key' :: keys else keys := h
    split at hmem
    · next hclaims =>
      rcases List.mem_cons.mp hmem with rfl | hmem
      · exact .inr (.inr ⟨rfl, hclaims⟩)
      · exact .inl ⟨hmem, hno⟩
    · exact .inl ⟨hmem, hno⟩
  | delClaims keys' =>
    obtain ⟨hmem, hkey⟩ := List.mem_filter.mp h
    refine .inl ⟨hmem, ?_⟩
    rintro ⟨keys'', hc, hdel⟩
    cases hc
    simp [hdel] at hkey
  | _ => exact .inl ⟨h, fun ⟨_, hc, _⟩ => Cmd.noConfusion hc⟩

/-- A call still owes a key that the command neither deleted nor named in its record. -/
lemma owedAfter_of_mem {c : Cmd} {s : Store} {key : ClaimKey} {keys : List ClaimKey}
    (h : key ∈ keys) (hdel : ¬ Deletes c key) (hset : ∀ wallet rec, c ≠ .setEntrant wallet rec) :
    key ∈ owedAfter keys ⟨c, (c.exec s).1⟩ := by
  cases c with
  | setClaim key' wallet' =>
    cases hclaims : s.claims key' with
    | some wallet =>
      simp only [Cmd.exec, hclaims, Option.isNone_some, owedAfter]
      exact h
    | none =>
      simp only [Cmd.exec, hclaims, Option.isNone_none, owedAfter]
      exact List.mem_cons_of_mem key' h
  | delClaims keys' =>
    refine List.mem_filter.mpr ⟨h, ?_⟩
    simpa using fun hkey => hdel ⟨keys', rfl, hkey⟩
  | setEntrant wallet rec => exact absurd rfl (hset wallet rec)
  | _ => exact h

/-- It owes a key that the command claimed. -/
lemma owedAfter_of_claimed {s : Store} {key : ClaimKey} {keys : List ClaimKey} {wallet : String}
    (h : s.claims key = none) :
    key ∈ owedAfter keys ⟨.setClaim key wallet, ((Cmd.setClaim key wallet).exec s).1⟩ := by
  simp only [Cmd.exec, h, Option.isNone_none, owedAfter]
  exact List.mem_cons_self

/-! ## The invariant -/

/-- Who holds which key, and why. -/
structure Unique (tx : Texts) (w : EntryPool) : Prop where
  verified : ∀ wallet rec, w.store.entrant wallet = some rec → rec.verified = true
  named : ∀ wallet rec, w.store.entrant wallet = some rec →
    ∀ key ∈ tx.keys rec, w.store.claims key = some wallet
  traced : ∀ key wallet, w.store.claims key = some wallet →
    (∃ rec, w.store.entrant wallet = some rec ∧ key ∈ tx.keys rec) ∨
      ∃ (n : ℕ) (p : EntryProc), w.procs[n]? = some p ∧ p.arg.2.wallet = wallet ∧ key ∈ owed p.heard
  held : ∀ (n : ℕ) (p : EntryProc), w.procs[n]? = some p → p.left.isDone = false →
    ∀ key ∈ accepted p.arg.2.wallet p.heard, w.store.claims key = some p.arg.2.wallet
  own : ∀ (n : ℕ) (p : EntryProc), w.procs[n]? = some p → ∀ key ∈ owed p.heard,
    key ∈ tx.keys p.arg.2.record ∧ w.store.claims key = some p.arg.2.wallet
  apart : ∀ (n m : ℕ) (p q : EntryProc), n ≠ m → w.procs[n]? = some p → w.procs[m]? = some q →
    ∀ key ∈ owed p.heard, key ∉ owed q.heard

namespace Unique

variable {w : EntryPool}

lemma start (hw : Unique tx w) (i : EntryCall) :
    Unique tx (w.step (fun i => confirmEntry tx i.1 i.2) Cmd.exec (.start i)) := by
  refine ⟨hw.verified, hw.named, ?_, ?_, ?_, ?_⟩
  · intro key wallet hkey
    rcases hw.traced key wallet hkey with hrec | ⟨n, p, hp, hwallet, howed⟩
    · exact .inl hrec
    · refine .inr ⟨n, p, ?_, hwallet, howed⟩
      obtain ⟨hlt, -⟩ := List.getElem?_eq_some_iff.mp hp
      exact (List.getElem?_append_left hlt).trans hp
  · intro n p hp hdone key hkey
    rcases Pool.getElem?_start _ _ hp with hold | rfl
    · exact hw.held n p hold hdone key hkey
    · cases hkey
  · intro n p hp key hkey
    rcases Pool.getElem?_start _ _ hp with hold | rfl
    · exact hw.own n p hold key hkey
    · cases hkey
  · intro n m p q hne hp hq key hkey
    rcases Pool.getElem?_start _ _ hp with hpold | rfl
    · rcases Pool.getElem?_start _ _ hq with hqold | rfl
      · exact hw.apart n m p q hne hpold hqold key hkey
      · exact List.not_mem_nil
    · cases hkey

lemma choose (hw : Unique tx w) {n : ℕ} {p : EntryProc} (left : EntryProg EntryOutcome)
    (hp : w.procs[n]? = some p) (hdone : p.left.isDone = false) :
    Unique tx (w.replace n ⟨p.arg, p.heard, left⟩ w.store) := by
  have hsame : ∀ (m : ℕ) (q : EntryProc),
      (w.replace n ⟨p.arg, p.heard, left⟩ w.store).procs[m]? = some q →
      ∃ q' : EntryProc, w.procs[m]? = some q' ∧ q'.arg = q.arg ∧ q'.heard = q.heard ∧
        (q.left.isDone = false → q'.left.isDone = false) := by
    intro m q hq
    rcases Pool.getElem?_replace hq with ⟨rfl, rfl⟩ | ⟨-, hold⟩
    · exact ⟨p, hp, rfl, rfl, fun _ => hdone⟩
    · exact ⟨q, hold, rfl, rfl, id⟩
  refine ⟨hw.verified, hw.named, ?_, ?_, ?_, ?_⟩
  · intro key wallet hkey
    rcases hw.traced key wallet hkey with hrec | ⟨m, q, hq, hwallet, howed⟩
    · exact .inl hrec
    · by_cases hmn : m = n
      · subst hmn
        obtain rfl : p = q := Option.some.inj (hp.symm.trans hq)
        obtain ⟨hlt, -⟩ := List.getElem?_eq_some_iff.mp hp
        exact .inr ⟨m, _, List.getElem?_set_self hlt, hwallet, howed⟩
      · exact .inr ⟨m, q, (List.getElem?_set_ne (Ne.symm hmn)).trans hq, hwallet, howed⟩
  · intro m q hq hleft key hkey
    obtain ⟨q', hq', harg, hheard, hdone'⟩ := hsame m q hq
    rw [← harg, ← hheard] at hkey
    rw [← harg]
    exact hw.held m q' hq' (hdone' hleft) key hkey
  · intro m q hq key hkey
    obtain ⟨q', hq', harg, hheard, -⟩ := hsame m q hq
    rw [← hheard] at hkey
    rw [← harg]
    exact hw.own m q' hq' key hkey
  · intro m k q r hne hq hr key hkey
    obtain ⟨q', hq', -, hqheard, -⟩ := hsame m q hq
    obtain ⟨r', hr', -, hrheard, -⟩ := hsame k r hr
    rw [← hqheard] at hkey
    rw [← hrheard]
    exact hw.apart m k q' r' hne hq' hr' key hkey

/-- A permitted command deletes only keys that its call owes. -/
lemma owed_of_deletes {i : EntryCall} {h : Heard Cmd.Reply} {c : Cmd} {key : ClaimKey}
    (hmay : (claiming tx).may i h c) (hdel : Deletes c key) : key ∈ owed h := by
  obtain ⟨keys, rfl, hkey⟩ := hdel
  exact hmay key hkey

section Step

variable {n : ℕ} {p : EntryProc} {c : Cmd} {next : c.Reply → EntryProg EntryOutcome}
  {second : Bool} (hw : Unique tx w) (hp : w.procs[n]? = some p) (hleft : p.left = .call c next)
  (horderly : Orderly tx w (.move n second)) (hmay : (claiming tx).may p.arg p.heard c)

section Orderly

include hp hleft horderly

/-- An orderly step deletes no key that another call in progress of its wallet counts on. -/
lemma not_accepted_of_deletes {key : ClaimKey} (hdel : Deletes c key) {m : ℕ} {q : EntryProc}
    (hne : m ≠ n) (hq : w.procs[m]? = some q) (hdone : q.left.isDone = false)
    (hwallet : q.arg.2.wallet = p.arg.2.wallet) : key ∉ accepted q.arg.2.wallet q.heard := by
  obtain ⟨keys, rfl, hkey⟩ := hdel
  simp only [Orderly, hp, hleft] at horderly
  exact (horderly key hkey).1 q (List.mem_eraseIdx_iff_getElem?.mpr ⟨m, hne, hq⟩) hdone hwallet

/-- It deletes no key that its wallet's record names. -/
lemma not_named_of_deletes {key : ClaimKey} (hdel : Deletes c key) {rec : EntrantRecord}
    (hrec : w.store.entrant p.arg.2.wallet = some rec) (hv : rec.verified = true) :
    key ∉ tx.keys rec := by
  obtain ⟨keys, rfl, hkey⟩ := hdel
  simp only [Orderly, hp, hleft] at horderly
  exact (horderly key hkey).2 rec hrec hv

/-- It replaces a record only by one that names the same keys. -/
lemma keys_eq_of_set {wallet : String} {rec old : EntrantRecord} (hc : c = .setEntrant wallet rec)
    (hold : w.store.entrant wallet = some old) (hv : old.verified = true) :
    tx.keys old = tx.keys rec := by
  subst hc
  simp only [Orderly, hp, hleft] at horderly
  exact horderly old hold hv

end Orderly

include hw hp hmay

/-- The call owes keys of its own that it holds. -/
lemma own_exec {key : ClaimKey}
    (hkey : key ∈ owedAfter (owed p.heard) ⟨c, (c.exec w.store).1⟩) :
    key ∈ tx.keys p.arg.2.record ∧ (c.exec w.store).2.claims key = some p.arg.2.wallet := by
  rcases mem_owedAfter hkey with ⟨hold, hdel⟩ | ⟨wallet, rfl, hnone⟩
  · obtain ⟨hmem, hclaims⟩ := hw.own n p hp key hold
    exact ⟨hmem, claims_exec_of_some hclaims hdel⟩
  · obtain ⟨rfl, hmem⟩ := hmay
    exact ⟨hmem, claims_exec_set hnone⟩

/-- A key that another call owes is still held, and this call does not owe it. -/
lemma own_exec_other {m : ℕ} {q : EntryProc} (hne : m ≠ n) (hq : w.procs[m]? = some q)
    {key : ClaimKey} (hkey : key ∈ owed q.heard) :
    (key ∈ tx.keys q.arg.2.record ∧ (c.exec w.store).2.claims key = some q.arg.2.wallet) ∧
      key ∉ owedAfter (owed p.heard) ⟨c, (c.exec w.store).1⟩ := by
  obtain ⟨hmem, hclaims⟩ := hw.own m q hq key hkey
  have hapart := hw.apart m n q p hne hq hp key hkey
  refine ⟨⟨hmem, claims_exec_of_some hclaims fun hdel => hapart (owed_of_deletes hmay hdel)⟩, ?_⟩
  intro howed
  rcases mem_owedAfter howed with ⟨hold, -⟩ | ⟨wallet, -, hnone⟩
  · exact hapart hold
  · rw [hclaims] at hnone
    cases hnone

include hleft

/-- The keys that the call counts on are held. -/
lemma held_exec {key : ClaimKey} (hkey : key ∈
    acceptedAfter p.arg.2.wallet (accepted p.arg.2.wallet p.heard) ⟨c, (c.exec w.store).1⟩) :
    (c.exec w.store).2.claims key = some p.arg.2.wallet := by
  rcases mem_acceptedAfter hkey with ⟨hold, hdel⟩ | ⟨wallet, rfl, hnone⟩ | ⟨rfl, hclaims⟩
  · exact claims_exec_of_some (hw.held n p hp (by rw [hleft]; rfl) key hold) hdel
  · obtain ⟨rfl, -⟩ := hmay
    exact claims_exec_set hnone
  · exact hclaims

include horderly

/-- The keys that records name are still held. -/
lemma named_exec {wallet : String} {rec : EntrantRecord}
    (hrec : (c.exec w.store).2.entrant wallet = some rec) {key : ClaimKey}
    (hkey : key ∈ tx.keys rec) : (c.exec w.store).2.claims key = some wallet := by
  rcases entrant_exec hrec with hold | rfl
  · have hclaims := hw.named wallet rec hold key hkey
    refine claims_exec_of_some hclaims fun hdel => ?_
    -- the call holds what it deletes, so the record is its own wallet's
    have hown := (hw.own n p hp key (owed_of_deletes hmay hdel)).2
    obtain rfl : wallet = p.arg.2.wallet := Option.some.inj (hclaims.symm.trans hown)
    exact not_named_of_deletes hp hleft horderly hdel hold (hw.verified _ rec hold) hkey
  · obtain ⟨rfl, rfl, haccepted⟩ := hmay
    exact hw.held n p hp (by rw [hleft]; rfl) key (haccepted key hkey)

/-- A key that is held after the step is named by a record or owed by a call. -/
lemma traced_exec {key : ClaimKey} {wallet : String}
    (hclaims : (c.exec w.store).2.claims key = some wallet) :
    (∃ rec, (c.exec w.store).2.entrant wallet = some rec ∧ key ∈ tx.keys rec) ∨
      (p.arg.2.wallet = wallet ∧ key ∈ owedAfter (owed p.heard) ⟨c, (c.exec w.store).1⟩) ∨
      ∃ (m : ℕ) (q : EntryProc), m ≠ n ∧ w.procs[m]? = some q ∧ q.arg.2.wallet = wallet ∧
        key ∈ owed q.heard := by
  rcases claims_exec hclaims with ⟨hold, hdel⟩ | ⟨rfl, hnone⟩
  · by_cases hset : ∃ rec, c = .setEntrant wallet rec
    · -- the new record names what the old one did, and what its call owed
      obtain ⟨rec, rfl⟩ := hset
      have hrec := entrant_exec_set wallet rec w.store
      rcases hw.traced key wallet hold with ⟨old, hentrant, hkey⟩ | ⟨m, q, hq, hwallet, howed⟩
      · rw [keys_eq_of_set hp hleft horderly rfl hentrant (hw.verified _ _ hentrant)] at hkey
        exact .inl ⟨rec, hrec, hkey⟩
      · by_cases hmn : m = n
        · subst hmn
          obtain rfl : p = q := Option.some.inj (hp.symm.trans hq)
          obtain ⟨-, rfl, -⟩ := hmay
          exact .inl ⟨_, hrec, (hw.own m p hp key howed).1⟩
        · exact .inr (.inr ⟨m, q, hmn, hq, hwallet, howed⟩)
    · rcases hw.traced key wallet hold with ⟨old, hentrant, hkey⟩ | ⟨m, q, hq, hwallet, howed⟩
      · exact .inl ⟨old, entrant_exec_of_some hentrant fun rec hc => hset ⟨rec, hc⟩, hkey⟩
      · by_cases hmn : m = n
        · subst hmn
          obtain rfl : p = q := Option.some.inj (hp.symm.trans hq)
          refine .inr (.inl ⟨hwallet, owedAfter_of_mem howed hdel fun wallet' rec hc => ?_⟩)
          subst hc
          obtain ⟨rfl, -⟩ := hmay
          exact hset ⟨rec, by rw [hwallet]⟩
        · exact .inr (.inr ⟨m, q, hmn, hq, hwallet, howed⟩)
  · exact .inr (.inl ⟨hmay.1.symm, owedAfter_of_claimed hnone⟩)

/-- So are the keys that another call in progress counts on. -/
lemma held_exec_other {m : ℕ} {q : EntryProc} (hne : m ≠ n) (hq : w.procs[m]? = some q)
    (hdone : q.left.isDone = false) {key : ClaimKey}
    (hkey : key ∈ accepted q.arg.2.wallet q.heard) :
    (c.exec w.store).2.claims key = some q.arg.2.wallet := by
  have hclaims := hw.held m q hq hdone key hkey
  refine claims_exec_of_some hclaims fun hdel => ?_
  have hown := (hw.own n p hp key (owed_of_deletes hmay hdel)).2
  have hwallet : q.arg.2.wallet = p.arg.2.wallet := Option.some.inj (hclaims.symm.trans hown)
  exact not_accepted_of_deletes hp hleft horderly hdel hne hq hdone hwallet hkey

end Step

/-- **A permitted command of an orderly step keeps the invariant.** -/
lemma exec {n : ℕ} {p : EntryProc} {c : Cmd} {next : c.Reply → EntryProg EntryOutcome}
    {second : Bool} (hw : Unique tx w) (hp : w.procs[n]? = some p) (hleft : p.left = .call c next)
    (horderly : Orderly tx w (.move n second)) (hmay : (claiming tx).may p.arg p.heard c) :
    Unique tx (w.replace n ⟨p.arg, p.heard ++ [⟨c, (c.exec w.store).1⟩],
      next (c.exec w.store).1⟩ (c.exec w.store).2) := by
  obtain ⟨hlt, -⟩ := List.getElem?_eq_some_iff.mp hp
  have howed : owed (p.heard ++ [⟨c, (c.exec w.store).1⟩]) =
      owedAfter (owed p.heard) ⟨c, (c.exec w.store).1⟩ := owed_append _ _
  have haccepted : accepted p.arg.2.wallet (p.heard ++ [⟨c, (c.exec w.store).1⟩]) =
      acceptedAfter p.arg.2.wallet (accepted p.arg.2.wallet p.heard) ⟨c, (c.exec w.store).1⟩ :=
    accepted_append _ _ _
  refine ⟨?_, ?_, ?_, ?_, ?_, ?_⟩
  · intro wallet rec hrec
    rcases entrant_exec hrec with hold | rfl
    · exact hw.verified wallet rec hold
    · obtain ⟨-, rfl, -⟩ := hmay
      exact p.arg.2.record_verified
  · exact fun wallet rec hrec key hkey => named_exec hw hp hleft horderly hmay hrec hkey
  · intro key wallet hkey
    rcases traced_exec hw hp hleft horderly hmay hkey with
      hrec | ⟨hwallet, hmem⟩ | ⟨m, q, hne, hq, hwallet, hmem⟩
    · exact .inl hrec
    · exact .inr ⟨n, _, List.getElem?_set_self hlt, hwallet, howed ▸ hmem⟩
    · exact .inr ⟨m, q, (List.getElem?_set_ne hne.symm).trans hq, hwallet, hmem⟩
  · intro m q hq hdone key hkey
    rcases Pool.getElem?_replace hq with ⟨-, rfl⟩ | ⟨hne, hold⟩
    · exact held_exec hw hp hleft hmay (haccepted ▸ hkey)
    · exact held_exec_other hw hp hleft horderly hmay hne hold hdone hkey
  · intro m q hq key hkey
    rcases Pool.getElem?_replace hq with ⟨-, rfl⟩ | ⟨hne, hold⟩
    · exact own_exec hw hp hmay (howed ▸ hkey)
    · exact (own_exec_other hw hp hmay hne hold hkey).1
  · intro m k q r hmk hq hr key hkey
    rcases Pool.getElem?_replace hq with ⟨rfl, rfl⟩ | ⟨hne, hqold⟩
    · rcases Pool.getElem?_replace hr with ⟨rfl, -⟩ | ⟨hne, hrold⟩
      · exact absurd rfl hmk
      · intro hmem
        exact (own_exec_other hw hp hmay hne hrold hmem).2 (howed ▸ hkey)
    · rcases Pool.getElem?_replace hr with ⟨rfl, rfl⟩ | ⟨-, hrold⟩
      · exact howed ▸ (own_exec_other hw hp hmay hne hqold hkey).2
      · exact hw.apart m k q r hmk hqold hrold key hkey

end Unique

/-- **One entry per handle and per email**: when every step of a run from the empty store is
orderly and no call is in progress, the keys that a record names hold its wallet, every key that
is held is named by its wallet's record, and so no two entrants share a handle or an email.

**Proof sketch.** A call in progress holds every key it counts on, since an orderly step deletes
none of them, and so it does when it writes its record. A key is named by a record or owed by the
call that claimed it, and a call that is done owes nothing (`confirmEntry_claiming`). -/
theorem unique_entries (tx : Texts) (acts : List (Act EntryCall))
    (horderly : Pool.Along (fun i => confirmEntry tx i.1 i.2) Cmd.exec (Orderly tx)
      ⟨Store.empty, []⟩ acts) :
    let w := Pool.run (fun i => confirmEntry tx i.1 i.2) Cmd.exec ⟨Store.empty, []⟩ acts
    (∀ p ∈ w.procs, p.left.isDone = true) →
    (∀ wallet rec, w.store.entrant wallet = some rec → rec.verified = true →
      w.store.claims (tx.handleKey rec.handle) = some wallet ∧
        w.store.claims (tx.entryEmailKey rec.email) = some wallet) ∧
    (∀ key wallet, w.store.claims key = some wallet →
      ∃ rec, w.store.entrant wallet = some rec ∧ key ∈ tx.keys rec) ∧
    (∀ wallet₁ rec₁ wallet₂ rec₂, wallet₁ ≠ wallet₂ → w.store.entrant wallet₁ = some rec₁ →
      rec₁.verified = true → w.store.entrant wallet₂ = some rec₂ → rec₂.verified = true →
      tx.toLowerCase rec₁.handle ≠ tx.toLowerCase rec₂.handle ∧ rec₁.email ≠ rec₂.email) := by
  intro w hdone
  have hinit : Unique tx ⟨Store.empty, []⟩ := by
    refine ⟨?_, ?_, ?_, ?_, ?_, ?_⟩ <;> simp [Store.empty]
  have hobeys : Pool.Disciplined (claiming tx) (⟨Store.empty, []⟩ : EntryPool) := by
    simp [Pool.Disciplined]
  have hcall : ∀ (w : EntryPool) n (second : Bool) p c next, Unique tx w →
      w.procs[n]? = some p → p.left = .call c next → Orderly tx w (.move n second) →
      (claiming tx).may p.arg p.heard c → (claiming tx).can c (c.exec w.store).1 ∧
        Unique tx (w.replace n ⟨p.arg, p.heard ++ [⟨c, (c.exec w.store).1⟩],
          next (c.exec w.store).1⟩ (c.exec w.store).2) := by
    intro w n second p c next hw hp hleft horderly hmay
    refine ⟨?_, hw.exec hp hleft horderly hmay⟩
    cases c with
    | getEntrant wallet => exact fun rec hrec => hw.verified wallet rec hrec
    | _ => exact trivial
  obtain ⟨hw, hends⟩ := Pool.run_invariant (fun i => confirmEntry tx i.1 i.2) Cmd.exec
    confirmEntry_claiming (fun w i hw => hw.start i)
    (fun w n p left hw hp hleft => hw.choose left hp hleft) hcall hinit hobeys horderly
  have hkeys : ∀ wallet rec, w.store.entrant wallet = some rec →
      w.store.claims (tx.handleKey rec.handle) = some wallet ∧
        w.store.claims (tx.entryEmailKey rec.email) = some wallet := by
    intro wallet rec hrec
    have hnamed := hw.named wallet rec hrec
    exact ⟨hnamed _ List.mem_cons_self, hnamed _ (List.mem_cons_of_mem _ List.mem_cons_self)⟩
  refine ⟨fun wallet rec hrec _ => hkeys wallet rec hrec, ?_, ?_⟩
  · intro key wallet hkey
    rcases hw.traced key wallet hkey with hrec | ⟨n, p, hp, -, hmem⟩
    · exact hrec
    · -- a call that is done owes nothing
      obtain ⟨o, hleft⟩ := Prog.eq_done_of_isDone (hdone p (List.mem_of_getElem? hp))
      have hend := hends n p hp
      rw [hleft] at hend
      have hnil : owed p.heard = [] := hend
      rw [hnil] at hmem
      cases hmem
  · intro wallet₁ rec₁ wallet₂ rec₂ hne hrec₁ _ hrec₂ _
    obtain ⟨hhandle₁, hemail₁⟩ := hkeys wallet₁ rec₁ hrec₁
    obtain ⟨hhandle₂, hemail₂⟩ := hkeys wallet₂ rec₂ hrec₂
    constructor
    · intro heq
      rw [Texts.handleKey, heq] at hhandle₁
      exact hne (Option.some.inj (hhandle₁.symm.trans hhandle₂))
    · intro heq
      rw [heq] at hemail₁
      exact hne (Option.some.inj (hemail₁.symm.trans hemail₂))

/-- Two entries of two wallets, taking turns. -/
def taking : List (Act EntryCall) :=
  [.start (some 2, ⟨"CAAA1", "trader1", "t1@example.com", 1000, by decide⟩),
    .start (some 2, ⟨"CAAA2", "Trader1", "t2@example.com", 1000, by decide⟩),
    .move 0 false, .move 1 false, .move 0 false, .move 1 false, .move 1 false, .move 0 false,
    .move 0 false, .move 0 false]

theorem unique_entries_taking :
    let w := Pool.run (fun i => confirmEntry exampleTexts i.1 i.2) Cmd.exec ⟨Store.empty, []⟩ taking
    (∀ p ∈ w.procs, p.left.isDone = true) ∧
    (∀ wallet rec, w.store.entrant wallet = some rec → rec.verified = true →
      w.store.claims (exampleTexts.handleKey rec.handle) = some wallet ∧
        w.store.claims (exampleTexts.entryEmailKey rec.email) = some wallet) ∧
    (∀ key wallet, w.store.claims key = some wallet →
      ∃ rec, w.store.entrant wallet = some rec ∧ key ∈ exampleTexts.keys rec) ∧
    (∀ wallet₁ rec₁ wallet₂ rec₂, wallet₁ ≠ wallet₂ → w.store.entrant wallet₁ = some rec₁ →
      rec₁.verified = true → w.store.entrant wallet₂ = some rec₂ → rec₂.verified = true →
      exampleTexts.toLowerCase rec₁.handle ≠ exampleTexts.toLowerCase rec₂.handle ∧
        rec₁.email ≠ rec₂.email) := by
  intro w
  have hdone : ∀ p ∈ w.procs, p.left.isDone = true := by decide +kernel
  exact ⟨hdone, unique_entries exampleTexts taking (by decide +kernel) hdone⟩

/-- Two calls of one wallet ask for one handle; the first is refused over its email and lets the
handle go, after the second has accepted it and before it stores its record. -/
def twoTraders : List (Act EntryCall) :=
  -- the email of the first entry is taken by the time the others start
  [.start (none, ⟨"CAAA1", "trader1", "t1@example.com", 1000, by decide⟩)] ++
  List.replicate 5 (.move 0 false) ++
  [.start (none, ⟨"CAAA2", "trader2", "t1@example.com", 1000, by decide⟩),
    .start (none, ⟨"CAAA2", "trader2", "t2@example.com", 1000, by decide⟩)] ++
  List.replicate 2 (.move 1 false) ++ List.replicate 3 (.move 2 false) ++
  List.replicate 3 (.move 1 false) ++
  [.start (none, ⟨"CAAA3", "Trader2", "t3@example.com", 1000, by decide⟩)] ++
  List.replicate 5 (.move 3 false) ++ List.replicate 3 (.move 2 false)

/-- **A release that is not orderly**: with no call in progress, two verified entrants have one
handle, and the handle's key holds only one of them. -/
theorem twoTraders_share :
    let w := Pool.run (fun i => confirmEntry exampleTexts i.1 i.2) Cmd.exec ⟨Store.empty, []⟩
      twoTraders
    (∀ p ∈ w.procs, p.left.isDone = true) ∧
    (w.store.entrant "CAAA2").map (fun rec => (rec.handle, rec.verified)) =
      some ("trader2", true) ∧
    (w.store.entrant "CAAA3").map (fun rec => (rec.handle, rec.verified)) =
      some ("Trader2", true) ∧
    w.store.claims (exampleTexts.handleKey "trader2") = some "CAAA3" := by
  decide +kernel

end Koul.Competition
