import Koul.Competition.Entry
import Koul.Lib.Alone

set_option relaxedAutoImplicit false
set_option autoImplicit false

/-!
# An entry run alone

`confirmEntry` with no other call beside it. It claims two keys and a place before it writes
anything, and it may have owned either key before, so a refusal has to let go of what it claimed and
of no more. What has been claimed so far is kept as one fact about the store: it is the one before the
call with some keys that were free given to the wallet.

## Main definitions

* `Koul.Competition.Agree` — the keys that are held are the ones the records name.
* `Koul.Competition.Given` — the store with some free keys given to a wallet.
* `Koul.Competition.Entered` — what an entry leaves.

## Main results

* `Koul.Competition.confirmEntry_alone` — a refused entry leaves the store as it was, and an accepted
  one leaves what it should.
* `Koul.Competition.Agree.calls` — the keys and the records agree after any calls, one at a time.
-/

namespace Koul.Competition

open Interleaving
open Prog (Alone)

/-- The keys that are held are the ones the records name. -/
structure Agree (tx : Texts) (s : Store) : Prop where
  held : ∀ wallet rec, s.entrant wallet = some rec → ∀ key ∈ tx.keys rec,
    s.claims key = some wallet
  named : ∀ key wallet, s.claims key = some wallet →
    ∃ rec, s.entrant wallet = some rec ∧ key ∈ tx.keys rec

/-- What an entry leaves: its record, its keys and its place, none of the keys of the entry it
replaces, and everything of the other wallets. -/
structure Entered (tx : Texts) (entry : Entry) (s t : Store) : Prop where
  record : ∃ rec, t.entrant entry.wallet = some rec ∧ rec.verified = true ∧
    rec.handle = entry.handle ∧ rec.email = entry.email
  handle : t.claims (tx.handleKey entry.handle) = some entry.wallet
  email : t.claims (tx.entryEmailKey entry.email) = some entry.wallet
  place : entry.wallet ∈ t.entrants
  stale : ∀ rec, s.entrant entry.wallet = some rec → ∀ key ∈ tx.keys rec,
    key ∉ tx.keys entry.record → t.claims key = none
  own : ∀ key, t.claims key = some entry.wallet → key ∈ tx.keys entry.record
  entrant_other : ∀ wallet, wallet ≠ entry.wallet → t.entrant wallet = s.entrant wallet
  claims_other : ∀ wallet, wallet ≠ entry.wallet → ∀ key,
    t.claims key = some wallet ↔ s.claims key = some wallet
  entrants_other : ∀ wallet, wallet ≠ entry.wallet → (wallet ∈ t.entrants ↔ wallet ∈ s.entrants)
  pending : t.pending = s.pending
  config : t.config = s.config

/-- The replaced entry's email and the new one have one hash only when they are the same. -/
def NoCollision (tx : Texts) (s : Store) (entry : Entry) : Prop :=
  ∀ rec, s.entrant entry.wallet = some rec →
    tx.sha256 rec.email = tx.sha256 entry.email → rec.email = entry.email

/-! ## What is claimed before the record is written -/

/-- The store with keys that were free given to the wallet. -/
structure Given (wallet : String) (keys : List ClaimKey) (s t : Store) : Prop where
  store : t = { s with claims := fun k => if k ∈ keys then some wallet else s.claims k }
  free : ∀ k ∈ keys, s.claims k = none

section Given

variable {wallet : String} {keys : List ClaimKey} {s t u : Store}

lemma Given.nil : Given wallet [] s s := ⟨rfl, fun _ hk => absurd hk List.not_mem_nil⟩

lemma Given.claims (h : Given wallet keys s t) (key : ClaimKey) :
    t.claims key = if key ∈ keys then some wallet else s.claims key := by rw [h.store]

lemma Given.eq_of_nil (h : Given wallet [] s t) : t = s := by simpa using h.store

/-- Another wallet's keys are where they were. -/
lemma Given.claims_other (h : Given wallet keys s t) {other : String} (hne : other ≠ wallet)
    (key : ClaimKey) : t.claims key = some other ↔ s.claims key = some other := by
  rw [h.claims]
  split
  · next hmem => simp [h.free key hmem, hne.symm]
  · exact Iff.rfl

/-- What claiming one more key does: the wallet holds it afterwards, or nothing more is claimed. -/
structure Claimed (wallet : String) (keys : List ClaimKey) (key : ClaimKey) (s t : Store)
    (ok : Bool) (keys' : List ClaimKey) (u : Store) : Prop where
  given : Given wallet keys' s u
  mem : ∀ k ∈ keys', k ∈ keys ∨ k = key
  won : ok = true → u.claims key = some wallet
  lost : ok = false → keys' = keys
  keeps : ∀ k, t.claims k = some wallet → u.claims k = some wallet

lemma Given.claim (h : Given wallet keys s t) {key : ClaimKey} {ok : Bool} {keys' : List ClaimKey}
    (hrun : Alone Cmd.exec (claim wallet keys key) t (ok, keys') u) :
    Claimed wallet keys key s t ok keys' u := by
  have hset := (Prog.alone_ask_bind (c := Cmd.setClaim key wallet)).mp hrun
  cases hkey : t.claims key with
  | none =>
    have hexec : (Cmd.setClaim key wallet).exec t =
        (true, { t with claims := Function.update t.claims key (some wallet) }) := by
      simp [Cmd.exec, hkey]
    rw [hexec] at hset
    obtain ⟨hret, hu⟩ := hset
    obtain rfl : { t with claims := Function.update t.claims key (some wallet) } = u := hu
    obtain ⟨rfl, rfl⟩ := Prod.mk.inj hret
    have hwon : Function.update t.claims key (some wallet) key = some wallet :=
      Function.update_self ..
    have hnot : key ∉ keys := by
      intro hmem
      rw [h.claims, if_pos hmem] at hkey
      cases hkey
    rw [h.claims, if_neg hnot] at hkey
    refine ⟨⟨?_, ?_⟩, fun k hk => ?_, fun _ => hwon, by simp, fun k hk => ?_⟩
    · rw [h.store]
      refine congrArg (fun claims => { s with claims := claims }) (funext fun k => ?_)
      by_cases heq : k = key
      · simp [heq]
      · simp [heq, Function.update_of_ne]
    · intro k hk
      rcases List.mem_append.mp hk with hk | hk
      · exact h.free k hk
      · rw [List.mem_singleton.mp hk, hkey]
    · rw [List.mem_append, List.mem_singleton] at hk
      exact hk
    · by_cases heq : k = key
      · simp [heq]
      · simpa [Function.update_of_ne heq] using hk
  | some owner =>
    have hexec : (Cmd.setClaim key wallet).exec t = (false, t) := by simp [Cmd.exec, hkey]
    rw [hexec] at hset
    obtain ⟨hret, rfl⟩ := hset
    obtain ⟨hok, rfl⟩ := Prod.mk.inj hret
    refine ⟨h, fun k hk => .inl hk, fun htrue => ?_, fun _ => rfl, fun k hk => hk⟩
    rw [htrue] at hok
    exact eq_of_beq hok

/-- Letting go of what was claimed leaves the store as it was. -/
lemma Given.release (h : Given wallet keys s t) {r : Unit}
    (hrun : Alone Cmd.exec (release keys) t r u) : u = s := by
  rw [Competition.release] at hrun
  split at hrun
  · obtain rfl : _ = u := hrun.2
    show { t with claims := fun k => if k ∈ keys then none else t.claims k } = s
    rw [h.store]
    refine congrArg (fun claims => { s with claims := claims }) (funext fun k => ?_)
    by_cases hk : k ∈ keys
    · simp [hk, h.free k hk]
    · simp [hk]
  · next hnil =>
    obtain rfl : t = u := hrun.2
    obtain rfl : keys = [] := by simpa using hnil
    simpa using h.store

end Given

/-- A wallet that gets no place changes nothing. -/
lemma alone_takePlace {wallet : String} {max : Option ℤ} {s t : Store} {ok : Bool}
    (hrun : Alone Cmd.exec (takePlace wallet max) s ok t) :
    t = if ok then { s with entrants := insert wallet s.entrants } else s := by
  obtain ⟨rfl, rfl⟩ := hrun
  show Store.mk _ (PLACE_SCRIPT s.entrants wallet (max.getD (-1))).2 _ _ _ = _
  rw [PLACE_SCRIPT]
  split
  · next hmem => simp [Cmd.exec, PLACE_SCRIPT, hmem]
  · next hmem =>
    split
    · next hfull => simp [Cmd.exec, PLACE_SCRIPT, hmem, hfull]
    · next hfull => simp [Cmd.exec, PLACE_SCRIPT, hmem, hfull]

/-! ## What a replaced entry lets go -/

/-- Whether `heldBy` finds a key among the replies depends on the replies, not on their order. -/
lemma heldBy_perm {h h' : Heard Cmd.Reply} (hperm : h.Perm h') (wallet : String) (key : ClaimKey) :
    heldBy h wallet key = heldBy h' wallet key := by
  rw [heldBy, heldBy, Bool.eq_iff_iff, List.any_eq_true, List.any_eq_true]
  simp only [hperm.mem_iff]

/-- The owners that are read are the keys' holders. -/
lemma heldBy_read {s : Store} {wallet : String} {keys : List ClaimKey} {key : ClaimKey}
    (hkey : key ∈ keys) :
    heldBy ((keys.map Cmd.getClaim).map fun c => ⟨c, (c.exec s).1⟩) wallet key =
      (s.claims key == some wallet) := by
  rw [heldBy, Bool.eq_iff_iff, List.any_eq_true]
  constructor
  · rintro ⟨x, hx, hown⟩
    rw [List.map_map, List.mem_map] at hx
    obtain ⟨k, -, rfl⟩ := hx
    obtain ⟨hk, hown⟩ := (Bool.and_eq_true_iff ..).mp hown
    rw [← eq_of_beq hk]
    exact hown
  · intro hown
    refine ⟨⟨.getClaim key, s.claims key⟩, ?_, ?_⟩
    · rw [List.map_map]
      exact List.mem_map.mpr ⟨key, hkey, rfl⟩
    · simp only [beq_self_eq_true, Bool.true_and]
      exact hown

lemma alone_release {keys : List ClaimKey} {s t : Store} {r : Unit}
    (hrun : Alone Cmd.exec (release keys) s r t) :
    t = { s with claims := fun k => if k ∈ keys then none else s.claims k } := by
  rw [release] at hrun
  split at hrun
  · exact hrun.2.symm
  · next hnil =>
    obtain rfl : s = t := hrun.2
    obtain rfl : keys = [] := by simpa using hnil
    simp

/-- The keys of the replaced entry that the wallet holds and the new one does not use. -/
def staleHeld (tx : Texts) (entry : Entry) (s : Store) (existing : Option EntrantRecord) :
    List ClaimKey :=
  match existing with
  | none => []
  | some existing =>
    (staleKeys tx existing entry).filter fun key => s.claims key == some entry.wallet

lemma alone_releaseStale {tx : Texts} {existing : Option EntrantRecord} {entry : Entry}
    {s t : Store} {r : Unit}
    (hrun : Alone Cmd.exec (releaseStale tx existing entry) s r t) :
    t = { s with claims := fun k =>
      if k ∈ staleHeld tx entry s existing then none else s.claims k } := by
  cases existing with
  | none =>
    obtain rfl : s = t := hrun.2
    simp [staleHeld]
  | some existing =>
    obtain ⟨owners, u, howners, hrel⟩ := Prog.alone_bind.mp hrun
    have hread : ∀ c ∈ (staleKeys tx existing entry).map Cmd.getClaim, (c.exec s).2 = s := by
      intro c hc
      obtain ⟨key, -, rfl⟩ := List.mem_map.mp hc
      rfl
    obtain ⟨rfl, hperm⟩ := Prog.alone_together hread howners
    have hmine : (staleKeys tx existing entry).filter (heldBy owners entry.wallet) =
        staleHeld tx entry u (some existing) := by
      refine List.filter_congr fun key hkey => ?_
      rw [heldBy_perm hperm, heldBy_read hkey]
    rw [alone_release hrel, hmine]

/-- The replaced entry's keys that the new one does not use are stale; where the emails' hashes do
not collide, none of the new one's keys is. -/
lemma mem_staleKeys {tx : Texts} {existing : EntrantRecord} {entry : Entry} {key : ClaimKey}
    (hkey : key ∈ tx.keys existing) (hnew : key ∉ tx.keys entry.record) :
    key ∈ staleKeys tx existing entry := by
  rcases List.mem_cons.mp hkey with rfl | hkey
  · refine List.mem_append_left _ ?_
    have hne : tx.toLowerCase existing.handle ≠ tx.toLowerCase entry.handle := fun heq =>
      hnew (by rw [Texts.handleKey, heq]; exact List.mem_cons_self)
    rw [if_pos hne]
    exact List.mem_cons_self
  · obtain rfl := List.mem_singleton.mp hkey
    refine List.mem_append_right _ ?_
    have hne : existing.email ≠ entry.email := fun heq =>
      hnew (by rw [heq]; exact List.mem_cons_of_mem _ List.mem_cons_self)
    rw [if_pos hne]
    exact List.mem_cons_self

lemma not_mem_staleKeys {tx : Texts} {existing : EntrantRecord} {entry : Entry} {key : ClaimKey}
    (hsha : tx.sha256 existing.email = tx.sha256 entry.email → existing.email = entry.email)
    (hkey : key ∈ tx.keys entry.record) : key ∉ staleKeys tx existing entry := by
  intro hmem
  rcases List.mem_append.mp hmem with hmem | hmem <;> split at hmem
  · next hne =>
    obtain rfl := List.mem_singleton.mp hmem
    simp only [Texts.keys, Texts.handleKey, Texts.entryEmailKey, List.mem_cons,
      ClaimKey.handle.injEq, reduceCtorEq, List.not_mem_nil, or_false] at hkey
    exact hne hkey
  · cases hmem
  · next hne =>
    obtain rfl := List.mem_singleton.mp hmem
    simp only [Texts.keys, Texts.handleKey, Texts.entryEmailKey, List.mem_cons,
      ClaimKey.email.injEq, reduceCtorEq, List.not_mem_nil, or_false, false_or] at hkey
    exact hne (hsha hkey)
  · cases hmem

/-! ## The whole call -/

/-- Where an accepted entry leaves the store: keys that were free and then the record and the place,
less the stale keys. -/
structure Accepted (tx : Texts) (entry : Entry) (s t : Store) : Prop where
  given : ∃ keys u, Given entry.wallet keys s u ∧ (∀ k ∈ keys, k ∈ tx.keys entry.record) ∧
    (∀ k ∈ tx.keys entry.record, u.claims k = some entry.wallet) ∧
    t = { u with
      entrant := Function.update u.entrant entry.wallet (some entry.record)
      entrants := insert entry.wallet u.entrants
      claims := fun k =>
        if k ∈ staleHeld tx entry u (s.entrant entry.wallet) then none else u.claims k }

/-- **One call**: it is refused and has let go of what it claimed, or it goes all the way. -/
lemma confirmEntry_cases {tx : Texts} {max : Option ℤ} {entry : Entry} {s t : Store}
    {o : EntryOutcome} (hrun : Alone Cmd.exec (confirmEntry tx max entry) s o t) :
    (∃ text, o = .error text) ∧ t = s ∨ o = .ok entry.record ∧ Accepted tx entry s t := by
  have hread := (Prog.alone_ask_bind (c := Cmd.getEntrant entry.wallet)).mp hrun
  simp only at hread
  split at hread
  · exact .inl ⟨⟨_, hread.1.symm⟩, hread.2.symm⟩
  obtain ⟨⟨handleOk, keys₁⟩, u₁, hhandle, hrest⟩ := Prog.alone_bind.mp hread
  have hclaim₁ := Given.nil.claim hhandle
  cases handleOk with
  | false =>
    obtain ⟨rfl, rfl⟩ := hrest
    have hgiven := hclaim₁.given
    rw [hclaim₁.lost rfl] at hgiven
    exact .inl ⟨⟨_, rfl⟩, hgiven.eq_of_nil⟩
  | true =>
    obtain ⟨⟨emailOk, keys₂⟩, u₂, hemail, hrest⟩ := Prog.alone_bind.mp hrest
    have hclaim₂ := hclaim₁.given.claim hemail
    cases emailOk with
    | false =>
      obtain ⟨r, u₃, hrelease, rfl, rfl⟩ := Prog.alone_bind.mp hrest
      exact .inl ⟨⟨_, rfl⟩, hclaim₂.given.release hrelease⟩
    | true =>
      obtain ⟨placed, u₃, hplace, hrest⟩ := Prog.alone_bind.mp hrest
      obtain rfl := alone_takePlace hplace
      cases placed with
      | false =>
        obtain ⟨r, u₃, hrelease, rfl, rfl⟩ := Prog.alone_bind.mp hrest
        exact .inl ⟨⟨_, rfl⟩, hclaim₂.given.release hrelease⟩
      | true =>
        have hset := (Prog.alone_ask_bind (c := Cmd.setEntrant entry.wallet entry.record)).mp hrest
        obtain ⟨r, u₃, hstale, rfl, rfl⟩ := Prog.alone_bind.mp hset
        obtain rfl := alone_releaseStale hstale
        refine .inr ⟨rfl, keys₂, u₂, hclaim₂.given, fun k hk => ?_, fun k hk => ?_, rfl⟩
        · rcases hclaim₂.mem k hk with hk | rfl
          · rcases hclaim₁.mem k hk with hk | rfl
            · exact absurd hk List.not_mem_nil
            · exact List.mem_cons_self
          · exact List.mem_cons_of_mem _ List.mem_cons_self
        · rcases List.mem_cons.mp hk with rfl | hk
          · exact hclaim₂.keeps _ (hclaim₁.won rfl)
          · rw [List.mem_singleton.mp hk]
            exact hclaim₂.won rfl

lemma Accepted.entered {tx : Texts} {entry : Entry} {s t : Store} (h : Accepted tx entry s t)
    (hagree : Agree tx s) (hsha : NoCollision tx s entry) : Entered tx entry s t := by
  obtain ⟨keys, u, hgiven, hsub, hheld, ht⟩ := h.given
  have hclaims : ∀ key, t.claims key =
      if key ∈ staleHeld tx entry u (s.entrant entry.wallet) then none else u.claims key :=
    fun key => by rw [ht]
  -- of the wallet's keys after the claims, the stale ones go and the new ones stay
  have hstale : ∀ rec, s.entrant entry.wallet = some rec → ∀ key ∈ tx.keys rec,
      key ∉ tx.keys entry.record → u.claims key = some entry.wallet →
      key ∈ staleHeld tx entry u (s.entrant entry.wallet) := by
    intro rec hrec key hkey hnew hu
    rw [hrec]
    exact List.mem_filter.mpr ⟨mem_staleKeys hkey hnew, beq_iff_eq.mpr hu⟩
  have hnew : ∀ key ∈ tx.keys entry.record, t.claims key = some entry.wallet := by
    intro key hkey
    rw [hclaims, if_neg, hheld key hkey]
    cases hrec : s.entrant entry.wallet with
    | none => exact List.not_mem_nil
    | some rec =>
      exact fun hmem => not_mem_staleKeys (hsha rec hrec) hkey (List.mem_filter.mp hmem).1
  have hstore := hgiven.store
  refine ⟨⟨entry.record, ?_, entry.record_verified, rfl, rfl⟩, hnew _ List.mem_cons_self,
    hnew _ (List.mem_cons_of_mem _ List.mem_cons_self), ?_, ?_, ?_, ?_, ?_, ?_, ?_, ?_⟩
  · rw [ht]
    exact Function.update_self ..
  · rw [ht]
    exact Finset.mem_insert_self ..
  · intro rec hrec key hkey hkeynew
    have hu : u.claims key = some entry.wallet := by
      rw [hgiven.claims, hagree.held _ rec hrec key hkey, ite_self]
    rw [hclaims, if_pos (hstale rec hrec key hkey hkeynew hu)]
  · intro key hkey
    by_contra hkeynew
    rw [hclaims] at hkey
    split at hkey
    · cases hkey
    · next hnot =>
      have hu := hkey
      rw [hgiven.claims] at hkey
      split at hkey
      · next hmem => exact hkeynew (hsub key hmem)
      · obtain ⟨rec, hrec, hmem⟩ := hagree.named key _ hkey
        exact hnot (hstale rec hrec key hmem hkeynew hu)
  · intro wallet hne
    rw [ht, hstore]
    exact Function.update_of_ne hne ..
  · intro wallet hne key
    rw [← hgiven.claims_other hne key, hclaims]
    split
    · next hmem =>
      have hu : u.claims key = some entry.wallet := by
        cases hrec : s.entrant entry.wallet with
        | none => simp [hrec, staleHeld] at hmem
        | some rec =>
          rw [hrec] at hmem
          exact eq_of_beq (List.mem_filter.mp hmem).2
      simp [hu, hne.symm]
    · exact Iff.rfl
  · intro wallet hne
    rw [ht, hstore]
    exact ⟨fun hmem => (Finset.mem_insert.mp hmem).resolve_left hne, Finset.mem_insert_of_mem⟩
  · rw [ht, hstore]
  · rw [ht, hstore]

/-- The keys and the records still agree after an entry. -/
lemma Entered.agree {tx : Texts} {entry : Entry} {s t : Store} (h : Entered tx entry s t)
    (hagree : Agree tx s) : Agree tx t := by
  obtain ⟨rec, hrec, -, hhandle, hemail⟩ := h.record
  have hkeys : tx.keys rec = tx.keys entry.record := by
    rw [Texts.keys, Texts.keys, hhandle, hemail]
    rfl
  constructor
  · intro wallet rec' hrec' key hkey
    by_cases hw : wallet = entry.wallet
    · subst hw
      obtain rfl := Option.some.inj (hrec.symm.trans hrec')
      rw [hkeys] at hkey
      rcases List.mem_cons.mp hkey with rfl | hkey
      · exact h.handle
      · rw [List.mem_singleton.mp hkey]
        exact h.email
    · rw [h.entrant_other wallet hw] at hrec'
      exact (h.claims_other wallet hw key).mpr (hagree.held wallet rec' hrec' key hkey)
  · intro key wallet hkey
    by_cases hw : wallet = entry.wallet
    · subst hw
      exact ⟨rec, hrec, hkeys ▸ h.own key hkey⟩
    · obtain ⟨rec', hrec', hmem⟩ := hagree.named key wallet ((h.claims_other wallet hw key).mp hkey)
      exact ⟨rec', (h.entrant_other wallet hw).trans hrec', hmem⟩

/-- **An entry run alone** ends, and when it is refused the store is exactly as it was before the
call; when it is accepted the wallet's record is verified with the handle and the email it was called
with, both keys hold the wallet, it has a place, the replaced entry's other keys are gone, and nothing
of another wallet has changed. -/
theorem confirmEntry_alone (tx : Texts) (s : Store) (hagree : Agree tx s) (max : Option ℤ)
    (entry : Entry) (hsha : NoCollision tx s entry) :
    let after := fun moves : List Bool =>
      Pool.run (fun i => confirmEntry tx i.1 i.2) Cmd.exec ⟨s, []⟩
        (.start (max, entry) :: moves.map (.move 0))
    (∃ n, ∀ moves, n ≤ moves.length → ∀ p ∈ (after moves).procs, p.left.isDone = true) ∧
    ∀ moves, ∀ p ∈ (after moves).procs,
      (∀ text, p.left = .done (.error text) → (after moves).store = s) ∧
      ∀ record, p.left = .done (.ok record) →
        record = entry.record ∧ Entered tx entry s (after moves).store := by
  intro after
  constructor
  · obtain ⟨n, hn⟩ := Pool.exists_done (fun i => confirmEntry tx i.1 i.2) Cmd.exec s
      ⟨(max, entry), [], confirmEntry tx max entry⟩
    refine ⟨n, fun moves hlen p hp => ?_⟩
    obtain ⟨q, o, hprocs, hdone⟩ := hn moves hlen
    obtain rfl := List.mem_singleton.mp (hprocs ▸ hp)
    rw [hdone]
    rfl
  · intro moves p hp
    obtain ⟨q, hprocs, halone⟩ := Pool.alone_of_run (fun i => confirmEntry tx i.1 i.2) Cmd.exec s
      ⟨(max, entry), [], confirmEntry tx max entry⟩ moves
    obtain rfl := List.mem_singleton.mp (hprocs ▸ hp)
    have hends : ∀ o, p.left = .done o →
        Alone Cmd.exec (confirmEntry tx max entry) s o (after moves).store := by
      intro o hdone
      exact halone o _ (hdone ▸ ⟨rfl, rfl⟩)
    refine ⟨fun text hdone => ?_, fun record hdone => ?_⟩
    · rcases confirmEntry_cases (hends _ hdone) with ⟨-, ht⟩ | ⟨hok, -⟩
      · exact ht
      · cases hok
    · rcases confirmEntry_cases (hends _ hdone) with ⟨⟨text, herror⟩, -⟩ | ⟨hok, haccepted⟩
      · cases herror
      · cases hok
        exact ⟨rfl, haccepted.entered hagree hsha⟩

/-- An entry that waits for its confirmation. -/
def waitingRecord : EntrantRecord :=
  ⟨"CAAA1", "trader1", "t1@example.com", 900, none, some 900, none⟩

/-- A store with just that entry. -/
def waiting : Store where
  config := none
  entrants := ∅
  entrant wallet := if wallet = "CAAA1" then some waitingRecord else none
  claims key := if key ∈ exampleTexts.keys waitingRecord then some "CAAA1" else none
  pending _ := none

lemma waiting_entrant {wallet : String} {rec : EntrantRecord} :
    waiting.entrant wallet = some rec ↔ wallet = "CAAA1" ∧ waitingRecord = rec := by
  simp [waiting]

lemma waiting_claims {key : ClaimKey} {wallet : String} : waiting.claims key = some wallet ↔
    key ∈ exampleTexts.keys waitingRecord ∧ "CAAA1" = wallet := by
  simp [waiting]

lemma agree_waiting : Agree exampleTexts waiting := by
  constructor
  · intro wallet rec hrec key hkey
    obtain ⟨rfl, rfl⟩ := waiting_entrant.mp hrec
    exact waiting_claims.mpr ⟨hkey, rfl⟩
  · intro key wallet hkey
    obtain ⟨hmem, rfl⟩ := waiting_claims.mp hkey
    exact ⟨waitingRecord, waiting_entrant.mpr ⟨rfl, rfl⟩, hmem⟩

theorem confirmEntry_alone_waiting :
    let after := Pool.run (fun i => confirmEntry exampleTexts i.1 i.2) Cmd.exec ⟨waiting, []⟩
      (.start (some 2, ⟨"CAAA1", "Trader2", "t1@example.com", 1000, by decide⟩) ::
        (List.replicate 9 false).map (.move 0))
    (∀ p ∈ after.procs, p.left.isDone = true) ∧
    ∀ p ∈ after.procs, ∀ record, p.left = .done (.ok record) →
      Entered exampleTexts ⟨"CAAA1", "Trader2", "t1@example.com", 1000, by decide⟩ waiting
        after.store := by
  intro after
  refine ⟨by decide +kernel, fun p hp record hdone => ?_⟩
  have hsha : NoCollision exampleTexts waiting
      ⟨"CAAA1", "Trader2", "t1@example.com", 1000, by decide⟩ := by
    intro rec hrec _
    obtain ⟨-, rfl⟩ := waiting_entrant.mp hrec
    rfl
  exact (((confirmEntry_alone exampleTexts waiting agree_waiting (some 2) _ hsha).2 _ p hp).2 record
    hdone).2

/-- Calls of `confirmEntry`, one at a time. -/
inductive Calls (tx : Texts) (s : Store) : Store → Prop
  | none : Calls tx s s
  | call {t u : Store} {max : Option ℤ} {entry : Entry} {o : EntryOutcome} (h : Calls tx s t)
      (hsha : NoCollision tx t entry)
      (hrun : Alone Cmd.exec (confirmEntry tx max entry) t o u) : Calls tx s u

/-- **Calls one at a time**, refused or not, keep the keys and the records in agreement. -/
theorem Agree.calls {tx : Texts} {s t : Store} (hagree : Agree tx s) (h : Calls tx s t) :
    Agree tx t := by
  induction h with
  | none => exact hagree
  | call _ hsha hrun ih =>
    rcases confirmEntry_cases hrun with ⟨-, rfl⟩ | ⟨-, haccepted⟩
    · exact ih
    · exact (haccepted.entered ih hsha).agree ih

end Koul.Competition
