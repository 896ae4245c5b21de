import Koul.Competition.Runs
import Koul.Lib.Utf16

set_option relaxedAutoImplicit false
set_option autoImplicit false

/-!
# The indexer's requests

What the indexer sends to its store: an MSET of several key-value pairs, and a pipeline of several
commands. Both are divided by estimates of their sizes, which count the bytes of each text with its
quotes and comma, and neither the escapes in it nor the frame around all of them.

## Main definitions

* `Koul.Competition.chunkPairs`, `Koul.Competition.commandBytes` — the division and the estimates.
* `Koul.Competition.msetBody`, `Koul.Competition.pipelineBody` — the bodies.
* `Koul.Competition.msetExtra`, `Koul.Competition.pipelineExtra` — what no estimate counts.

## Main results

* `Koul.Competition.chunkBySize_spec` — the groups divide the items, each fits, and there are no fewer
  groups that do.
* `Koul.Competition.stringify_stringList` — a list of strings is written as JSON writes it.
* `Koul.Competition.bodyBytes_msetBody`, `Koul.Competition.bodyBytes_pipelineBody` — a body has the
  bytes of its estimates and the extra ones.
* `Koul.Competition.bodies_le_iff` — the bodies of several items stay within the limit exactly where
  the estimates leave room for the extra bytes.
* `Koul.Competition.Indexer.chunkPairs_texts` — the groups of a run are those of its texts.
* `Koul.Competition.Indexer.bodyBytes_mset_le` — an MSET of a run is within the limit but for its frame
  and its escapes.
-/

namespace Koul.Competition

open JsonText (Text commas)
open Utf16

/-! ## The division -/

section Division

variable {T K : Type*} [AddCommMonoid K] [LinearOrder K] [IsOrderedAddMonoid K]

/-- **The groups of `chunkBySize`**: none is empty, they are the items in order, each is within the
limit or one item alone, and no division into groups that are has fewer. -/
theorem chunkBySize_spec (items : List T) (bytes : T → K) (maxBytes : K)
    (hbytes : ∀ item, 0 ≤ bytes item) :
    (∀ group ∈ chunkBySize items bytes maxBytes, group ≠ []) ∧
      (chunkBySize items bytes maxBytes).flatten = items ∧
      (∀ group ∈ chunkBySize items bytes maxBytes,
        (group.map bytes).sum ≤ maxBytes ∨ group.length = 1) ∧
      ∀ others : List (List T), others.flatten = items →
        (∀ group ∈ others, (group.map bytes).sum ≤ maxBytes ∨ group.length = 1) →
        (chunkBySize items bytes maxBytes).length ≤ others.length := by
  have hfilled : Chunks.Filled maxBytes bytes (chunkBySize items bytes maxBytes) := by
    rw [chunkBySize_eq]
    exact Chunks.filled_chunk items
  have hflatten := flatten_chunkBySize items bytes maxBytes
  refine ⟨hfilled.ne_nil, hflatten, hfilled.fits, fun others heq hothers => ?_⟩
  exact hfilled.length_le hbytes hothers ⟨[], hflatten.trans heq.symm⟩

/-- Items of three bytes and one larger than the limit, with nothing beside it. -/
theorem chunkBySize_spec_large :
    (∀ group ∈ chunkBySize [3, 3, 9, 0] (fun n : ℤ => max n 0) 7, group ≠ []) ∧
      (chunkBySize [3, 3, 9, 0] (fun n : ℤ => max n 0) 7).flatten = [3, 3, 9, 0] ∧
      (∀ group ∈ chunkBySize [3, 3, 9, 0] (fun n : ℤ => max n 0) 7,
        (group.map fun n => max n 0).sum ≤ 7 ∨ group.length = 1) ∧
      ∀ others : List (List ℤ), others.flatten = [3, 3, 9, 0] →
        (∀ group ∈ others, (group.map fun n => max n 0).sum ≤ 7 ∨ group.length = 1) →
        (chunkBySize [3, 3, 9, 0] (fun n : ℤ => max n 0) 7).length ≤ others.length :=
  chunkBySize_spec [3, 3, 9, 0] (fun n : ℤ => max n 0) 7 fun n => le_max_right n 0

end Division

/-! ## Estimates and bodies -/

def utf8 (s : Units) : ℕ := byteLength s

/-- The estimate of a pair. -/
def pairBytes (pair : Units × Units) : ℕ := utf8 pair.1 + utf8 pair.2 + 6

/-- `JSON.stringify` of a list of strings. -/
def stringList (parts : List Units) : Text := '[' :: (commas (parts.map quote) ++ [']'])

/-- The body of `exec` for an MSET of the pairs. -/
def msetBody (group : List (Units × Units)) : Text :=
  stringList (ofText "MSET".toList :: group.flatMap fun pair => [pair.1, pair.2])

def bodyBytes (body : Text) : ℕ := (Utf8.encode body).length

/-- What the estimates of an MSET leave out: its frame with the command's name, and the escapes. -/
def msetExtra (group : List (Units × Units)) : ℕ :=
  8 + (group.map fun pair => escapeBytes pair.1 + escapeBytes pair.2).sum

section Commands

-- `String` of a part of a command
variable {P : Type*} (text : P → Units)

/-- A command's size in a request body: each part as a JSON string, with its quotes and comma. -/
def commandBytes (parts : List P) : ℕ := parts.foldl (fun n p => n + utf8 (text p) + 3) 2

/-- The body of `pipeline`. -/
def pipelineBody (commands : List (List P)) : Text :=
  '[' :: (commas (commands.map fun c => stringList (c.map text)) ++ [']'])

/-- What the estimate of a command leaves out: the escapes, and a byte where it has no part. -/
def commandExtra (parts : List P) : ℕ :=
  (parts.map fun p => escapeBytes (text p)).sum + if parts = [] then 1 else 0

/-- What the estimates of a pipeline leave out. -/
def pipelineExtra (commands : List (List P)) : ℕ := 1 + (commands.map (commandExtra text)).sum

end Commands

/-- A list of whole texts is written as the JSON text of their array. -/
theorem stringify_stringList (N : JsonText.Numerals) (texts : List Text) :
    JsonText.stringify? N (.array (texts.map fun text => .string (String.ofList text))) =
      some (stringList (texts.map ofText)) := by
  have hitems : JsonText.itemTexts? N (texts.map fun text => .string (String.ofList text)) =
      some ((texts.map ofText).map quote) := by
    induction texts with
    | nil => rfl
    | cons text texts ih =>
      simp only [List.map_cons, JsonText.itemTexts?, JsonText.stringify?, ih, quote_ofText,
        Option.bind_some, Option.map_some]
  rw [JsonText.stringify?, hitems]
  rfl

lemma bodyBytes_cons {c : Char} (hc : c.toNat < 0x80) (body : Text) :
    bodyBytes (c :: body) = bodyBytes body + 1 := by
  rw [bodyBytes, length_encode_cons, length_utf8EncodeChar_of_lt hc, add_comm]
  rfl

lemma bodyBytes_append (a b : Text) : bodyBytes (a ++ b) = bodyBytes a + bodyBytes b :=
  length_encode_append a b

/-- Texts with a comma after each but the last. -/
lemma bodyBytes_commas {texts : List Text} (hne : texts ≠ []) :
    bodyBytes (commas texts) + 1 = (texts.map fun t => bodyBytes t + 1).sum := by
  induction texts with
  | nil => exact absurd rfl hne
  | cons t texts ih =>
    cases texts with
    | nil => rfl
    | cons t' texts =>
      have hrest := ih (List.cons_ne_nil t' texts)
      rw [commas, bodyBytes_append, bodyBytes_cons (by decide), List.map_cons, List.sum_cons]
      · omega
      · exact List.cons_ne_nil t' texts

/-- A list in its brackets. -/
lemma bodyBytes_brackets {texts : List Text} (hne : texts ≠ []) :
    bodyBytes ('[' :: (commas texts ++ [']'])) = 1 + (texts.map fun t => bodyBytes t + 1).sum := by
  have hcommas := bodyBytes_commas hne
  have hclose : bodyBytes [']'] = 1 := by decide
  rw [bodyBytes_cons (by decide), bodyBytes_append, hclose]
  omega

/-- A list of strings that is not empty. -/
lemma bodyBytes_stringList {parts : List Units} (hne : parts ≠ []) :
    bodyBytes (stringList parts) = 1 + (parts.map fun s => utf8 s + 3 + escapeBytes s).sum := by
  have hquote : ∀ s : Units, bodyBytes (quote s) + 1 = utf8 s + 3 + escapeBytes s := fun s => by
    rw [bodyBytes, length_encode_quote, utf8]
    omega
  rw [stringList, bodyBytes_brackets (by simpa using hne), List.map_map]
  simp only [Function.comp_def, hquote]

/-- **The body of an MSET** has its estimates and the extra bytes. -/
theorem bodyBytes_msetBody (group : List (Units × Units)) :
    bodyBytes (msetBody group) = (group.map pairBytes).sum + msetExtra group := by
  have hparts : ((group.flatMap fun pair => [pair.1, pair.2]).map
        fun s => utf8 s + 3 + escapeBytes s).sum =
      (group.map pairBytes).sum +
        (group.map fun pair => escapeBytes pair.1 + escapeBytes pair.2).sum := by
    induction group with
    | nil => rfl
    | cons pair group ih =>
      simp only [List.flatMap_cons, List.map_append, List.sum_append, List.map_cons, List.sum_cons,
        List.map_nil, List.sum_nil, ih, pairBytes]
      omega
  have hname : utf8 (ofText "MSET".toList) + 3 + escapeBytes (ofText "MSET".toList) = 7 := by decide
  rw [msetBody, bodyBytes_stringList (List.cons_ne_nil _ _), List.map_cons, List.sum_cons, hname,
    hparts, msetExtra]
  omega

section Commands

variable {P : Type*} (text : P → Units)

lemma commandBytes_eq (parts : List P) :
    commandBytes text parts = 2 + (parts.map fun p => utf8 (text p) + 3).sum := by
  have hfold : ∀ n, parts.foldl (fun n p => n + utf8 (text p) + 3) n =
      n + (parts.map fun p => utf8 (text p) + 3).sum := by
    induction parts with
    | nil => simp
    | cons p parts ih =>
      intro n
      rw [List.foldl_cons, ih, List.map_cons, List.sum_cons]
      omega
  exact hfold 2

/-- A command of a pipeline, with its comma. -/
lemma bodyBytes_command (parts : List P) :
    bodyBytes (stringList (parts.map text)) + 1 =
      commandBytes text parts + commandExtra text parts := by
  by_cases hne : parts = []
  · subst hne
    have hempty : bodyBytes (stringList []) = 2 := by decide
    rw [List.map_nil, hempty]
    rfl
  · rw [bodyBytes_stringList (by simpa using hne), commandBytes_eq, commandExtra, if_neg hne,
      List.map_map]
    simp only [Function.comp_def, List.sum_map_add]
    omega

/-- **The body of a pipeline** has its estimates and the extra bytes. -/
theorem bodyBytes_pipelineBody {commands : List (List P)} (hne : commands ≠ []) :
    bodyBytes (pipelineBody text commands) =
      (commands.map (commandBytes text)).sum + pipelineExtra text commands := by
  rw [pipelineBody, bodyBytes_brackets (by simpa using hne), List.map_map]
  simp only [Function.comp_def, bodyBytes_command, List.sum_map_add, pipelineExtra]
  omega

end Commands

/-! ## Where the bodies stay within the limit -/

section Limit

variable {K : Type*} [AddCommMonoidWithOne K] [LinearOrder K]

/-- Key-value pairs in groups that each fit one MSET request. -/
def chunkPairs (pairs : List (Units × Units)) (maxBytes : K) : List (List (Units × Units)) :=
  chunkBySize pairs (fun pair => (pairBytes pair : K)) maxBytes

variable [IsOrderedAddMonoid K] [ZeroLEOneClass K]

/-- What holds of the groups that the loop makes holds of every filled division, which is the same. -/
lemma forall_chunkBySize_iff {T : Type*} (items : List T) (bytes : T → ℕ) (maxBytes : K)
    (P : List T → Prop) :
    (∀ group ∈ chunkBySize items (fun item => (bytes item : K)) maxBytes, P group) ↔
      ∀ groups, Chunks.Filled maxBytes (fun item => (bytes item : K)) groups →
        groups.flatten = items → ∀ group ∈ groups, P group := by
  rw [chunkBySize_eq]
  set size : T → K := fun item => (bytes item : K)
  have hfilled : Chunks.Filled maxBytes size (Chunks.chunk maxBytes size items) :=
    Chunks.filled_chunk items
  have hflatten : (Chunks.chunk maxBytes size items).flatten = items := Chunks.flatten_chunk items
  constructor
  · intro h groups hgroups heq
    rw [hgroups.unique (fun item => Nat.cast_nonneg' (bytes item)) hfilled (heq.trans hflatten.symm)]
    exact h
  · intro h
    exact h _ hfilled hflatten

/-- **The bodies of several items** stay within the limit exactly where, in the division that fills
each group by the estimates, the estimates of several items leave room for the extra bytes. -/
theorem bodies_le_iff {P : Type*} (text : P → Units) (pairs : List (Units × Units))
    (commands : List (List P)) (maxBytes : K) :
    ((∀ group ∈ chunkPairs pairs maxBytes, 1 < group.length →
        (bodyBytes (msetBody group) : K) ≤ maxBytes) ↔
      ∀ groups, Chunks.Filled maxBytes (fun pair => (pairBytes pair : K)) groups →
        groups.flatten = pairs → ∀ group ∈ groups, 1 < group.length →
        (((group.map pairBytes).sum + msetExtra group : ℕ) : K) ≤ maxBytes) ∧
    ((∀ group ∈ chunkBySize commands (fun c => (commandBytes text c : K)) maxBytes,
        1 < group.length → (bodyBytes (pipelineBody text group) : K) ≤ maxBytes) ↔
      ∀ groups, Chunks.Filled maxBytes (fun c => (commandBytes text c : K)) groups →
        groups.flatten = commands → ∀ group ∈ groups, 1 < group.length →
        (((group.map (commandBytes text)).sum + pipelineExtra text group : ℕ) : K) ≤ maxBytes) := by
  constructor
  · simp only [← bodyBytes_msetBody]
    exact forall_chunkBySize_iff pairs pairBytes maxBytes _
  · have hbody : ∀ group : List (List P), 1 < group.length → bodyBytes (pipelineBody text group) =
        (group.map (commandBytes text)).sum + pipelineExtra text group := fun group hlen =>
      bodyBytes_pipelineBody text (by rintro rfl; simp at hlen)
    rw [forall_chunkBySize_iff commands (commandBytes text) maxBytes fun group =>
      1 < group.length → (bodyBytes (pipelineBody text group) : K) ≤ maxBytes]
    constructor
    · intro h groups hgroups heq group hmem hlen
      rw [← hbody group hlen]
      exact h groups hgroups heq group hmem hlen
    · intro h groups hgroups heq group hmem hlen
      rw [hbody group hlen]
      exact h groups hgroups heq group hmem hlen

end Limit

/-- A key of one letter, and a record with one number of one digit. -/
def record (key digit : Char) : Units × Units :=
  (ofText [key], ofText ['{', JsonText.QUOTE, 'v', JsonText.QUOTE, ':', digit, '}'])

/-- The push of a record to the list of its key. -/
def push (pair : Units × Units) : List Units := [ofText "LPUSH".toList, pair.1, pair.2]

/-- Two records of 14 bytes each by the estimates, and their pushes of 24. -/
theorem bodies_le_iff_records :
    ((∀ group ∈ chunkPairs [record 'a' '1', record 'b' '2'] (40 : ℤ), 1 < group.length →
        (bodyBytes (msetBody group) : ℤ) ≤ 40) ↔
      ∀ groups, Chunks.Filled (40 : ℤ) (fun pair => (pairBytes pair : ℤ)) groups →
        groups.flatten = [record 'a' '1', record 'b' '2'] → ∀ group ∈ groups, 1 < group.length →
        (((group.map pairBytes).sum + msetExtra group : ℕ) : ℤ) ≤ 40) ∧
    ((∀ group ∈ chunkBySize [push (record 'a' '1'), push (record 'b' '2')]
          (fun c => (commandBytes id c : ℤ)) 40,
        1 < group.length → (bodyBytes (pipelineBody id group) : ℤ) ≤ 40) ↔
      ∀ groups, Chunks.Filled (40 : ℤ) (fun c => (commandBytes id c : ℤ)) groups →
        groups.flatten = [push (record 'a' '1'), push (record 'b' '2')] →
        ∀ group ∈ groups, 1 < group.length →
        (((group.map (commandBytes id)).sum + pipelineExtra id group : ℕ) : ℤ) ≤ 40) :=
  bodies_le_iff id [record 'a' '1', record 'b' '2']
    [push (record 'a' '1'), push (record 'b' '2')] (40 : ℤ)

/-- Both records fit 28 bytes by the estimates, and their MSET takes 40; their pushes fit 48, and the
pipeline takes 53. -/
theorem bodies_over_limit :
    (¬ ∀ (pairs : List (Units × Units)) (maxBytes : ℤ), ∀ group ∈ chunkPairs pairs maxBytes,
      1 < group.length → (bodyBytes (msetBody group) : ℤ) ≤ maxBytes) ∧
    ¬ ∀ (commands : List (List Units)) (maxBytes : ℤ),
      ∀ group ∈ chunkBySize commands (fun c => (commandBytes id c : ℤ)) maxBytes,
        1 < group.length → (bodyBytes (pipelineBody id group) : ℤ) ≤ maxBytes := by
  constructor
  · intro h
    have hbody := h [record 'a' '1', record 'b' '2'] 28 [record 'a' '1', record 'b' '2']
    revert hbody
    decide
  · intro h
    have hbody := h [push (record 'a' '1'), push (record 'b' '2')] 48
      [push (record 'a' '1'), push (record 'b' '2')]
    revert hbody
    decide

/-! ## The requests of a run -/

namespace Indexer

variable (value : Pair → Text)

/-- A pair as it is sent: its key, and the JSON text of its value. -/
def Pair.texts (pair : Pair) : Units × Units := (ofText pair.key.toList, ofText (value pair))

/-- Where the bytes of a value are those of its text, so are the estimates. -/
lemma pairBytes_texts {setup : Setup} (h : ∀ pair, setup.valueBytes pair = bodyBytes (value pair))
    (pair : Pair) : pairBytes (pair.texts value) =
      pair.key.utf8ByteSize + setup.valueBytes pair + 6 := by
  rw [pairBytes, Pair.texts, utf8, utf8, byteLength_ofText, byteLength_ofText,
    Utf8.length_encode_toList, h]
  rfl

/-- **The groups of a run** are those of the texts it sends. -/
theorem chunkPairs_texts {setup : Setup}
    (h : ∀ pair, setup.valueBytes pair = bodyBytes (value pair)) (pairs : List Pair) :
    (chunkPairs setup pairs).map (List.map (Pair.texts value)) =
      Competition.chunkPairs (pairs.map (Pair.texts value)) REQUEST_MAX_BYTES := by
  rw [chunkPairs, Competition.chunkPairs, chunkBySize_eq, chunkBySize_eq, Chunks.chunk_map]
  simp only [Function.comp_def, pairBytes_texts value h, Nat.cast_id]

/-- **An MSET of a run** with several pairs is within the limit but for its frame and its escapes. -/
theorem bodyBytes_mset_le {setup : Setup}
    (h : ∀ pair, setup.valueBytes pair = bodyBytes (value pair)) {r : RunReads}
    {entries : List EntrantRecord} {done : List EntryRun} {m : Memory} {pairs : List Pair}
    (hmem : .mset pairs ∈ writes setup r entries done m) (hlen : 1 < pairs.length) :
    bodyBytes (msetBody (pairs.map (Pair.texts value))) ≤
      REQUEST_MAX_BYTES + msetExtra (pairs.map (Pair.texts value)) := by
  have hgroup : pairs ∈ chunkPairs setup (pairsOf r entries done (done.foldl Memory.keep m)) := by
    simpa [writes] using hmem
  have htexts := List.mem_map_of_mem (f := List.map (Pair.texts value)) hgroup
  rw [chunkPairs_texts value h] at htexts
  rw [Competition.chunkPairs, chunkBySize_eq] at htexts
  have hsum : ((pairs.map (Pair.texts value)).map pairBytes).sum ≤ REQUEST_MAX_BYTES := by
    rcases (Chunks.filled_chunk _).fits _ htexts with hle | hone
    · exact hle
    · rw [List.length_map] at hone
      omega
  rw [bodyBytes_msetBody]
  exact Nat.add_le_add_right hsum _

end Indexer

end Koul.Competition
