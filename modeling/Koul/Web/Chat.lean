import Koul.Lib.Js
import Mathlib.Data.List.Basic

set_option relaxedAutoImplicit false
set_option autoImplicit false

/-!
# The Autopilot chat

The chat as one state machine: `idle → sending → draft | clarify | unsupported | error → idle`.
Every request carries an id, and answers come back in any order, long after the request they
answer was stopped or replaced.

## Main definitions

* `Koul.Chat.chatReducer` — the state after an action.
* `Koul.Chat.Lawful` — what holds of the transcript in every state.
* `Koul.Chat.Over` — no request of this id is out, and none will be again.
* `Koul.Chat.beforeTurn` — the transcript before the user's last sentence.

## Main results

* `Koul.Chat.lawful_chatReducer` — every action keeps the transcript lawful.
* `Koul.Chat.over_chatReducer` — a request that is over stays over.
* `Koul.Chat.chat_lawful` — the laws of the chat, after every sequence of actions.
* `Koul.Chat.failed_turn_replaced_iff` — a new sentence replaces the turn that failed exactly after an
  error.

## Design

The rules of a draft are opaque to the reducer, so their type is a variable. The number of an
id and the position of a draft are integers.
-/

namespace Koul.Chat

inductive ChatPhase
  | idle | sending | clarify | draft | unsupported | error
deriving DecidableEq, Repr

inductive Role
  | user | koul
deriving DecidableEq, Repr

variable {Rule : Type}

structure ChatMessage (Rule : Type) where
  role : Role
  text : String
  /-- A draft the assistant proposed with this message. -/
  rules : Option (List Rule) := none
  position : Option ℤ := none
  /-- A rule the assistant asks one detail about. -/
  pending : Option Rule := none

structure ChatDraft (Rule : Type) where
  rules : List Rule
  position : ℤ

inductive ReplyKind
  | draft | clarify | unsupported
deriving DecidableEq, Repr

structure ChatReply (Rule : Type) where
  kind : ReplyKind
  message : String
  rules : Option (List Rule) := none
  position : Option ℤ := none
  choices : Option (List String) := none
  pending : Option Rule := none

structure ChatState (Rule : Type) where
  phase : ChatPhase
  input : String
  messages : List (ChatMessage Rule)
  choices : List String
  draft : Option (ChatDraft Rule)
  error : Option String
  /-- The text of the last request, so Retry and Stop can put it back. -/
  lastSent : Option String
  note : Option String
  /-- Increments per request; replies for older ids are dropped. -/
  requestId : ℤ

inductive ChatAction (Rule : Type)
  | input (text : String)
  | send (text : Option String)
  | reply (id : ℤ) (reply : ChatReply Rule)
  | fail (id : ℤ) (message : String)
  | timeout (id : ℤ)
  | abort
  | retry
  | discard
  | accept (note : Option String)
  | note (note : Option String)

def initialChatState : ChatState Rule where
  phase := .idle
  input := ""
  messages := []
  choices := []
  draft := none
  error := none
  lastSent := none
  note := none
  requestId := 0

/-- The text without white space at both ends. -/
def trim (text : String) : String := String.ofList (Js.trim text.toList)

/-- What the user can send right now: something typed, and no request in flight. -/
def canSend (s : ChatState Rule) (text : String) : Bool :=
  s.phase != .sending && trim text != ""

/-- The filter that drops a user's message at the end of the transcript. -/
def withoutLastUser (messages : List (ChatMessage Rule)) : List (ChatMessage Rule) :=
  (messages.zipIdx.filter fun m => !(m.2 + 1 == messages.length && m.1.role == .user)).map Prod.fst

/-- The `send` case, which `retry` runs again. -/
def send (s : ChatState Rule) (text : Option String) : ChatState Rule :=
  let text := trim (text.getD s.input)
  if !canSend s text then s
  else
    -- an unsupported or errored turn is replaced
    let base := if s.phase = .unsupported ∨ s.phase = .error then withoutLastUser s.messages
      else s.messages
    { s with
      phase := .sending
      input := ""
      messages := base ++ [{ role := .user, text := text }]
      choices := []
      error := none
      note := none
      lastSent := some text
      requestId := s.requestId + 1 }

/-- The `reply` case, for the request that is out. -/
def receive (s : ChatState Rule) (r : ChatReply Rule) : ChatState Rule :=
  match r.kind, r.rules, r.position with
  | .draft, some rules, some position =>
    { s with
      phase := .draft
      messages := s.messages ++
        [{ role := .koul, text := r.message, rules := some rules, position := some position }]
      draft := some { rules := rules, position := position }
      choices := []
      error := none }
  | .clarify, _, _ =>
    { s with
      phase := .clarify
      messages := s.messages ++ [{ role := .koul, text := r.message, pending := r.pending }]
      choices := r.choices.getD []
      draft := none
      error := none }
  | _, _, _ =>
    -- the sentence stays in the input for the user to change
    { s with
      phase := .unsupported
      messages := s.messages ++ [{ role := .koul, text := r.message }]
      choices := []
      draft := none
      error := none
      input := s.lastSent.getD "" }

/-- The `fail` and `timeout` cases, for the request that is out. -/
def failWith (s : ChatState Rule) (message : String) : ChatState Rule :=
  { s with phase := .error, error := some message, input := s.lastSent.getD "" }

/-- The phase that the last message of a transcript leaves the chat in. -/
def phaseOf (last : Option (ChatMessage Rule)) : ChatPhase :=
  if (last.bind (·.rules)).isSome then .draft
  else if (last.bind (·.pending)).isSome then .clarify
  else .idle

/-- The draft that the last message of a transcript holds. -/
def draftOf (last : Option (ChatMessage Rule)) : Option (ChatDraft Rule) := do
  let m ← last
  let rules ← m.rules
  let position ← m.position
  some { rules := rules, position := position }

def chatReducer (s : ChatState Rule) : ChatAction Rule → ChatState Rule
  | .input text => { s with input := text }
  | .send text => send s text
  | .reply id r => if id ≠ s.requestId ∨ s.phase ≠ .sending then s else receive s r
  | .fail id message => if id ≠ s.requestId ∨ s.phase ≠ .sending then s else failWith s message
  | .timeout id =>
    if id ≠ s.requestId ∨ s.phase ≠ .sending then s
    else failWith s "Koul took too long to answer"
  | .abort =>
    if s.phase ≠ .sending then s
    else
      let messages := s.messages.dropLast
      let last := messages.getLast?
      { s with
        phase := phaseOf last
        messages := messages
        input := s.lastSent.getD ""
        requestId := s.requestId + 1
        draft := if phaseOf last = .draft then draftOf last else none }
  | .retry =>
    match s.lastSent with
    | none => s
    | some text =>
      if s.phase ≠ .error ∨ text = "" then s
      else send { s with phase := .idle, error := none, messages := withoutLastUser s.messages }
        (some text)
  | .discard => { (initialChatState : ChatState Rule) with requestId := s.requestId + 1 }
  | .accept note => { (initialChatState : ChatState Rule) with
      requestId := s.requestId + 1, note := note }
  | .note note => { s with note := note }

/-- The state after a sequence of actions. -/
def run (s : ChatState Rule) (actions : List (ChatAction Rule)) : ChatState Rule :=
  actions.foldl chatReducer s

@[simp] lemma run_nil (s : ChatState Rule) : run s [] = s := rfl

@[simp] lemma run_cons (s : ChatState Rule) (a : ChatAction Rule) (as : List (ChatAction Rule)) :
    run s (a :: as) = run (chatReducer s a) as := rfl

/-! ## The transcript -/

/-- Messages alternate: the user's at even places, Koul's at odd ones. -/
def Alternate (messages : List (ChatMessage Rule)) : Prop :=
  ∀ i m, messages[i]? = some m → (m.role = .user ↔ i % 2 = 0)

/-- The last message is a user's. -/
def LastIsUser (messages : List (ChatMessage Rule)) : Prop :=
  ∃ m, messages.getLast? = some m ∧ m.role = .user

lemma alternate_nil : Alternate ([] : List (ChatMessage Rule)) := by
  intro i m h
  simp at h

section Transcript

variable {l : List (ChatMessage Rule)} {m : ChatMessage Rule}

lemma alternate_concat : Alternate (l ++ [m]) ↔
    Alternate l ∧ (m.role = .user ↔ l.length % 2 = 0) := by
  constructor
  · intro h
    refine ⟨fun i n hi => h i n ?_, h l.length m (by simp)⟩
    obtain ⟨hlt, -⟩ := List.getElem?_eq_some_iff.mp hi
    rw [List.getElem?_append_left hlt]
    exact hi
  · rintro ⟨hl, hm⟩ i n hi
    rcases lt_or_ge i l.length with hlt | hge
    · rw [List.getElem?_append_left hlt] at hi
      exact hl i n hi
    · have hlen : i < l.length + 1 := by
        have := (List.getElem?_eq_some_iff.mp hi).1
        simpa using this
      obtain rfl : i = l.length := by omega
      obtain rfl : m = n := by simpa using hi
      exact hm

@[simp] lemma lastIsUser_concat : LastIsUser (l ++ [m]) ↔ m.role = .user := by
  simp [LastIsUser]

@[simp] lemma not_lastIsUser_nil : ¬ LastIsUser ([] : List (ChatMessage Rule)) := by
  simp [LastIsUser]

/-- In an alternating transcript the user spoke last when its length is odd. -/
lemma Alternate.lastIsUser_iff (h : Alternate l) : LastIsUser l ↔ l.length % 2 = 1 := by
  rcases List.eq_nil_or_concat l with rfl | ⟨init, m, rfl⟩
  · simp
  · rw [List.concat_eq_append] at h ⊢
    rw [lastIsUser_concat, (alternate_concat.mp h).2]
    simp only [List.length_append, List.length_singleton]
    omega

lemma Alternate.dropLast (h : Alternate l) : Alternate l.dropLast := by
  rcases List.eq_nil_or_concat l with rfl | ⟨init, m, rfl⟩
  · exact h
  · rw [List.concat_eq_append] at h ⊢
    rw [List.dropLast_concat]
    exact (alternate_concat.mp h).1

/-- The filter drops the last message when it is the user's, and nothing else. -/
lemma withoutLastUser_concat :
    withoutLastUser (l ++ [m]) = if m.role = .user then l else l ++ [m] := by
  have hkeep : (l.zipIdx.filter fun n => !(n.2 + 1 == (l ++ [m]).length && n.1.role == .user)) =
      l.zipIdx := by
    rw [List.filter_eq_self]
    intro n hn
    have hlt := List.snd_lt_of_mem_zipIdx hn
    have hne : n.2 ≠ l.length := by omega
    simp [hne]
  have hfst : l.zipIdx.map Prod.fst = l := List.zipIdx_map_fst 0 l
  unfold withoutLastUser
  rw [List.zipIdx_append, List.filter_append, List.map_append, hkeep, hfst]
  by_cases hm : m.role = .user <;> simp [hm]

/-- Without a user's message at its end, an alternating transcript is Koul's turn over. -/
lemma Alternate.withoutLastUser (h : Alternate l) :
    Alternate (withoutLastUser l) ∧ ¬ LastIsUser (withoutLastUser l) := by
  rcases List.eq_nil_or_concat l with rfl | ⟨init, m, rfl⟩
  · exact ⟨alternate_nil, not_lastIsUser_nil⟩
  · rw [List.concat_eq_append] at h ⊢
    obtain ⟨hinit, hm⟩ := alternate_concat.mp h
    rw [withoutLastUser_concat]
    split_ifs with huser
    · refine ⟨hinit, ?_⟩
      rw [hinit.lastIsUser_iff]
      have := hm.mp huser
      omega
    · exact ⟨h, by rw [lastIsUser_concat]; exact huser⟩

lemma withoutLastUser_subset : ∀ n ∈ withoutLastUser l, n ∈ l := by
  rcases List.eq_nil_or_concat l with rfl | ⟨init, m, rfl⟩
  · simp [withoutLastUser]
  · rw [List.concat_eq_append, withoutLastUser_concat]
    intro n hn
    split_ifs at hn
    · exact List.mem_append_left _ hn
    · exact hn

end Transcript

/-! ## Requests and their answers -/

/-- The request of this id is out. -/
def Out (id : ℤ) (s : ChatState Rule) : Prop := s.phase = .sending ∧ s.requestId = id

/-- No request of this id is out, and none will be again. -/
def Over (id : ℤ) (s : ChatState Rule) : Prop := id ≤ s.requestId ∧ ¬ Out id s

/-- A reply, failure or timeout for the request of this id. -/
def ChatAction.Answers (id : ℤ) : ChatAction Rule → Prop
  | .reply i _ => i = id
  | .fail i _ => i = id
  | .timeout i => i = id
  | _ => False

/-- The sends, retries, aborts, discards and accepts that the reducer acts on. -/
def Accepted (s : ChatState Rule) : ChatAction Rule → Prop
  | .send text => canSend s (trim (text.getD s.input)) = true
  | .retry => s.phase = .error
  | .abort => s.phase = .sending
  | .discard => True
  | .accept _ => True
  | _ => False

/-- Whatever happens next, no answer to the request of this id changes the state. -/
def Settled (id : ℤ) (s : ChatState Rule) : Prop :=
  ∀ (later : List (ChatAction Rule)) (a : ChatAction Rule), a.Answers id →
    chatReducer (run s later) a = run s later

section Requests

variable {s : ChatState Rule} {a : ChatAction Rule} {id : ℤ}

lemma send_of_not_canSend {text : Option String}
    (h : canSend s (trim (text.getD s.input)) = false) : send s text = s := by
  simp [send, h]

/-- An accepted sentence is the next request. -/
lemma send_of_canSend {text : Option String}
    (h : canSend s (trim (text.getD s.input)) = true) :
    (send s text).requestId = s.requestId + 1 := by
  simp [send, h]

/-- An answer to a request that is not out changes nothing. -/
lemma chatReducer_of_not_out (ha : a.Answers id) (h : ¬ Out id s) : chatReducer s a = s := by
  have hguard : id ≠ s.requestId ∨ s.phase ≠ .sending := by
    by_contra hout
    push Not at hout
    exact h ⟨hout.2, hout.1.symm⟩
  cases a with
  | reply i r =>
    obtain rfl : i = id := ha
    exact if_pos hguard
  | fail i message =>
    obtain rfl : i = id := ha
    exact if_pos hguard
  | timeout i =>
    obtain rfl : i = id := ha
    exact if_pos hguard
  | _ => exact ha.elim

lemma receive_phase (s : ChatState Rule) (r : ChatReply Rule) :
    (receive s r).phase ≠ .sending ∧ (receive s r).requestId = s.requestId := by
  unfold receive
  split <;> simp

/-- **The clock of the requests**: an action either takes the next id, or keeps the id and starts
no request. -/
lemma chatReducer_clock (s : ChatState Rule) (a : ChatAction Rule) :
    (chatReducer s a).requestId = s.requestId + 1 ∨
      ((chatReducer s a).requestId = s.requestId ∧
        ((chatReducer s a).phase = .sending → s.phase = .sending)) := by
  have hsend : ∀ (t : ChatState Rule) text, t.requestId = s.requestId →
      (t.phase = .sending → s.phase = .sending) →
      (send t text).requestId = s.requestId + 1 ∨
        ((send t text).requestId = s.requestId ∧
          ((send t text).phase = .sending → s.phase = .sending)) := by
    intro t text hid hphase
    cases hcan : canSend t (trim (text.getD t.input)) with
    | true => exact .inl (by rw [send_of_canSend hcan, hid])
    | false =>
      rw [send_of_not_canSend hcan]
      exact .inr ⟨hid, hphase⟩
  cases a with
  | input text => exact .inr ⟨rfl, id⟩
  | note note => exact .inr ⟨rfl, id⟩
  | discard => exact .inl rfl
  | accept note => exact .inl rfl
  | send text => exact hsend s text rfl id
  | reply i r =>
    simp only [chatReducer]
    split_ifs
    · exact .inr ⟨rfl, id⟩
    · exact .inr ⟨(receive_phase s r).2, fun h => absurd h (receive_phase s r).1⟩
  | fail i message =>
    simp only [chatReducer]
    split_ifs
    · exact .inr ⟨rfl, id⟩
    · exact .inr ⟨rfl, fun h => by simp [failWith] at h⟩
  | timeout i =>
    simp only [chatReducer]
    split_ifs
    · exact .inr ⟨rfl, id⟩
    · exact .inr ⟨rfl, fun h => by simp [failWith] at h⟩
  | abort =>
    simp only [chatReducer]
    split
    · exact .inr ⟨rfl, id⟩
    · exact .inl rfl
  | retry =>
    simp only [chatReducer]
    split
    · exact .inr ⟨rfl, id⟩
    · split_ifs
      · exact .inr ⟨rfl, id⟩
      · exact hsend _ _ rfl fun h => by simp at h

/-- Ids never go back. -/
lemma requestId_le (s : ChatState Rule) (a : ChatAction Rule) :
    s.requestId ≤ (chatReducer s a).requestId := by
  rcases chatReducer_clock s a with h | ⟨h, -⟩ <;> omega

/-- **A request that is over stays over.** -/
lemma over_chatReducer (h : Over id s) : Over id (chatReducer s a) := by
  obtain ⟨hle, hout⟩ := h
  refine ⟨hle.trans (requestId_le s a), ?_⟩
  rintro ⟨hphase, hid⟩
  rcases chatReducer_clock s a with hnext | ⟨hsame, hkeep⟩
  · omega
  · exact hout ⟨hkeep hphase, by omega⟩

lemma over_run (h : Over id s) (later : List (ChatAction Rule)) : Over id (run s later) := by
  induction later generalizing s with
  | nil => exact h
  | cons a later ih => exact ih (over_chatReducer h)

lemma Over.settled (h : Over id s) : Settled id s := fun later _ ha =>
  chatReducer_of_not_out ha (over_run h later).2

/-- A request that was out and no longer is, is over. -/
lemma over_of_out (h : Out id s) (h' : ¬ Out id (chatReducer s a)) : Over id (chatReducer s a) :=
  ⟨h.2 ▸ requestId_le s a, h'⟩

/-- The answer to a request ends it. -/
lemma not_out_of_answers (ha : a.Answers id) : ¬ Out id (chatReducer s a) := by
  by_cases h : Out id s
  · have hguard : ¬ (id ≠ s.requestId ∨ s.phase ≠ .sending) := by
      push Not
      exact ⟨h.2.symm, h.1⟩
    rintro ⟨hphase, -⟩
    cases a with
    | reply i r =>
      obtain rfl : i = id := ha
      rw [chatReducer, if_neg hguard] at hphase
      exact (receive_phase s r).1 hphase
    | fail i message =>
      obtain rfl : i = id := ha
      rw [chatReducer, if_neg hguard] at hphase
      simp [failWith] at hphase
    | timeout i =>
      obtain rfl : i = id := ha
      rw [chatReducer, if_neg hguard] at hphase
      simp [failWith] at hphase
    | _ => exact ha
  · rw [chatReducer_of_not_out ha h]
    exact h

end Requests

/-! ## The laws of the transcript -/

/-- What holds of the transcript, the phase and the draft in every state. -/
structure Lawful (s : ChatState Rule) : Prop where
  /-- The user speaks first, then Koul, then the user. -/
  alternate : Alternate s.messages
  /-- The user is owed an answer exactly while sending or after an error. -/
  turn : LastIsUser s.messages ↔ s.phase = .sending ∨ s.phase = .error
  /-- What is owed an answer is the last sentence sent, and is not blank. -/
  sent : s.phase = .sending ∨ s.phase = .error →
    ∃ m, s.messages.getLast? = some m ∧ s.lastSent = some m.text ∧ trim m.text ≠ ""
  /-- A draft is what the last message proposed. -/
  draft : s.phase = .draft → ∃ m rules position, s.messages.getLast? = some m ∧
    m.rules = some rules ∧ m.position = some position ∧
    s.draft = some { rules := rules, position := position }
  /-- A message with rules says where the changed one sits. -/
  complete : ∀ m ∈ s.messages, m.rules.isSome → m.position.isSome

lemma lawful_initialChatState : Lawful (initialChatState : ChatState Rule) where
  alternate := alternate_nil
  turn := by simp [initialChatState]
  sent := by simp [initialChatState]
  draft := by simp [initialChatState]
  complete := by simp [initialChatState]

section Laws

variable {s : ChatState Rule} {text : Option String}

/-- Only the phase, the transcript, the draft and the last sentence matter. -/
lemma Lawful.congr {t : ChatState Rule} (h : Lawful s) (hphase : t.phase = s.phase)
    (hmessages : t.messages = s.messages) (hdraft : t.draft = s.draft)
    (hsent : t.lastSent = s.lastSent) : Lawful t where
  alternate := hmessages ▸ h.alternate
  turn := by rw [hmessages, hphase]; exact h.turn
  sent := by rw [hmessages, hphase, hsent]; exact h.sent
  draft := by rw [hmessages, hphase, hdraft]; exact h.draft
  complete := hmessages ▸ h.complete

lemma trim_trim (text : String) : trim (trim text) = trim text := by
  unfold trim
  rw [String.toList_ofList, Js.trim_trim]

/-- The transcript that a sentence is added to: alternating, and not the user's. -/
lemma lawful_send_of {s : ChatState Rule} (halt : Alternate s.messages)
    (hturn : LastIsUser s.messages → s.phase = .unsupported ∨ s.phase = .error)
    (hcomplete : ∀ m ∈ s.messages, m.rules.isSome → m.position.isSome)
    (hcan : canSend s (trim (text.getD s.input)) = true) : Lawful (send s text) := by
  set base := if s.phase = .unsupported ∨ s.phase = .error then withoutLastUser s.messages
    else s.messages with hbase
  obtain ⟨halt', hlast⟩ : Alternate base ∧ ¬ LastIsUser base := by
    rw [hbase]
    split_ifs with h
    · exact halt.withoutLastUser
    · exact ⟨halt, fun hl => h (hturn hl)⟩
  have hsub : ∀ m ∈ base, m ∈ s.messages := by
    rw [hbase]
    split_ifs
    · exact withoutLastUser_subset
    · exact fun m hm => hm
  have hblank : trim (trim (text.getD s.input)) ≠ "" := by
    simp only [canSend, Bool.and_eq_true, bne_iff_ne] at hcan
    exact hcan.2
  have hsend : send s text = { s with
      phase := .sending, input := "", choices := [], error := none, note := none
      messages := base ++ [{ role := .user, text := trim (text.getD s.input) }]
      lastSent := some (trim (text.getD s.input)), requestId := s.requestId + 1 } := by
    simp only [send, hcan, ← hbase]
    rfl
  rw [hsend]
  refine ⟨?_, by simp, ?_, by simp, ?_⟩
  · refine alternate_concat.mpr ⟨halt', ?_⟩
    rw [halt'.lastIsUser_iff] at hlast
    simp only [true_iff]
    omega
  · intro _
    exact ⟨_, List.getLast?_concat, rfl, hblank⟩
  · intro m hm
    rcases List.mem_append.mp hm with hm | hm
    · exact hcomplete m (hsub m hm)
    · obtain rfl := List.mem_singleton.mp hm
      simp

/-- Sending keeps the transcript lawful: a sentence follows Koul, or replaces one that got no
answer. -/
lemma lawful_send (h : Lawful s) : Lawful (send s text) := by
  cases hcan : canSend s (trim (text.getD s.input)) with
  | false =>
    rw [send_of_not_canSend hcan]
    exact h
  | true =>
    refine lawful_send_of h.alternate (fun hl => ?_) h.complete hcan
    have hphase : s.phase ≠ .sending := by
      simp only [canSend, Bool.and_eq_true, bne_iff_ne] at hcan
      exact hcan.1
    rcases h.turn.mp hl with hs | he
    · exact absurd hs hphase
    · exact .inr he

/-- A message of Koul's after the user's, in a phase that owes the user nothing. -/
lemma lawful_answer {m : ChatMessage Rule} {t : ChatState Rule} (h : Lawful s)
    (hout : s.phase = .sending) (hrole : m.role = .koul)
    (hmessages : t.messages = s.messages ++ [m])
    (hphase : t.phase ≠ .sending ∧ t.phase ≠ .error)
    (hdraft : t.phase = .draft → ∃ rules position, m.rules = some rules ∧
      m.position = some position ∧ t.draft = some { rules := rules, position := position })
    (hcomplete : m.rules.isSome → m.position.isSome) : Lawful t := by
  have hlast : LastIsUser s.messages := h.turn.mpr (.inl hout)
  rw [h.alternate.lastIsUser_iff] at hlast
  refine ⟨?_, ?_, ?_, ?_, ?_⟩
  · rw [hmessages, alternate_concat]
    refine ⟨h.alternate, ?_⟩
    rw [hrole]
    simp only [reduceCtorEq, false_iff]
    omega
  · rw [hmessages, lastIsUser_concat, hrole]
    simp [hphase]
  · rintro (hs | he)
    · exact absurd hs hphase.1
    · exact absurd he hphase.2
  · intro hd
    obtain ⟨rules, position, hrules, hposition, heq⟩ := hdraft hd
    exact ⟨m, rules, position, by rw [hmessages, List.getLast?_concat], hrules, hposition, heq⟩
  · intro n hn
    rw [hmessages] at hn
    rcases List.mem_append.mp hn with hn | hn
    · exact h.complete n hn
    · obtain rfl := List.mem_singleton.mp hn
      exact hcomplete

lemma lawful_receive (h : Lawful s) (hout : s.phase = .sending) (r : ChatReply Rule) :
    Lawful (receive s r) := by
  unfold receive
  split
  · exact lawful_answer h hout rfl rfl (by simp) (fun _ => ⟨_, _, rfl, rfl, rfl⟩) fun _ => rfl
  · exact lawful_answer h hout rfl rfl (by simp) (by simp) (by simp)
  · exact lawful_answer h hout rfl rfl (by simp) (by simp) (by simp)

lemma lawful_failWith (h : Lawful s) (hout : s.phase = .sending) (message : String) :
    Lawful (failWith s message) where
  alternate := h.alternate
  turn := by
    show LastIsUser s.messages ↔ _
    simp [h.turn, hout, failWith]
  sent := fun _ => h.sent (.inl hout)
  draft := by simp [failWith]
  complete := h.complete

lemma phaseOf_eq_draft {last : Option (ChatMessage Rule)} (h : phaseOf last = .draft) :
    ∃ m rules, last = some m ∧ m.rules = some rules := by
  unfold phaseOf at h
  split_ifs at h with hrules
  cases last with
  | none => simp at hrules
  | some m =>
    obtain ⟨rules, hr⟩ := Option.isSome_iff_exists.mp hrules
    exact ⟨m, rules, rfl, hr⟩

/-- Stopping a request takes the user's sentence back and shows what stood before it. -/
lemma lawful_abort (h : Lawful s) : Lawful (chatReducer s .abort) := by
  by_cases hout : s.phase = .sending
  · have hlast := h.turn.mpr (.inl hout)
    have hodd := h.alternate.lastIsUser_iff.mp hlast
    have hphase : ∀ last : Option (ChatMessage Rule),
        phaseOf last ≠ .sending ∧ phaseOf last ≠ .error := by
      intro last
      unfold phaseOf
      split_ifs <;> simp
    simp only [chatReducer, if_neg (not_not.mpr hout)]
    refine ⟨h.alternate.dropLast, ?_, ?_, ?_, ?_⟩
    · simp only [hphase, or_self, iff_false]
      rw [h.alternate.dropLast.lastIsUser_iff, List.length_dropLast]
      omega
    · rintro (hs | he)
      · exact absurd hs (hphase _).1
      · exact absurd he (hphase _).2
    · intro hd
      obtain ⟨m, rules, hm, hrules⟩ := phaseOf_eq_draft hd
      have hmem := (List.dropLast_sublist _).subset (List.mem_of_getLast? hm)
      obtain ⟨position, hposition⟩ := Option.isSome_iff_exists.mp
        (h.complete m hmem (by rw [hrules]; rfl))
      refine ⟨m, rules, position, hm, hrules, hposition, ?_⟩
      rw [if_pos hd, hm]
      simp [draftOf, hrules, hposition]
    · exact fun m hm => h.complete m ((List.dropLast_sublist _).subset hm)
  · rw [chatReducer, if_pos hout]
    exact h

/-- A retry drops the sentence that failed and sends it again. -/
lemma lawful_retry (h : Lawful s) : Lawful (chatReducer s .retry) ∧
    (s.phase = .error → (chatReducer s .retry).requestId = s.requestId + 1) := by
  by_cases herr : s.phase = .error
  · obtain ⟨m, -, hsent, hblank⟩ := h.sent (.inr herr)
    have hne : m.text ≠ "" := by
      rintro hempty
      rw [hempty] at hblank
      exact hblank (by decide)
    set t : ChatState Rule :=
      { s with phase := .idle, error := none, messages := withoutLastUser s.messages } with ht
    have hstep : chatReducer s .retry = send t (some m.text) := by
      simp only [chatReducer, hsent, herr, hne, ne_eq, not_true_eq_false, or_self, if_false, ht]
    have hcan : canSend t (trim ((some m.text).getD t.input)) = true := by
      simp only [canSend, Option.getD_some, trim_trim, Bool.and_eq_true, bne_iff_ne, ht]
      exact ⟨by simp, hblank⟩
    rw [hstep]
    refine ⟨lawful_send_of h.alternate.withoutLastUser.1 ?_ ?_ hcan, fun _ => ?_⟩
    · exact fun hl => absurd hl h.alternate.withoutLastUser.2
    · exact fun n hn => h.complete n (withoutLastUser_subset n hn)
    · exact send_of_canSend hcan
  · have hstep : chatReducer s .retry = s := by
      simp only [chatReducer]
      split
      · rfl
      · rw [if_pos (.inl herr)]
    rw [hstep]
    exact ⟨h, fun he => absurd he herr⟩

/-- **Every action keeps the transcript lawful.** -/
lemma lawful_chatReducer (h : Lawful s) (a : ChatAction Rule) : Lawful (chatReducer s a) := by
  cases a with
  | input text => exact h.congr rfl rfl rfl rfl
  | note note => exact h.congr rfl rfl rfl rfl
  | discard => exact lawful_initialChatState.congr rfl rfl rfl rfl
  | accept note => exact lawful_initialChatState.congr rfl rfl rfl rfl
  | send text => exact lawful_send h
  | abort => exact lawful_abort h
  | retry => exact (lawful_retry h).1
  | reply i r =>
    simp only [chatReducer]
    split_ifs with hguard
    · exact h
    · push Not at hguard
      exact lawful_receive h hguard.2 r
  | fail i message =>
    simp only [chatReducer]
    split_ifs with hguard
    · exact h
    · push Not at hguard
      exact lawful_failWith h hguard.2 message
  | timeout i =>
    simp only [chatReducer]
    split_ifs with hguard
    · exact h
    · push Not at hguard
      exact lawful_failWith h hguard.2 _

lemma lawful_run (h : Lawful s) (actions : List (ChatAction Rule)) : Lawful (run s actions) := by
  induction actions generalizing s with
  | nil => exact h
  | cons a actions ih => exact ih (lawful_chatReducer h a)

/-- Every accepted send, retry, abort, discard and accept takes the next id. -/
lemma requestId_lt (h : Lawful s) {a : ChatAction Rule} (ha : Accepted s a) :
    s.requestId < (chatReducer s a).requestId := by
  have hnext : (chatReducer s a).requestId = s.requestId + 1 := by
    cases a with
    | send text => exact send_of_canSend ha
    | retry => exact (lawful_retry h).2 ha
    | abort =>
      have hout : s.phase = .sending := ha
      rw [chatReducer, if_neg (not_not.mpr hout)]
    | discard => rfl
    | accept note => rfl
    | _ => exact ha.elim
  omega

end Laws

/-- **The laws of the chat**: after any sequence of actions the transcript is lawful; ids never go
back and every accepted send, retry, abort, discard and accept takes a new one; an answer changes
the state only while its request is out; and once a request is answered, or is no longer out for
any other reason, no answer to it changes anything again.

**Proof sketch.** Lawfulness is kept by every action. The clock lemma says that a request can only
start under a new id, so a request that is over stays over, and its answers meet the guard. -/
theorem chat_lawful (actions : List (ChatAction Rule)) :
    Lawful (run initialChatState actions) ∧
      ∀ a : ChatAction Rule, let s : ChatState Rule := run initialChatState actions
        s.requestId ≤ (chatReducer s a).requestId ∧
          (Accepted s a → s.requestId < (chatReducer s a).requestId) ∧
          (∀ id, a.Answers id → chatReducer s a ≠ s → Out id s ∧ Settled id (chatReducer s a)) ∧
          ∀ id, Out id s → ¬ Out id (chatReducer s a) → Settled id (chatReducer s a) := by
  have hlawful : Lawful (run initialChatState actions) :=
    lawful_run lawful_initialChatState actions
  refine ⟨hlawful, fun a => ⟨requestId_le _ a, requestId_lt hlawful, ?_, ?_⟩⟩
  · intro id ha hne
    have hout : Out id (run initialChatState actions) := by
      by_contra hnot
      exact hne (chatReducer_of_not_out ha hnot)
    exact ⟨hout, (over_of_out hout (not_out_of_answers ha)).settled⟩
  · intro id hout hend
    exact (over_of_out hout hend).settled

/-! ## A turn that failed -/

/-- The transcript before the user's last sentence: without that turn, and what Koul answered in
it. -/
def beforeTurn (messages : List (ChatMessage Rule)) : List (ChatMessage Rule) :=
  (messages.reverse.dropWhile fun m => m.role != .user).tail.reverse

section Failed

variable {s : ChatState Rule} {l : List (ChatMessage Rule)} {m : ChatMessage Rule}

lemma beforeTurn_concat (hm : m.role = .user) : beforeTurn (l ++ [m]) = l := by
  rw [beforeTurn, List.reverse_concat, List.dropWhile_cons_of_neg (by simp [hm]), List.tail_cons,
    List.reverse_reverse]

lemma beforeTurn_concat_koul (hm : m.role = .koul) : beforeTurn (l ++ [m]) = beforeTurn l := by
  rw [beforeTurn, List.reverse_concat, List.dropWhile_cons_of_pos (by simp [hm]), beforeTurn]

/-- While a sentence is unsupported, Koul spoke last. -/
def Refused (s : ChatState Rule) : Prop :=
  s.phase = .unsupported → ∃ m, s.messages.getLast? = some m ∧ m.role = .koul

lemma refused_send (h : Refused s) (text : Option String) : Refused (send s text) := by
  cases hcan : canSend s (trim (text.getD s.input)) with
  | false =>
    rw [send_of_not_canSend hcan]
    exact h
  | true =>
    intro hphase
    simp only [send, hcan] at hphase
    cases hphase

lemma refused_receive (s : ChatState Rule) (r : ChatReply Rule) : Refused (receive s r) := by
  unfold receive
  split
  · exact fun h => by cases h
  · exact fun h => by cases h
  · exact fun _ => ⟨_, List.getLast?_concat, rfl⟩

/-- Only an answer makes a sentence unsupported. -/
lemma refused_chatReducer (h : Refused s) (a : ChatAction Rule) : Refused (chatReducer s a) := by
  cases a with
  | input text => exact h
  | note note => exact h
  | discard => exact fun hphase => by cases hphase
  | accept note => exact fun hphase => by cases hphase
  | send text => exact refused_send h text
  | reply id r =>
    simp only [chatReducer]
    split_ifs
    · exact h
    · exact refused_receive s r
  | fail id message =>
    simp only [chatReducer]
    split_ifs
    · exact h
    · exact fun hphase => by cases hphase
  | timeout id =>
    simp only [chatReducer]
    split_ifs
    · exact h
    · exact fun hphase => by cases hphase
  | abort =>
    simp only [chatReducer]
    split
    · exact h
    · intro hphase
      simp only [phaseOf] at hphase
      split_ifs at hphase
  | retry =>
    simp only [chatReducer]
    split
    · exact h
    · split_ifs
      · exact h
      · exact refused_send (fun hphase => by cases hphase) _

lemma refused_run (h : Refused s) (actions : List (ChatAction Rule)) : Refused (run s actions) := by
  induction actions generalizing s with
  | nil => exact h
  | cons a actions ih => exact ih (refused_chatReducer h a)

/-- What a new sentence leaves of the transcript. -/
lemma messages_send {text : Option String} (hcan : canSend s (trim (text.getD s.input)) = true) :
    (send s text).messages =
      (if s.phase = .unsupported ∨ s.phase = .error then withoutLastUser s.messages
        else s.messages) ++ [{ role := .user, text := trim (text.getD s.input) }] := by
  simp only [send, hcan]
  rfl

/-- After an error, a new sentence follows what stood before the turn that failed. -/
lemma replaced_of_error (h : Lawful s) (hphase : s.phase = .error) :
    withoutLastUser s.messages = beforeTurn s.messages := by
  obtain ⟨m, hm, huser⟩ := h.turn.mpr (.inr hphase)
  obtain ⟨init, hinit⟩ := List.getLast?_eq_some_iff.mp hm
  rw [hinit, withoutLastUser_concat, if_pos huser, beforeTurn_concat huser]

/-- After a sentence that is unsupported, it follows that turn as well. -/
lemma kept_of_unsupported (h : Refused s) (hphase : s.phase = .unsupported) :
    withoutLastUser s.messages = s.messages ∧ (beforeTurn s.messages).length < s.messages.length := by
  obtain ⟨m, hm, hkoul⟩ := h hphase
  obtain ⟨init, hinit⟩ := List.getLast?_eq_some_iff.mp hm
  rw [hinit, withoutLastUser_concat, if_neg (by simp [hkoul]), beforeTurn_concat_koul hkoul]
  refine ⟨rfl, ?_⟩
  have hsub : (beforeTurn init).length ≤ init.length := by
    rw [beforeTurn, List.length_reverse, List.length_tail]
    have hdrop := (List.dropWhile_sublist (fun m : ChatMessage Rule => m.role != .user)
      (l := init.reverse)).length_le
    rw [List.length_reverse] at hdrop
    omega
  simp only [List.length_append, List.length_singleton]
  omega

end Failed

/-- **A failed turn is replaced** after an error, and is not after a sentence that is unsupported: in
every state that actions reach, a new sentence then leaves the transcript before the failed turn and
itself exactly when the phase is `error`.

**Proof sketch.** The filter drops the user's message at the end of the transcript. After an error
that is the failed turn; after an unsupported sentence Koul's answer stands there, so the filter keeps
everything. -/
theorem failed_turn_replaced_iff (actions : List (ChatAction Rule)) (text : Option String) :
    let s : ChatState Rule := run initialChatState actions
    s.phase = .unsupported ∨ s.phase = .error → trim (text.getD s.input) ≠ "" →
      ((chatReducer s (.send text)).messages =
          beforeTurn s.messages ++ [{ role := .user, text := trim (text.getD s.input) }] ↔
        s.phase = .error) := by
  intro s hphase hblank
  have hlawful : Lawful s := lawful_run lawful_initialChatState actions
  have hrefused : Refused s := refused_run (fun h => by cases h) actions
  have hcan : canSend s (trim (text.getD s.input)) = true := by
    simp only [canSend, trim_trim, Bool.and_eq_true, bne_iff_ne]
    refine ⟨?_, hblank⟩
    rcases hphase with h | h <;> rw [h] <;> simp
  have hmessages := messages_send hcan
  rw [if_pos hphase] at hmessages
  show (send s text).messages = _ ↔ _
  rw [hmessages, List.append_left_inj]
  constructor
  · intro heq
    rcases hphase with h | h
    · obtain ⟨hkept, hlt⟩ := kept_of_unsupported hrefused h
      rw [hkept] at heq
      rw [← heq] at hlt
      exact absurd hlt (lt_irrefl _)
    · exact h
  · exact fun h => replaced_of_error hlawful h

/-- After an error, for one. -/
theorem failed_turn_replaced_iff_error :
    (chatReducer (run (initialChatState : ChatState Unit) [.send (some "a"), .fail 1 "no answer"])
      (.send (some "b"))).messages = [{ role := .user, text := trim "b" }] :=
  (failed_turn_replaced_iff [.send (some "a"), .fail 1 "no answer"] (some "b")
    (.inr (by decide +kernel)) (by decide +kernel)).mpr (by decide +kernel)

/-- After an unsupported sentence its turn stays, and three messages go to the model. -/
theorem unsupported_turn_kept :
    let s : ChatState Unit := run initialChatState
      [.send (some "a"), .reply 1 { kind := .unsupported, message := "Koul cannot do that" }]
    s.phase = .unsupported ∧ trim "b" ≠ "" ∧
      (chatReducer s (.send (some "b"))).messages.length = 3 ∧
      (chatReducer s (.send (some "b"))).messages ≠
        beforeTurn s.messages ++ [{ role := .user, text := trim "b" }] := by
  refine ⟨by decide +kernel, by decide +kernel, by decide +kernel, ?_⟩
  intro h
  have hlength := congrArg List.length h
  revert hlength
  decide +kernel

end Koul.Chat
