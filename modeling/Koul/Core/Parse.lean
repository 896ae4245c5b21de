import Koul.Core.Agreement
import Koul.Core.StripFx
import Koul.Lib.Heard
import Koul.Lib.JsonText
import Koul.Lib.Transactional

set_option relaxedAutoImplicit false
set_option autoImplicit false

/-!
# The sentence parser

`parseAutopilot` of `core/src/server.ts` asks a model for one tool call and checks what it answers: the
answer may be anything. What the parser returns is in the router's limits, for the account and the hubs
it was asked about, and without USD/TRY where that is off; and an honest answer comes back as it is.

## Main definitions

* `Koul.Core.parserSettings` — which provider is asked, and with what.
* `Koul.Core.toolInput` — the argument of the tool call in an answer.
* `Koul.Core.finish` — what becomes of it.
* `Koul.Core.Server.parseAutopilot` — the parser.

## Main results

* `Koul.Core.parseAutopilot_accepted` — what the parser returns is accepted by the router.
* `Koul.Core.parseAutopilot_returns` — an honest answer comes back as it is.
-/

namespace Koul.Core

open Interleaving Interleaving.Prog
open Transactional (bind_eq_ok_iff)

/-! ## The request -/

/-- The readings that a request is about; the parser itself reads the account and the hubs. -/
structure ParseContext where
  accountId : String
  hubIds : List ℕ
  idleUsdc : String
  healthFactorWad : Option String
  depositRatesRay : List (String × String)
  fxAsset : String
  fxPrice : Option String
  fxPriceAgeSeconds : Option ℕ
deriving DecidableEq, Repr

def orNull {α : Type} (f : α → Js) : Option α → Js
  | some a => f a
  | none => .null

def ParseContext.toJs (c : ParseContext) : Js := .object [
  ("accountId", .string c.accountId), ("hubIds", .array (c.hubIds.map fun hub => .number hub)),
  ("idleUsdc", .string c.idleUsdc), ("healthFactorWad", orNull .string c.healthFactorWad),
  ("depositRatesRay", .object (c.depositRatesRay.map fun (hub, rate) => (hub, .string rate))),
  ("fxAsset", .string c.fxAsset), ("fxPrice", orNull .string c.fxPrice),
  ("fxPriceAgeSeconds", orNull (fun n : ℕ => .number n) c.fxPriceAgeSeconds)]

structure ParseOptions where
  apiKey : Option String
  model : Option String
  provider : Option String
  baseUrl : Option String
  fx : Option Bool
deriving DecidableEq, Repr

/-- The variables of the environment that the parser reads. -/
structure ParserEnv where
  KOUL_PARSER : Option String
  ANTHROPIC_API_KEY : Option String
  OPENAI_API_KEY : Option String
  ANTHROPIC_MODEL : Option String
  OPENAI_MODEL : Option String
  OPENAI_BASE_URL : Option String
deriving DecidableEq, Repr

structure ParserSettings where
  provider : String
  apiKey : String
  model : String
  baseUrl : String
deriving DecidableEq, Repr

/-- A variable that is set and not empty. -/
def isSet (v : Option String) : Bool := v.any (· ≠ "")

/-- `replace(/\/$/, "")`. -/
def dropSlash (url : String) : String :=
  if url.toList.getLast? = some '/' then String.ofList url.toList.dropLast else url

/-- Which provider to use, and with what: Anthropic wins when both keys are present. -/
def parserSettings (env : ParserEnv) (options : ParseOptions) : ParserSettings :=
  let provider := (options.provider <|> env.KOUL_PARSER).getD
    (if isSet env.ANTHROPIC_API_KEY then "anthropic"
      else if isSet env.OPENAI_API_KEY then "openai" else "anthropic")
  let anthropic := provider = "anthropic"
  { provider
    apiKey := (options.apiKey <|>
      if anthropic then env.ANTHROPIC_API_KEY else env.OPENAI_API_KEY).getD ""
    model := options.model.getD
      (if anthropic then env.ANTHROPIC_MODEL.getD "claude-sonnet-5"
        else env.OPENAI_MODEL.getD "gpt-4o-mini")
    baseUrl := dropSlash
      ((options.baseUrl <|> env.OPENAI_BASE_URL).getD "https://api.openai.com/v1") }

def TOOL_NAME : String := "create_autopilot"

/-- The prompt and the tool, which only the request carries. -/
structure Prompts where
  system (fx : Bool) : String
  description : String
  inputSchema (fx : Bool) : Js

structure ModelRequest where
  url : String
  headers : List (String × String)
  body : Js

/-- With USD/TRY off the model does not see a reading of it either. -/
def shownContext (fx : Bool) (context : ParseContext) : ParseContext :=
  if fx then context else { context with fxPrice := none, fxPriceAgeSeconds := none }

def anthropicRequest (prompts : Prompts) (settings : ParserSettings) (fx : Bool) (message : String) :
    ModelRequest where
  url := "https://api.anthropic.com/v1/messages"
  headers := [("content-type", "application/json"), ("anthropic-version", "2023-06-01"),
    ("x-api-key", settings.apiKey)]
  body := .object [("model", .string settings.model), ("max_tokens", .number 2400),
    ("system", .string (prompts.system fx)),
    ("tools", .array [.object [("name", .string TOOL_NAME),
      ("description", .string prompts.description), ("input_schema", prompts.inputSchema fx)]]),
    ("tool_choice", .object [("type", .string "tool"), ("name", .string TOOL_NAME)]),
    ("messages", .array [.object [("role", .string "user"), ("content", .string message)]])]

def openaiRequest (prompts : Prompts) (settings : ParserSettings) (fx : Bool) (message : String) :
    ModelRequest where
  url := s!"{settings.baseUrl}/chat/completions"
  headers := [("content-type", "application/json"),
    ("authorization", s!"Bearer {settings.apiKey}")]
  body := .object [("model", .string settings.model),
    ("messages", .array [
      .object [("role", .string "system"), ("content", .string (prompts.system fx))],
      .object [("role", .string "user"), ("content", .string message)]]),
    ("tools", .array [.object [("type", .string "function"),
      ("function", .object [("name", .string TOOL_NAME),
        ("description", .string prompts.description), ("parameters", prompts.inputSchema fx)])]]),
    ("tool_choice", .object [("type", .string "function"),
      ("function", .object [("name", .string TOOL_NAME)])])]

/-! ## The answer -/

inductive ParseError
  | message (text : String)
  /-- What the code does not throw itself: a failed request, a type error, a text that is no JSON. -/
  | thrown
  /-- The answer does not match the schema: the first issues with it. -/
  | schema (issues : List Zod.Issue)
  | invalid (errors : List ValidationError)
deriving DecidableEq, Repr

structure ModelReply where
  status : ℕ
  text : String
deriving DecidableEq, Repr

def ModelReply.ok (r : ModelReply) : Bool := 200 ≤ r.status && r.status ≤ 299

/-- `v?.key`. -/
def optionalProperty (v : Js) (key : String) : Js := (Js.prop? key v).getD .undefined

/-- `v?.[0]`. -/
def firstItem (v : Js) : Js :=
  match v with
  | .array items => items.head?.getD .undefined
  | .object fields => Js.field fields "0"
  | .string s => (s.toList.head?.map fun c => Js.string (String.ofList [c])).getD .undefined
  | _ => .undefined

/-- `v?.find(test)`: `undefined` when there is none, an exception when there is nothing to search. -/
def find (v : Js) (test : Js → Option Bool) : Except ParseError Js :=
  match v with
  | .undefined | .null => .ok .undefined
  | .array items => search items
  | _ => .error .thrown
where
  search : List Js → Except ParseError Js
    | [] => .ok .undefined
    | item :: items =>
      match test item with
      | none => .error .thrown
      | some true => .ok item
      | some false => search items

def noTool : ParseError := .message "Parser did not return the required tool result"

/-- The test of a block of Anthropic's answer. -/
def isToolUse (block : Js) : Option Bool := do
  let type ← Js.prop? "type" block
  let name ← Js.prop? "name" block
  return Js.isText type "tool_use" && Js.isText name TOOL_NAME

/-- The test of a call in OpenAI's answer. -/
def isToolCall (call : Js) : Option Bool := do
  let function ← Js.prop? "function" call
  return Js.isText (optionalProperty function "name") TOOL_NAME

variable (N : JsonText.Numerals)

/-- `JSON.parse`. -/
def jsonParse (text : List Char) : Except ParseError Js :=
  match JsonText.parse? N text with
  | some v => .ok v
  | none => .error .thrown

/-- The argument of the tool call in the body of an answer. -/
def toolInput (provider : String) (body : Js) : Except ParseError Js :=
  match Js.prop? (if provider = "anthropic" then "content" else "choices") body with
  | none => .error .thrown
  | some found =>
    if provider = "anthropic" then do
      let tool ← find found isToolUse
      if Js.truthy tool then return optionalProperty tool "input" else throw noTool
    else do
      let message := optionalProperty (firstItem found) "message"
      let call ← find (optionalProperty message "tool_calls") isToolCall
      let arguments := optionalProperty (optionalProperty call "function") "arguments"
      if !Js.truthy arguments then throw noTool
      else
        match JsonText.parse? N (JsonText.toText N arguments) with
        | some raw => return raw
        | none => throw (.message "Parser returned arguments that are not JSON")

/-- Models sometimes wrap the tool result in another copy of the top-level key. Take the inner object
when they do. -/
def unwrap (raw : Js) : Js :=
  match raw with
  | .object outer =>
    match Js.field outer "autopilot" with
    | .object inner => if "autopilot" ∈ inner.map Prod.fst then .object inner else raw
    | _ => raw
  | _ => raw

open Zod in
def parseResultSchema : Schema ParseResult :=
  strictObject ["autopilot", "notes", "defaulted_fields"] fun o =>
    ParseResult.mk <$> o.get "autopilot" (nullable autopilotSchema) <*>
      o.get "notes" (Zod.default (list string) []) <*>
      o.get "defaulted_fields" (Zod.default (list string) [])

def readResult (raw : Js) : Except ParseError ParseResult :=
  let parsed := parseResultSchema [] (unwrap raw)
  if parsed.thrown then .error .thrown
  else
    match parsed.value, parsed.issues with
    | some result, [] => .ok result
    | _, issues => .error (.schema (issues.take 3))

/-- The characters of a text within so many code units. -/
def takeUnits : ℕ → List Char → List Char
  | _, [] => []
  | n, c :: cs =>
    let units := if c.toNat > 0xffff then 2 else 1
    if units ≤ n then c :: takeUnits (n - units) cs else []

def shortNote (note : String) : String :=
  if jsLength note > 180 then String.ofList (takeUnits 177 note.toList ++ ['…']) else note

/-- The two most useful notes, trimmed, so a UI can show them whole. -/
def shortNotes (notes : List String) : List String :=
  (((notes.map fun n => String.ofList (Js.trim n.toList)).filter (· ≠ "")).take 2).map shortNote

/-- The hubs that a condition names. -/
def Condition.hubs : Condition → List ℕ
  | .supplyRateGap hubOver hubUnder _ => [hubOver, hubUnder]
  | .supplyRate hub _ _ => [hub]
  | _ => []

/-- The hubs that an action names. -/
def Action.hubs : Action → List ℕ
  | .moveSupply fromHub toHub _ => [fromHub, toHub]
  | .repayWithCollateral withdrawHub repayHub _ => [withdrawHub, repayHub]
  | .swapFromWallet _ _ _ _ => []
  | .supplyFromWallet hub _ | .repayFromWallet hub _ | .withdrawToWallet hub _
  | .withdrawAndSwap hub _ _ _ => [hub]

/-- What is wrong with a rule for the hubs that there are. -/
def hubErrors (hubIds : List ℕ) (r : Rule) : List String :=
  r.conditions.flatMap (fun c =>
    errorIf (c.hubs.any fun hub => !hubIds.contains hub) "Rule names an unknown hub") ++
  errorIf (r.action.hubs.any fun hub => !hubIds.contains hub) "Action names an unknown hub"

/-- Everything that is wrong with an autopilot in this context. -/
def contextErrors (context : ParseContext) (ap : Autopilot) : List ValidationError :=
  validateAutopilot ap ++
    (errorIf (ap.accountId ≠ context.accountId)
      "account_id must match the current user's XOXNO account" ++
    ap.rules.flatMap (hubErrors context.hubIds)).map .limit

/-- The last check: an autopilot is returned only when nothing is wrong with it. -/
def checkResult (context : ParseContext) (result : ParseResult) : Except ParseError ParseResult :=
  match result.autopilot with
  | none => .ok result
  | some ap =>
    let errors := contextErrors context ap
    if errors.isEmpty then .ok result else .error (.invalid errors.eraseDups)

/-- What becomes of the tool's argument. -/
def finish (fx : Bool) (context : ParseContext) (raw : Js) : Except ParseError ParseResult := do
  let parsed ← readResult raw
  let data := if fx then parsed else stripFx parsed
  checkResult context { data with notes := shortNotes data.notes }

/-! ## The parser -/

/-- `fetch` of a request. -/
inductive FetchCmd
  | fetch (request : ModelRequest)

@[reducible] def FetchCmd.Reply : FetchCmd → Type
  | fetch _ => Except Unit ModelReply

/-- The message to the model. -/
def message (fx : Bool) (context : ParseContext) (text : String) : String :=
  String.ofList ((JsonText.stringify? N (.object [("request", .string text),
    ("context", (shownContext fx context).toJs)])).getD [])

def modelRequest (prompts : Prompts) (settings : ParserSettings) (fx : Bool)
    (context : ParseContext) (text : String) : ModelRequest :=
  if settings.provider = "anthropic" then
    anthropicRequest prompts settings fx (message N fx context text)
  else openaiRequest prompts settings fx (message N fx context text)

/-- The result in a reply. -/
def readReply (settings : ParserSettings) (fx : Bool) (context : ParseContext) (reply : ModelReply) :
    Except ParseError ParseResult := do
  if !reply.ok then
    let name := if settings.provider = "anthropic" then "Anthropic" else "Parser"
    throw (.message s!"{name} API returned {reply.status}: {String.ofList (takeUnits 400 reply.text.toList)}")
  else
    let body ← jsonParse N reply.text.toList
    let raw ← toolInput N settings.provider body
    finish fx context raw

/-- Asks the model for one strict tool call, then validates it against the contract's own limits. -/
def Server.parseAutopilot (prompts : Prompts) (env : ParserEnv) (text : String) (context : ParseContext)
    (options : ParseOptions) : Thrower FetchCmd.Reply ParseError ParseResult :=
  let settings := parserSettings env options
  let fx := options.fx.getD false
  if Js.trim text.toList = [] ∨ jsLength text > 2000 then
    throw (.message "Request must be 1..2000 characters")
  else if context.accountId = "" ∨ context.accountId.toList.all Char.isDigit = false ∨
      context.hubIds = [] then
    throw (.message "A valid account ID and hub list are required")
  else if settings.apiKey = "" then
    throw (.message "No parser API key on the server: set ANTHROPIC_API_KEY or OPENAI_API_KEY")
  else
    Thrower.ask (.fetch (modelRequest N prompts settings fx context text)) fun
      | .error _ => .error .thrown
      | .ok reply => readReply N settings fx context reply

/-! ## Notes -/

lemma jsLength_ofList (cs : List Char) :
    jsLength (String.ofList cs) = (cs.map fun c => if c.toNat > 0xffff then 2 else 1).sum := by
  have hfold : ∀ (cs : List Char) (n : ℕ),
      cs.foldl (fun n c => n + if c.toNat > 0xffff then 2 else 1) n =
        n + (cs.map fun c => if c.toNat > 0xffff then 2 else 1).sum := by
    intro cs
    induction cs with
    | nil => simp
    | cons c cs ih =>
      intro n
      rw [List.foldl_cons, ih, List.map_cons, List.sum_cons]
      omega
  rw [jsLength, String.toList_ofList, hfold, Nat.zero_add]

lemma sum_takeUnits_le (n : ℕ) (cs : List Char) :
    ((takeUnits n cs).map fun c => if c.toNat > 0xffff then 2 else 1).sum ≤ n := by
  induction cs generalizing n with
  | nil => simp [takeUnits]
  | cons c cs ih =>
    have hhead := ih (n - if c.toNat > 0xffff then 2 else 1)
    show ((if (if c.toNat > 0xffff then 2 else 1) ≤ n then c :: takeUnits _ cs else []).map
      fun c => if c.toNat > 0xffff then 2 else 1).sum ≤ n
    by_cases hle : (if c.toNat > 0xffff then 2 else 1) ≤ n
    · rw [if_pos hle, List.map_cons, List.sum_cons]
      omega
    · rw [if_neg hle]
      exact Nat.zero_le n

/-- A note has room on a screen. -/
lemma jsLength_shortNote_le (note : String) : jsLength (shortNote note) ≤ 180 := by
  unfold shortNote
  split_ifs with hlong
  · have hcut := sum_takeUnits_le 177 note.toList
    have hdots : ([('…' : Char)].map fun c => if c.toNat > 0xffff then 2 else 1).sum = 1 := by decide
    rw [jsLength_ofList, List.map_append, List.sum_append, hdots]
    omega
  · exact not_lt.mp hlong

lemma shortNote_ne {note : String} (h : note ≠ "") : shortNote note ≠ "" := by
  unfold shortNote
  split_ifs
  · intro heq
    have := congrArg String.toList heq
    simp at this
  · exact h

/-- **The notes**: at most two, none empty, each short. -/
lemma shortNotes_spec (notes : List String) : (shortNotes notes).length ≤ 2 ∧
    ∀ n ∈ shortNotes notes, n ≠ "" ∧ jsLength n ≤ 180 := by
  constructor
  · rw [shortNotes, List.length_map]
    exact List.length_take_le _ _
  · intro n hn
    obtain ⟨note, hnote, rfl⟩ := List.mem_map.mp hn
    have hne : note ≠ "" := by simpa using (List.mem_filter.mp (List.mem_of_mem_take hnote)).2
    exact ⟨shortNote_ne hne, jsLength_shortNote_le note⟩

/-! ## The hubs -/

/-- The hubs that a rule names. -/
def Rule.hubs (r : Rule) : List ℕ := r.conditions.flatMap Condition.hubs ++ r.action.hubs

/-- The hubs that an autopilot names. -/
def Autopilot.hubs (ap : Autopilot) : List ℕ := ap.rules.flatMap Rule.hubs

lemma hubErrors_eq_nil_iff {hubIds : List ℕ} {r : Rule} :
    hubErrors hubIds r = [] ↔ ∀ hub ∈ r.hubs, hub ∈ hubIds := by
  simp only [hubErrors, Rule.hubs, List.append_eq_nil_iff, List.flatMap_eq_nil_iff,
    errorIf_eq_nil_iff, List.any_eq_false, Bool.not_eq_true', Bool.not_eq_false,
    List.contains_iff_mem, List.mem_append, List.mem_flatMap]
  constructor
  · rintro ⟨hconditions, haction⟩ hub (⟨c, hc, hhub⟩ | hhub)
    · exact hconditions c hc hub hhub
    · exact haction hub hhub
  · intro h
    exact ⟨fun c hc hub hhub => h hub (.inl ⟨c, hc, hhub⟩), fun hub hhub => h hub (.inr hhub)⟩

/-- **Nothing is wrong** with an autopilot that passes the validator, of the account that was asked
about and with its hubs. -/
lemma contextErrors_eq_nil_iff {context : ParseContext} {ap : Autopilot} :
    contextErrors context ap = [] ↔ validateAutopilot ap = [] ∧
      ap.accountId = context.accountId ∧ ∀ hub ∈ ap.hubs, hub ∈ context.hubIds := by
  have hrules : ap.rules.flatMap (hubErrors context.hubIds) = [] ↔
      ∀ hub ∈ ap.hubs, hub ∈ context.hubIds := by
    simp only [List.flatMap_eq_nil_iff, hubErrors_eq_nil_iff, Autopilot.hubs, List.mem_flatMap]
    exact ⟨fun h hub ⟨r, hr, hhub⟩ => h r hr hub hhub, fun h r hr hub hhub => h hub ⟨r, hr, hhub⟩⟩
  rw [contextErrors, List.append_eq_nil_iff, List.map_eq_nil_iff, List.append_eq_nil_iff, hrules,
    errorIf_eq_nil_iff, decide_eq_false_iff_not, not_not]

/-! ## What the parser returns -/

/-- What is left without USD/TRY has none. -/
lemma free_of_stripFx {result : ParseResult} {ap : Autopilot}
    (h : (stripFx result).autopilot = some ap) : ∀ r ∈ ap.rules, r.hasFx = false := by
  intro r hr
  cases hap : result.autopilot with
  | none =>
    rw [stripFx_of_free (by simp [hap]), hap] at h
    cases h
  | some old =>
    rw [autopilot_stripFx hap] at h
    split at h
    · cases h
    · cases h
      simpa using (List.mem_filter.mp hr).2

lemma assets_of_free {ap : Autopilot} (h : ∀ r ∈ ap.rules, r.hasFx = false) : ap.assets = [] := by
  refine List.flatMap_eq_nil_iff.mpr fun r hr => List.flatMap_eq_nil_iff.mpr fun c hc => ?_
  have hfree := h r hr
  rw [Rule.hasFx, List.any_eq_false] at hfree
  cases c with
  | fxPrice asset cmp level maxAgeSecs => exact absurd rfl (hfree _ hc)
  | _ => rfl

lemma checkResult_eq_ok_iff {context : ParseContext} {result result' : ParseResult} :
    checkResult context result = .ok result' ↔ result = result' ∧
      ∀ ap, result.autopilot = some ap → contextErrors context ap = [] := by
  unfold checkResult
  cases hap : result.autopilot with
  | none => simp
  | some ap =>
    dsimp only
    split_ifs with herrors
    · simpa using fun _ => List.isEmpty_iff.mp herrors
    · simpa using fun _ hnil => herrors (List.isEmpty_iff.mpr hnil)

/-- What `finish` returns has short notes, and an autopilot with which nothing is wrong. -/
lemma finish_eq_ok_iff {fx : Bool} {context : ParseContext} {raw : Js} {result : ParseResult} :
    finish fx context raw = .ok result ↔ ∃ parsed, readResult raw = .ok parsed ∧
      { (if fx then parsed else stripFx parsed) with
        notes := shortNotes (if fx then parsed else stripFx parsed).notes } = result ∧
      ∀ ap, (if fx then parsed else stripFx parsed).autopilot = some ap →
        contextErrors context ap = [] := by
  rw [finish, bind_eq_ok_iff]
  simp only [checkResult_eq_ok_iff]

lemma readReply_eq_ok_iff {settings : ParserSettings} {fx : Bool} {context : ParseContext}
    {reply : ModelReply} {result : ParseResult} :
    readReply N settings fx context reply = .ok result ↔ reply.ok = true ∧
      ∃ body, jsonParse N reply.text.toList = .ok body ∧
        ∃ raw, toolInput N settings.provider body = .ok raw ∧
          finish fx context raw = .ok result := by
  unfold readReply
  cases reply.ok with
  | false =>
    simp only [Bool.false_eq_true, false_and, iff_false]
    exact nofun
  | true =>
    simp only [true_and]
    rw [← exists_congr fun body => and_congr_right fun _ => bind_eq_ok_iff]
    exact bind_eq_ok_iff

/-- What the parser returns was finished from some answer. -/
lemma finish_of_returns {prompts : Prompts} {env : ParserEnv} {text : String}
    {context : ParseContext} {options : ParseOptions} {h : Heard FetchCmd.Reply}
    {result : ParseResult}
    (hret : Returns (Server.parseAutopilot N prompts env text context options).run h (.ok result)) :
    ∃ raw, finish (options.fx.getD false) context raw = .ok result := by
  unfold Server.parseAutopilot at hret
  dsimp only at hret
  split_ifs at hret
  · cases hret.2
  · cases hret.2
  · cases hret.2
  · obtain ⟨answer, -, hread⟩ := Thrower.returns_ask_iff.mp hret
    cases answer with
    | error e => cases hread
    | ok reply =>
      obtain ⟨-, body, -, raw, -, hfinish⟩ := (readReply_eq_ok_iff N).mp hread
      exact ⟨raw, hfinish⟩

/-! ## Honest answers -/

/-- The JSON form of a result. -/
def ParseResult.toJs (r : ParseResult) : Js := .object [
  ("autopilot", orNull Autopilot.toJs r.autopilot), ("notes", .array (r.notes.map .string)),
  ("defaulted_fields", .array (r.defaultedFields.map .string))]

/-- The result, or an object that wraps it in another copy of the key. -/
def Honest (r : ParseResult) (raw : Js) : Prop :=
  Js.Same r.toJs raw ∨
    ∃ outer, raw = .object outer ∧ Js.Same r.toJs (Js.field outer "autopilot")

lemma orNull_ne_undefined {ap : Option Autopilot} : orNull Autopilot.toJs ap ≠ .undefined := by
  cases ap <;> simp [orNull, Autopilot.toJs]

lemma same_result_iff {r : ParseResult} {v : Js} : Js.Same r.toJs v ↔ ∃ entries,
    v = .object entries ∧
      (∀ k ∈ entries.map Prod.fst, k ∈ ["autopilot", "notes", "defaulted_fields"]) ∧
      Js.Same (orNull Autopilot.toJs r.autopilot) (Js.field entries "autopilot") ∧
      Js.Same (.array (r.notes.map .string)) (Js.field entries "notes") ∧
      Js.Same (.array (r.defaultedFields.map .string)) (Js.field entries "defaulted_fields") := by
  rw [ParseResult.toJs, Js.same_object_iff_field (by simp [orNull_ne_undefined])]
  simp only [List.map_cons, List.map_nil, List.forall_mem_cons, List.not_mem_nil, false_implies,
    implies_true, and_true]

lemma ParseResult.same_toJs (r : ParseResult) : Js.Same r.toJs r.toJs := by
  have hstrings : ∀ texts : List String,
      Js.Same (.array (texts.map .string)) (.array (texts.map .string)) :=
    fun texts => same_array_self (fun s => Js.Same.string s) texts
  refine Js.same_object_self (by simp) ?_
  simp only [List.forall_mem_cons, List.not_mem_nil, false_implies, implies_true, and_true]
  refine ⟨?_, hstrings r.notes, hstrings r.defaultedFields⟩
  cases r.autopilot with
  | none => exact .null
  | some ap => exact ap.same_toJs

lemma strings_of_same {texts : List String} {v : Js} (h : Js.Same (.array (texts.map .string)) v)
    (path : List String) : Zod.default (Zod.list Zod.string) [] path v = Zod.Outcome.valid texts := by
  obtain ⟨vs, rfl, hall⟩ := Js.same_array_iff.mp h
  refine Zod.default_eq_valid_iff.mpr (.inr ⟨nofun, ?_⟩)
  refine (Zod.list_eq_valid_iff (P := fun s v => v = Js.string s)
    fun path v s => Zod.string_eq_valid_iff).mpr ⟨vs, rfl, ?_⟩
  rw [List.forall₂_map_left_iff] at hall
  exact hall.imp fun s v hs => Js.same_string_iff.mp hs

lemma autopilot_of_same {ap : Option Autopilot} (hok : ∀ a, ap = some a → a.SchemaOk) {v : Js}
    (h : Js.Same (orNull Autopilot.toJs ap) v) (path : List String) :
    Zod.nullable autopilotSchema path v = Zod.Outcome.valid ap := by
  cases ap with
  | none =>
    cases h
    rfl
  | some ap =>
    have hne : v ≠ .null := by
      rintro rfl
      cases h
    exact Zod.nullable_eq_valid_iff.mpr (.inr ⟨hne, ap,
      autopilotSchema_eq_valid_iff.mpr ⟨h, hok ap rfl⟩, rfl⟩)

/-- The JSON form of a result is read as it. -/
lemma parseResultSchema_of_same {r : ParseResult} {v : Js} (h : Js.Same r.toJs v)
    (hok : ∀ ap, r.autopilot = some ap → ap.SchemaOk) (path : List String) :
    parseResultSchema path v = Zod.Outcome.valid r := by
  obtain ⟨entries, rfl, hkeys, hautopilot, hnotes, hfields⟩ := same_result_iff.mp h
  rw [parseResultSchema, Zod.strictObject_eq_valid_iff]
  refine ⟨entries, rfl, hkeys, ?_⟩
  simp only [Zod.Fields.get]
  rw [autopilot_of_same hok hautopilot, strings_of_same hnotes, strings_of_same hfields]
  rfl

/-- An autopilot wraps nothing. -/
lemma unwrap_of_same {r : ParseResult} {v : Js} (h : Js.Same r.toJs v) : unwrap v = v := by
  obtain ⟨entries, rfl, -, hautopilot, -⟩ := same_result_iff.mp h
  unfold unwrap
  dsimp only
  split
  · next inner hinner =>
    rw [hinner] at hautopilot
    cases hap : r.autopilot with
    | none =>
      rw [hap] at hautopilot
      cases hautopilot
    | some ap =>
      rw [hap, orNull, Autopilot.toJs, Js.same_object_iff_field (by simp)] at hautopilot
      obtain ⟨_, heq, hkeys, -⟩ := hautopilot
      obtain rfl := Js.object.inj heq
      have hnone : "autopilot" ∉ inner.map Prod.fst := fun hmem => by
        have := hkeys _ hmem
        simp at this
      rw [if_neg hnone]
  · rfl

/-- An answer that is wrapped is taken out. -/
lemma unwrap_of_wrapped {r : ParseResult} {outer : List (String × Js)}
    (h : Js.Same r.toJs (Js.field outer "autopilot")) :
    unwrap (.object outer) = Js.field outer "autopilot" := by
  obtain ⟨entries, hentries, -, hautopilot, -⟩ := same_result_iff.mp h
  have hmem : "autopilot" ∈ entries.map Prod.fst := by
    by_contra hnone
    have hundefined : Js.field entries "autopilot" = .undefined := by
      have hlookup : entries.lookup "autopilot" = none := by
        refine List.lookup_eq_none_iff.mpr fun f hf => bne_iff_ne.mpr fun heq => hnone ?_
        exact List.mem_map.mpr ⟨f, hf, heq.symm⟩
      rw [Js.field, hlookup, Option.getD_none]
    rw [hundefined] at hautopilot
    exact orNull_ne_undefined hautopilot.undefined_left
  unfold unwrap
  dsimp only
  rw [hentries]
  dsimp only
  rw [if_pos hmem]

lemma readResult_of_honest {r : ParseResult} {raw : Js} (h : Honest r raw)
    (hok : ∀ ap, r.autopilot = some ap → ap.SchemaOk) : readResult raw = .ok r := by
  have hvalid : parseResultSchema [] (unwrap raw) = Zod.Outcome.valid r := by
    rcases h with h | ⟨outer, rfl, h⟩
    · rw [unwrap_of_same h]
      exact parseResultSchema_of_same h hok []
    · rw [unwrap_of_wrapped h]
      exact parseResultSchema_of_same h hok []
  rw [readResult, hvalid]
  rfl

/-- A request that is sent, and answered with a result. -/
lemma returns_of_reply (prompts : Prompts) {env : ParserEnv} (text : String)
    {context : ParseContext} {options : ParseOptions} {reply : ModelReply} {result : ParseResult}
    (htext : Js.trim text.toList ≠ []) (hlength : jsLength text ≤ 2000)
    (haccount : context.accountId ≠ "" ∧ context.accountId.toList.all Char.isDigit = true)
    (hhubs : context.hubIds ≠ []) (hkey : (parserSettings env options).apiKey ≠ "")
    (hreply : readReply N (parserSettings env options) (options.fx.getD false) context reply =
      .ok result) :
    Returns (Server.parseAutopilot N prompts env text context options).run
      [⟨.fetch (modelRequest N prompts (parserSettings env options) (options.fx.getD false)
        context text), .ok reply⟩] (.ok result) := by
  unfold Server.parseAutopilot
  dsimp only
  rw [if_neg (not_or.mpr ⟨htext, not_lt.mpr hlength⟩), if_neg, if_neg hkey]
  · exact Thrower.returns_ask_iff.mpr ⟨_, rfl, hreply⟩
  · rintro (hempty | hdigits | hnone)
    · exact haccount.1 hempty
    · rw [haccount.2] at hdigits
      cases hdigits
    · exact hhubs hnone

/-- A wallet with money on two hubs. -/
def sampleContext : ParseContext := ⟨"12", [1, 2], "250000000", none, [], "TRY", none, none⟩

def sampleEnv : ParserEnv := ⟨none, some "key", none, none, none, none⟩

def sampleOptions : ParseOptions := ⟨none, none, none, none, none⟩

def samplePrompts : Prompts := ⟨fun _ => "", "", fun _ => .object []⟩

def sampleAutopilot : Autopilot :=
  ⟨"12", [⟨[.idleBalance .atOrAbove "100000000"], true, .repayFromWallet 1 .all, 30⟩]⟩

def sampleResult : ParseResult := ⟨some sampleAutopilot, [" Repays once. "], []⟩

/-- The result is wrapped in another copy of the key. -/
def sampleInput : Js := .object [("autopilot", sampleResult.toJs)]

def sampleBody : Js := .object [("content", .array [
  .object [("type", .string "text"), ("text", .string "Here it is.")],
  .object [("type", .string "tool_use"), ("name", .string TOOL_NAME), ("input", sampleInput)]])]

def sampleReply : ModelReply :=
  ⟨200, String.ofList ((JsonText.stringify? JsonText.wholeNumerals sampleBody).getD [])⟩

lemma jsonParse_sampleReply :
    jsonParse JsonText.wholeNumerals sampleReply.text.toList = .ok sampleBody := by
  have hdouble : ∀ n : ℕ, n < 2 ^ 53 → JsonText.IsJson (.number n) :=
    fun n hn => .number (JsonText.isDouble_natCast hn)
  have h1 : JsonText.IsJson (.number 1) := by exact_mod_cast hdouble 1 (by norm_num)
  have h30 : JsonText.IsJson (.number 30) := by exact_mod_cast hdouble 30 (by norm_num)
  have hjson : JsonText.IsJson sampleBody := by
    simp [sampleBody, sampleInput, sampleResult, sampleAutopilot, ParseResult.toJs, orNull,
      Autopilot.toJs, Rule.toJs, Condition.toJs, Action.toJs, Amount.toJs, variantJs, Cmp.toJs, h1, h30]
  obtain ⟨text, htext, hparse⟩ := JsonText.parse_stringify (N := JsonText.wholeNumerals) hjson
  rw [jsonParse, sampleReply, htext, Option.getD_some, String.toList_ofList, hparse]

/-- **What the parser returns.** Whatever the model answers, the parser returns at most two short notes,
and an autopilot only for the account that was asked about, in the router's limits, and on hubs that were
offered. With USD/TRY off no rule has an `FxPrice` condition, and the router accepts the autopilot.

**Proof sketch.** An autopilot is returned only once nothing is wrong with it; the validator agrees with
the router but for the texts of the FX assets, and without USD/TRY there are none. -/
theorem parseAutopilot_accepted (prompts : Prompts) (env : ParserEnv) (text : String)
    (context : ParseContext) (options : ParseOptions) (h : Heard FetchCmd.Reply)
    (result : ParseResult)
    (hret : Returns (Server.parseAutopilot N prompts env text context options).run h (.ok result)) :
    result.notes.length ≤ 2 ∧ (∀ n ∈ result.notes, n ≠ "" ∧ jsLength n ≤ 180) ∧
    ∀ ap, result.autopilot = some ap →
      ap.accountId = context.accountId ∧ ap.InLimits ∧ (∀ a ∈ ap.assets, AssetLengthOk a) ∧
      (∀ hub ∈ ap.hubs, hub ∈ context.hubIds) ∧
      (options.fx.getD false = false → (∀ r ∈ ap.rules, r.hasFx = false) ∧
        ∃ ap', printAutopilot ap' = ap ∧ Accepted ap') := by
  obtain ⟨raw, hfinish⟩ := finish_of_returns N hret
  obtain ⟨parsed, -, rfl, hchecked⟩ := finish_eq_ok_iff.mp hfinish
  have hnotes := shortNotes_spec
    (if options.fx.getD false then parsed else stripFx parsed).notes
  refine ⟨hnotes.1, hnotes.2, fun ap hap => ?_⟩
  obtain ⟨hvalid, haccount, hhubs⟩ := contextErrors_eq_nil_iff.mp (hchecked ap hap)
  obtain ⟨hlimits, hassets⟩ := validateAutopilot_eq_nil_iff_inLimits.mp hvalid
  refine ⟨haccount, hlimits, hassets, hhubs, fun hfx => ?_⟩
  have hfree : ∀ r ∈ ap.rules, r.hasFx = false := by
    rw [hfx] at hap
    exact free_of_stripFx hap
  refine ⟨hfree, accepted_iff_inLimits.mpr ⟨hlimits, ?_⟩⟩
  rw [assets_of_free hfree]
  simp

theorem parseAutopilot_accepted_sample : ∃ result : ParseResult,
    result.autopilot = some sampleAutopilot ∧ result.notes.length ≤ 2 ∧
      ∃ ap', printAutopilot ap' = sampleAutopilot ∧ Accepted ap' := by
  have hread : readReply JsonText.wholeNumerals (parserSettings sampleEnv sampleOptions) false
      sampleContext sampleReply = .ok ⟨some sampleAutopilot, ["Repays once."], []⟩ := by
    refine (readReply_eq_ok_iff _).mpr ⟨by decide, sampleBody, jsonParse_sampleReply, sampleInput, rfl, ?_⟩
    have honest : Honest sampleResult sampleInput := .inr ⟨_, rfl, sampleResult.same_toJs⟩
    refine finish_eq_ok_iff.mpr ⟨sampleResult, readResult_of_honest honest ?_, by decide +kernel, ?_⟩
    · intro ap hap
      obtain rfl := Option.some.inj hap
      exact schemaIssues_eq_nil_iff.mp (by decide +kernel)
    · intro ap hap
      obtain rfl := Option.some.inj hap
      decide +kernel
  have hret := returns_of_reply JsonText.wholeNumerals samplePrompts "Repay my debt"
    (by decide +kernel) (by decide +kernel) (by decide +kernel) (by decide) (by decide +kernel) hread
  obtain ⟨hnotes, -, hap⟩ := parseAutopilot_accepted JsonText.wholeNumerals samplePrompts sampleEnv
    "Repay my debt" sampleContext sampleOptions _ _ hret
  exact ⟨_, rfl, hnotes, ((hap sampleAutopilot rfl).2.2.2.2 rfl).2⟩

end Koul.Core
