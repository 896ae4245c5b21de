import Mathlib.Data.List.DropRight
import Mathlib.Data.List.Induction
import Mathlib.Data.List.Infix
import Mathlib.Tactic.Common

set_option relaxedAutoImplicit false
set_option autoImplicit false

/-!
# URLs of the web

The basic URL parser, for URLs of `http` and `https`. A text is read against a base: a leading slash
keeps the host of the base, and two leading slashes, of either kind, name another. Tabs and line breaks
are taken out first. The parser of hosts is a parameter.

## Main definitions

* `Url`, `Url.parse` — a URL, and the URL of a text against a base.
* `Url.authority?` — the authority that a text with a leading slash names.
* `Url.Normal` — what the parser leaves in a path and in a query.

## Main results

* `Url.parse_slash` — what a text with a leading slash keeps of the base.
* `Url.normal_read` — a path and a query that were read are normal.
* `Url.pathState_segments` — a normal path, written out and read again.
* `Url.count_parse_slash_le` — no segment is read that the text does not have.
-/

namespace Url

/-- A text is the list of its characters. -/
abbrev Text := List Char

inductive Scheme
  | http
  | https
deriving DecidableEq, Repr

def Scheme.name : Scheme → Text
  | .http => "http".toList
  | .https => "https".toList

def Scheme.defaultPort : Scheme → ℕ
  | .http => 80
  | .https => 443

end Url

/-- A URL of the web, without its fragment. -/
structure Url where
  scheme : Url.Scheme
  host : Url.Text
  port : Option ℕ
  path : List Url.Text
  query : Option Url.Text
deriving DecidableEq, Repr

namespace Url

/-! ## Characters -/

def isC0OrSpace (c : Char) : Bool := c.toNat ≤ 0x20

def isTabOrNewline (c : Char) : Bool := c == '\t' || c == '\n' || c == '\r'

/-- In a URL of the web either slash ends a segment. -/
def isSlash (c : Char) : Bool := c == '/' || c == '\\'

def endsPath (c : Char) : Bool := c == '?' || c == '#'

def endsAuthority (c : Char) : Bool := isSlash c || endsPath c

/-- A text with its end trimmed, and without tabs and line breaks. -/
def cleanEnd (text : Text) : Text :=
  (text.rdropWhile isC0OrSpace).filter (!isTabOrNewline ·)

/-- The text that the parser reads. -/
def clean (text : Text) : Text := cleanEnd (text.dropWhile isC0OrSpace)

/-- The characters that are escaped in a query. -/
def querySet (c : Char) : Bool :=
  c.toNat ≤ 0x1f || 0x7e < c.toNat || [0x20, 0x22, 0x23, 0x27, 0x3c, 0x3e].contains c.toNat

/-- The characters that are escaped in a path. -/
def pathSet (c : Char) : Bool :=
  c.toNat ≤ 0x1f || 0x7e < c.toNat ||
    [0x20, 0x22, 0x23, 0x3c, 0x3e, 0x3f, 0x5e, 0x60, 0x7b, 0x7d].contains c.toNat

/-- A half of a byte, as an upper case digit. -/
def hexDigit (n : ℕ) : Char := Char.ofNat (if n < 10 then 0x30 + n else 0x37 + n)

def escapeByte (b : UInt8) : Text := ['%', hexDigit (b.toNat / 16), hexDigit (b.toNat % 16)]

/-- The bytes of a character of the set, escaped. -/
def escapeChar (set : Char → Bool) (c : Char) : Text :=
  if set c then (String.utf8EncodeChar c).flatMap escapeByte else [c]

def escape (set : Char → Bool) (text : Text) : Text := text.flatMap (escapeChar set)

/-! ## Paths -/

def lower (text : Text) : Text := text.map Char.toLower

def isSingleDot (segment : Text) : Bool :=
  ["." , "%2e"].map String.toList |>.contains (lower segment)

def isDoubleDot (segment : Text) : Bool :=
  ["..", ".%2e", "%2e.", "%2e%2e"].map String.toList |>.contains (lower segment)

/-- The path state, a segment at a time: a dot stays where it is and two dots take the last segment
off, and as the last segment either leaves an empty one. -/
def pathState (path : List Text) : List Text → List Text
  | [] => path
  | [segment] =>
    if isDoubleDot segment then path.dropLast ++ [[]]
    else if isSingleDot segment then path ++ [[]]
    else path ++ [segment]
  | segment :: rest =>
    if isDoubleDot segment then pathState path.dropLast rest
    else if isSingleDot segment then pathState path rest
    else pathState (path ++ [segment]) rest

/-- The segments of a text up to its query, as they are written. -/
def pieces (text : Text) : List Text := (text.takeWhile (!endsPath ·)).splitOnP isSlash

/-- The segments of a text, escaped. -/
def segments (text : Text) : List Text := (pieces text).map (escape pathSet)

/-- The query of a text. -/
def query? (text : Text) : Option Text :=
  match text.dropWhile (!endsPath ·) with
  | '?' :: rest => some (escape querySet (rest.takeWhile (· ≠ '#')))
  | _ => none

/-- The path start state takes one slash. -/
def dropSlash (text : Text) : Text :=
  match text with
  | c :: rest => if isSlash c then rest else text
  | [] => []

/-! ## Hosts -/

/-- A host and what follows the colon after it; inside brackets a colon is the host's. -/
def splitPort (inside : Bool) : Text → Text × Option Text
  | [] => ([], none)
  | c :: cs =>
    if c = ':' ∧ inside = false then ([], some cs)
    else
      let (name, port) := splitPort (if c = '[' then true else if c = ']' then false else inside) cs
      (c :: name, port)

/-- The port state: `none` for what is no port, and no port where it is the scheme's own. -/
def parsePort (scheme : Scheme) (digits : Text) : Option (Option ℕ) :=
  let value := Nat.ofDigitChars 10 digits 0
  if !digits.all Char.isDigit then none
  else if digits = [] then some none
  else if 65535 < value then none
  else some (if value = scheme.defaultPort then none else some value)

variable (parseHost : Text → Option Text)

/-- The host and the port of an authority, after the credentials. -/
def parseAuthority (scheme : Scheme) (authority : Text) : Option (Text × Option ℕ) :=
  let (name, port) := splitPort false (authority.rtakeWhile (· ≠ '@'))
  if name = [] then none
  else do
    let host ← parseHost name
    let port ← match port with
      | none => some none
      | some digits => parsePort scheme digits
    return (host, port)

/-- A host with its port, as `host` of a URL shows it. -/
def showHost (host : Text) : Option ℕ → Text
  | none => host
  | some port => host ++ ':' :: (toString port).toList

/-! ## The parser -/

/-- The authority and the rest of a text, after its slashes. -/
def parseHierarchy (scheme : Scheme) (text : Text) : Option Url := do
  let rest := text.dropWhile isSlash
  let (host, port) ← parseAuthority parseHost scheme (rest.takeWhile (!endsAuthority ·))
  let rest := rest.dropWhile (!endsAuthority ·)
  return ⟨scheme, host, port, pathState [] (segments (dropSlash rest)), query? rest⟩

/-- The relative state. -/
def parseRelative (base : Url) (text : Text) : Option Url :=
  match text with
  | [] => some base
  | c :: rest =>
    if isSlash c then
      match rest with
      | c' :: _ =>
        if isSlash c' then parseHierarchy parseHost base.scheme text
        else some { base with path := pathState [] (segments rest), query := query? rest }
      | [] => some { base with path := pathState [] (segments rest), query := query? rest }
    else if c = '?' then some { base with query := query? text }
    else if c = '#' then some base
    else some { base with path := pathState base.path.dropLast (segments text), query := query? text }

/-- A scheme and the text after its colon. -/
def splitScheme (text : Text) : Option (Text × Text) :=
  let isSchemeChar (c : Char) : Bool := c.isAlphanum || c == '+' || c == '-' || c == '.'
  match text with
  | c :: _ =>
    if c.isAlpha then
      match text.dropWhile isSchemeChar with
      | ':' :: rest => some (lower (text.takeWhile isSchemeChar), rest)
      | _ => none
    else none
  | [] => none

/-- The URL of a text against a base, when it is one of the web. -/
def parse (base : Url) (text : Text) : Option Url :=
  let text := clean text
  match splitScheme text with
  | none => parseRelative parseHost base text
  | some (scheme, rest) =>
    let hierarchy (scheme : Scheme) : Option Url :=
      if scheme = base.scheme ∧ rest.take 2 ≠ ['/', '/'] then parseRelative parseHost base rest
      else parseHierarchy parseHost scheme rest
    if scheme = Scheme.http.name then hierarchy .http
    else if scheme = Scheme.https.name then hierarchy .https
    else none

/-- `host`. -/
def hostText (u : Url) : Text := showHost u.host u.port

/-- `pathname`. -/
def pathname (u : Url) : Text := u.path.flatMap ('/' :: ·)

/-- `search`: an empty query shows no question mark. -/
def search (u : Url) : Text :=
  match u.query with
  | none | some [] => []
  | some query => '?' :: query

/-! ## Cleaning -/

lemma cleanEnd_cons {c : Char} (hc : isC0OrSpace c = false) (text : Text) :
    cleanEnd (c :: text) = c :: cleanEnd text := by
  have htab : isTabOrNewline c = false := by
    simp only [isC0OrSpace, decide_eq_false_iff_not, not_le] at hc
    simp only [isTabOrNewline, Bool.or_eq_false_iff, beq_eq_false_iff_ne]
    refine ⟨⟨?_, ?_⟩, ?_⟩ <;> rintro rfl <;> exact absurd hc (by decide)
  have htrim : (c :: text).rdropWhile isC0OrSpace = c :: text.rdropWhile isC0OrSpace := by
    induction text using List.reverseRecOn with
    | nil =>
      rw [List.rdropWhile_nil]
      exact List.rdropWhile_concat_neg _ [] c (by simp [hc])
    | append_singleton text c' ih =>
      rw [← List.cons_append, List.rdropWhile_concat, List.rdropWhile_concat, ih]
      split_ifs <;> rfl
  rw [cleanEnd, htrim, List.filter_cons_of_pos (by simp [htab])]
  rfl

lemma cleanEnd_append {front : Text} (hfront : ∀ c ∈ front, isC0OrSpace c = false) (text : Text) :
    cleanEnd (front ++ text) = front ++ cleanEnd text := by
  induction front with
  | nil => rfl
  | cons c front ih =>
    obtain ⟨hc, hfront⟩ := List.forall_mem_cons.mp hfront
    rw [List.cons_append, cleanEnd_cons hc, ih hfront, List.cons_append]

/-- A text without spaces and controls is read as it is. -/
lemma cleanEnd_eq_self {text : Text} (h : ∀ c ∈ text, isC0OrSpace c = false) :
    cleanEnd text = text := by
  have hnil : cleanEnd [] = [] := rfl
  rw [← List.append_nil text, cleanEnd_append h, hnil]

lemma clean_append {c : Char} {front : Text} (hfront : ∀ c' ∈ c :: front, isC0OrSpace c' = false)
    (text : Text) : clean (c :: front ++ text) = c :: front ++ cleanEnd text := by
  have hc : ¬ isC0OrSpace c = true := by simp [hfront c List.mem_cons_self]
  rw [clean, List.cons_append, List.dropWhile_cons_of_neg hc, ← List.cons_append,
    cleanEnd_append hfront]

lemma clean_slash (text : Text) : clean ('/' :: text) = '/' :: cleanEnd text := by
  refine @clean_append '/' [] ?_ text
  intro c hc
  obtain rfl := List.mem_singleton.mp hc
  rfl

/-! ## Texts with a leading slash -/

/-- The authority that a text with a leading slash names, when it has two. -/
def authority? (text : Text) : Option Text :=
  match clean text with
  | c :: c' :: rest =>
    if isSlash c && isSlash c' then
      some ((rest.dropWhile isSlash).takeWhile (!endsAuthority ·))
    else none
  | _ => none

/-- **A text with a leading slash** names the host of the base, or the authority after its slashes. -/
theorem parse_slash (base : Url) (text : Text) :
    parse parseHost base ('/' :: text) =
      match authority? ('/' :: text) with
      | none =>
        some { base with
          path := pathState [] (segments (cleanEnd text))
          query := query? (cleanEnd text) }
      | some authority =>
        let rest := ((cleanEnd text).dropWhile isSlash).dropWhile (!endsAuthority ·)
        (parseAuthority parseHost base.scheme authority).map fun h =>
          ⟨base.scheme, h.1, h.2, pathState [] (segments (dropSlash rest)), query? rest⟩ := by
  have hslash : isSlash '/' = true := rfl
  have hscheme : splitScheme ('/' :: cleanEnd text) = none := rfl
  rw [parse, clean_slash, hscheme, authority?, clean_slash]
  simp only [parseRelative, hslash, if_true]
  cases hclean : cleanEnd text with
  | nil => rfl
  | cons c rest =>
    cases hc : isSlash c with
    | false => simp [hc]
    | true =>
      simp only [hc, hslash, Bool.and_true, if_true, parseHierarchy,
        List.dropWhile_cons_of_pos hslash, List.dropWhile_cons_of_pos hc]
      cases parseAuthority parseHost base.scheme
        (List.takeWhile (fun x => !endsAuthority x) (List.dropWhile isSlash rest)) <;> rfl

/-- **A text with a scheme and a host** names that host. -/
theorem parse_https (base : Url) {c : Char} {name : Text}
    (hname : ∀ c' ∈ c :: name, isC0OrSpace c' = false ∧ endsAuthority c' = false) (text : Text) :
    parse parseHost base ("https://".toList ++ (c :: name) ++ '/' :: text) =
      (parseAuthority parseHost .https (c :: name)).map fun h =>
        ⟨.https, h.1, h.2, pathState [] (segments (cleanEnd text)), query? (cleanEnd text)⟩ := by
  have hclean : clean ("https://".toList ++ (c :: name) ++ '/' :: text) =
      "https://".toList ++ (c :: name) ++ '/' :: cleanEnd text := by
    rw [← cleanEnd_cons (c := '/') rfl]
    refine @clean_append 'h' ("ttps://".toList ++ (c :: name)) ?_ ('/' :: text)
    intro c' hc'
    rcases List.mem_cons.mp hc' with rfl | hc'
    · rfl
    rcases List.mem_append.mp hc' with hc' | hc'
    · simp only [String.reduceToList, List.mem_cons, List.not_mem_nil, or_false] at hc'
      rcases hc' with rfl | rfl | rfl | rfl | rfl | rfl | rfl <;> rfl
    · exact (hname c' hc').1
  have hscheme : splitScheme ("https://".toList ++ (c :: name) ++ '/' :: cleanEnd text) =
      some (Scheme.https.name, "//".toList ++ (c :: name) ++ '/' :: cleanEnd text) := rfl
  have hhost : isSlash c = false := by
    have hc := (hname c List.mem_cons_self).2
    rw [endsAuthority, Bool.or_eq_false_iff] at hc
    exact hc.1
  have hslashes : ("//".toList ++ (c :: name) ++ '/' :: cleanEnd text).dropWhile isSlash =
      (c :: name) ++ '/' :: cleanEnd text := by
    show ('/' :: '/' :: c :: (name ++ '/' :: cleanEnd text)).dropWhile isSlash = _
    rw [List.dropWhile_cons_of_pos rfl, List.dropWhile_cons_of_pos rfl,
      List.dropWhile_cons_of_neg (by simp [hhost])]
    rfl
  have hname' : ∀ c' ∈ c :: name, (!endsAuthority c') = true := by
    intro c' hc'
    rw [(hname c' hc').2]
    rfl
  have htake : ((c :: name) ++ '/' :: cleanEnd text).takeWhile (!endsAuthority ·) = c :: name := by
    rw [List.takeWhile_append_of_pos hname']
    exact List.append_nil _
  have hdrop : ((c :: name) ++ '/' :: cleanEnd text).dropWhile (!endsAuthority ·) =
      '/' :: cleanEnd text := List.dropWhile_append_of_pos hname'
  have hhttp : ¬ Scheme.https.name = Scheme.http.name := by decide
  have htwo : ¬ (Scheme.https = base.scheme ∧
      ("//".toList ++ (c :: name) ++ '/' :: cleanEnd text).take 2 ≠ ['/', '/']) :=
    fun h => h.2 rfl
  have hquery : query? ('/' :: cleanEnd text) = query? (cleanEnd text) := rfl
  simp only [parse, hclean, hscheme, if_neg hhttp, if_neg htwo, if_true, parseHierarchy, hslashes,
    htake, hdrop, hquery]
  cases parseAuthority parseHost .https (c :: name) <;> rfl

/-! ## Normal paths and queries -/

/-- A segment that the parser leaves as it is. -/
structure NormalSegment (segment : Text) : Prop where
  singleDot : isSingleDot segment = false
  doubleDot : isDoubleDot segment = false
  chars : ∀ c ∈ segment, pathSet c = false ∧ isSlash c = false

/-- What the parser leaves in a URL. -/
structure Normal (u : Url) : Prop where
  path : ∀ segment ∈ u.path, NormalSegment segment
  query : ∀ query, u.query = some query → ∀ c ∈ query, querySet c = false

lemma normalSegment_nil : NormalSegment [] :=
  ⟨by decide, by decide, fun _ hc => absurd hc List.not_mem_nil⟩

/-- The characters of an escaped text: its own outside the set, and those of escapes. -/
lemma mem_escape {set : Char → Bool} {text : Text} {c : Char} (hc : c ∈ escape set text) :
    (c ∈ text ∧ set c = false) ∨ c = '%' ∨ ∃ n < 16, c = hexDigit n := by
  obtain ⟨c', hc', hc⟩ := List.mem_flatMap.mp hc
  rw [escapeChar] at hc
  split_ifs at hc with hset
  · obtain ⟨b, -, hb⟩ := List.mem_flatMap.mp hc
    have hlt := b.toNat_lt
    right
    simp only [escapeByte, List.mem_cons, List.not_mem_nil, or_false] at hb
    rcases hb with rfl | rfl | rfl
    · exact .inl rfl
    · exact .inr ⟨b.toNat / 16, by omega, rfl⟩
    · exact .inr ⟨b.toNat % 16, by omega, rfl⟩
  · obtain rfl := List.mem_singleton.mp hc
    exact .inl ⟨hc', by simpa using hset⟩

lemma querySet_escape {text : Text} : ∀ c ∈ escape querySet text, querySet c = false := by
  have hhex : ∀ n < 16, querySet (hexDigit n) = false := by decide
  intro c hc
  rcases mem_escape hc with ⟨-, hset⟩ | rfl | ⟨n, hn, rfl⟩
  · exact hset
  · decide
  · exact hhex n hn

lemma pathSet_escape {text : Text} (h : ∀ c ∈ text, isSlash c = false) :
    ∀ c ∈ escape pathSet text, pathSet c = false ∧ isSlash c = false := by
  have hhex : ∀ n < 16, pathSet (hexDigit n) = false ∧ isSlash (hexDigit n) = false := by decide
  intro c hc
  rcases mem_escape hc with ⟨hmem, hset⟩ | rfl | ⟨n, hn, rfl⟩
  · exact ⟨hset, h c hmem⟩
  · decide
  · exact hhex n hn

lemma escape_eq_self {set : Char → Bool} {text : Text} (h : ∀ c ∈ text, set c = false) :
    escape set text = text := by
  rw [escape]
  conv_rhs => rw [← List.flatMap_singleton' text]
  rw [List.flatMap_def, List.flatMap_def]
  congr 1
  exact List.map_congr_left fun c hc => if_neg (by simp [h c hc])

/-- No segment has a separator. -/
lemma not_sep_of_mem_splitOnP {α : Type} {sep : α → Bool} {l segment : List α}
    (h : segment ∈ l.splitOnP sep) : ∀ a ∈ segment, sep a = false := by
  induction l generalizing segment with
  | nil =>
    obtain rfl := List.mem_singleton.mp h
    exact fun a ha => absurd ha List.not_mem_nil
  | cons a l ih =>
    rw [List.splitOnP_cons_eq_if_modifyHead] at h
    obtain ⟨first, rest, hl⟩ := List.exists_cons_of_ne_nil (List.splitOnP_ne_nil sep l)
    split_ifs at h with ha
    · rcases List.mem_cons.mp h with rfl | h
      · exact fun a ha => absurd ha List.not_mem_nil
      · exact ih h
    · rw [hl, List.modifyHead_cons] at h
      rcases List.mem_cons.mp h with rfl | h
      · refine List.forall_mem_cons.mpr ⟨by simpa using ha, ih ?_⟩
        rw [hl]
        exact List.mem_cons_self
      · refine ih ?_
        rw [hl]
        exact List.mem_cons_of_mem _ h

/-- The path state keeps a path normal. -/
lemma normal_pathState {path segs : List Text} (hpath : ∀ s ∈ path, NormalSegment s)
    (hsegs : ∀ s ∈ segs, ∀ c ∈ s, pathSet c = false ∧ isSlash c = false) :
    ∀ s ∈ pathState path segs, NormalSegment s := by
  have hsnoc : ∀ {p : List Text} {s : Text}, (∀ s ∈ p, NormalSegment s) → NormalSegment s →
      ∀ s' ∈ p ++ [s], NormalSegment s' := by
    intro p s hp hs s' hs'
    rcases List.mem_append.mp hs' with hs' | hs'
    · exact hp s' hs'
    · obtain rfl := List.mem_singleton.mp hs'
      exact hs
  have hlast : ∀ {p : List Text}, (∀ s ∈ p, NormalSegment s) → ∀ s ∈ p.dropLast, NormalSegment s :=
    fun hp s hs => hp s (List.mem_of_mem_dropLast hs)
  fun_induction pathState path segs with
  | case1 path => exact hpath
  | case2 path segment hdouble => exact hsnoc (hlast hpath) normalSegment_nil
  | case3 path segment hdouble hsingle => exact hsnoc hpath normalSegment_nil
  | case4 path segment hdouble hsingle =>
    exact hsnoc hpath ⟨by simpa using hsingle, by simpa using hdouble,
      hsegs segment List.mem_cons_self⟩
  | case5 path segment rest hne hdouble ih =>
    exact ih (hlast hpath) fun s hs => hsegs s (List.mem_cons_of_mem _ hs)
  | case6 path segment rest hne hdouble hsingle ih =>
    exact ih hpath fun s hs => hsegs s (List.mem_cons_of_mem _ hs)
  | case7 path segment rest hne hdouble hsingle ih =>
    exact ih (hsnoc hpath ⟨by simpa using hsingle, by simpa using hdouble,
      hsegs segment List.mem_cons_self⟩) fun s hs => hsegs s (List.mem_cons_of_mem _ hs)

/-- **What the parser reads** as a path and a query is normal. -/
theorem normal_read (scheme : Scheme) (host : Text) (port : Option ℕ) (text text' : Text) :
    Normal ⟨scheme, host, port, pathState [] (segments text), query? text'⟩ := by
  constructor
  · refine normal_pathState (fun _ hs => absurd hs List.not_mem_nil) fun s hs => ?_
    obtain ⟨s', hs', rfl⟩ := List.mem_map.mp hs
    exact pathSet_escape (not_sep_of_mem_splitOnP hs')
  · intro query hquery
    simp only [query?] at hquery
    split at hquery
    · obtain rfl := Option.some.inj hquery
      exact querySet_escape
    · cases hquery

/-- What a text with a leading slash is read as is normal. -/
lemma normal_parse_slash {base u : Url} {text : Text}
    (h : parse parseHost base ('/' :: text) = some u) : u.Normal := by
  rw [parse_slash] at h
  split at h
  · obtain rfl := Option.some.inj h
    exact normal_read _ _ _ _ _
  · obtain ⟨host, -, rfl⟩ := Option.map_eq_some_iff.mp h
    exact normal_read _ _ _ _ _

/-- A normal path is read as it is. -/
lemma pathState_eq_append (path : List Text) {segs : List Text}
    (h : ∀ s ∈ segs, NormalSegment s) : pathState path segs = path ++ segs := by
  fun_induction pathState path segs with
  | case1 path => rw [List.append_nil]
  | case2 path segment hdouble =>
    rw [(h segment List.mem_cons_self).doubleDot] at hdouble
    cases hdouble
  | case3 path segment hdouble hsingle =>
    rw [(h segment List.mem_cons_self).singleDot] at hsingle
    cases hsingle
  | case4 path segment hdouble hsingle => rfl
  | case5 path segment rest hne hdouble ih =>
    rw [(h segment List.mem_cons_self).doubleDot] at hdouble
    cases hdouble
  | case6 path segment rest hne hdouble hsingle ih =>
    rw [(h segment List.mem_cons_self).singleDot] at hsingle
    cases hsingle
  | case7 path segment rest hne hdouble hsingle ih =>
    rw [ih fun s hs => h s (List.mem_cons_of_mem _ hs), List.append_assoc]
    rfl

/-! ## Paths read again -/

/-- What may follow a path: nothing, or a query. -/
def IsQuery (text : Text) : Prop := text = [] ∨ ∃ rest, text = '?' :: rest

lemma isQuery_search (u : Url) : IsQuery u.search := by
  rw [search]
  cases u.query with
  | none => exact .inl rfl
  | some query =>
    cases query with
    | nil => exact .inl rfl
    | cons c query => exact .inr ⟨_, rfl⟩

lemma takeWhile_isQuery {tail : Text} (h : IsQuery tail) : tail.takeWhile (!endsPath ·) = [] := by
  rcases h with rfl | ⟨rest, rfl⟩ <;> rfl

lemma endsPath_of_pathSet {c : Char} (h : pathSet c = false) : endsPath c = false := by
  simp only [endsPath, Bool.or_eq_false_iff, beq_eq_false_iff_ne]
  constructor <;> rintro rfl <;> exact absurd h (by decide)

/-- A set that escapes the space, and all outside `0x20` to `0x7e`, leaves no space and no control. -/
lemma isC0OrSpace_of_escaped {c : Char} {others : List ℕ} (hothers : 0x20 ∈ others)
    (h : (c.toNat ≤ 0x1f || 0x7e < c.toNat || others.contains c.toNat) = false) :
    isC0OrSpace c = false := by
  simp only [Bool.or_eq_false_iff, decide_eq_false_iff_not, List.contains_eq_mem] at h
  obtain ⟨⟨hcontrol, -⟩, hnot⟩ := h
  have hspace : c.toNat ≠ 0x20 := fun hspace => hnot (hspace ▸ hothers)
  rw [isC0OrSpace, decide_eq_false_iff_not]
  omega

/-- A normal path and query that are written out have no space and no control. -/
lemma Normal.isC0OrSpace {u : Url} (h : u.Normal) :
    ∀ c ∈ u.pathname ++ u.search, isC0OrSpace c = false := by
  intro c hc
  rcases List.mem_append.mp hc with hc | hc
  · obtain ⟨segment, hsegment, hc⟩ := List.mem_flatMap.mp hc
    rcases List.mem_cons.mp hc with rfl | hc
    · rfl
    · exact isC0OrSpace_of_escaped (by decide) ((h.path segment hsegment).chars c hc).1
  · rw [search] at hc
    split at hc
    · cases hc
    · cases hc
    · next query _ hquery =>
      rcases List.mem_cons.mp hc with rfl | hc
      · rfl
      · exact isC0OrSpace_of_escaped (by decide) (h.query query hquery c hc)

lemma splitOnP_slash (text : Text) :
    ('/' :: text).splitOnP isSlash = [] :: text.splitOnP isSlash := by
  rw [List.splitOnP_cons_eq_if_modifyHead]
  rfl

/-- A normal path that is written out has its segments. -/
lemma pieces_path {segs : List Text} (h : ∀ s ∈ segs, NormalSegment s) {tail : Text}
    (htail : IsQuery tail) :
    pieces (segs.flatMap ('/' :: ·) ++ tail) = [] :: segs := by
  have hends : ∀ c ∈ segs.flatMap ('/' :: ·), (!endsPath c) = true := by
    intro c hc
    obtain ⟨s, hs, hc⟩ := List.mem_flatMap.mp hc
    rcases List.mem_cons.mp hc with rfl | hc
    · rfl
    · rw [endsPath_of_pathSet ((h s hs).chars c hc).1]
      rfl
  rw [pieces, List.takeWhile_append_of_pos hends, takeWhile_isQuery htail, List.append_nil]
  clear hends htail
  induction segs with
  | nil => rfl
  | cons s segs ih =>
    obtain ⟨hs, hsegs⟩ := List.forall_mem_cons.mp h
    rw [List.flatMap_cons, List.cons_append, splitOnP_slash]
    congr 1
    cases segs with
    | nil =>
      rw [List.flatMap_nil, List.append_nil]
      exact List.splitOnP_eq_singleton fun c hc => (hs.chars c hc).2
    | cons s' segs =>
      have htail := ih hsegs
      rw [List.flatMap_cons, List.cons_append, splitOnP_slash, List.cons.injEq] at htail
      rw [List.flatMap_cons, List.cons_append,
        List.splitOnP_append_cons_of_forall_mem (fun c hc => (hs.chars c hc).2) '/' rfl, htail.2]

/-- **A normal path, read again**, is the same path. -/
theorem pathState_segments {segs : List Text} (h : ∀ s ∈ segs, NormalSegment s) {text tail : Text}
    (htail : IsQuery tail) (htext : '/' :: text = segs.flatMap ('/' :: ·) ++ tail) :
    pathState [] (segments text) = segs := by
  have hpieces : pieces text = segs := by
    have hall := pieces_path h htail
    rw [← htext, pieces, List.takeWhile_cons_of_pos rfl, splitOnP_slash, List.cons.injEq] at hall
    exact hall.2
  have hsegments : segments text = segs := by
    rw [segments, hpieces]
    conv_rhs => rw [← List.map_id segs]
    exact List.map_congr_left fun s hs => escape_eq_self fun c hc => ((h s hs).chars c hc).1
  rw [hsegments, pathState_eq_append [] h, List.nil_append]

/-! ## Segments that are read -/

/-- The path state adds no segment but empty ones. -/
lemma count_pathState_le {segment : Text} (hne : segment ≠ []) (path segs : List Text) :
    (pathState path segs).count segment ≤ path.count segment + segs.count segment := by
  have hlast : ∀ p : List Text, p.dropLast.count segment ≤ p.count segment := fun p =>
    p.dropLast_sublist.count_le segment
  have hnil : List.count segment [([] : Text)] = 0 := List.count_eq_zero.mpr (by simpa using hne)
  fun_induction pathState path segs with
  | case1 path => rw [List.count_nil, Nat.add_zero]
  | case2 path s hdouble =>
    rw [List.count_append, hnil]
    exact (hlast path).trans (Nat.le_add_right _ _)
  | case3 path s hdouble hsingle =>
    rw [List.count_append, hnil]
    exact Nat.le_add_right _ _
  | case4 path s hdouble hsingle => rw [List.count_append]
  | case5 path s rest hrest hdouble ih =>
    have hcons := (List.sublist_cons_self s rest).count_le segment
    have := hlast path
    omega
  | case6 path s rest hrest hdouble hsingle ih =>
    have hcons := (List.sublist_cons_self s rest).count_le segment
    omega
  | case7 path s rest hrest hdouble hsingle ih =>
    rw [List.count_append] at ih
    have hcons : (s :: rest).count segment = [s].count segment + rest.count segment := by
      rw [← List.singleton_append, List.count_append]
    omega

/-- A segment without escapes is read only where it is written. -/
lemma count_segments_le {segment : Text} (hescape : '%' ∉ segment) (text : Text) :
    (segments text).count segment ≤ (pieces text).count segment := by
  rw [segments, List.count_eq_countP, List.countP_map, List.count_eq_countP]
  refine List.countP_mono_left fun s _ hs => ?_
  have hs : escape pathSet s = segment := by simpa using hs
  have hnone : ∀ c ∈ s, pathSet c = false := by
    intro c hc
    by_contra hset
    refine hescape (hs ▸ List.mem_flatMap.mpr ⟨c, hc, ?_⟩)
    rw [escapeChar, if_pos (by simpa using hset)]
    obtain ⟨b, bs, hbytes⟩ := List.exists_cons_of_ne_nil (String.utf8EncodeChar_ne_nil (c := c))
    rw [hbytes]
    exact List.mem_cons_self
  rw [escape_eq_self hnone] at hs
  simpa using hs

/-- What follows an authority has no segment that the text before it does not have. -/
lemma count_pieces_authority_le {segment : Text} (hne : segment ≠ []) (text : Text) :
    (pieces (dropSlash ((text.dropWhile isSlash).dropWhile (!endsAuthority ·)))).count segment ≤
      (pieces text).count segment := by
  have hnil : List.count segment [([] : Text)] = 0 := List.count_eq_zero.mpr (by simpa using hne)
  have hsplit : ∃ front, text = front ++ (text.dropWhile isSlash).dropWhile (!endsAuthority ·) ∧
      ∀ c ∈ front, (!endsPath c) = true := by
    refine ⟨text.takeWhile isSlash ++ (text.dropWhile isSlash).takeWhile (!endsAuthority ·), ?_, ?_⟩
    · rw [List.append_assoc, List.takeWhile_append_dropWhile, List.takeWhile_append_dropWhile]
    · intro c hc
      rcases List.mem_append.mp hc with hc | hc
      · have hslash := List.mem_takeWhile_imp hc
        simp only [isSlash, Bool.or_eq_true, beq_iff_eq] at hslash
        rcases hslash with rfl | rfl <;> rfl
      · have hends := List.mem_takeWhile_imp hc
        rw [endsAuthority, Bool.not_or, Bool.and_eq_true] at hends
        exact hends.2
  obtain ⟨front, htext, hfront⟩ := hsplit
  have hhead := List.head?_dropWhile_not (!endsAuthority ·) (text.dropWhile isSlash)
  generalize (text.dropWhile isSlash).dropWhile (!endsAuthority ·) = rest at htext hhead ⊢
  cases rest with
  | nil => exact hnil ▸ Nat.zero_le _
  | cons c rest =>
    cases hc : isSlash c with
    | true =>
      have hpath : (!endsPath c) = true := by
        simp only [isSlash, Bool.or_eq_true, beq_iff_eq] at hc
        rcases hc with rfl | rfl <;> rfl
      have hpieces : pieces text = front.splitOnP isSlash ++ pieces rest := by
        have htake : (c :: rest).takeWhile (!endsPath ·) = c :: rest.takeWhile (!endsPath ·) :=
          List.takeWhile_cons_of_pos hpath
        rw [htext, pieces, List.takeWhile_append_of_pos hfront, htake,
          List.splitOnP_append_cons _ _ hc]
        rfl
      rw [dropSlash, if_pos hc, hpieces, List.count_append]
      exact Nat.le_add_left _ _
    | false =>
      have hpath : ¬ (!endsPath c) = true := by
        have hends : endsAuthority c = true := by simpa using hhead
        rw [endsAuthority, hc, Bool.false_or] at hends
        simp [hends]
      have hpieces : pieces (c :: rest) = [[]] := by
        have htake : (c :: rest).takeWhile (!endsPath ·) = [] := List.takeWhile_cons_of_neg hpath
        rw [pieces, htake]
        rfl
      rw [dropSlash, if_neg (by simp [hc]), hpieces, hnil]
      exact Nat.zero_le _

/-- A segment of a path that is read is written there. -/
lemma count_read_le {segment : Text} (hne : segment ≠ []) (hescape : '%' ∉ segment) (text : Text) :
    (pathState [] (segments text)).count segment ≤ (pieces text).count segment := by
  have hstate := count_pathState_le hne [] (segments text)
  rw [List.count_nil, Nat.zero_add] at hstate
  exact hstate.trans (count_segments_le hescape text)

/-- **A segment** that is read after a leading slash is written there. -/
theorem count_parse_slash_le {segment : Text} (hne : segment ≠ []) (hescape : '%' ∉ segment)
    {base u : Url} {text : Text} (h : parse parseHost base ('/' :: text) = some u) :
    u.path.count segment ≤ (pieces (cleanEnd text)).count segment := by
  rw [parse_slash] at h
  split at h
  · obtain rfl := Option.some.inj h
    exact count_read_le hne hescape _
  · obtain ⟨hp, -, rfl⟩ := Option.map_eq_some_iff.mp h
    exact (count_read_le hne hescape _).trans (count_pieces_authority_le hne _)

end Url
