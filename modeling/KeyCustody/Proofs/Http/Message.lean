import KeyCustody.Http.Message
import KeyCustody.Proofs.Http.Address
import KeyCustody.Proofs.Text.Digits
import Mathlib

/-!
# Reading requests back

The bytes of a request that is made for a call read back to its first line, its
headers and its content.  What stands in the settings and in the call cannot end
a line, so no token and no name adds a header to a request or changes another.
-/

namespace KeyCustody

open Text

namespace Http

theorem cutLine_append {line : List UInt8} (whole : 10 ∉ line)
    (rest : List UInt8) :
    cutLine (line ++ 13 :: 10 :: rest) = some (line, rest) := by
  induction line with
  | nil => rfl
  | cons b later ih =>
      rw [List.mem_cons, not_or] at whole
      have inside : ∀ more, later ++ 13 :: 10 :: rest ≠ 10 :: more := by
        intro more begins
        cases later with
        | nil => cases begins
        | cons d others =>
            obtain ⟨rfl, _⟩ := List.cons.inj begins
            exact whole.2 List.mem_cons_self
      rw [List.cons_append, cutLine, ih whole.2]
      · rfl
      · intro more _ begins
        exact inside more begins

def headerNames : List String :=
  ["host", "user-agent", "x-vault-token", "accept", "content-type",
    "content-length", "connection"]

theorem lower_of_mem_headerNames {name : String} (known : name ∈ headerNames) :
    ∀ c ∈ name.toList, c ≠ ':' ∧ c ≠ '\n' ∧ smallLetter c = c := by
  have all : ∀ name ∈ headerNames, ∀ c ∈ name.toList,
      c ≠ ':' ∧ c ≠ '\n' ∧ smallLetter c = c := by
    simp [headerNames, smallLetter]
  exact all name known

/-- A header of a request that keeps to its line. -/
structure FitsLine (header : String × String) : Prop where
  known : header.1 ∈ headerNames
  whole : '\n' ∉ header.2.toList

def headerText (header : String × String) : List Char :=
  header.1.toList ++ ": ".toList ++ header.2.toList

def headerLine (header : String × String) : List Char :=
  headerText header ++ lineEnd.toList

/-- A header as it is read, without the blanks around its value. -/
def asRead (header : String × String) : String × String :=
  (header.1, .ofList (trim (fun c => c == ' ' || c == '\t') header.2.toList))

theorem utf8Bytes_line (text rest : List Char) :
    utf8Bytes (text ++ lineEnd.toList ++ rest) =
      utf8Bytes text ++ 13 :: 10 :: utf8Bytes rest := by
  rw [List.append_assoc, utf8Bytes_append, utf8Bytes_append]
  rfl

namespace FitsLine

variable {header : String × String} (fits : FitsLine header)
include fits

theorem lower : ∀ c ∈ header.1.toList,
    c ≠ ':' ∧ c ≠ '\n' ∧ smallLetter c = c :=
  lower_of_mem_headerNames fits.known

theorem onLine : '\n' ∉ headerText header := by
  simp only [headerText, List.mem_append, not_or]
  exact ⟨⟨fun member => (fits.lower _ member).2.1 rfl, by simp⟩, fits.whole⟩

theorem name_read :
    ((headerText header).takeWhile (· != ':')).map smallLetter =
      header.1.toList := by
  have name : (headerText header).takeWhile (· != ':') = header.1.toList := by
    rw [headerText, List.append_assoc]
    apply takeWhile_stop
    intro member
    exact (fits.lower _ member).1 rfl
  rw [name]
  have same : ∀ c ∈ header.1.toList, smallLetter c = c :=
    fun c member => (fits.lower c member).2.2
  exact (List.map_congr_left same).trans (List.map_id' _)

theorem value_read :
    ((headerText header).dropWhile (· != ':')).drop 1 =
      ' ' :: header.2.toList := by
  have absent : ':' ∉ header.1.toList := fun member =>
    (fits.lower _ member).1 rfl
  rw [headerText, List.append_assoc,
    List.dropWhile_append_of_pos (bne_of_not_mem absent)]
  rfl

end FitsLine

theorem readHeaders_headerLine {header : String × String}
    (fits : FitsLine header) (lines : Nat) (rest : List Char) :
    readHeaders (lines + 1) (utf8Bytes (headerLine header ++ rest)) =
      (readHeaders lines (utf8Bytes rest)).map
        fun read => (asRead header :: read.1, read.2) := by
  have some : utf8Bytes (headerText header) ≠ [] := by
    intro none
    have text := utf8Chars_utf8Bytes (headerText header)
    rw [none, headerText] at text
    simp [utf8Chars, utf8Pieces] at text
  rw [headerLine, utf8Bytes_line, readHeaders,
    cutLine_append (lineFeed_not_mem fits.onLine)]
  simp only [Option.bind_eq_bind, Option.bind_some, if_neg some,
    utf8Chars_utf8Bytes, fits.name_read, fits.value_read,
    String.ofList_toList]
  cases readHeaders lines (utf8Bytes rest) <;> rfl

theorem readHeaders_lines {headers : List (String × String)}
    (fit : ∀ header ∈ headers, FitsLine header) {lines : Nat}
    (enough : headers.length < lines) (content : List Char) :
    readHeaders lines (utf8Bytes
        (headers.flatMap headerLine ++ (lineEnd.toList ++ content))) =
      some (headers.map asRead, utf8Bytes content) := by
  induction headers generalizing lines with
  | nil =>
      obtain ⟨spare, rfl⟩ := Nat.exists_eq_add_of_lt enough
      rw [List.flatMap_nil, ← List.append_assoc, utf8Bytes_line]
      rfl
  | cons header others ih =>
      rw [List.forall_mem_cons] at fit
      cases lines with
      | zero => exact absurd enough (Nat.not_lt_zero _)
      | succ lines =>
          rw [List.flatMap_cons, List.append_assoc,
            readHeaders_headerLine fit.1,
            ih fit.2 (Nat.lt_of_succ_lt_succ enough)]
          rfl

namespace Request

def line (request : Request) : String :=
  request.method.name ++ " " ++ request.url.target ++ " HTTP/1.1"

def content (request : Request) : String :=
  (request.body.map Json.render).getD ""

def headers (request : Request) : List (String × String) :=
  [("host", request.url.authority), ("user-agent", userAgent),
    ("x-vault-token", request.token), ("accept", acceptedForm)] ++
  (request.contentType.map fun form => ("content-type", form)).toList ++
  (request.body.map fun _ =>
    ("content-length",
      toString (utf8Bytes request.content.toList).length)).toList ++
  [("connection", "close")]

/-- A message is a line, a line for each header, an empty line and the content.
The length that is announced is that of the content. -/
theorem toList_message (request : Request) :
    request.message.toList = request.line.toList ++ lineEnd.toList ++
      (request.headers.flatMap headerLine ++
        (lineEnd.toList ++ request.content.toList)) := by
  cases contentType : request.contentType <;> cases body : request.body <;>
    simp only [message, line, headers, headerLine, headerText, content,
      contentType, body, ← utf8ByteSize_eq, String.toList_append,
      List.append_assoc,
      List.flatMap_cons, List.flatMap_nil,
      Option.map_none, Option.map_some, Option.toList_none,
      Option.toList_some, Option.getD_some, Option.getD_none,
      Option.isSome_some, Option.isSome_none, if_true, Bool.false_eq_true,
      if_false, List.append_nil, List.nil_append, List.cons_append]
  all_goals rfl

end Request

namespace Url

theorem visible_of_mem_escapeWhere {escaped : Char → Bool} {text : List Char}
    (blank : ∀ c : Char, c.toNat ≤ 0x20 → escaped c = true) {c : Char}
    (member : c ∈ escapeWhere escaped text) : 0x20 < c.toNat := by
  obtain ⟨d, _, inside⟩ := List.mem_flatMap.1 member
  split at inside
  next =>
    obtain ⟨b, _, inside⟩ := List.mem_flatMap.1 inside
    have digits : ∀ n ∈ List.range 16, 0x20 < (upperHexDigit n).toNat := by
      decide
    have byte := b.toNat_lt
    simp only [percentByte, List.mem_cons, List.not_mem_nil, or_false]
      at inside
    rcases inside with rfl | rfl | rfl
    · decide
    · exact digits _ (List.mem_range.2 (by omega))
    · exact digits _ (List.mem_range.2 (by omega))
  next plain =>
    obtain rfl := List.mem_singleton.1 inside
    exact Nat.lt_of_not_le fun low => plain (blank c low)

theorem visible_of_mem_pathOf {text piece : List Char}
    (member : piece ∈ pathOf text) {c : Char} (inside : c ∈ piece) :
    0x20 < c.toNat := by
  obtain ⟨raw, _, rfl⟩ := List.mem_map.1 member
  apply visible_of_mem_escapeWhere _ inside
  intro d low
  simp [escapedInPath, low]

theorem mem_of_mem_cutPort {bracketed : Bool} {text : List Char} {c : Char}
    (member : c ∈ (cutPort bracketed text).1) : c ∈ text := by
  fun_induction cutPort bracketed text with
  | case1 => cases member
  | case2 => cases member
  | case3 _ d rest _ _ _ ih =>
      rcases List.mem_cons.1 member with rfl | later
      · exact List.mem_cons_self
      · exact List.mem_cons_of_mem _ (ih later)

theorem lineFeed_not_mem_hostOf? {text : List Char} {host : String}
    (found : hostOf? text = some host) (whole : '\n' ∉ text) :
    '\n' ∉ host.toList := by
  unfold hostOf? at found
  split at found
  next rest =>
    split at found
    next =>
      obtain ⟨_, _, rfl⟩ := Option.map_eq_some_iff.1 found
      rwa [String.toList_ofList]
    next => cases found
  next =>
    dsimp only at found
    split at found
    next shown =>
      obtain rfl := Option.some.inj found
      rw [String.toList_ofList]
      intro member
      have clean := shown.2.1
      rw [Bool.not_eq_true', List.any_eq_false] at clean
      exact clean _ member (by decide)
    next => cases found

theorem visible_of_mem_target {url : Url}
    (path : ∀ piece ∈ url.path, ∀ c ∈ piece, 0x20 < c.toNat)
    (query : ∀ text ∈ url.query, ∀ c ∈ text, 0x20 < c.toNat) {c : Char}
    (member : c ∈ url.target.toList) : 0x20 < c.toNat := by
  rw [target, String.toList_ofList, List.cons_append, List.mem_cons,
    List.mem_append] at member
  rcases member with rfl | early | late
  · decide
  · rcases mem_joinSegments early with rfl | ⟨piece, inPath, inside⟩
    · decide
    · exact path piece inPath c inside
  · cases asked : url.query with
    | none =>
        rw [asked] at late
        cases late
    | some text =>
        rw [asked, List.mem_cons] at late
        rcases late with rfl | inside
        · decide
        · exact query text asked c inside

/-- What a url is read from: a text for the host that has no line feed, and a
path and a query that are escaped. -/
theorem parts_of_ofString? {text : String} {url : Url}
    (found : ofString? text = some url) :
    (∃ host, hostOf? host = some url.host ∧ '\n' ∉ host) ∧
      (∃ path, url.path = pathOf path) ∧
      ∀ query ∈ url.query, ∃ raw, query = escapeWhere escapedInQuery raw := by
  have cut {plain : List Char} (noFeed : '\n' ∉ plain) : '\n' ∉
      (cutPort false (afterLastAt ((((plain.dropWhile (· != ':')).drop
        1).dropWhile isSeparator).takeWhile fun c => !endsAuthority c))).1 := by
    intro member
    have inside := mem_of_mem_cutPort member
    rw [afterLastAt, List.mem_reverse] at inside
    have inside := List.mem_reverse.1 ((List.takeWhile_sublist _).mem inside)
    have inside := (List.takeWhile_sublist _).mem inside
    have inside := (List.dropWhile_sublist _).mem inside
    exact noFeed ((List.dropWhile_sublist _).mem (List.mem_of_mem_drop inside))
  have noFeed : '\n' ∉ (trim (fun c => c.toNat ≤ 0x20) text.toList).filter
      fun c => c != '\t' && c != '\n' && c != '\r' := by
    simp
  unfold ofString? at found
  dsimp only at found
  generalize (trim (fun c => c.toNat ≤ 0x20) text.toList).filter
    (fun c => c != '\t' && c != '\n' && c != '\r') = plain at found noFeed
  split at found <;> [skip; split at found]
  all_goals
    obtain ⟨encrypted, _, found⟩ := Option.bind_eq_some_iff.1 found
    obtain ⟨host, hostFound, found⟩ := Option.bind_eq_some_iff.1 found
    obtain ⟨port, _, found⟩ := Option.bind_eq_some_iff.1 found
    obtain rfl := Option.some.inj found
    refine ⟨⟨_, hostFound, cut noFeed⟩, ⟨_, rfl⟩, ?_⟩
    intro query asked
    dsimp only at asked
    split at asked
    · cases asked
    · exact ⟨_, (Option.some.inj asked).symm⟩

/-- No url has blanks in its target or a line feed in its host. -/
theorem onLine_of_ofString? {text : String} {url : Url}
    (found : ofString? text = some url) :
    (∀ c ∈ url.target.toList, 0x20 < c.toNat) ∧ '\n' ∉ url.host.toList := by
  obtain ⟨⟨host, hostFound, noFeed⟩, ⟨path, fromPath⟩, escaped⟩ :=
    parts_of_ofString? found
  constructor
  · intro c member
    apply visible_of_mem_target _ _ member
    · intro piece inPath c inside
      rw [fromPath] at inPath
      exact visible_of_mem_pathOf inPath inside
    · intro query asked c inside
      obtain ⟨raw, rfl⟩ := escaped query asked
      apply visible_of_mem_escapeWhere _ inside
      intro d low
      simp [escapedInQuery, low]
  · exact lineFeed_not_mem_hostOf? hostFound noFeed

end Url

theorem lineFeed_not_mem_toString (n : Nat) : '\n' ∉ (toString n).toList := by
  intro member
  have digit : isDigit '\n' = true := by
    apply isDigit_of_mem_decimalDigits (n := n)
    rwa [decimalDigits, ← Nat.toList_repr]
  exact absurd digit (by decide)

theorem lineFeed_not_mem_form {settings : Settings} {call : Call}
    {method : Method} {text : String} {content : Option (String × Json)}
    (planned : plan settings call = some (method, text, content)) :
    ∀ form ∈ content.map Prod.fst, '\n' ∉ form.toList := by
  intro form sent
  cases call <;> cases planned <;> cases sent <;> simp

theorem Url.lineFeed_not_mem_authority {url : Url}
    (host : '\n' ∉ url.host.toList) : '\n' ∉ url.authority.toList := by
  have port := lineFeed_not_mem_toString url.port
  by_cases usual : url.port = if url.encrypted then 443 else 80
  · rwa [authority, if_pos usual]
  · rw [authority, if_neg usual, String.toList_append, String.toList_append]
    simp only [List.mem_append, not_or]
    exact ⟨⟨host, by decide⟩, port⟩

section Made

variable {settings : Settings} {call : Call} {request : Request}
variable (made : requestFor? settings call = some request)
include made

theorem made_onLine :
    (∀ c ∈ request.url.target.toList, 0x20 < c.toNat) ∧
      '\n' ∉ request.url.authority.toList ∧ '\n' ∉ request.token.toList ∧
      ∀ form ∈ request.contentType, '\n' ∉ form.toList := by
  obtain ⟨⟨method, text, content⟩, planned, made⟩ :=
    Option.bind_eq_some_iff.1 made
  obtain ⟨url, found, made⟩ := Option.bind_eq_some_iff.1 made
  obtain ⟨visible, host⟩ := Url.onLine_of_ofString? found
  split at made
  next sendable =>
    obtain rfl := Option.some.inj made
    refine ⟨visible, Url.lineFeed_not_mem_authority host, ?_,
      lineFeed_not_mem_form planned⟩
    intro member
    have shown := List.all_eq_true.1 sendable _ member
    exact absurd shown (by decide)
  next => cases made

theorem fits_headers : ∀ header ∈ request.headers, FitsLine header := by
  obtain ⟨_, authority, token, form⟩ := made_onLine made
  intro header sent
  simp only [Request.headers, List.mem_append, List.mem_cons,
    List.not_mem_nil, or_false, Option.mem_toList, Option.map_eq_some_iff]
    at sent
  rcases sent with
    (((rfl | rfl | rfl | rfl) | ⟨text, known, rfl⟩) | ⟨_, _, rfl⟩) | rfl
  · exact ⟨by simp [headerNames], authority⟩
  · exact ⟨by simp [headerNames], by simp [userAgent]⟩
  · exact ⟨by simp [headerNames], token⟩
  · exact ⟨by simp [headerNames], by simp [acceptedForm]⟩
  · exact ⟨by simp [headerNames], form text known⟩
  · exact ⟨by simp [headerNames], lineFeed_not_mem_toString _⟩
  · exact ⟨by simp [headerNames], by simp⟩

theorem segments_line :
    segments (· == ' ') request.line.toList =
        [request.method.name.toList, request.url.target.toList,
          "HTTP/1.1".toList] := by
  obtain ⟨visible, _⟩ := made_onLine made
  have target : ∀ c ∈ request.url.target.toList, (c == ' ') = false := by
    intro c member
    rw [beq_eq_false_iff_ne]
    rintro rfl
    exact Nat.lt_irrefl _ (visible _ member)
  have method : ∀ c ∈ request.method.name.toList, (c == ' ') = false := by
    cases request.method <;> simp [Method.name]
  have text : request.line.toList = joinSegments ' '
      [request.method.name.toList, request.url.target.toList,
        "HTTP/1.1".toList] := by
    simp [Request.line, joinSegments]
  rw [text]
  apply segments_joinSegments (List.cons_ne_nil _ _)
  simp only [List.forall_mem_cons]
  exact ⟨method, target, by simp, by simp⟩

theorem lineFeed_not_mem_line : '\n' ∉ request.line.toList := by
  obtain ⟨visible, _⟩ := made_onLine made
  have method : '\n' ∉ request.method.name.toList := by
    cases request.method <;> simp [Method.name]
  simp only [Request.line, String.toList_append, List.mem_append, not_or]
  refine ⟨⟨⟨method, by simp⟩, ?_⟩, by simp⟩
  intro member
  exact absurd (visible _ member) (by simp)

/-- The bytes of a request that is made for a call read back to what the request
holds. -/
theorem message_reads_back :
    ∃ rest, cutLine request.message.toUTF8.data.toList =
        some (utf8Bytes request.line.toList, rest) ∧
      segments (· == ' ') request.line.toList =
        [request.method.name.toList, request.url.target.toList,
          "HTTP/1.1".toList] ∧
      ∀ lines, request.headers.length < lines →
        readHeaders lines rest = some (request.headers.map asRead,
          utf8Bytes request.content.toList) := by
  rw [toUTF8_eq, Request.toList_message, utf8Bytes_line,
    cutLine_append (lineFeed_not_mem (lineFeed_not_mem_line made))]
  refine ⟨_, rfl, segments_line made, ?_⟩
  intro lines enough
  exact readHeaders_lines (fits_headers made) enough request.content.toList

end Made

end Http

end KeyCustody
