import KeyCustody.Net.IpAddress
import KeyCustody.Text.Percent

/-!
# Web addresses

Reading of `http` and `https` urls.  Surrounding blanks and line breaks inside
are dropped, a backslash counts as a slash, and segments of a path that are one
or two dots are resolved.  The part after a number sign is not sent.

A url names the server by its authority and, on the server, a target, which is
the path together with the query.
-/

namespace KeyCustody

namespace Http

open Text

/-- A url that can be requested. -/
structure Url where
  encrypted : Bool
  host : String
  port : Nat
  path : List (List Char)
  query : Option (List Char)
deriving DecidableEq, Repr

namespace Url

def isSeparator (c : Char) : Bool := c == '/' || c == '\\'

def endsAuthority (c : Char) : Bool :=
  isSeparator c || c == '?' || c == '#'

/-- The characters that a path does not show as they are. -/
def escapedInPath (c : Char) : Bool :=
  c.toNat ≤ 0x20 || 0x7E < c.toNat ||
    ['"', '#', '<', '>', '?', '`', '\x7b', '\x7d'].contains c

/-- The characters that a query does not show as they are. -/
def escapedInQuery (c : Char) : Bool :=
  c.toNat ≤ 0x20 || 0x7E < c.toNat || ['"', '#', '<', '>', '\''].contains c

/-- A text with some characters written as percent signs and digits. -/
def escapeWhere (escaped : Char → Bool) (text : List Char) : List Char :=
  text.flatMap fun c =>
    if escaped c then (String.utf8EncodeChar c).flatMap percentByte else [c]

/-- A segment with its escaped dots shown as dots. -/
def plainDots : List Char → List Char
  | '%' :: '2' :: e :: rest =>
      if e = 'e' || e = 'E' then '.' :: plainDots rest
      else '%' :: '2' :: e :: rest
  | '.' :: rest => '.' :: plainDots rest
  | text => text

def isSingleDot (segment : List Char) : Bool := plainDots segment == ['.']

def isDoubleDot (segment : List Char) : Bool :=
  plainDots segment == ['.', '.']

/-- Resolves the dots among the segments of a path, where `kept` holds the
segments before them, the last one first.  Dots at the end leave an empty
segment behind. -/
def resolveDots (kept : List (List Char)) :
    List (List Char) → List (List Char)
  | [] => kept.reverse
  | [last] =>
      if isDoubleDot last then ([] :: kept.tail).reverse
      else if isSingleDot last then ([] :: kept).reverse
      else (last :: kept).reverse
  | segment :: later =>
      if isDoubleDot segment then resolveDots kept.tail later
      else if isSingleDot segment then resolveDots kept later
      else resolveDots (segment :: kept) later

def pathOf (text : List Char) : List (List Char) :=
  let relative :=
    match text with
    | c :: rest => if isSeparator c then rest else text
    | [] => []
  (resolveDots [] (segments isSeparator relative)).map
    (escapeWhere escapedInPath)

/-- The value of one part of a version 4 address in its loose form: decimal,
or octal after a zero, or hexadecimal after a zero and an `x`. -/
def looseNumber? (text : List Char) : Option Nat :=
  let inBase (base : Nat) (digits : List Char) : Option Nat :=
    (digits.mapM hexValue?).bind fun values =>
      if values.all (· < base) then
        some (values.foldl (fun n value => n * base + value) 0)
      else none
  match text with
  | [] => none
  | '0' :: 'x' :: digits | '0' :: 'X' :: digits => inBase 16 digits
  | '0' :: c :: digits => inBase 8 (c :: digits)
  | digits => inBase 10 digits

/-- Whether the parts of a loose version 4 address are in range: all but the
last are bytes, and the last one fills the bytes that are left. -/
def looseInRange : (bytesLeft : Nat) → List Nat → Bool
  | _, [] => false
  | bytes, [last] => last < 1 <<< (8 * bytes)
  | 0, _ => false
  | bytes + 1, part :: later => part < 256 && looseInRange bytes later

/-- The labels of a host without an empty one at the end. -/
def labels (host : List Char) : List (List Char) :=
  let all := segments (· == '.') host
  if 1 < all.length && all.getLast? == some [] then all.dropLast else all

/-- A host that ends in a number has to be a version 4 address. -/
def acceptsNumber (host : List Char) : Bool :=
  let parts := labels host
  match parts.getLast? with
  | none => true
  | some last =>
      if (last ≠ [] ∧ last.all isDigit) ∨ (looseNumber? last).isSome then
        match parts.mapM looseNumber? with
        | some numbers => looseInRange 4 numbers
        | none => false
      else true

/-- Percent signs and digits read as the bytes they write. -/
def percentDecoded : List Char → List UInt8
  | '%' :: a :: b :: rest =>
      match hexValue? a, hexValue? b with
      | some high, some low =>
          UInt8.ofNat (high * 16 + low) :: percentDecoded rest
      | _, _ => utf8Bytes ['%'] ++ percentDecoded (a :: b :: rest)
  | c :: rest => String.utf8EncodeChar c ++ percentDecoded rest
  | [] => []

def forbiddenInHost (c : Char) : Bool :=
  c.toNat ≤ 0x20 || c.toNat == 0x7F ||
    ['#', '/', ':', '<', '>', '?', '@', '[', '\\', ']', '^', '|', '%'].contains c

/-- The host that a text writes: a version 6 address in brackets, or a name. -/
def hostOf? (text : List Char) : Option String :=
  match text with
  | '[' :: rest =>
      if rest.getLast? = some ']' then
        (IpAddress.sixGroups? rest.dropLast).map fun _ => .ofList text
      else none
  | _ =>
      let name := (utf8Chars (percentDecoded text)).map smallLetter
      if name ≠ [] ∧ !name.any forbiddenInHost ∧ acceptsNumber name then
        some (.ofList name)
      else none

/-- Cuts off the port of an authority at the first colon outside brackets. -/
def cutPort : (bracketed : Bool) → List Char → List Char × Option (List Char)
  | _, [] => ([], none)
  | false, ':' :: port => ([], some port)
  | bracketed, c :: rest =>
      let inside := if c = '[' then true else if c = ']' then false else bracketed
      let cut := cutPort inside rest
      (c :: cut.1, cut.2)

/-- The port that digits write, or the usual one when there are none. -/
def portOf? (usual : Nat) : Option (List Char) → Option Nat
  | none | some [] => some usual
  | some digits =>
      if digits.all isDigit ∧ decimalValue digits < 65536 then
        some (decimalValue digits)
      else none

/-- The text after the last at sign, or the whole text without one. -/
def afterLastAt (text : List Char) : List Char :=
  (text.reverse.takeWhile (· != '@')).reverse

def ofString? (text : String) : Option Url := do
  let trimmed := trim (fun c => c.toNat ≤ 0x20) text.toList
  let plain := trimmed.filter fun c => c != '\t' && c != '\n' && c != '\r'
  let scheme := (plain.takeWhile (· != ':')).map smallLetter
  let encrypted ←
    if scheme = "http".toList then some false
    else if scheme = "https".toList then some true
    else none
  let after := ((plain.dropWhile (· != ':')).drop 1).dropWhile isSeparator
  let authority := afterLastAt (after.takeWhile fun c => !endsAuthority c)
  let (hostText, portText) := cutPort false authority
  let host ← hostOf? hostText
  let port ← portOf? (if encrypted then 443 else 80) portText
  let rest := (after.dropWhile fun c => !endsAuthority c).takeWhile (· != '#')
  let query :=
    match rest.dropWhile (· != '?') with
    | [] => none
    | _ :: query => some (escapeWhere escapedInQuery query)
  return { encrypted, host, port
           path := pathOf (rest.takeWhile (· != '?')), query }

/-- What the server is asked for: the path and the query. -/
def target (url : Url) : String :=
  .ofList <| '/' :: joinSegments '/' url.path ++
    match url.query with
    | none => []
    | some query => '?' :: query

end Url

end Http

end KeyCustody
