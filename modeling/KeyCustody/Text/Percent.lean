import KeyCustody.Text.Slashes
import KeyCustody.Text.Utf8

/-!
# Percent encoding

A segment of a request path is written byte by byte: letters, digits and four
marks stand for themselves, and every other byte is a percent sign followed by
two upper-case hexadecimal digits.  Slashes between segments stay.
-/

namespace KeyCustody

namespace Text

/-- The upper-case hexadecimal digit of a number below sixteen. -/
def upperHexDigit (n : Nat) : Char :=
  if n < 10 then Char.ofNat (0x30 + n) else Char.ofNat (0x41 + (n - 10))

def percentByte (b : UInt8) : List Char :=
  ['%', upperHexDigit (b.toNat / 16), upperHexDigit (b.toNat % 16)]

/-- The bytes that stand for themselves: ASCII letters and digits and the marks
`-`, `_`, `.` and `~`. -/
def isUnreserved (b : UInt8) : Bool :=
  let n := b.toNat
  (0x30 ≤ n && n ≤ 0x39) || (0x41 ≤ n && n ≤ 0x5A) ||
    (0x61 ≤ n && n ≤ 0x7A) || n == 0x2D || n == 0x5F || n == 0x2E || n == 0x7E

def encodeByte (b : UInt8) : List Char :=
  if isUnreserved b then [Char.ofNat b.toNat] else percentByte b

def encodeSegment (segment : List Char) : List Char :=
  (utf8Bytes segment).flatMap encodeByte

/-- A slash-delimited name with each of its segments encoded. -/
def encodeName (name : String) : String :=
  .ofList <| joinSegments '/' <|
    (segments (· == '/') name.toList).map encodeSegment

end Text

end KeyCustody
