/-!
# UTF-8

Bytes are read as UTF-8 one at a time.  The result is a list of pieces, one
for each character and one for each broken sequence, where a broken sequence
is as long as it could still have been the start of a character.  Strict
reading refuses broken sequences and forgiving reading shows each as U+FFFD.
-/

namespace KeyCustody

namespace Text

def utf8Bytes (text : List Char) : List UInt8 :=
  text.flatMap String.utf8EncodeChar

/-- A character of which the first bytes have been read: how many bytes are
still to come, the bits collected so far, and the bounds of the next byte. -/
structure PartialChar where
  missing : Nat
  bits : Nat
  least : UInt8 := 0x80
  greatest : UInt8 := 0xBF
deriving DecidableEq, Repr

/-- What the first byte of a sequence stands for: a whole character, the start
of a longer sequence, or nothing. -/
inductive LeadByte
  | whole (c : Char)
  | starts (pending : PartialChar)
  | broken
deriving DecidableEq, Repr

/-- Reads the first byte of a sequence.  The bounds on the second byte leave
out overlong forms, surrogates and numbers above U+10FFFF. -/
def LeadByte.ofByte (b : UInt8) : LeadByte :=
  let n := b.toNat
  if n < 0x80 then .whole (Char.ofNat n)
  else if n < 0xC2 then .broken
  else if n < 0xE0 then .starts { missing := 1, bits := n - 0xC0 }
  else if n = 0xE0 then .starts { missing := 2, bits := 0, least := 0xA0 }
  else if n = 0xED then
    .starts { missing := 2, bits := 0xD, greatest := 0x9F }
  else if n < 0xF0 then .starts { missing := 2, bits := n - 0xE0 }
  else if n = 0xF0 then .starts { missing := 3, bits := 0, least := 0x90 }
  else if n < 0xF4 then .starts { missing := 3, bits := n - 0xF0 }
  else if n = 0xF4 then
    .starts { missing := 3, bits := 4, greatest := 0x8F }
  else .broken

/-- The pieces of a byte sequence; `none` marks a broken sequence.  A byte that
cannot continue the character before it starts a piece of its own. -/
def utf8Pieces : Option PartialChar → List UInt8 → List (Option Char)
  | none, [] => []
  | some _, [] => [none]
  | none, b :: rest =>
      match LeadByte.ofByte b with
      | .whole c => some c :: utf8Pieces none rest
      | .starts pending => utf8Pieces (some pending) rest
      | .broken => none :: utf8Pieces none rest
  | some pending, b :: rest =>
      if pending.least ≤ b && b ≤ pending.greatest then
        let bits := pending.bits * 64 + (b.toNat - 0x80)
        match pending.missing with
        | 0 | 1 => some (Char.ofNat bits) :: utf8Pieces none rest
        | missing + 1 => utf8Pieces (some { missing, bits }) rest
      else
        match LeadByte.ofByte b with
        | .whole c => none :: some c :: utf8Pieces none rest
        | .starts next => none :: utf8Pieces (some next) rest
        | .broken => none :: none :: utf8Pieces none rest

/-- Strict reading: the characters of a byte sequence without broken pieces. -/
def utf8Chars? (bytes : List UInt8) : Option (List Char) :=
  (utf8Pieces none bytes).mapM id

/-- Forgiving reading: every broken piece becomes U+FFFD. -/
def utf8Chars (bytes : List UInt8) : List Char :=
  (utf8Pieces none bytes).map fun piece => piece.getD '\ufffd'

end Text

end KeyCustody
