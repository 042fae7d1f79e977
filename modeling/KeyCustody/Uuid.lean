import KeyCustody.Text.Digits
import KeyCustody.Text.Slashes

/-!
# Universally unique identifiers

An identifier is a number of 128 bits.  It is written with 32 hexadecimal
digits, in groups of 8, 4, 4, 4 and 12 with hyphens between them.  It may also
be read without hyphens, in braces, or after the words of a resource name.
-/

namespace KeyCustody

structure Uuid where
  bits : BitVec 128
deriving DecidableEq, Repr

namespace Uuid

open Text

/-- The last `count` lower-case hexadecimal digits of a number, with zeros in
front of a short one. -/
def fixedHexDigits (count n : Nat) : List Char :=
  (List.range count).reverse.map fun place =>
    Nat.digitChar (n >>> (4 * place) % 16)

/-- The digits of an identifier with hyphens between the groups. -/
def toChars (id : Uuid) : List Char :=
  let digits := fixedHexDigits 32 id.bits.toNat
  digits.take 8 ++ '-' :: (digits.drop 8).take 4 ++
    '-' :: (digits.drop 12).take 4 ++ '-' :: (digits.drop 16).take 4 ++
    '-' :: digits.drop 20

def toString (id : Uuid) : String := .ofList id.toChars

instance : ToString Uuid := ⟨toString⟩

def ofDigits? (digits : List Char) : Option Uuid :=
  if digits.length = 32 then
    (digits.mapM hexValue?).map fun values =>
      ⟨BitVec.ofNat 128 (values.foldl (fun n value => n * 16 + value) 0)⟩
  else none

/-- The identifier that five groups of digits between hyphens write. -/
def ofGroups? (text : List Char) : Option Uuid :=
  let groups := segments (· == '-') text
  if groups.map List.length = [8, 4, 4, 4, 12] then ofDigits? groups.flatten
  else none

/-- The words before the groups in a resource name. -/
def resourceWords : List Char := "urn:uuid:".toList

/-- The identifier that a text writes in one of the four forms. -/
def ofChars? (text : List Char) : Option Uuid :=
  if text.length = 32 then ofDigits? text
  else
    match text with
    | '\x7b' :: rest =>
        if rest.getLast? = some '\x7d' then ofGroups? rest.dropLast else none
    | _ =>
        if resourceWords.isPrefixOf text then
          ofGroups? (text.drop resourceWords.length)
        else ofGroups? text

/-- The identifier that a text writes in one of the four forms. -/
def ofString? (text : String) : Option Uuid := ofChars? text.toList

/-- The identifier of a version made from 128 bits: four bits are replaced by
the version and two by the mark of the layout. -/
def ofBits (version : Nat) (bits : Nat) : Uuid :=
  let all := BitVec.ofNat 128 bits
  ⟨all.extractLsb' 80 48 ++ BitVec.ofNat 4 version ++ all.extractLsb' 64 12 ++
    0b10#2 ++ all.extractLsb' 0 62⟩

end Uuid

end KeyCustody
