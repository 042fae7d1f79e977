import KeyCustody.Text.Digits
import KeyCustody.Text.Slashes

/-!
# IP addresses

The text forms of version 4 and version 6 addresses.  A version 4 address is
four decimal numbers below 256 without leading zeros.  A version 6 address is
eight groups of up to four hexadecimal digits; one run of zero groups may be
left out, and the last two groups may be written as a version 4 address.
-/

namespace KeyCustody

inductive IpAddress
  | v4 (octets : List Nat)
  | v6 (groups : List Nat)
deriving DecidableEq, Repr

namespace IpAddress

open Text

/-- The number below 256 that a text writes without leading zeros. -/
def octet? (text : List Char) : Option Nat :=
  let value := decimalValue text
  if text ≠ [] ∧ text.length ≤ 3 ∧ text.all isDigit ∧ value < 256 ∧
      (text.head? = some '0' → text = ['0']) then
    some value
  else none

def octets? (text : List Char) : Option (List Nat) :=
  let pieces := segments (· == '.') text
  if pieces.length = 4 then pieces.mapM octet? else none

/-- The number that one to four hexadecimal digits write. -/
def group? (text : List Char) : Option Nat :=
  if text ≠ [] ∧ text.length ≤ 4 then
    (text.mapM hexValue?).map fun digits =>
      digits.foldl (fun n digit => n * 16 + digit) 0
  else none

/-- The groups that pieces between colons write.  Where `endsInV4` holds, the
last piece may be a version 4 address, which counts as two groups. -/
def groups? (endsInV4 : Bool) : List (List Char) → Option (List Nat)
  | [] => some []
  | [last] =>
      match group? last with
      | some group => some [group]
      | none =>
          if endsInV4 then
            match octets? last with
            | some [a, b, c, d] => some [a * 256 + b, c * 256 + d]
            | _ => none
          else none
  | piece :: others => do
      return (← group? piece) :: (← groups? endsInV4 others)

/-- The groups on one side of a run of zeros that was left out; there may be
none. -/
def side? (endsInV4 : Bool) (text : List Char) : Option (List Nat) :=
  if text = [] then some [] else groups? endsInV4 (segments (· == ':') text)

/-- Cuts a text at its first pair of colons. -/
def cutColons : List Char → Option (List Char × List Char)
  | ':' :: ':' :: rest => some ([], rest)
  | c :: rest => (cutColons rest).map fun cut => (c :: cut.1, cut.2)
  | [] => none

def sixGroups? (text : List Char) : Option (List Nat) :=
  match cutColons text with
  | none =>
      (side? true text).filter fun groups => groups.length == 8
  | some (before, after) =>
      match side? false before, side? true after with
      | some head, some tail =>
          if head.length + tail.length ≤ 7 then
            some (head ++
              List.replicate (8 - head.length - tail.length) 0 ++ tail)
          else none
      | _, _ => none

def ofText? (text : List Char) : Option IpAddress :=
  match octets? text with
  | some octets => some (.v4 octets)
  | none => (sixGroups? text).map .v6

/-- An address of the machine itself: one in the block of version 4 addresses
that start with 127, or the version 6 address whose groups are seven zeros and a one. -/
def isLoopback : IpAddress → Bool
  | .v4 octets => octets.head? == some 127
  | .v6 groups => groups == [0, 0, 0, 0, 0, 0, 0, 1]

end IpAddress

end KeyCustody
