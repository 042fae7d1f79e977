import KeyCustody.Json.Basic
import KeyCustody.Text.Digits

/-!
# Writing JSON text

Values are written without blanks, or laid out over several lines with two
blanks of indentation per level.

Floating-point numbers have the fewest digits that read back.  Very small and
very large ones have an exponent, and the others are positional.
-/

namespace KeyCustody

namespace Json

open Text

def escapeChar (c : Char) : List Char :=
  if c = '"' || c = '\\' then ['\\', c]
  else if c = '\x08' then ['\\', 'b']
  else if c = '\t' then ['\\', 't']
  else if c = '\n' then ['\\', 'n']
  else if c = '\x0c' then ['\\', 'f']
  else if c = '\r' then ['\\', 'r']
  else if c.toNat < 0x20 then
    let digits := hexDigits c.toNat
    ['\\', 'u'] ++ List.replicate (4 - digits.length) '0' ++ digits
  else [c]

def writeString (text : String) : List Char :=
  '"' :: text.toList.flatMap escapeChar ++ ['"']

def writeInt (n : Int) : List Char :=
  if n < 0 then '-' :: decimalDigits n.natAbs else decimalDigits n.natAbs

/-- A decimal whose point stands after `places` digits, written positionally.
`places` may lie outside the digits, and then zeros fill the gap. -/
def writePositional (digits : List Char) (places : Int) : List Char :=
  if places ≤ 0 then
    ['0', '.'] ++ List.replicate (-places).toNat '0' ++ digits
  else if (digits.length : Int) ≤ places then
    digits ++ List.replicate (places - digits.length).toNat '0' ++ ['.', '0']
  else digits.take places.toNat ++ '.' :: digits.drop places.toNat

/-- The decisions on the layout of floating-point numbers. -/
structure FloatLayout where
  /-- The least and the greatest place of the decimal point, counted from the
  first digit, at which a number is written positionally. -/
  leastPlace : Int
  greatestPlace : Int
  /-- Whether an exponent that is not negative has a plus sign. -/
  plusSign : Bool
deriving DecidableEq, Repr

/-- Numbers are positional when the point falls among the first sixteen digits
or at most four places before them, and exponents always have a sign. -/
def floatLayout : FloatLayout := ⟨-4, 16, true⟩

def writeExponent (layout : FloatLayout) (exponent : Int) : List Char :=
  if exponent < 0 || !layout.plusSign then 'e' :: writeInt exponent
  else 'e' :: '+' :: writeInt exponent

/-- A decimal with one digit before the point and an exponent. -/
def writeScientific (layout : FloatLayout) (digits : List Char)
    (places : Int) : List Char :=
  let exponent := writeExponent layout (places - 1)
  match digits with
  | [digit] => digit :: exponent
  | first :: others => first :: '.' :: others ++ exponent
  | [] => exponent

/-- The text of a finite floating-point number in a layout. -/
def writeFloatIn (layout : FloatLayout) (x : Binary64) : List Char :=
  let decimal := Binary64.shortest x.magnitude
  let digits := decimalDigits decimal.digits
  let places := (digits.length : Int) + decimal.exponent
  let unsigned :=
    if decimal.digits = 0 then ['0', '.', '0']
    else if layout.leastPlace ≤ places ∧ places ≤ layout.greatestPlace then
      writePositional digits places
    else writeScientific layout digits places
  if x.isNegative then '-' :: unsigned else unsigned

def writeFloat (x : Binary64) : List Char := writeFloatIn floatLayout x

def writeBool : Bool → List Char
  | true => ['t', 'r', 'u', 'e']
  | false => ['f', 'a', 'l', 's', 'e']

mutual

/-- A value without blanks. -/
def write : Json → List Char
  | .null => ['n', 'u', 'l', 'l']
  | .bool truth => writeBool truth
  | .int number => writeInt number
  | .float number => writeFloat number
  | .string text => writeString text
  | .array [] => ['[', ']']
  | .array (item :: items) => '[' :: write item ++ writeItems items
  | .object [] => ['\x7b', '\x7d']
  | .object ((name, value) :: members) =>
      '\x7b' :: writeString name ++ ':' :: write value ++ writeMembers members

/-- The items after the first one and the closing bracket. -/
def writeItems : List Json → List Char
  | [] => [']']
  | item :: items => ',' :: write item ++ writeItems items

/-- The members after the first one and the closing brace. -/
def writeMembers : List (String × Json) → List Char
  | [] => ['\x7d']
  | (name, value) :: members =>
      ',' :: writeString name ++ ':' :: write value ++ writeMembers members

end

def newLine (level : Nat) : List Char :=
  '\n' :: List.replicate (2 * level) ' '

mutual

/-- A value over several lines, inside brackets of the given level. -/
def writePretty (level : Nat) : Json → List Char
  | .null => ['n', 'u', 'l', 'l']
  | .bool truth => writeBool truth
  | .int number => writeInt number
  | .float number => writeFloat number
  | .string text => writeString text
  | .array [] => ['[', ']']
  | .array (item :: items) =>
      '[' :: newLine (level + 1) ++ writePretty (level + 1) item ++
        writePrettyItems level items
  | .object [] => ['\x7b', '\x7d']
  | .object ((name, value) :: members) =>
      '\x7b' :: newLine (level + 1) ++ writeString name ++ [':', ' '] ++
        writePretty (level + 1) value ++ writePrettyMembers level members

/-- The items after the first one and the closing bracket, each on a line of
its own. -/
def writePrettyItems (level : Nat) : List Json → List Char
  | [] => newLine level ++ [']']
  | item :: items =>
      ',' :: newLine (level + 1) ++ writePretty (level + 1) item ++
        writePrettyItems level items

/-- The members after the first one and the closing brace, each on a line of
its own. -/
def writePrettyMembers (level : Nat) : List (String × Json) → List Char
  | [] => newLine level ++ ['\x7d']
  | (name, value) :: members =>
      ',' :: newLine (level + 1) ++ writeString name ++ [':', ' '] ++
        writePretty (level + 1) value ++ writePrettyMembers level members

end

def render (value : Json) : String := .ofList value.write

def renderPretty (value : Json) : String := .ofList (value.writePretty 0)

end Json

end KeyCustody
