import KeyCustody.Json.Basic
import KeyCustody.Text.Digits

/-!
# Tokens of JSON text

Blanks, words, numbers and strings are read off the front of a text.  A reader
returns what it read and the rest of the text, or says how the text is
malformed: it goes on in a way it must not, or it ends too early.
-/

namespace KeyCustody

namespace Json

open Text

/-- How a text fails to be JSON. -/
inductive Malformed
  | unexpected
  | unfinished
deriving DecidableEq, Repr

/-- The result of reading from the front of a text. -/
abbrev Scan (α : Type) := Except Malformed (α × List Char)

/-- Blanks between tokens: space, tab, line feed and carriage return. -/
def isGap (c : Char) : Bool :=
  c == ' ' || c == '\t' || c == '\n' || c == '\r'

def skipGaps (text : List Char) : List Char :=
  text.dropWhile isGap

def scanWord : (word text : List Char) → Except Malformed (List Char)
  | [], rest => .ok rest
  | _ :: _, [] => .error .unfinished
  | expected :: word, c :: rest =>
      if c = expected then scanWord word rest else .error .unexpected

/-- The number of values of a 64-bit word. -/
def wordSize : Nat := UInt64.size

/-- Appends digits to a significand as long as it fits into a 64-bit word.  The
result holds the significand and the number of digits taken. -/
def takeDigits (significand : Nat) : List Char → Nat × Nat
  | [] => (significand, 0)
  | c :: rest =>
      let longer := significand * 10 + digitValue c
      if longer < wordSize then
        let taken := takeDigits longer rest
        (taken.1, taken.2 + 1)
      else (significand, 0)

/-- The parts of a number that has a fraction or an exponent, or too many
digits for a word. -/
structure DecimalParts where
  negative : Bool
  significand : Nat
  exponent : Int
deriving DecidableEq, Repr

def DecimalParts.toJson (parts : DecimalParts) : Except Malformed Json :=
  match Binary64.ofDecimal? parts.negative parts.significand parts.exponent with
  | some number => .ok (.float number)
  | none => .error .unexpected

/-- Reads the digits of an exponent and its sign. -/
def scanExponent (text : List Char) : Scan Int :=
  let (negative, rest) :=
    match text with
    | '+' :: rest => (false, rest)
    | '-' :: rest => (true, rest)
    | _ => (false, text)
  match rest with
  | [] => .error .unfinished
  | c :: _ =>
      if isDigit c then
        let digits := rest.takeWhile isDigit
        let size := decimalValue digits
        .ok (if negative then -(size : Int) else size, rest.dropWhile isDigit)
      else .error .unexpected

/-- Reads an exponent, if there is one, and finishes the number. -/
def finishDecimal (parts : DecimalParts) (text : List Char) : Scan Json :=
  match text with
  | 'e' :: rest | 'E' :: rest =>
      match scanExponent rest with
      | .error malformed => .error malformed
      | .ok (exponent, rest) =>
          let shifted : DecimalParts :=
            { parts with exponent := parts.exponent + exponent }
          shifted.toJson.map (·, rest)
  | _ => parts.toJson.map (·, text)

/-- Reads the digits after a decimal point and finishes the number.  Digits
beyond the size of a word are ignored. -/
def scanFraction (parts : DecimalParts) (text : List Char) : Scan Json :=
  match text with
  | [] => .error .unfinished
  | c :: _ =>
      if isDigit c then
        let taken := takeDigits parts.significand (text.takeWhile isDigit)
        finishDecimal
          { parts with
            significand := taken.1
            exponent := parts.exponent - taken.2 }
          (text.dropWhile isDigit)
      else .error .unexpected

/-- A whole number.  Below the least 64-bit integer, and for a zero with a
minus sign, it is a floating-point number. -/
def wholeNumber (negative : Bool) (significand : Nat) : Except Malformed Json :=
  if negative then
    if 0 < significand ∧ significand ≤ wordSize / 2 then
      .ok (.int (-(significand : Int)))
    else DecimalParts.toJson ⟨true, significand, 0⟩
  else .ok (.int significand)

/-- Reads a number whose sign has been read.  A whole number that does not fit
into a word is a floating-point number. -/
def scanUnsigned (negative : Bool) (text : List Char) : Scan Json :=
  match text with
  | [] => .error .unfinished
  | c :: after =>
      if !isDigit c then .error .unexpected
      else if c = '0' && after.head?.any isDigit then .error .unexpected
      else
        let digits := text.takeWhile isDigit
        let rest := text.dropWhile isDigit
        let taken := takeDigits 0 digits
        let parts : DecimalParts :=
          ⟨negative, taken.1, (digits.length - taken.2 : Nat)⟩
        match rest with
        | '.' :: fraction => scanFraction parts fraction
        | 'e' :: _ | 'E' :: _ => finishDecimal parts rest
        | _ =>
            if taken.2 = digits.length then
              (wholeNumber negative taken.1).map (·, rest)
            else parts.toJson.map (·, rest)

def scanNumber : List Char → Scan Json
  | '-' :: rest => scanUnsigned true rest
  | text => scanUnsigned false text

/-- The number that four hexadecimal digits write. -/
def hexUnit? (a b c d : Char) : Option Nat := do
  return (((← hexValue? a) * 16 + (← hexValue? b)) * 16 + (← hexValue? c)) * 16 +
    (← hexValue? d)

def byteCount (text : List Char) : Nat :=
  text.foldl (fun count c => count + c.utf8Size) 0

/-- What is wrong with a text that does not start with four hexadecimal digits.
It ends too early when it has fewer than four bytes. -/
def hexMalformed (text : List Char) : Malformed :=
  if byteCount (text.take 4) < 4 then .unfinished else .unexpected

/-- The character that a backslash and a letter stand for. -/
def escaped? : Char → Option Char
  | '"' => some '"'
  | '\\' => some '\\'
  | '/' => some '/'
  | 'b' => some '\x08'
  | 'f' => some '\x0c'
  | 'n' => some '\n'
  | 'r' => some '\r'
  | 't' => some '\t'
  | _ => none

def isHighUnit (unit : Nat) : Bool := 0xD800 ≤ unit && unit ≤ 0xDBFF

def isLowUnit (unit : Nat) : Bool := 0xDC00 ≤ unit && unit ≤ 0xDFFF

/-- The character that a pair of units stands for. -/
def pairedChar (high low : Nat) : Char :=
  Char.ofNat (0x10000 + (high - 0xD800) * 0x400 + (low - 0xDC00))

def consScan (c : Char) (scan : Scan (List Char)) : Scan (List Char) :=
  scan.map fun read => (c :: read.1, read.2)

/-- Reads a string whose opening quotation mark has been read.  Units of pairs
have to stand together. -/
def scanString : List Char → Scan (List Char)
  | [] => .error .unfinished
  | '"' :: rest => .ok ([], rest)
  | '\\' :: 'u' :: a :: b :: c :: d :: rest =>
      match hexUnit? a b c d with
      | none => .error (hexMalformed (a :: b :: c :: d :: rest))
      | some unit =>
          if isLowUnit unit then .error .unexpected
          else if isHighUnit unit then
            match rest with
            | '\\' :: 'u' :: e :: f :: g :: h :: rest =>
                match hexUnit? e f g h with
                | none => .error (hexMalformed (e :: f :: g :: h :: rest))
                | some second =>
                    if isLowUnit second then
                      consScan (pairedChar unit second) (scanString rest)
                    else .error .unexpected
            | '\\' :: 'u' :: short => .error (hexMalformed short)
            | ['\\'] | [] => .error .unfinished
            | _ => .error .unexpected
          else consScan (Char.ofNat unit) (scanString rest)
  | '\\' :: 'u' :: short => .error (hexMalformed short)
  | ['\\'] => .error .unfinished
  | '\\' :: c :: rest =>
      match escaped? c with
      | some meant => consScan meant (scanString rest)
      | none => .error .unexpected
  | c :: rest =>
      if c.toNat < 0x20 then .error .unexpected
      else consScan c (scanString rest)

@[simp]
theorem scanString_quote (rest : List Char) :
    scanString ('"' :: rest) = .ok ([], rest) := by
  rw [scanString]

end Json

end KeyCustody
