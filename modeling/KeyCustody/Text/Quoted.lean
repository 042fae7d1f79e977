import KeyCustody.Text.Digits
import KeyCustody.Text.Pictured

/-!
# Quoted text

A quoted text stands between two quotation marks.  Inside, quotation mark and
backslash follow a backslash, four control characters have a letter of their
own, and every other character without a picture is written by its number in
hexadecimal.
-/

namespace KeyCustody

namespace Text

/-- The form of one character inside quotation marks. -/
def quoteChar (c : Char) : List Char :=
  if c = '\x00' then ['\\', '0']
  else if c = '\t' then ['\\', 't']
  else if c = '\r' then ['\\', 'r']
  else if c = '\n' then ['\\', 'n']
  else if c = '"' || c = '\\' then ['\\', c]
  else if isPictured c then [c]
  else ['\\', 'u', '\x7b'] ++ hexDigits c.toNat ++ ['\x7d']

/-- A text between quotation marks. -/
def quote (text : String) : String :=
  .ofList ('"' :: text.toList.flatMap quoteChar ++ ['"'])

end Text

end KeyCustody
