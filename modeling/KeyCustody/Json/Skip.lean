import KeyCustody.Json.Token

/-!
# Skipping JSON values

A value that nobody asks for is skipped.  Skipping checks the form of the value
but not what it means: nesting has no limit, numbers may be of any size and
halves of pairs of units may stand alone.  A number that ends too early goes on
in a way it must not, because what follows it is looked at as a character.
-/

namespace KeyCustody

namespace Json

open Text

/-- Skips an exponent whose letter has been read. -/
def skipExponent (text : List Char) : Except Malformed (List Char) :=
  let digits :=
    match text with
    | '+' :: rest | '-' :: rest => rest
    | _ => text
  if digits.head?.any isDigit then .ok (digits.dropWhile isDigit)
  else .error .unexpected

def skipTail : List Char → Except Malformed (List Char)
  | 'e' :: rest | 'E' :: rest => skipExponent rest
  | text => .ok text

/-- Skips a number whose sign has been read. -/
def skipUnsigned (text : List Char) : Except Malformed (List Char) :=
  match text with
  | [] => .error .unexpected
  | c :: after =>
      if !isDigit c then .error .unexpected
      else if c = '0' && after.head?.any isDigit then .error .unexpected
      else
        match text.dropWhile isDigit with
        | '.' :: fraction =>
            if fraction.head?.any isDigit then
              skipTail (fraction.dropWhile isDigit)
            else .error .unexpected
        | rest => skipTail rest

def skipString : List Char → Except Malformed (List Char)
  | [] => .error .unfinished
  | '"' :: rest => .ok rest
  | '\\' :: 'u' :: a :: b :: c :: d :: rest =>
      match hexUnit? a b c d with
      | none => .error (hexMalformed (a :: b :: c :: d :: rest))
      | some _ => skipString rest
  | '\\' :: 'u' :: short => .error (hexMalformed short)
  | ['\\'] => .error .unfinished
  | '\\' :: c :: rest =>
      match escaped? c with
      | some _ => skipString rest
      | none => .error .unexpected
  | c :: rest =>
      if c.toNat < 0x20 then .error .unexpected else skipString rest

mutual

/-- Skips a value; `calls` bounds the number of nested calls. -/
def skipValue (calls : Nat) (text : List Char) :
    Except Malformed (List Char) :=
  match calls with
  | 0 => .error .unfinished
  | calls + 1 =>
      match skipGaps text with
      | [] => .error .unfinished
      | '"' :: rest => skipString rest
      | '[' :: rest =>
          match skipGaps rest with
          | [] => .error .unfinished
          | ']' :: rest => .ok rest
          | first => skipItems calls first
      | '{' :: rest =>
          match skipGaps rest with
          | [] => .error .unfinished
          | '}' :: rest => .ok rest
          | first => skipMembers calls first
      | '-' :: rest => skipUnsigned rest
      | 'n' :: rest => scanWord ['u', 'l', 'l'] rest
      | 't' :: rest => scanWord ['r', 'u', 'e'] rest
      | 'f' :: rest => scanWord ['a', 'l', 's', 'e'] rest
      | c :: rest =>
          if isDigit c then skipUnsigned (c :: rest) else .error .unexpected

/-- Skips one or more items and the bracket that closes them. -/
def skipItems (calls : Nat) (text : List Char) :
    Except Malformed (List Char) :=
  match calls with
  | 0 => .error .unfinished
  | calls + 1 =>
      match skipValue calls text with
      | .error malformed => .error malformed
      | .ok rest =>
          match skipGaps rest with
          | [] => .error .unfinished
          | ']' :: rest => .ok rest
          | ',' :: rest => skipItems calls rest
          | _ => .error .unexpected

/-- Skips one or more members and the brace that closes them. -/
def skipMembers (calls : Nat) (text : List Char) :
    Except Malformed (List Char) :=
  match calls with
  | 0 => .error .unfinished
  | calls + 1 =>
      match skipGaps text with
      | [] => .error .unfinished
      | '"' :: rest =>
          match skipString rest with
          | .error malformed => .error malformed
          | .ok rest =>
              match skipGaps rest with
              | [] => .error .unfinished
              | ':' :: rest =>
                  match skipValue calls rest with
                  | .error malformed => .error malformed
                  | .ok rest =>
                      match skipGaps rest with
                      | [] => .error .unfinished
                      | '}' :: rest => .ok rest
                      | ',' :: rest => skipMembers calls rest
                      | _ => .error .unexpected
              | _ => .error .unexpected
      | _ => .error .unexpected

end

def skip (text : List Char) : Except Malformed (List Char) :=
  skipValue (2 * text.length + 2) text

end Json

end KeyCustody
