import KeyCustody.Json.Token
import KeyCustody.Text.Utf8

/-!
# Reading JSON text

A JSON text is one value with blanks around it.  Arrays and objects may be
nested at most 127 deep, and of members with the same name the last one
counts.

The readers of values, items and members call each other.  Each call has less
text before it than the one it comes from, so the length of the text bounds the
number of nested calls; the readers carry that number.
-/

namespace KeyCustody

namespace Json

/-- The word for a simple value that starts with the given letter, without that
letter, and the value. -/
def simpleWord? : Char → Option (List Char × Json)
  | 'n' => some (['u', 'l', 'l'], .null)
  | 't' => some (['r', 'u', 'e'], .bool true)
  | 'f' => some (['a', 'l', 's', 'e'], .bool false)
  | _ => none

mutual

/-- Reads a value.  `depth` is one more than the number of brackets that may
still be opened. -/
def scanValue (calls depth : Nat) (text : List Char) : Scan Json :=
  match calls with
  | 0 => .error .unfinished
  | calls + 1 =>
      match skipGaps text with
      | [] => .error .unfinished
      | '"' :: rest =>
          (scanString rest).map fun read => (.string (.ofList read.1), read.2)
      | '[' :: rest =>
          if depth ≤ 1 then .error .unexpected
          else
            match skipGaps rest with
            | [] => .error .unfinished
            | ']' :: rest => .ok (.array [], rest)
            | first =>
                (scanItems calls (depth - 1) first).map fun read =>
                  (.array read.1, read.2)
      | '{' :: rest =>
          if depth ≤ 1 then .error .unexpected
          else
            match skipGaps rest with
            | [] => .error .unfinished
            | '}' :: rest => .ok (.object [], rest)
            | first =>
                (scanMembers calls (depth - 1) first).map fun read =>
                  (ofMembers read.1, read.2)
      | c :: rest =>
          match simpleWord? c with
          | some (word, value) => (scanWord word rest).map (value, ·)
          | none =>
              if c = '-' || Text.isDigit c then scanNumber (c :: rest)
              else .error .unexpected

/-- Reads one or more items and the bracket that closes them. -/
def scanItems (calls depth : Nat) (text : List Char) : Scan (List Json) :=
  match calls with
  | 0 => .error .unfinished
  | calls + 1 =>
      match scanValue calls depth text with
      | .error malformed => .error malformed
      | .ok (item, rest) =>
          match skipGaps rest with
          | [] => .error .unfinished
          | ']' :: rest => .ok ([item], rest)
          | ',' :: rest =>
              (scanItems calls depth rest).map fun read =>
                (item :: read.1, read.2)
          | _ => .error .unexpected

/-- Reads one or more members and the brace that closes them. -/
def scanMembers (calls depth : Nat) (text : List Char) :
    Scan (List (String × Json)) :=
  match calls with
  | 0 => .error .unfinished
  | calls + 1 =>
      match skipGaps text with
      | [] => .error .unfinished
      | '"' :: rest =>
          match scanString rest with
          | .error malformed => .error malformed
          | .ok (name, rest) =>
              match skipGaps rest with
              | [] => .error .unfinished
              | ':' :: rest =>
                  match scanValue calls depth rest with
                  | .error malformed => .error malformed
                  | .ok (value, rest) =>
                      match skipGaps rest with
                      | [] => .error .unfinished
                      | '}' :: rest => .ok ([(.ofList name, value)], rest)
                      | ',' :: rest =>
                          (scanMembers calls depth rest).map fun read =>
                            ((.ofList name, value) :: read.1, read.2)
                      | _ => .error .unexpected
              | _ => .error .unexpected
      | _ => .error .unexpected

end

/-- One more than the greatest depth of nesting. -/
def depthLimit : Nat := 128

def read (text : List Char) : Except Malformed Json :=
  match scanValue (2 * text.length + 2) depthLimit text with
  | .error malformed => .error malformed
  | .ok (value, rest) =>
      match skipGaps rest with
      | [] => .ok value
      | _ => .error .unexpected

def ofText? (text : String) : Option Json :=
  (read text.toList).toOption

def ofBytes? (bytes : List UInt8) : Option Json :=
  match Text.utf8Chars? bytes with
  | some text => (read text).toOption
  | none => none

end Json

end KeyCustody
