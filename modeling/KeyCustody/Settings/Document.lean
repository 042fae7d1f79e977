import KeyCustody.Json.Printer
import KeyCustody.Json.Skip
import KeyCustody.Settings.Environment

/-!
# Settings from JSON text

Settings are an object with a member per setting, or an array with the settings
in a fixed order.  Members with other names are skipped.

The text is read from left to right and the first problem decides, be it a
malformed text or a value of the wrong type.
-/

namespace KeyCustody

namespace Settings

open Json

/-- The settings as they are named in a document, in the order of an array. -/
inductive Field
  | url
  | token
  | apiKeysMount
  | timeoutSeconds
deriving DecidableEq, Repr

def Field.name : Field → String
  | .url => "url"
  | .token => "token"
  | .apiKeysMount => "api_keys_mount_point"
  | .timeoutSeconds => "timeout_seconds"

def Field.ofName? (name : String) : Option Field :=
  [Field.url, .token, .apiKeysMount, .timeoutSeconds].find?
    fun field => field.name == name

/-- The kinds of values that a document is asked for. -/
inductive Wanted
  | settings
  | text
  | seconds
deriving DecidableEq, Repr

def Wanted.words : Wanted → String
  | .settings => "struct VaultSettings"
  | .text => "a string"
  | .seconds => "u64"

/-- A value of another kind than the wanted one.  Of arrays and objects only
the opening bracket is looked at. -/
inductive Found
  | simple (value : Json)
  | sequence
  | map
deriving Repr

def Found.words : Found → String
  | .simple .null => "null"
  | .simple (.bool truth) => "boolean `" ++ toString truth ++ "`"
  | .simple (.int number) => "integer `" ++ toString number ++ "`"
  | .simple (.float number) =>
      "floating point `" ++ .ofList (writeFloat number) ++ "`"
  | .simple (.string text) => "string " ++ Text.quote text
  | .simple (.array _) | .sequence => "sequence"
  | .simple (.object _) | .map => "map"

/-- Why a document gives no settings. -/
inductive DocumentError
  | malformed (how : Malformed)
  | wrongType (found : Found) (wanted : Wanted)
  | outOfRange (number : Int)
  | duplicate (field : Field)
  | missing (field : Field)
  | tooShort (length : Nat)
deriving Repr

/-- The reason in words; malformed texts have none. -/
def DocumentError.message? : DocumentError → Option String
  | .malformed _ => none
  | .wrongType found wanted =>
      some ("invalid type: " ++ found.words ++ ", expected " ++ wanted.words)
  | .outOfRange number =>
      some ("invalid value: integer `" ++ toString number ++
        "`, expected " ++ Wanted.seconds.words)
  | .duplicate field => some ("duplicate field `" ++ field.name ++ "`")
  | .missing field => some ("missing field `" ++ field.name ++ "`")
  | .tooShort length =>
      some ("invalid length " ++ toString length ++
        ", expected struct VaultSettings with 4 elements")

/-- The result of reading a part of a document. -/
abbrev Part (α : Type) := Except DocumentError (α × List Char)

/-- A reading that stands or falls with the form of the text. -/
def wellFormed {α : Type} : Except Malformed α → Except DocumentError α
  | .ok result => .ok result
  | .error how => .error (.malformed how)

/-- The error for a text that starts with another kind of value than the wanted
one.  The value itself has to be well formed. -/
def refuse (wanted : Wanted) : List Char → DocumentError
  | [] => .malformed .unfinished
  | '"' :: rest =>
      match scanString rest with
      | .error how => .malformed how
      | .ok (text, _) => .wrongType (.simple (.string (.ofList text))) wanted
  | '[' :: _ => .wrongType .sequence wanted
  | '{' :: _ => .wrongType .map wanted
  | 'n' :: rest =>
      match scanWord ['u', 'l', 'l'] rest with
      | .error how => .malformed how
      | .ok _ => .wrongType (.simple .null) wanted
  | 't' :: rest =>
      match scanWord ['r', 'u', 'e'] rest with
      | .error how => .malformed how
      | .ok _ => .wrongType (.simple (.bool true)) wanted
  | 'f' :: rest =>
      match scanWord ['a', 'l', 's', 'e'] rest with
      | .error how => .malformed how
      | .ok _ => .wrongType (.simple (.bool false)) wanted
  | c :: rest =>
      if c = '-' || Text.isDigit c then
        match scanNumber (c :: rest) with
        | .error how => .malformed how
        | .ok (number, _) => .wrongType (.simple number) wanted
      else .malformed .unexpected

def scanText (text : List Char) : Part String :=
  match skipGaps text with
  | '"' :: rest =>
      match scanString rest with
      | .error how => .error (.malformed how)
      | .ok (chars, rest) => .ok (.ofList chars, rest)
  | other => .error (refuse .text other)

def scanSeconds (text : List Char) : Part Nat :=
  match skipGaps text with
  | [] => .error (.malformed .unfinished)
  | c :: rest =>
      if c = '-' || Text.isDigit c then
        match scanNumber (c :: rest) with
        | .error how => .error (.malformed how)
        | .ok (.int number, rest) =>
            if number < 0 then .error (.outOfRange number)
            else .ok (number.toNat, rest)
        | .ok (other, _) => .error (.wrongType (.simple other) .seconds)
      else .error (refuse .seconds (c :: rest))

structure Draft where
  url : Option String := none
  token : Option String := none
  apiKeysMount : Option String := none
  timeoutSeconds : Option Nat := none
deriving DecidableEq, Repr

def Draft.has (draft : Draft) : Field → Bool
  | .url => draft.url.isSome
  | .token => draft.token.isSome
  | .apiKeysMount => draft.apiKeysMount.isSome
  | .timeoutSeconds => draft.timeoutSeconds.isSome

def Draft.scanField (draft : Draft) (field : Field) (text : List Char) :
    Part Draft :=
  match field with
  | .url =>
      (scanText text).map fun (url, rest) =>
        ({ draft with url := some url }, rest)
  | .token =>
      (scanText text).map fun (token, rest) =>
        ({ draft with token := some token }, rest)
  | .apiKeysMount =>
      (scanText text).map fun (mount, rest) =>
        ({ draft with apiKeysMount := some mount }, rest)
  | .timeoutSeconds =>
      (scanSeconds text).map fun (seconds, rest) =>
        ({ draft with timeoutSeconds := some seconds }, rest)

/-- The settings of a draft with defaults for those that were not found. -/
def Draft.settings? (draft : Draft) : Option Settings :=
  draft.token.map fun token =>
    let defaults : Settings := { token }
    { url := draft.url.getD defaults.url
      token
      apiKeysMount := draft.apiKeysMount.getD defaults.apiKeysMount
      timeoutSeconds := draft.timeoutSeconds.getD defaults.timeoutSeconds }

/-- Reads one or more members and the brace that closes them; `calls` bounds
their number.  A setting that is given twice is refused before its second value
is looked at. -/
def Draft.scanMembers (calls : Nat) (draft : Draft) (text : List Char) :
    Part Draft :=
  match calls with
  | 0 => .error (.malformed .unfinished)
  | calls + 1 =>
      match skipGaps text with
      | [] => .error (.malformed .unfinished)
      | '"' :: rest =>
          match scanString rest with
          | .error how => .error (.malformed how)
          | .ok (name, rest) =>
              let field? := Field.ofName? (.ofList name)
              match field?.filter draft.has with
              | some field => .error (.duplicate field)
              | none =>
                  match skipGaps rest with
                  | [] => .error (.malformed .unfinished)
                  | ':' :: rest =>
                      let value : Part Draft :=
                        match field? with
                        | some field => draft.scanField field rest
                        | none => (wellFormed (skip rest)).map (draft, ·)
                      match value with
                      | .error error => .error error
                      | .ok (draft, rest) =>
                          match skipGaps rest with
                          | [] => .error (.malformed .unfinished)
                          | '}' :: rest => .ok (draft, rest)
                          | ',' :: rest => draft.scanMembers calls rest
                          | _ => .error (.malformed .unexpected)
                  | _ => .error (.malformed .unexpected)
      | _ => .error (.malformed .unexpected)

/-- Reads the values of the given settings, the next items of an array.  The
array may end before its defaults do; `count` items have been read. -/
def Draft.scanItems (draft : Draft) (count : Nat) :
    List Field → List Char → Part Draft
  | [], text => .ok (draft, text)
  | field :: fields, text =>
      match skipGaps text with
      | [] => .error (.malformed .unfinished)
      | ']' :: rest =>
          if field = .token then .error (.tooShort count)
          else draft.scanItems (count + 1) fields (']' :: rest)
      | c :: rest =>
          let item : Except DocumentError (List Char) :=
            if count = 0 then .ok (c :: rest)
            else if c = ',' then
              match skipGaps rest with
              | [] => .error (.malformed .unfinished)
              | ']' :: _ => .error (.malformed .unexpected)
              | next => .ok next
            else .error (.malformed .unexpected)
          match item with
          | .error error => .error error
          | .ok item =>
              match draft.scanField field item with
              | .error error => .error error
              | .ok (draft, rest) => draft.scanItems (count + 1) fields rest

/-- Reads the settings, whose opening bracket or brace comes first. -/
def scanSettings (text : List Char) : Part Settings :=
  let draft : Draft := {}
  match skipGaps text with
  | '[' :: rest =>
      match draft.scanItems 0 [.url, .token, .apiKeysMount, .timeoutSeconds]
          rest with
      | .error error => .error error
      | .ok (draft, rest) =>
          match draft.settings?, skipGaps rest with
          | none, _ => .error (.tooShort 1)
          | some _, [] => .error (.malformed .unfinished)
          | some settings, ']' :: rest => .ok (settings, rest)
          | some _, _ => .error (.malformed .unexpected)
  | '{' :: rest =>
      let members : Part Draft :=
        match skipGaps rest with
        | [] => .error (.malformed .unfinished)
        | '}' :: rest => .ok (draft, rest)
        | first => draft.scanMembers (first.length + 1) first
      match members with
      | .error error => .error error
      | .ok (draft, rest) =>
          match draft.settings? with
          | none => .error (.missing .token)
          | some settings => .ok (settings, rest)
  | other => .error (refuse .settings other)

/-- The settings that a document gives, before they are checked. -/
def ofDocument (text : String) : Except DocumentError Settings :=
  match scanSettings text.toList with
  | .error error => .error error
  | .ok (settings, rest) =>
      match skipGaps rest with
      | [] => .ok settings
      | _ => .error (.malformed .unexpected)

end Settings

end KeyCustody
