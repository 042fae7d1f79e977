import KeyCustody.Settings.Basic

/-!
# Settings from variables

Each setting has a variable.  A variable with nothing but blanks in it counts
as unset.
-/

namespace KeyCustody

namespace Settings

def greatestTimeout : Nat := UInt64.size - 1

/-- The digits of a number after an optional plus sign. -/
def afterPlus : List Char → List Char
  | '+' :: digits => digits
  | digits => digits

/-- The number of seconds that a text writes: decimal digits with an optional
plus sign before them and blanks around them. -/
def seconds? (text : String) : Option Nat :=
  let digits := afterPlus (Text.trimBlanks text.toList)
  let value := Text.decimalValue digits
  if digits ≠ [] ∧ digits.all Text.isDigit ∧ value ≤ greatestTimeout then
    some value
  else none

/-- The value of a variable that is set to more than blanks. -/
def given? (lookup : String → Option String) (name : String) :
    Option String :=
  (lookup name).filter fun value => !Text.isBlankText value

/-- The settings that variables give, before they are checked. -/
def ofVariables (lookup : String → Option String) :
    Except SettingsError Settings :=
  match given? lookup "VAULT_TOKEN" with
  | none => .error .tokenNotSet
  | some token =>
      let defaults : Settings := { token }
      let given : Settings :=
        { defaults with
          url := (given? lookup "VAULT_URL").getD defaults.url
          apiKeysMount :=
            (given? lookup "VAULT_API_KEYS_MOUNT_POINT").getD
              defaults.apiKeysMount }
      match given? lookup "VAULT_TIMEOUT_SECONDS" with
      | none => .ok given
      | some text =>
          match seconds? text with
          | some seconds => .ok { given with timeoutSeconds := seconds }
          | none => .error (.timeoutNotNumber text)

def load (lookup : String → Option String) :
    Except SettingsError (Settings × List Warning) :=
  match ofVariables lookup with
  | .error error => .error error
  | .ok settings =>
      match settings.check with
      | .error error => .error error
      | .ok warnings => .ok (settings, warnings)

end Settings

end KeyCustody
