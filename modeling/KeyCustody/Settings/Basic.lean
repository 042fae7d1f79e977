import KeyCustody.Warning
import KeyCustody.Text.Blank
import KeyCustody.Text.Quoted
import KeyCustody.Net.IpAddress

/-!
# Settings

How to reach the secrets store and where it keeps the API keys.  Everything
but the access token has a default.

Settings are checked before they are used.  The check refuses settings that
cannot work and warns about a token sent over an open connection to another
machine.
-/

namespace KeyCustody

structure Settings where
  url : String := "http://localhost:8200"
  token : String
  apiKeysMount : String := "api-keys"
  timeoutSeconds : Nat := 30
deriving DecidableEq, Repr

inductive SettingsError
  | tokenNotSet
  | timeoutNotNumber (text : String)
  | tokenEmpty
  | unknownScheme (url : String)
  | mountEmpty
  | timeoutZero
deriving DecidableEq, Repr

namespace SettingsError

def message : SettingsError → String
  | .tokenNotSet => "VAULT_TOKEN must be set"
  | .timeoutNotNumber text => "VAULT_TIMEOUT_SECONDS is not a number: " ++ text
  | .tokenEmpty => "vault token is empty"
  | .unknownScheme url => "vault url must use http:// or https://: " ++ url
  | .mountEmpty => "api keys mount point is empty"
  | .timeoutZero => "timeout must be at least one second"

/-- Refused settings as an error of the work that needs them. -/
def toStoreError (error : SettingsError) : StoreError :=
  .configuration error.message

end SettingsError

namespace Settings

/-- The start of a url whose connection is open. -/
def openScheme : List Char := "http://".toList

/-- The start of a url whose connection is encrypted. -/
def encryptedScheme : List Char := "https://".toList

/-- A text without any repetitions of `start` at its front.  Each repetition
shortens the text, so its length bounds their number. -/
def dropRepeated (start : List Char) : Nat → List Char → List Char
  | 0, text => text
  | times + 1, text =>
      if start.isPrefixOf text then
        dropRepeated start times (text.drop start.length)
      else text

/-- The part of a url between its scheme and its path. -/
def authority (url : String) : List Char :=
  let text := url.toList
  (dropRepeated openScheme text.length text).takeWhile (· != '/')

/-- The host in an authority: what stands in brackets, or everything before the
port. -/
def hostOf : List Char → List Char
  | '[' :: bracketed => bracketed.takeWhile (· != ']')
  | plain => plain.takeWhile (· != ':')

/-- A host that is the machine itself. -/
def isLoopbackHost (host : List Char) : Bool :=
  host.map Text.smallLetter == "localhost".toList ||
    (IpAddress.ofText? host).any IpAddress.isLoopback

/-- Whether a url leads to another machine over an open connection. -/
def isExposed (url : String) : Bool :=
  openScheme.isPrefixOf url.toList && !isLoopbackHost (hostOf (authority url))

def hasKnownScheme (url : String) : Bool :=
  openScheme.isPrefixOf url.toList || encryptedScheme.isPrefixOf url.toList

def refusal? (settings : Settings) : Option SettingsError :=
  if Text.isBlankText settings.token then some .tokenEmpty
  else if !hasKnownScheme settings.url then
    some (.unknownScheme settings.url)
  else if Text.trimSlashes settings.apiKeysMount = "" then some .mountEmpty
  else if settings.timeoutSeconds = 0 then some .timeoutZero
  else none

def warnings (settings : Settings) : List Warning :=
  if isExposed settings.url then [.exposedUrl settings.url] else []

/-- Checks settings.  Accepted settings may come with warnings. -/
def check (settings : Settings) : Except SettingsError (List Warning) :=
  match settings.refusal? with
  | some error => .error error
  | none => .ok settings.warnings

def baseUrl (settings : Settings) : String :=
  Text.dropEndSlashes settings.url

def timeoutMilliseconds (settings : Settings) : Nat :=
  settings.timeoutSeconds * 1000

def describe (settings : Settings) : String :=
  "VaultSettings \x7b url: " ++ Text.quote settings.url ++
    ", token: SecretBox<str>([REDACTED]), api_keys_mount_point: " ++
    Text.quote settings.apiKeysMount ++ ", timeout_seconds: " ++
    toString settings.timeoutSeconds ++ " \x7d"

end Settings

end KeyCustody
