import KeyCustody.KeyRing
import KeyCustody.Session.Scope
import KeyCustody.Settings.Environment

/-!
# The command line

There are two commands.  One issues an API key for a user, the other prints the
keys of a user, either all of them or those with the given ids.

A command is done within a scope of its own.  What it prints and the code with
which the program exits follow from the outcome.
-/

namespace KeyCustody

namespace CommandLine

/-- What the program is asked to do. -/
inductive Command
  | issue (user : Uuid)
  | print (user : Uuid) (ids : List String)
deriving DecidableEq, Repr

/-- The names of options with a value. -/
inductive OptionName
  | user
  | keyId
deriving DecidableEq, Repr

def OptionName.ofChars? (name : List Char) : Option OptionName :=
  if name = "--user".toList then some .user
  else if name = "--key-id".toList then some .keyId
  else none

/-- An argument that cannot be the value of the option before it. -/
def looksLikeOption (argument : String) : Bool :=
  match argument.toList with
  | '-' :: _ :: _ => true
  | _ => false

/-- The options among arguments, in the order in which they are given.  The
value of an option follows it or an equals sign.  Two hyphens may end the
arguments. -/
def options? : List String → Option (List (OptionName × String))
  | [] => some []
  | argument :: later =>
      let chars := argument.toList
      let name := chars.takeWhile (· != '=')
      match chars.dropWhile (· != '=') with
      | _ :: value => do
          let option ← OptionName.ofChars? name
          return (option, .ofList value) :: (← options? later)
      | [] =>
          if argument = "--" then (if later = [] then some [] else none)
          else
            match OptionName.ofChars? name, later with
            | some option, value :: later =>
                if looksLikeOption value then none
                else (options? later).map ((option, value) :: ·)
            | _, _ => none

def only? (option : OptionName) (given : List (OptionName × String)) :
    Option String :=
  match given.filter fun entry => entry.1 == option with
  | [(_, value)] => some value
  | _ => none

/-- The command that arguments write. -/
def Command.ofArguments? : List String → Option Command
  | "issue" :: later => do
      let given ← options? later
      let user ← Uuid.ofString? (← only? .user given)
      if given.any fun entry => entry.1 == .keyId then none
      else some (.issue user)
  | "show" :: later => do
      let given ← options? later
      let user ← Uuid.ofString? (← only? .user given)
      let ids := given.filter fun entry => entry.1 == .keyId
      return .print user (ids.map Prod.snd)
  | _ => none

def issuedJson (issued : IssuedKey) : Json :=
  .object [("api_key_id", .string issued.id.toString),
    ("api_key", .string issued.key.toString)]

def resolvedJson (resolved : ResolvedKey) : Json :=
  .object [("api_key_id", .string resolved.id),
    ("api_key_value", (resolved.key.map Json.string).getD .null)]

/-- Does a command with a session.  `fresh` is the key to issue. -/
def Command.work (ring : KeyRing) (fresh : IssuedKey) (session : Session) :
    Command → Dialogue (Outcome Json × Session)
  | .issue user => do
      let (outcome, session) ← ring.issue session user fresh
      return (outcome.map issuedJson, session)
  | .print user [] => do
      let outcome ← ring.keysOf session user
      return (outcome.map Bundle.toJson, session)
  | .print user ids => do
      let outcome ← ring.resolve session user ids
      return (outcome.map fun keys => .array (keys.map resolvedJson), session)

/-- Does a command within a scope of its own. -/
def Command.perform (ring : KeyRing) (fresh : IssuedKey)
    (command : Command) : Dialogue (Outcome Json) :=
  Session.scope id 1 fun session => command.work ring fresh session

/-- What the program prints and the code with which it exits. -/
structure Exit where
  code : Nat
  output : String := ""
  errors : String := ""
deriving DecidableEq, Repr

def Exit.usage : Exit where
  code := 2
  errors :=
    "usage: vault-session issue --user <USER>\n" ++
    "       vault-session show --user <USER> [--key-id <ID>]...\n"

/-- Whether the first argument asks for the program's version.  The short form
counts with further letters after it. -/
def asksVersion : List String → Bool
  | first :: _ =>
      first == "--version" || ['-', 'V'].isPrefixOf first.toList
  | [] => false

def Exit.version : Exit where
  code := 0
  output := "vault-session 0.1.0\n"

def Exit.failure (error : StoreError) : Exit where
  code := 1
  errors := "error: " ++ error.message ++ "\n"

/-- The exit of a program whose command ended with the given outcome. -/
def Exit.ofOutcome : Outcome Json → Exit
  | .value result => { code := 0, output := result.renderPretty ++ "\n" }
  | .fault error => .failure error
  | .crash message => { code := 101, errors := message ++ "\n" }

/-- The settings and the command of a program.  The arguments are looked at
before the settings are. -/
def prepare (lookup : String → Option String) (arguments : List String) :
    Except Exit (Settings × Command) :=
  if asksVersion arguments then .error .version
  else
    match Command.ofArguments? arguments with
    | none => .error .usage
    | some command =>
        match Settings.load lookup with
        | .error error => .error (.failure error.toStoreError)
        | .ok (settings, _) => .ok (settings, command)

end CommandLine

end KeyCustody
