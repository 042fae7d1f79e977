import KeyCustody.Proofs.Text.Slashes
import KeyCustody.Settings.Environment
import Mathlib.Data.Nat.Digits.Defs

/-!
# Which variables give settings

Settings are loaded from variables exactly if the token is set and each of the
other variables, if it is set, has a text that can be used.  Then each setting
is the text of its variable as it is, or its default.  Otherwise the error is
that of the first condition that fails, where the timeout has to be a number
before anything else about it or the other settings is looked at.
-/

namespace KeyCustody

namespace Text

theorem isBlank_of_isDigit {c : Char} (digit : isDigit c = true) :
    isBlank c = false := by
  have range : 48 ≤ c.toNat ∧ c.toNat ≤ 57 := by
    simpa [isDigit, Char.le_def, UInt32.le_iff_toNat_le] using digit
  simp [isBlank, blankRanges]
  omega

theorem decimalValue_eq_ofDigits (digits : List Char) :
    decimalValue digits = Nat.ofDigits 10 (digits.reverse.map digitValue) := by
  rw [Nat.ofDigits_eq_foldr, List.foldr_map, List.foldr_reverse, decimalValue]
  congr 1
  funext value c
  simp only [Nat.cast_id]
  omega

theorem isBlankText_eq_false {text : String} :
    isBlankText text = false ↔ ∃ c ∈ text.toList, isBlank c = false := by
  simp [isBlankText]

end Text

namespace Settings

open Text

/-- A text that writes a number of seconds below two to the 64: decimal digits
with an optional plus sign before them and blanks around them. -/
def WritesSeconds (text : String) (seconds : Nat) : Prop :=
  ∃ before sign digits after,
    text.toList = before ++ (sign ++ digits) ++ after ∧
    (∀ c ∈ before, isBlank c = true) ∧ (∀ c ∈ after, isBlank c = true) ∧
    (sign = [] ∨ sign = ['+']) ∧
    digits ≠ [] ∧ (∀ c ∈ digits, isDigit c = true) ∧
    seconds = Nat.ofDigits 10 (digits.reverse.map digitValue) ∧
    seconds < UInt64.size

theorem afterPlus_sign {sign digits : List Char}
    (isSign : sign = [] ∨ sign = ['+'])
    (isDigits : ∀ c ∈ digits, isDigit c = true) :
    afterPlus (sign ++ digits) = digits := by
  rcases isSign with rfl | rfl
  · cases digits with
    | nil => rfl
    | cons first others =>
        have digit := isDigits first List.mem_cons_self
        have other : first ≠ '+' := by
          rintro rfl
          exact absurd digit (by decide)
        simp [afterPlus, other]
  · rfl

theorem exists_sign (text : List Char) :
    ∃ sign, (sign = [] ∨ sign = ['+']) ∧ text = sign ++ afterPlus text := by
  unfold afterPlus
  split
  · exact ⟨['+'], Or.inr rfl, rfl⟩
  · exact ⟨[], Or.inl rfl, rfl⟩

theorem seconds?_eq_some {text : String} {seconds : Nat} :
    seconds? text = some seconds ↔ WritesSeconds text seconds := by
  simp only [seconds?, Option.ite_none_right_eq_some, Option.some.injEq,
    decimalValue_eq_ofDigits, List.all_eq_true]
  constructor
  · rintro ⟨⟨some, isDigits, fits⟩, rfl⟩
    obtain ⟨before, after, whole, front, back⟩ :=
      exists_trim isBlank text.toList
    obtain ⟨sign, isSign, cut⟩ := exists_sign (trimBlanks text.toList)
    refine ⟨before, sign, _, after, ?_, front, back, isSign, some, isDigits,
      rfl, Nat.lt_of_le_pred (by decide) fits⟩
    rw [← cut]
    exact whole
  · rintro ⟨before, sign, digits, after, whole, front, back, isSign, some,
      isDigits, rfl, fits⟩
    have keeps : ∀ c ∈ sign ++ digits, isBlank c = false := by
      intro c member
      rcases List.mem_append.1 member with inSign | inDigits
      · rcases isSign with rfl | rfl
        · cases inSign
        · rw [List.mem_singleton.1 inSign]
          decide
      · exact isBlank_of_isDigit (isDigits c inDigits)
    have trimmed : trimBlanks text.toList = sign ++ digits := by
      rw [trimBlanks, whole]
      exact trim_append front back (by simp [some]) keeps
    rw [trimmed, afterPlus_sign isSign isDigits]
    exact ⟨⟨some, isDigits, Nat.le_pred_of_lt fits⟩, rfl⟩

theorem WritesSeconds.unique {text : String} {first second : Nat}
    (writes : WritesSeconds text first) (again : WritesSeconds text second) :
    first = second :=
  Option.some.inj
    ((seconds?_eq_some.2 writes).symm.trans (seconds?_eq_some.2 again))

section Variables

variable (lookup : String → Option String)

/-- A variable is set to a text that is not blank. -/
def Holds (name value : String) : Prop :=
  lookup name = some value ∧ ∃ c ∈ value.toList, isBlank c = false

def Missing (name : String) : Prop :=
  ∀ value, ¬ Holds lookup name value

/-- A setting has the text of its variable, or else its default. -/
def Takes (name default value : String) : Prop :=
  Holds lookup name value ∨ Missing lookup name ∧ value = default

/-- The settings that variables give. -/
structure Gives (settings : Settings) : Prop where
  token : Holds lookup "VAULT_TOKEN" settings.token
  url : Takes lookup "VAULT_URL" "http://localhost:8200" settings.url
  apiKeysMount :
    Takes lookup "VAULT_API_KEYS_MOUNT_POINT" "api-keys" settings.apiKeysMount
  timeoutSeconds :
    (∃ text, Holds lookup "VAULT_TIMEOUT_SECONDS" text ∧
      WritesSeconds text settings.timeoutSeconds) ∨
    Missing lookup "VAULT_TIMEOUT_SECONDS" ∧ settings.timeoutSeconds = 30

def HasScheme (url : String) : Prop :=
  "http://".toList <+: url.toList ∨ "https://".toList <+: url.toList

def HasName (mount : String) : Prop :=
  ∃ c ∈ mount.toList, c ≠ '/'

/-- Variables that can be used. -/
structure Usable : Prop where
  token : ∃ token, Holds lookup "VAULT_TOKEN" token
  url : ∀ url, Holds lookup "VAULT_URL" url → HasScheme url
  apiKeysMount : ∀ mount, Holds lookup "VAULT_API_KEYS_MOUNT_POINT" mount →
    HasName mount
  timeoutSeconds : ∀ text, Holds lookup "VAULT_TIMEOUT_SECONDS" text →
    ∃ seconds, WritesSeconds text seconds ∧ 1 ≤ seconds

/-- The first condition on variables that fails, as an error. -/
inductive FailsAt : SettingsError → Prop
  | token (missing : Missing lookup "VAULT_TOKEN") : FailsAt .tokenNotSet
  | timeoutText {token text : String}
      (set : Holds lookup "VAULT_TOKEN" token)
      (given : Holds lookup "VAULT_TIMEOUT_SECONDS" text)
      (unreadable : ∀ seconds, ¬ WritesSeconds text seconds) :
      FailsAt (.timeoutNotNumber text)
  | url {settings : Settings} (gives : Gives lookup settings)
      (unknown : ¬ HasScheme settings.url) :
      FailsAt (.unknownScheme settings.url)
  | apiKeysMount {settings : Settings} (gives : Gives lookup settings)
      (known : HasScheme settings.url)
      (nameless : ¬ HasName settings.apiKeysMount) :
      FailsAt .mountEmpty
  | timeoutZero {settings : Settings} (gives : Gives lookup settings)
      (known : HasScheme settings.url) (named : HasName settings.apiKeysMount)
      (zero : settings.timeoutSeconds = 0) :
      FailsAt .timeoutZero

end Variables

section Reading

variable {lookup : String → Option String} {name : String}

theorem given?_eq_some {value : String} :
    given? lookup name = some value ↔ Holds lookup name value := by
  rw [given?, Option.filter_eq_some_iff, Bool.not_eq_true',
    isBlankText_eq_false, Holds]

theorem given?_eq_none : given? lookup name = none ↔ Missing lookup name := by
  simp only [Option.eq_none_iff_forall_ne_some, ne_eq, given?_eq_some, Missing]

theorem Holds.unique {value other : String}
    (holds : Holds lookup name value) (again : Holds lookup name other) :
    value = other :=
  Option.some.inj (holds.1.symm.trans again.1)

theorem getD_given? {default value : String} :
    (given? lookup name).getD default = value ↔
      Takes lookup name default value := by
  rw [Takes, ← given?_eq_some, ← given?_eq_none]
  cases given? lookup name <;> simp [eq_comm]

/-- A variable has a property that its default has if the setting has it. -/
theorem Takes.forall_iff {default value : String}
    (takes : Takes lookup name default value) (good : String → Prop)
    (usual : good default) :
    (∀ text, Holds lookup name text → good text) ↔ good value := by
  rcases takes with holds | ⟨missing, rfl⟩
  · constructor
    · exact fun all => all value holds
    · intro isGood text again
      rwa [← holds.unique again]
  · exact iff_of_true (fun text holds => absurd holds (missing text)) usual

theorem ofVariables_eq_ok {settings : Settings} :
    ofVariables lookup = .ok settings ↔ Gives lookup settings := by
  have parts : Gives lookup settings ↔
      given? lookup "VAULT_TOKEN" = some settings.token ∧
      (given? lookup "VAULT_URL").getD "http://localhost:8200" =
        settings.url ∧
      (given? lookup "VAULT_API_KEYS_MOUNT_POINT").getD "api-keys" =
        settings.apiKeysMount ∧
      ((∃ text, given? lookup "VAULT_TIMEOUT_SECONDS" = some text ∧
          seconds? text = some settings.timeoutSeconds) ∨
        given? lookup "VAULT_TIMEOUT_SECONDS" = none ∧
          settings.timeoutSeconds = 30) := by
    simp only [given?_eq_some, getD_given?, seconds?_eq_some, given?_eq_none]
    exact ⟨fun gives => ⟨gives.token, gives.url, gives.apiKeysMount,
      gives.timeoutSeconds⟩, fun parts => ⟨parts.1, parts.2.1, parts.2.2.1,
      parts.2.2.2⟩⟩
  rw [parts, ofVariables]
  obtain ⟨url, token, mount, seconds⟩ := settings
  cases given? lookup "VAULT_TOKEN" with
  | none => simp
  | some given =>
      cases given? lookup "VAULT_TIMEOUT_SECONDS" with
      | none => simp [and_left_comm, eq_comm (a := 30)]
      | some text => cases read : seconds? text <;> simp [read, and_left_comm]

theorem ofVariables_eq_error {error : SettingsError} :
    ofVariables lookup = .error error ↔
      Missing lookup "VAULT_TOKEN" ∧ error = .tokenNotSet ∨
      ∃ token text, Holds lookup "VAULT_TOKEN" token ∧
        Holds lookup "VAULT_TIMEOUT_SECONDS" text ∧
        (∀ seconds, ¬ WritesSeconds text seconds) ∧
        error = .timeoutNotNumber text := by
  simp only [← given?_eq_some, ← given?_eq_none, ← seconds?_eq_some]
  rw [ofVariables]
  cases given? lookup "VAULT_TOKEN" with
  | none => simp [eq_comm]
  | some given =>
      cases given? lookup "VAULT_TIMEOUT_SECONDS" with
      | none => simp
      | some text =>
          cases read : seconds? text <;> simp [read, eq_comm]

theorem load_eq_ok {settings : Settings} {warnings : List Warning} :
    load lookup = .ok (settings, warnings) ↔
      Gives lookup settings ∧ settings.refusal? = none ∧
        warnings = settings.warnings := by
  rw [← ofVariables_eq_ok, load]
  cases ofVariables lookup with
  | error error => simp
  | ok found =>
      simp only [check]
      cases refused : found.refusal? with
      | none => grind
      | some error => grind

theorem load_eq_error {error : SettingsError} :
    load lookup = .error error ↔ ofVariables lookup = .error error ∨
      ∃ settings, Gives lookup settings ∧ settings.refusal? = some error := by
  simp only [← ofVariables_eq_ok]
  rw [load]
  cases ofVariables lookup with
  | error error => simp
  | ok found =>
      simp only [check]
      cases refused : found.refusal? <;> simp [refused]

end Reading

theorem hasKnownScheme_iff {url : String} :
    hasKnownScheme url = true ↔ HasScheme url := by
  rw [hasKnownScheme, Bool.or_eq_true, List.isPrefixOf_iff_prefix,
    List.isPrefixOf_iff_prefix]
  rfl

theorem hasScheme_usual : HasScheme "http://localhost:8200" :=
  Or.inl ⟨"localhost:8200".toList, rfl⟩

theorem hasName_usual : HasName "api-keys" :=
  ⟨'a', List.mem_cons_self, by decide⟩

section Checking

variable {lookup : String → Option String} {settings : Settings}

open Classical in
/-- The check of settings that variables give goes through the conditions in
order.  It does not meet a blank token any more. -/
theorem refusal?_of_gives (gives : Gives lookup settings) :
    settings.refusal? =
      if ¬ HasScheme settings.url then some (.unknownScheme settings.url)
      else if ¬ HasName settings.apiKeysMount then some .mountEmpty
      else if settings.timeoutSeconds = 0 then some .timeoutZero
      else none := by
  have named : trimSlashes settings.apiKeysMount = "" ↔
      ¬ HasName settings.apiKeysMount := by
    rw [trimSlashes_eq_empty, HasName]
    simp
  rw [refusal?, isBlankText_eq_false.2 gives.token.2]
  simp [← hasKnownScheme_iff, named]

theorem timeout_iff_of_gives (gives : Gives lookup settings) :
    (∀ text, Holds lookup "VAULT_TIMEOUT_SECONDS" text →
      ∃ seconds, WritesSeconds text seconds ∧ 1 ≤ seconds) ↔
    settings.timeoutSeconds ≠ 0 := by
  rcases gives.timeoutSeconds with ⟨text, holds, writes⟩ | ⟨missing, usual⟩
  · constructor
    · intro all
      obtain ⟨seconds, again, positive⟩ := all text holds
      rw [writes.unique again]
      omega
    · intro positive other again
      rw [← holds.unique again]
      exact ⟨settings.timeoutSeconds, writes, by omega⟩
  · exact iff_of_true (fun text holds => absurd holds (missing text))
      (by omega)

theorem refusal?_eq_none_iff (gives : Gives lookup settings) :
    settings.refusal? = none ↔ Usable lookup := by
  have usable : Usable lookup ↔ HasScheme settings.url ∧
      HasName settings.apiKeysMount ∧ settings.timeoutSeconds ≠ 0 := by
    rw [← gives.url.forall_iff HasScheme hasScheme_usual,
      ← gives.apiKeysMount.forall_iff HasName hasName_usual,
      ← timeout_iff_of_gives gives]
    exact ⟨fun usable => ⟨usable.url, usable.apiKeysMount,
      usable.timeoutSeconds⟩, fun parts => ⟨⟨_, gives.token⟩, parts.1,
      parts.2.1, parts.2.2⟩⟩
  rw [usable, refusal?_of_gives gives]
  by_cases known : HasScheme settings.url
  · by_cases named : HasName settings.apiKeysMount
    · simp [known, named]
    · simp [known, named]
  · simp [known]

theorem Usable.exists_gives (usable : Usable lookup) :
    ∃ settings, Gives lookup settings := by
  cases found : ofVariables lookup with
  | ok settings => exact ⟨settings, ofVariables_eq_ok.1 found⟩
  | error error =>
      obtain ⟨token, set⟩ := usable.token
      rcases ofVariables_eq_error.1 found with
        ⟨missing, _⟩ | ⟨_, text, _, given, unreadable, _⟩
      · exact absurd set (missing token)
      · obtain ⟨seconds, writes, _⟩ := usable.timeoutSeconds text given
        exact absurd writes (unreadable seconds)

theorem failsAt_iff {error : SettingsError} :
    FailsAt lookup error ↔ ofVariables lookup = .error error ∨
      ∃ settings, Gives lookup settings ∧ settings.refusal? = some error := by
  rw [ofVariables_eq_error]
  constructor
  · intro fails
    cases fails with
    | token missing => exact Or.inl (Or.inl ⟨missing, rfl⟩)
    | timeoutText set given unreadable =>
        exact Or.inl (Or.inr ⟨_, _, set, given, unreadable, rfl⟩)
    | url gives unknown =>
        refine Or.inr ⟨_, gives, ?_⟩
        simp [refusal?_of_gives gives, unknown]
    | apiKeysMount gives known nameless =>
        refine Or.inr ⟨_, gives, ?_⟩
        simp [refusal?_of_gives gives, known, nameless]
    | timeoutZero gives known named zero =>
        refine Or.inr ⟨_, gives, ?_⟩
        simp [refusal?_of_gives gives, known, named, zero]
  · rintro ((⟨missing, rfl⟩ | ⟨_, _, set, given, unreadable, rfl⟩) |
      ⟨settings, gives, refused⟩)
    · exact .token missing
    · exact .timeoutText set given unreadable
    · rw [refusal?_of_gives gives] at refused
      split at refused
      next unknown =>
        obtain rfl := Option.some.inj refused
        exact .url gives unknown
      next known =>
        have known := Classical.not_not.1 known
        split at refused
        next nameless =>
          obtain rfl := Option.some.inj refused
          exact .apiKeysMount gives known nameless
        next named =>
          have named := Classical.not_not.1 named
          split at refused
          next zero =>
            obtain rfl := Option.some.inj refused
            exact .timeoutZero gives known named zero
          next => cases refused

end Checking

/-- Variables are turned into settings exactly if they can be used.  The
settings are then those that they give, and otherwise the error is that of the
first condition that fails. -/
theorem load_decides (lookup : String → Option String) :
    ((∃ loaded, load lookup = .ok loaded) ↔ Usable lookup) ∧
    (∀ settings warnings, load lookup = .ok (settings, warnings) ↔
      Usable lookup ∧ Gives lookup settings ∧
        warnings = settings.warnings) ∧
    ∀ error, load lookup = .error error ↔ FailsAt lookup error := by
  have loads (settings : Settings) (warnings : List Warning) :
      load lookup = .ok (settings, warnings) ↔
        Usable lookup ∧ Gives lookup settings ∧
          warnings = settings.warnings := by
    rw [load_eq_ok]
    constructor
    · rintro ⟨gives, accepted, rfl⟩
      exact ⟨(refusal?_eq_none_iff gives).1 accepted, gives, rfl⟩
    · rintro ⟨usable, gives, rfl⟩
      exact ⟨gives, (refusal?_eq_none_iff gives).2 usable, rfl⟩
  refine ⟨?_, loads, ?_⟩
  · constructor
    · rintro ⟨⟨settings, warnings⟩, loaded⟩
      exact ((loads settings warnings).1 loaded).1
    · intro usable
      obtain ⟨settings, gives⟩ := usable.exists_gives
      exact ⟨_, (loads settings _).2 ⟨usable, gives, rfl⟩⟩
  · intro error
    rw [load_eq_error, failsAt_iff]

/-- The timeout has to be a number before the url is looked at. -/
example : load (fun name => if name = "VAULT_TOKEN" then "t" else "soon") =
    .error (.timeoutNotNumber "soon") :=
  rfl

end Settings

end KeyCustody
