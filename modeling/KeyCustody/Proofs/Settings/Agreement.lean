import KeyCustody.Settings.Document
import KeyCustody.Proofs.Settings.Loading
import KeyCustody.Proofs.Json.Number
import KeyCustody.Proofs.Json.Skipping

/-!
# Settings from documents and from variables

The same settings can be given by variables or by the members of an object.
The members may stand in any order, with others between them, and names and
texts may be written with escapes.

Both ways lead to the same settings, and so to the same warnings or the same
refusal, if the document is readable: the name of every member has to spell a
text, also where the member is skipped, and the timeout has to be written with
digits alone.  A document that is not readable gives no settings.
-/

namespace KeyCustody

namespace Settings

open Json Text

/-- Settings that are given, with no text of blanks alone. -/
structure Given where
  token : String
  url : Option String := none
  apiKeysMount : Option String := none
  timeoutSeconds : Option UInt64 := none
  visible : ∀ text ∈ token :: (url.toList ++ apiKeysMount.toList),
    isBlankText text = false

namespace Given

/-- What a document says that lists the settings. -/
def draft (given : Given) : Draft where
  url := given.url
  token := some given.token
  apiKeysMount := given.apiKeysMount
  timeoutSeconds := given.timeoutSeconds.map UInt64.toNat

/-- The given settings, with defaults for the others. -/
def settings (given : Given) : Settings where
  url := given.url.getD "http://localhost:8200"
  token := given.token
  apiKeysMount := given.apiKeysMount.getD "api-keys"
  timeoutSeconds := (given.timeoutSeconds.map UInt64.toNat).getD 30

theorem settings?_draft (given : Given) :
    given.draft.settings? = some given.settings :=
  rfl

/-- Variables that are set to what is given, and unset where nothing is. -/
structure SetIn (given : Given) (lookup : String → Option String) : Prop where
  token : lookup "VAULT_TOKEN" = some given.token
  url : lookup "VAULT_URL" = given.url
  apiKeysMount : lookup "VAULT_API_KEYS_MOUNT_POINT" = given.apiKeysMount
  timeoutSeconds : Option.Rel WritesSeconds (lookup "VAULT_TIMEOUT_SECONDS")
    (given.timeoutSeconds.map UInt64.toNat)

end Given

/-- Settings after their check, with the warnings. -/
def checked (settings : Settings) :
    Except SettingsError (Settings × List Warning) :=
  settings.check.map (settings, ·)

theorem writesSeconds_toString (seconds : UInt64) :
    WritesSeconds (toString seconds.toNat) seconds.toNat := by
  refine ⟨[], [], Nat.toDigits 10 seconds.toNat, [], ?_, by simp, by simp,
    Or.inl rfl, Nat.toDigits_ne_nil, ?_, ?_, seconds.toNat_lt⟩
  · simp
  · intro c member
    exact Nat.isDigit_of_mem_toDigits (by decide) (by decide) member
  · rw [← decimalValue_eq_ofDigits]
    exact (decimalValue_decimalDigits _).symm

theorem WritesSeconds.visible {text : String} {seconds : Nat}
    (writes : WritesSeconds text seconds) :
    ∃ c ∈ text.toList, isBlank c = false := by
  obtain ⟨before, sign, digits, after, whole, _, _, _, some, isDigits, _⟩ :=
    writes
  obtain ⟨c, member⟩ := List.exists_mem_of_ne_nil digits some
  refine ⟨c, ?_, isBlank_of_isDigit (isDigits c member)⟩
  simp [whole, member]

section Variables

variable {lookup : String → Option String} {name default : String}

theorem missing_of_none (unset : lookup name = none) : Missing lookup name := by
  rintro value ⟨set, _⟩
  rw [unset] at set
  cases set

theorem takes_of_eq {value? : Option String} (set : lookup name = value?)
    (visible : ∀ text ∈ value?.toList, isBlankText text = false) :
    Takes lookup name default (value?.getD default) := by
  cases value? with
  | none => exact Or.inr ⟨missing_of_none set, rfl⟩
  | some value =>
      have shown := visible value (List.mem_singleton.2 rfl)
      exact Or.inl ⟨set, isBlankText_eq_false.1 shown⟩

variable {given : Given}

theorem Given.SetIn.gives (set : given.SetIn lookup) :
    Gives lookup given.settings where
  token := ⟨set.token,
    isBlankText_eq_false.1 (given.visible _ List.mem_cons_self)⟩
  url := takes_of_eq set.url fun text member =>
    given.visible text (by simp_all)
  apiKeysMount := takes_of_eq set.apiKeysMount fun text member =>
    given.visible text (by simp_all)
  timeoutSeconds := by
    have related := set.timeoutSeconds
    rw [settings]
    generalize given.timeoutSeconds.map UInt64.toNat = seconds? at related ⊢
    generalize read : lookup "VAULT_TIMEOUT_SECONDS" = text? at related
    cases related with
    | none => exact Or.inr ⟨missing_of_none read, rfl⟩
    | some writes => exact Or.inl ⟨_, ⟨read, writes.visible⟩, writes⟩

theorem load_of_setIn (set : given.SetIn lookup) :
    load lookup = given.settings.checked := by
  simp only [load, ofVariables_eq_ok.2 set.gives, checked]
  cases given.settings.check <;> rfl

end Variables

/-- A value that is a string with a text. -/
def WritesText (text : String) (value : List Char) : Prop :=
  ∃ literal : Literal, value = literal.text ∧ literal.Spells text

/-- A value that is a number, in any notation. -/
def WritesNumber (number : Nat) (value : List Char) : Prop :=
  ∃ numeral : Numeral, value = numeral.text ∧ numeral.value = number

/-- A value that writes what is given for a field. -/
def Given.Writes (given : Given) (value : List Char) : Field → Prop
  | .url => ∃ url, given.url = some url ∧ WritesText url value
  | .token => WritesText given.token value
  | .apiKeysMount => ∃ mount, given.apiKeysMount = some mount ∧
      WritesText mount value
  | .timeoutSeconds => ∃ seconds, given.timeoutSeconds = some seconds ∧
      WritesNumber seconds.toNat value

def IsFor (member : Member) (field : Field) : Prop :=
  member.name.Spells field.name

/-- A member that gives no other setting than the given ones.  A member for no
setting may have any value. -/
structure Given.Allows (given : Given) (member : Member) : Prop where
  known : ∀ field, IsFor member field →
    given.Writes member.value.text field
  unknown : (∀ field, ¬ IsFor member field) → IsValue member.value.text

/-- An object with blanks around it. -/
structure Document where
  before : Gaps
  opening : Gaps
  members : List Member
  after : Gaps

def Document.text (document : Document) : String :=
  .ofList (document.before.text ++
    (objectText document.opening document.members ++ document.after.text))

/-- A document with exactly the given settings, none of them twice, and perhaps
other members. -/
structure Document.Lists (document : Document) (given : Given) : Prop where
  allowed : ∀ member ∈ document.members, given.Allows member
  once : document.members.Pairwise fun first second =>
    ∀ field, IsFor first field → ¬ IsFor second field
  present : ∀ field, given.draft.has field = true →
    ∃ member ∈ document.members, IsFor member field

/-- A member whose name spells a text, and whose value is made of digits if it
is the timeout. -/
def Readable (member : Member) : Prop :=
  (∃ name, member.name.Spells name) ∧
    (IsFor member .timeoutSeconds →
      ∀ c ∈ member.value.text, isDigit c = true)

def Document.Readable (document : Document) : Prop :=
  ∀ member ∈ document.members, Settings.Readable member

theorem ofName?_eq_some {name : String} {field : Field} :
    Field.ofName? name = some field ↔ name = field.name := by
  constructor
  · intro found
    have same := List.find?_some found
    exact (beq_iff_eq.1 same).symm
  · rintro rfl
    cases field <;> rfl

theorem name_injective {first second : Field}
    (same : first.name = second.name) : first = second :=
  Option.some.inj
    ((ofName?_eq_some.2 rfl).symm.trans (ofName?_eq_some.2 same))

/-- A draft with what it says of some fields alone. -/
def Draft.only (draft : Draft) (read : Field → Bool) : Draft where
  url := if read .url then draft.url else none
  token := if read .token then draft.token else none
  apiKeysMount := if read .apiKeysMount then draft.apiKeysMount else none
  timeoutSeconds :=
    if read .timeoutSeconds then draft.timeoutSeconds else none

theorem Draft.has_only {draft : Draft} {read : Field → Bool} {field : Field}
    (unread : read field = false) : (draft.only read).has field = false := by
  cases field <;> simp [only, Draft.has, unread]

theorem Draft.only_eq_self {draft : Draft} {read : Field → Bool}
    (all : ∀ field, draft.has field = true → read field = true) :
    draft.only read = draft := by
  have keeps {α : Type} (value? : Option α) (field : Field)
      (has : draft.has field = value?.isSome) :
      (if read field then value? else none) = value? := by
    cases value? with
    | none => exact ite_self none
    | some value => exact if_pos (all field has)
  rw [only, keeps draft.url .url rfl, keeps draft.token .token rfl,
    keeps draft.apiKeysMount .apiKeysMount rfl,
    keeps draft.timeoutSeconds .timeoutSeconds rfl]

section Values

variable {padded : Padded} {rest : List Char}

theorem scanText_padded {text : String}
    (writes : WritesText text padded.text) :
    scanText (padded.whole ++ rest) =
      .ok (text, padded.after.text ++ rest) := by
  obtain ⟨literal, whole, spells⟩ := writes
  rw [scanText, Padded.whole_append, skipGaps_append, whole, Literal.text]
  simp only [List.cons_append, List.append_assoc,
    skipGaps_cons (show isGap '"' = false by decide)]
  simp only [List.nil_append, spells.scanString, String.ofList_toList]

section Numbers

variable {numeral : Numeral} (whole : padded.text = numeral.text)
include whole

theorem skipGaps_numeral (rest : List Char) :
    ∃ c more, (c = '-' || isDigit c) = true ∧
      numeral.text ++ (padded.after.text ++ rest) = c :: more ∧
      skipGaps (padded.whole ++ rest) = c :: more := by
  obtain ⟨c, more, begins, isMark⟩ := numeral.exists_cons
  refine ⟨c, more ++ (padded.after.text ++ rest), by simpa using isMark, ?_,
    ?_⟩
  · rw [begins, List.cons_append]
  have shown : isGap c = false := by
    rcases isMark with rfl | digit
    · rfl
    · exact isGap_of_isDigit digit
  rw [Padded.whole_append, skipGaps_append, whole, begins, List.cons_append,
    skipGaps_cons shown]

theorem scanSeconds_of_plain {seconds : UInt64}
    (same : numeral.value = seconds.toNat)
    (plain : ∀ c ∈ padded.text, isDigit c = true) (ended : Ended rest) :
    scanSeconds (padded.whole ++ rest) =
      .ok (seconds.toNat, padded.after.text ++ rest) := by
  rw [whole] at plain
  have value : numeral.whole.value = seconds.toNat := by
    exact_mod_cast (numeral.value_of_plain plain).symm.trans same
  have fits : numeral.whole.value < wordSize := by
    rw [value]
    exact seconds.toNat_lt
  have reads := scanNumber_append numeral (ended_append padded.after ended)
  rw [Numeral.reading_of_plain plain fits] at reads
  obtain ⟨c, more, isMark, begins, opened⟩ := skipGaps_numeral whole rest
  rw [begins] at reads
  rw [scanSeconds, opened]
  simp [isMark, reads, value, Except.map]

theorem scanSeconds_of_not_plain
    (other : ¬ ∀ c ∈ padded.text, isDigit c = true) (ended : Ended rest) :
    ∃ error, scanSeconds (padded.whole ++ rest) = .error error := by
  rw [whole] at other
  have reads := scanNumber_append numeral (ended_append padded.after ended)
  obtain ⟨c, more, isMark, begins, opened⟩ := skipGaps_numeral whole rest
  rw [begins] at reads
  rw [scanSeconds, opened]
  simp only [isMark, if_true, reads]
  cases read : numeral.reading with
  | error how => exact ⟨_, rfl⟩
  | ok value =>
      cases value with
      | int number =>
          have negative : number < 0 := by
            by_contra counts
            obtain ⟨n, rfl⟩ := Int.eq_ofNat_of_zero_le (not_lt.1 counts)
            exact Numeral.reading_of_not_plain other n read
          exact ⟨_, if_pos negative⟩
      | _ => exact ⟨_, rfl⟩

end Numbers

end Values

instance (member : Member) (field : Field) : Decidable (IsFor member field) :=
  inferInstanceAs (Decidable (member.name.Spells field.name))

/-- What is made of the value of a member with a name. -/
def Draft.scanValue (draft : Draft) (name : String) (text : List Char) :
    Part Draft :=
  match Field.ofName? name with
  | some field => draft.scanField field text
  | none => (wellFormed (skip text)).map (draft, ·)

/-- How reading goes on behind a member. -/
def Draft.goOn (calls : Nat) (draft : Draft) (text : List Char) :
    Part Draft :=
  match skipGaps text with
  | [] => .error (.malformed .unfinished)
  | '}' :: rest => .ok (draft, rest)
  | ',' :: rest => draft.scanMembers calls rest
  | _ => .error (.malformed .unexpected)

section Members

variable {given : Given} {read : Field → Bool} {member : Member}

/-- A value that writes what is given for a field puts that into a draft. -/
theorem scanField_of_writes {field : Field} {padded : Padded}
    {rest : List Char} (writes : given.Writes padded.text field)
    (plain : field = .timeoutSeconds → ∀ c ∈ padded.text, isDigit c = true)
    (ended : Ended rest) :
    (given.draft.only read).scanField field (padded.whole ++ rest) =
      .ok (given.draft.only fun other => read other || other = field,
        padded.after.text ++ rest) := by
  cases field with
  | url =>
      obtain ⟨url, isGiven, writes⟩ := writes
      rw [Draft.scanField, scanText_padded writes]
      simp [Draft.only, Given.draft, isGiven, Except.map]
  | token =>
      rw [Draft.scanField, scanText_padded writes]
      simp [Draft.only, Given.draft, Except.map]
  | apiKeysMount =>
      obtain ⟨mount, isGiven, writes⟩ := writes
      rw [Draft.scanField, scanText_padded writes]
      simp [Draft.only, Given.draft, isGiven, Except.map]
  | timeoutSeconds =>
      obtain ⟨seconds, isGiven, numeral, whole, same⟩ := writes
      rw [Draft.scanField, scanSeconds_of_plain whole same (plain rfl) ended]
      simp [Draft.only, Given.draft, isGiven, Except.map]

theorem isFor_iff {name : String} (spells : member.name.Spells name)
    {field : Field} : IsFor member field ↔ name = field.name := by
  constructor
  · exact spells.unique
  · rintro rfl
    exact spells

section Step

variable {draft : Draft} {calls : Nat} {name : String} {mark : Char}
  {rest : List Char}

theorem goOn_gaps (gaps : Gaps) (isMark : mark = '}' ∨ mark = ',') :
    draft.goOn calls (gaps.text ++ mark :: rest) =
      if mark = '}' then .ok (draft, rest)
      else draft.scanMembers calls rest := by
  rw [Draft.goOn, skipGaps_append]
  rcases isMark with rfl | rfl
  · rw [skipGaps_cons (by decide)]
    rfl
  · rw [skipGaps_cons (by decide)]
    rfl

/-- A member that names no field a second time is read by its name and its
value. -/
theorem scanMembers_named (spells : member.name.Spells name)
    (fresh : ∀ field, IsFor member field → draft.has field = false) :
    draft.scanMembers (calls + 1) (member.whole ++ rest) =
      (draft.scanValue name (member.value.whole ++ rest)).bind fun part =>
        part.1.goOn calls part.2 := by
  have noDuplicate : (Field.ofName? name).filter draft.has = none := by
    rw [Option.filter_eq_none_iff]
    intro field found
    rw [Bool.not_eq_true]
    exact fresh field ((isFor_iff spells).2 (ofName?_eq_some.1 found))
  rw [Member.whole_append, Draft.scanMembers, skipGaps_append,
    skipGaps_cons (by decide), Draft.scanValue]
  simp only [spells.scanString, String.ofList_toList, noDuplicate,
    skipGaps_append, skipGaps_cons (show isGap ':' = false by decide)]
  cases Field.ofName? name with
  | none =>
      dsimp only
      cases wellFormed (skip (member.value.whole ++ rest)) <;> rfl
  | some field =>
      dsimp only
      cases draft.scanField field (member.value.whole ++ rest) <;> rfl

theorem scanMembers_unspelled (none : ∀ name, ¬ member.name.Spells name) :
    ∃ error, draft.scanMembers (calls + 1) (member.whole ++ rest) =
      .error error := by
  rw [Member.whole_append, Draft.scanMembers, skipGaps_append,
    skipGaps_cons (by decide)]
  obtain ⟨malformed, failed⟩ := Literal.scanString_of_unspelled none
    (member.between.text ++ ':' :: (member.value.whole ++ rest))
  simp only [failed]
  exact ⟨_, rfl⟩

end Step

section Allowed

variable (allows : given.Allows member) {name : String}
  (spells : member.name.Spells name)
include allows spells

theorem scanValue_of_plain {rest : List Char}
    (plain : IsFor member .timeoutSeconds →
      ∀ c ∈ member.value.text, isDigit c = true) (ended : Ended rest) :
    (given.draft.only read).scanValue name (member.value.whole ++ rest) =
      .ok (given.draft.only fun field => read field || IsFor member field,
        member.value.after.text ++ rest) := by
  cases found : Field.ofName? name with
  | none =>
      have other (field : Field) : ¬ IsFor member field := by
        intro isFor
        rw [ofName?_eq_some.2 ((isFor_iff spells).1 isFor)] at found
        cases found
      rw [Draft.scanValue, found]
      simp [skip_padded (allows.unknown other) ended, other, wellFormed,
        Except.map]
  | some field =>
      have named := ofName?_eq_some.1 found
      have only (other : Field) : IsFor member other ↔ other = field := by
        rw [isFor_iff spells, named]
        constructor
        · exact fun same => (name_injective same).symm
        · exact fun same => same ▸ rfl
      have isFor := (only field).2 rfl
      rw [Draft.scanValue, found]
      simp [scanField_of_writes (allows.known field isFor)
        (fun timeout => plain (timeout ▸ isFor)) ended, only]

theorem scanValue_of_not_plain
    (other : ¬ (IsFor member .timeoutSeconds →
      ∀ c ∈ member.value.text, isDigit c = true))
    (draft : Draft) {rest : List Char} (ended : Ended rest) :
    ∃ error, draft.scanValue name (member.value.whole ++ rest) =
      .error error := by
  rw [Classical.not_imp] at other
  obtain ⟨isFor, more⟩ := other
  obtain ⟨seconds, _, numeral, whole, _⟩ := allows.known _ isFor
  obtain ⟨error, failed⟩ := scanSeconds_of_not_plain whole more ended
  refine ⟨error, ?_⟩
  rw [Draft.scanValue, ofName?_eq_some.2 ((isFor_iff spells).1 isFor)]
  simp [Draft.scanField, failed, Except.map]

end Allowed

section Step

variable (allows : given.Allows member)
  (fresh : ∀ field, IsFor member field → read field = false)
  (calls : Nat) (rest : List Char)
include allows fresh

theorem scanMembers_of_readable (readable : Readable member) {mark : Char}
    (isMark : mark = '}' ∨ mark = ',') :
    (given.draft.only read).scanMembers (calls + 1)
        (member.whole ++ mark :: rest) =
      let next := given.draft.only fun field =>
        read field || IsFor member field
      if mark = '}' then .ok (next, rest)
      else next.scanMembers calls rest := by
  obtain ⟨⟨name, spells⟩, plain⟩ := readable
  have missing (field : Field) (isFor : IsFor member field) :
      (given.draft.only read).has field = false :=
    Draft.has_only (fresh field isFor)
  have ended : Ended (mark :: rest) := ended_cons (by tauto) rest
  rw [scanMembers_named spells missing,
    scanValue_of_plain allows spells plain ended]
  exact goOn_gaps member.value.after isMark

theorem scanMembers_of_unreadable (unreadable : ¬ Readable member)
    {mark : Char} (isMark : mark = '}' ∨ mark = ',') :
    ∃ error, (given.draft.only read).scanMembers (calls + 1)
      (member.whole ++ mark :: rest) = .error error := by
  by_cases named : ∃ name, member.name.Spells name
  · obtain ⟨name, spells⟩ := named
    have missing (field : Field) (isFor : IsFor member field) :
        (given.draft.only read).has field = false :=
      Draft.has_only (fresh field isFor)
    have other := fun plain => unreadable ⟨⟨name, spells⟩, plain⟩
    have ended : Ended (mark :: rest) := ended_cons (by tauto) rest
    obtain ⟨error, failed⟩ := scanValue_of_not_plain allows spells other
      (given.draft.only read) ended
    refine ⟨error, ?_⟩
    rw [scanMembers_named spells missing, failed]
    rfl
  · exact scanMembers_unspelled (not_exists.1 named)

end Step

end Members

/-- The result of reading members when some fields are read already: what is
given for those and for the members, unless one of the members is not
readable. -/
def ReadsMembers (given : Given) (read : Field → Bool) (members : List Member)
    (result : Part Draft) (rest : List Char) : Prop :=
  ((∀ member ∈ members, Readable member) ∧
    result = .ok (given.draft.only fun field =>
      read field || members.any (IsFor · field), rest)) ∨
  (¬ ∀ member ∈ members, Readable member) ∧ ∃ error, result = .error error

theorem readsMembers {given : Given} (read : Field → Bool)
    {members : List Member} (some : members ≠ [])
    (allowed : ∀ member ∈ members, given.Allows member)
    (once : members.Pairwise fun first second =>
      ∀ field, IsFor first field → ¬ IsFor second field)
    (fresh : ∀ member ∈ members, ∀ field, IsFor member field →
      read field = false)
    {calls : Nat} (enough : members.length ≤ calls) (rest : List Char) :
    ReadsMembers given read members
      ((given.draft.only read).scanMembers calls
        (joinSegments ',' (members.map Member.whole) ++ '}' :: rest)) rest := by
  induction members generalizing read calls with
  | nil => exact absurd rfl some
  | cons first others ih =>
      rw [List.forall_mem_cons] at allowed fresh
      obtain ⟨distinct, once⟩ := List.pairwise_cons.1 once
      obtain ⟨less, rfl⟩ : ∃ less, calls = less + 1 :=
        Nat.exists_eq_add_one_of_ne_zero (by simp at enough; omega)
      rw [ReadsMembers, List.forall_mem_cons]
      by_cases readable : Readable first
      · have reads := scanMembers_of_readable allowed.1 fresh.1 less
        cases others with
        | nil =>
            refine Or.inl ⟨⟨readable, by simp⟩, ?_⟩
            simp only [List.map_cons, List.map_nil, joinSegments]
            rw [reads rest readable (Or.inl rfl)]
            simp
        | cons second more =>
            have unread : ∀ member ∈ second :: more, ∀ field,
                IsFor member field →
                (read field || IsFor first field) = false := by
              intro member listed field isFor
              have other : ¬ IsFor first field :=
                fun same => distinct member listed field same isFor
              simp [fresh.2 member listed field isFor, other]
            have behind := ih _ (List.cons_ne_nil _ _) allowed.2 once unread
              (by simpa using enough)
            rw [List.map_cons, joinSegments_cons _ (by simp),
              List.append_assoc, List.cons_append,
              reads _ readable (Or.inr rfl)]
            simpa [ReadsMembers, readable, Bool.or_assoc] using behind
      · refine Or.inr ⟨fun all => readable all.1, ?_⟩
        obtain ⟨mark, later, joined, isMark⟩ :=
          joinSegments_append_eq Member.whole first others '}' rest
        rw [joined]
        exact scanMembers_of_unreadable allowed.1 fresh.1 less later readable
          isMark

theorem scanMembers_skipGaps (calls : Nat) (draft : Draft)
    (text : List Char) :
    draft.scanMembers calls (skipGaps text) = draft.scanMembers calls text := by
  cases calls with
  | zero => rw [Draft.scanMembers, Draft.scanMembers]
  | succ calls => rw [Draft.scanMembers, Draft.scanMembers, skipGaps_skipGaps]

/-- Members begin with the quotation mark of a name, with more behind it than
there are members. -/
theorem skipGaps_members {members : List Member} (some : members ≠ [])
    (rest : List Char) :
    ∃ body, members.length ≤ body.length ∧
      skipGaps (joinSegments ',' (members.map Member.whole) ++ rest) =
        '"' :: body := by
  cases members with
  | nil => exact absurd rfl some
  | cons first others =>
      obtain ⟨more, joined, enough⟩ :=
        joinSegments_map_eq Member.whole first others
      rw [joined, List.append_assoc, Member.whole_append, skipGaps_append,
        skipGaps_cons (by decide)]
      refine ⟨_, ?_, rfl⟩
      simp only [List.length_append, List.length_cons]
      omega

/-- An object is read from its first member on, with enough calls for all of
them. -/
theorem scanSettings_object (before opening : Gaps) {members : List Member}
    (some : members ≠ []) (rest : List Char) :
    ∃ calls, members.length ≤ calls ∧
      scanSettings (before.text ++ (objectText opening members ++ rest)) =
        (Draft.scanMembers calls {} (joinSegments ',' (members.map
          Member.whole) ++ '}' :: rest)).bind fun part =>
            part.1.settings?.elim (.error (.missing .token)) fun settings =>
              .ok (settings, part.2) := by
  obtain ⟨body, enough, opened⟩ := skipGaps_members some ('}' :: rest)
  refine ⟨('"' :: body).length + 1, ?_, ?_⟩
  · simp only [List.length_cons]
    omega
  · rw [← scanMembers_skipGaps, opened]
    simp only [scanSettings, objectText, skipGaps_append, List.cons_append,
      List.append_assoc, skipGaps_cons (show isGap '{' = false by decide),
      List.nil_append, opened]
    simp only [List.cons.injEq, Char.reduceEq, false_and, imp_self,
      implies_true, List.length_cons]
    cases Draft.scanMembers (body.length + 1 + 1) {} ('"' :: body) with
    | error error => rfl
    | ok part =>
        obtain ⟨draft, rest⟩ := part
        dsimp only [Except.bind]
        cases draft.settings? <;> rfl

section Documents

variable {document : Document} {given : Given} (lists : document.Lists given)
include lists

/-- A document gives what it lists if it is readable, and nothing otherwise. -/
theorem ofDocument_of_lists :
    document.Readable ∧ ofDocument document.text = .ok given.settings ∨
    ¬ document.Readable ∧
      ∃ error, ofDocument document.text = .error error := by
  obtain ⟨token, listed, _⟩ := lists.present .token rfl
  have some := List.ne_nil_of_mem listed
  obtain ⟨calls, enough, reads⟩ := scanSettings_object document.before
    document.opening some document.after.text
  have outcome := readsMembers (fun _ => false) some lists.allowed lists.once
    (fun _ _ _ _ => rfl) enough document.after.text
  rw [show given.draft.only (fun _ => false) = {} from rfl] at outcome
  rw [ofDocument, Document.text, String.toList_ofList, reads]
  rcases outcome with ⟨readable, read⟩ | ⟨unreadable, error, failed⟩
  · refine Or.inl ⟨readable, ?_⟩
    have all (field : Field) (has : given.draft.has field = true) :
        (false || document.members.any fun member =>
          IsFor member field) = true := by
      simpa using lists.present field has
    have closed : skipGaps document.after.text = [] := by
      rw [← List.append_nil document.after.text, skipGaps_append]
      rfl
    rw [read, Draft.only_eq_self all]
    simp [Except.bind, Given.settings?_draft, closed]
  · refine Or.inr ⟨unreadable, error, ?_⟩
    rw [failed]
    rfl

/-- From a document that is not readable no settings are taken, whatever
variables there are. -/
theorem map_checked_ne_of_unreadable (unreadable : ¬ document.Readable)
    (lookup : String → Option String) :
    (ofDocument document.text).map checked ≠ .ok (load lookup) := by
  rcases ofDocument_of_lists lists with ⟨readable, _⟩ | ⟨_, error, failed⟩
  · exact absurd readable unreadable
  · rw [failed]
    rintro ⟨⟩

end Documents

/-- Variables and a readable document that give the same settings lead to the
same settings, with the same defaults, and to the same warnings or the same
refusal.  From a document that is not readable no settings are taken. -/
theorem loaders_agree_iff_readable {given : Given}
    {lookup : String → Option String} {document : Document}
    (set : given.SetIn lookup) (lists : document.Lists given) :
    ((ofDocument document.text).map checked = .ok (load lookup) ↔
      document.Readable) ∧
    (document.Readable → ofDocument document.text = .ok given.settings) ∧
    (¬ document.Readable →
      ∃ error, ofDocument document.text = .error error) ∧
    load lookup = given.settings.checked := by
  have loads := load_of_setIn set
  rcases ofDocument_of_lists lists with
    ⟨readable, read⟩ | ⟨unreadable, error, failed⟩
  · refine ⟨iff_of_true ?_ readable, fun _ => read,
      fun unreadable => absurd readable unreadable, loads⟩
    rw [read, loads]
    rfl
  · refine ⟨iff_of_false ?_ unreadable,
      fun readable => absurd readable unreadable, fun _ => ⟨error, failed⟩,
      loads⟩
    rw [failed]
    rintro ⟨⟩

theorem allows_of_isFor {given : Given} {member : Member} (field : Field)
    (isFor : IsFor member field)
    (writes : given.Writes member.value.text field) : given.Allows member where
  known other same := by
    rwa [name_injective (same.unique isFor)]
  unknown none := absurd isFor (none field)

theorem allows_of_isValue {given : Given} {member : Member}
    (none : ∀ field, ¬ IsFor member field)
    (value : IsValue member.value.text) : given.Allows member where
  known field isFor := absurd isFor (none field)
  unknown _ := value

theorem readable_of_spells {member : Member} (name : String)
    (spells : member.name.Spells name)
    (other : ¬ IsFor member .timeoutSeconds) : Readable member :=
  ⟨⟨name, spells⟩, fun isFor => absurd isFor other⟩

instance : Fintype Field where
  elems := {.url, .token, .apiKeysMount, .timeoutSeconds}
  complete := by
    intro field
    cases field <;> decide

namespace Sample

/-- The characters of a text that need no escape, as they are. -/
def bare (text : String) : Literal where
  pieces := text.toList.filterMap fun c =>
    if shown : 0x20 ≤ c.toNat ∧ c ≠ '"' ∧ c ≠ '\\' then
      some (.plain c shown.1 shown.2.1 shown.2.2)
    else none

/-- A first half of a pair of units on its own. -/
def half : Literal where
  pieces := [.unit ⟨13, false⟩ ⟨8, false⟩ ⟨0, false⟩ ⟨0, false⟩]

/-- The name of the token with a letter in hexadecimal. -/
def escapedToken : Literal where
  pieces := (bare "t").pieces ++
    .unit ⟨0, false⟩ ⟨0, false⟩ ⟨6, false⟩ ⟨15, true⟩ :: (bare "ken").pieces

def space : Gaps where
  text := [' ']
  blank := List.all_eq_true.1 rfl

def entry (name : Literal) (value : List Char) : Member where
  before := noGaps
  name
  between := noGaps
  value := { before := space, text := value, after := noGaps }

def object (members : List Member) : Document where
  before := noGaps
  opening := noGaps
  members
  after := noGaps

def fortyFive : Numeral where
  whole :=
    { text := ['4', '5'], some := by decide, all := List.all_eq_true.1 rfl }
  unpadded := by decide

/-- Thirty, with an exponent. -/
def threeTens : Numeral where
  whole := { text := ['3'], some := by decide, all := List.all_eq_true.1 rfl }
  exponent := some
    { letter := 'e', sign := []
      digits :=
        { text := ['1'], some := by decide, all := List.all_eq_true.1 rfl }
      isLetter := by decide, isSign := by decide }
  unpadded := by decide

theorem threeTens_value : threeTens.value = 30 := by
  simp [Numeral.value, threeTens, Digits.value, Exponent.value, decimalValue,
    digitValue]
  norm_num

section Remote

def remote : Given where
  token := "t"
  url := some "http://vault"
  timeoutSeconds := some 45
  visible := by decide +kernel

def remoteVariables (name : String) : Option String :=
  [("VAULT_TOKEN", "t"), ("VAULT_URL", "http://vault"),
    ("VAULT_TIMEOUT_SECONDS", "45")].lookup name

theorem remote_setIn : remote.SetIn remoteVariables where
  token := rfl
  url := rfl
  apiKeysMount := rfl
  timeoutSeconds := .some (writesSeconds_toString 45)

def remoteDocument : Document :=
  object [entry (bare "timeout_seconds") fortyFive.text,
    entry (bare "more") (objectText noGaps [entry half threeTens.text]),
    entry escapedToken (bare "t").text,
    entry (bare "url") (bare "http://vault").text]

theorem remoteDocument_lists : remoteDocument.Lists remote where
  allowed := by
    simp only [remoteDocument, object, List.forall_mem_cons]
    refine ⟨?_, ?_, ?_, ?_, by simp⟩
    · apply allows_of_isFor .timeoutSeconds (by decide)
      exact ⟨45, rfl, fortyFive, rfl,
        fortyFive.value_of_plain (List.all_eq_true.1 rfl)⟩
    · apply allows_of_isValue (by decide)
      exact .object noGaps (List.forall_mem_singleton.2 (.number threeTens))
    · exact allows_of_isFor .token (by decide) ⟨bare "t", rfl, by decide⟩
    · exact allows_of_isFor .url (by decide)
        ⟨_, rfl, bare "http://vault", rfl, by decide⟩
  once := by decide +kernel
  present := by decide +kernel

theorem remoteDocument_readable : remoteDocument.Readable := by
  simp only [Document.Readable, remoteDocument, object, List.forall_mem_cons]
  refine ⟨⟨⟨"timeout_seconds", by decide⟩, fun _ => ?_⟩, ?_, ?_, ?_, by simp⟩
  · exact List.all_eq_true.1 rfl
  · exact readable_of_spells "more" (by decide) (by decide)
  · exact readable_of_spells "token" (by decide) (by decide)
  · exact readable_of_spells "url" (by decide) (by decide)

/-- Inside the value of a skipped member a name may be a half on its own. -/
theorem loaders_agree_on_remote :
    remote.SetIn remoteVariables ∧ remoteDocument.Lists remote ∧
    remoteDocument.Readable ∧
    ofDocument remoteDocument.text = .ok remote.settings ∧
    (ofDocument remoteDocument.text).map checked =
      .ok (load remoteVariables) := by
  obtain ⟨agree, read, _⟩ :=
    loaders_agree_iff_readable remote_setIn remoteDocument_lists
  exact ⟨remote_setIn, remoteDocument_lists, remoteDocument_readable,
    read remoteDocument_readable, agree.2 remoteDocument_readable⟩

end Remote

section Unreadable

def tokenOnly : Given where
  token := "t"
  visible := by decide +kernel

def tokenVariables (name : String) : Option String :=
  [("VAULT_TOKEN", "t")].lookup name

def withTimeout : Given where
  token := "t"
  timeoutSeconds := some 30
  visible := by decide +kernel

def timeoutVariables (name : String) : Option String :=
  [("VAULT_TOKEN", "t"), ("VAULT_TIMEOUT_SECONDS", "30")].lookup name

/-- A document with a half on its own as the name of a member that is
skipped. -/
def halfNamed : Document :=
  object [entry (bare "token") (bare "t").text, entry half fortyFive.text]

/-- A document with an exponent in its timeout. -/
def exponential : Document :=
  object [entry (bare "token") (bare "t").text,
    entry (bare "timeout_seconds") threeTens.text]

theorem allows_token {given : Given} (token : given.token = "t") :
    given.Allows (entry (bare "token") (bare "t").text) := by
  have spells : (bare "t").Spells given.token := by
    rw [token]
    decide
  exact allows_of_isFor .token (by decide) ⟨bare "t", rfl, spells⟩

theorem halfNamed_lists : halfNamed.Lists tokenOnly where
  allowed := by
    simp only [halfNamed, object, List.forall_mem_cons]
    refine ⟨allows_token rfl, ?_, by simp⟩
    exact allows_of_isValue (by decide) (.number fortyFive)
  once := by decide +kernel
  present := by decide +kernel

theorem exponential_lists : exponential.Lists withTimeout where
  allowed := by
    simp only [exponential, object, List.forall_mem_cons]
    refine ⟨allows_token rfl, ?_, by simp⟩
    apply allows_of_isFor .timeoutSeconds (by decide)
    exact ⟨30, rfl, threeTens, rfl, threeTens_value⟩
  once := by decide +kernel
  present := by decide +kernel

theorem halfNamed_unreadable : ¬ halfNamed.Readable := by
  intro readable
  obtain ⟨⟨name, spells⟩, _⟩ := readable (entry half fortyFive.text)
    (List.mem_cons_of_mem _ List.mem_cons_self)
  have reads := spells.scanString []
  have fails : scanString (half.pieces.flatMap Piece.text ++ ['"']) =
      .error .unexpected := by
    cbv
  cases fails.symm.trans reads

theorem exponential_unreadable : ¬ exponential.Readable := by
  intro readable
  obtain ⟨_, plain⟩ := readable (entry (bare "timeout_seconds") threeTens.text)
    (List.mem_cons_of_mem _ List.mem_cons_self)
  have digit := plain (by decide) 'e' (by decide)
  exact absurd digit (by decide)

/-- Documents with the settings of some variables, from which nothing is taken.
-/
theorem unreadable_documents_disagree :
    (tokenOnly.SetIn tokenVariables ∧ halfNamed.Lists tokenOnly ∧
      halfNamed.text = "\x7b\"token\": \"t\",\"\\ud800\": 45\x7d" ∧
      (ofDocument halfNamed.text).map checked ≠ .ok (load tokenVariables)) ∧
    withTimeout.SetIn timeoutVariables ∧ exponential.Lists withTimeout ∧
      exponential.text =
        "\x7b\"token\": \"t\",\"timeout_seconds\": 3e1\x7d" ∧
      (ofDocument exponential.text).map checked ≠
        .ok (load timeoutVariables) := by
  refine ⟨⟨⟨rfl, rfl, rfl, .none⟩, halfNamed_lists, by cbv, ?_⟩,
    ⟨rfl, rfl, rfl, .some (writesSeconds_toString 30)⟩, exponential_lists,
    by cbv, ?_⟩
  · exact map_checked_ne_of_unreadable halfNamed_lists halfNamed_unreadable _
  · exact map_checked_ne_of_unreadable exponential_lists
      exponential_unreadable _

end Unreadable

end Sample

end Settings

end KeyCustody
