import KeyCustody.Http.Url
import KeyCustody.Proofs.Net.IpAddress
import KeyCustody.Settings.Basic

/-!
# Whose machine a url leads to

The check of settings warns about a url that leads to another machine over an
open connection.  It takes the host from the front of the authority, up to the
first colon or in brackets.  In an address without user information that is the
host, unless the address repeats the scheme: the check drops all repetitions.
User information it takes for the host.

The main statement says for which addresses the warning is right all the same.
-/

namespace KeyCustody

open Text Settings

/-- The host that an address names: a name or a version 4 address as it is, or
a version 6 address in brackets. -/
inductive WebHost
  | plain (name : List Char)
  | bracketed (address : List Char)
deriving DecidableEq, Repr

namespace WebHost

def text : WebHost → List Char
  | .plain name => name
  | .bracketed address => '[' :: (address ++ [']'])

/-- A character that may stand in a plain host. -/
def isPlainChar (c : Char) : Bool :=
  !(Http.Url.endsAuthority c || ['@', ':', '[', ']'].contains c)

def IsValid : WebHost → Prop
  | .plain name => name ≠ [] ∧ name.all isPlainChar
  | .bracketed address => (IpAddress.sixGroups? address).isSome

instance : (host : WebHost) → Decidable host.IsValid
  | .plain _ => inferInstanceAs (Decidable (_ ∧ _))
  | .bracketed _ => inferInstanceAs (Decidable (_ = true))

/-- A host that is the machine itself: `localhost` in any case, an address in
the block of version 4 addresses that start with 127, or the version 6 address
whose groups are seven zeros and a one. -/
def IsLoopback : WebHost → Prop
  | .plain name =>
      name.map smallLetter = "localhost".toList ∨
        ∃ others, IpAddress.octets? name = some (127 :: others)
  | .bracketed address =>
      IpAddress.sixGroups? address = some [0, 0, 0, 0, 0, 0, 0, 1]

end WebHost

/-- An address behind the open scheme.  User information ends with the last at
sign of the authority, so it may hold at signs itself. -/
structure WebAddress where
  user : Option (List Char) := none
  host : WebHost
  port : Option (List Char) := none
  path : List Char := []
deriving DecidableEq, Repr

namespace WebAddress

def userText : Option (List Char) → List Char
  | some user => user ++ ['@']
  | none => []

def portText : Option (List Char) → List Char
  | some port => ':' :: port
  | none => []

/-- The authority of an address. -/
def server (address : WebAddress) : List Char :=
  userText address.user ++ (address.host.text ++ portText address.port)

/-- The address as it is written. -/
def text (address : WebAddress) : String :=
  .ofList (openScheme ++ (address.server ++ address.path))

/-- Each part has only characters that may stand in it, so that the text shows
which part is which. -/
structure IsValid (address : WebAddress) : Prop where
  user : ∀ user ∈ address.user, user.all fun c => !Http.Url.endsAuthority c
  host : address.host.IsValid
  port : ∀ port ∈ address.port, port.all isDigit
  path : address.path = [] ∨ address.path.head? = some '/'

instance (address : WebAddress) : Decidable address.IsValid :=
  decidable_of_iff
    ((∀ user ∈ address.user, user.all fun c => !Http.Url.endsAuthority c) ∧
      address.host.IsValid ∧
      (∀ port ∈ address.port, port.all isDigit) ∧
      (address.path = [] ∨ address.path.head? = some '/'))
    ⟨fun parts => ⟨parts.1, parts.2.1, parts.2.2.1, parts.2.2.2⟩,
      fun valid => ⟨valid.user, valid.host, valid.port, valid.path⟩⟩

end WebAddress

section Loopback

variable {host : List Char}

theorem isLoopbackHost_iff : isLoopbackHost host = true ↔
    host.map smallLetter = "localhost".toList ∨
      ∃ address, IpAddress.ofText? host = some address ∧
        address.isLoopback = true := by
  rw [isLoopbackHost, Bool.or_eq_true, beq_iff_eq]
  cases IpAddress.ofText? host <;> simp

theorem not_mem_of_isLoopbackHost (loopback : isLoopbackHost host = true)
    {c : Char} (foreign : IpAddress.isAddressChar c = false)
    (silent : smallLetter c ∉ "localhost".toList) : c ∉ host := by
  intro member
  rcases isLoopbackHost_iff.1 loopback with named | ⟨address, read, _⟩
  · apply silent
    rw [← named]
    exact List.mem_map_of_mem member
  · have char := IpAddress.isAddressChar_of_ofText? read c member
    exact absurd char (by simp [foreign])

theorem isLoopbackHost_plain (colonless : ':' ∉ host) :
    isLoopbackHost host = true ↔ (WebHost.plain host).IsLoopback := by
  rw [isLoopbackHost_iff, IpAddress.ofText?_of_colonless colonless]
  refine or_congr Iff.rfl ?_
  constructor
  · rintro ⟨address, read, loopback⟩
    obtain ⟨octets, isV4, rfl⟩ := Option.map_eq_some_iff.1 read
    cases octets with
    | nil => cases loopback
    | cons first others =>
        obtain rfl : first = 127 := by
          simpa [IpAddress.isLoopback] using loopback
        exact ⟨others, isV4⟩
  · rintro ⟨others, isV4⟩
    exact ⟨.v4 (127 :: others), by rw [isV4]; rfl, rfl⟩

theorem isLoopbackHost_bracketed
    (isV6 : (IpAddress.sixGroups? host).isSome) :
    isLoopbackHost host = true ↔ (WebHost.bracketed host).IsLoopback := by
  obtain ⟨groups, read⟩ := Option.isSome_iff_exists.1 isV6
  have colon := IpAddress.colon_mem_of_sixGroups? read
  have unnamed : host.map smallLetter ≠ "localhost".toList := by
    intro same
    have inside : smallLetter ':' ∈ "localhost".toList := by
      rw [← same]
      exact List.mem_map_of_mem colon
    exact absurd inside (by decide)
  rw [isLoopbackHost_iff, IpAddress.ofText?_of_colon colon, read,
    or_iff_right unnamed, WebHost.IsLoopback, read]
  simp [IpAddress.isLoopback]

/-- What stands before the first `stop` in user information, an at sign and
more: either it stands before a `stop` of the user information itself, or it
holds the at sign. -/
theorem takeWhile_user {stop : Char} (other : '@' ≠ stop)
    (user behind : List Char) :
    (∃ front rest, user = front ++ stop :: rest ∧ stop ∉ front ∧
      (user ++ '@' :: behind).takeWhile (· != stop) = front) ∨
    '@' ∈ (user ++ '@' :: behind).takeWhile (· != stop) := by
  by_cases stops : stop ∈ user
  · left
    obtain ⟨front, rest, rfl, absent⟩ := List.eq_append_cons_of_mem stops
    refine ⟨front, rest, rfl, absent, ?_⟩
    rw [List.append_assoc, List.cons_append, takeWhile_stop absent]
  · right
    rw [List.takeWhile_append_of_pos (bne_of_not_mem stops),
      List.takeWhile_cons_of_pos (by simp [other])]
    exact List.mem_append_right _ List.mem_cons_self

theorem at_not_mem (loopback : isLoopbackHost host = true) : '@' ∉ host :=
  not_mem_of_isLoopbackHost loopback (by decide) (by decide)

/-- User information that the check takes for a loopback host: it begins with
one, in brackets or followed by a colon. -/
def PosesAsLoopback (user : List Char) : Prop :=
  ∃ host rest, isLoopbackHost host = true ∧
    (user = '[' :: (host ++ ']' :: rest) ∨
      user = host ++ ':' :: rest ∧ ':' ∉ host)

theorem hostOf_of_unbracketed {text : List Char}
    (unbracketed : text.head? ≠ some '[') :
    hostOf text = text.takeWhile (· != ':') := by
  unfold hostOf
  split
  · simp at unbracketed
  · rfl

theorem isLoopbackHost_user (user behind : List Char) :
    isLoopbackHost (hostOf (user ++ '@' :: behind)) = true ↔
      PosesAsLoopback user := by
  constructor
  · intro loopback
    by_cases bracket : user.head? = some '['
    · obtain ⟨inner, rfl⟩ : ∃ inner, user = '[' :: inner := by
        cases user with
        | nil => cases bracket
        | cons first inner =>
            obtain rfl : first = '[' := by simpa using bracket
            exact ⟨inner, rfl⟩
      rw [List.cons_append, hostOf] at loopback
      rcases takeWhile_user (by decide : '@' ≠ ']') inner behind with
        ⟨front, rest, rfl, _, taken⟩ | holds
      · rw [taken] at loopback
        exact ⟨front, rest, loopback, Or.inl rfl⟩
      · exact absurd holds (at_not_mem loopback)
    · have unbracketed : (user ++ '@' :: behind).head? ≠ some '[' := by
        cases user with
        | nil => simp
        | cons first others => simpa using bracket
      rw [hostOf_of_unbracketed unbracketed] at loopback
      rcases takeWhile_user (by decide : '@' ≠ ':') user behind with
        ⟨front, rest, rfl, absent, taken⟩ | holds
      · rw [taken] at loopback
        exact ⟨front, rest, loopback, Or.inr ⟨rfl, absent⟩⟩
      · exact absurd holds (at_not_mem loopback)
  · rintro ⟨host, rest, loopback, rfl | ⟨rfl, colonless⟩⟩
    · have closed : ']' ∉ host :=
        not_mem_of_isLoopbackHost loopback (by decide) (by decide)
      rw [List.cons_append, hostOf, List.append_assoc, List.cons_append,
        takeWhile_stop closed]
      exact loopback
    · have unbracketed :
          (host ++ ':' :: (rest ++ '@' :: behind)).head? ≠ some '[' := by
        have opened : '[' ∉ host :=
          not_mem_of_isLoopbackHost loopback (by decide) (by decide)
        cases host with
        | nil => simp
        | cons first others =>
            intro same
            apply opened
            simp at same
            simp [same]
      rw [List.append_assoc, List.cons_append,
        hostOf_of_unbracketed unbracketed, takeWhile_stop colonless]
      exact loopback

end Loopback

section Repetition

variable {start : List Char}

theorem dropRepeated_eq_self {text : List Char}
    (differs : ¬ start <+: text) (times : Nat) :
    dropRepeated start times text = text := by
  cases times with
  | zero => rfl
  | succ times =>
      rw [dropRepeated, if_neg]
      rw [List.isPrefixOf_iff_prefix]
      exact differs

theorem dropRepeated_eq (some : start ≠ []) {text : List Char}
    {times more : Nat} (enough : text.length ≤ times)
    (plenty : text.length ≤ more) :
    dropRepeated start times text = dropRepeated start more text := by
  induction times generalizing text more with
  | zero =>
      have none : text = [] := List.eq_nil_of_length_eq_zero (by omega)
      have differs : ¬ start <+: text := by
        rw [none, List.prefix_nil]
        exact some
      rw [dropRepeated_eq_self differs,
        dropRepeated_eq_self differs]
  | succ times ih =>
      by_cases starts : start <+: text
      · have shorter : (text.drop start.length).length < text.length := by
          have first := List.length_pos_iff.2 some
          have whole := starts.length_le
          rw [List.length_drop]
          omega
        obtain ⟨less, rfl⟩ : ∃ less, more = less + 1 :=
          ⟨more - 1, by omega⟩
        rw [dropRepeated, dropRepeated,
          if_pos (List.isPrefixOf_iff_prefix.2 starts),
          if_pos (List.isPrefixOf_iff_prefix.2 starts)]
        exact ih (by omega) (by omega)
      · rw [dropRepeated_eq_self starts,
          dropRepeated_eq_self starts]

theorem dropRepeated_append (some : start ≠ []) (behind : List Char) :
    dropRepeated start (start ++ behind).length (start ++ behind) =
      dropRepeated start behind.length behind := by
  have first := List.length_pos_iff.2 some
  have starts : start.isPrefixOf (start ++ behind) = true :=
    List.isPrefixOf_iff_prefix.2 (List.prefix_append _ _)
  obtain ⟨times, long⟩ : ∃ times, (start ++ behind).length = times + 1 :=
    ⟨start.length - 1 + behind.length, by rw [List.length_append]; omega⟩
  have plenty : behind.length ≤ times := by
    rw [List.length_append] at long
    omega
  rw [long, dropRepeated, if_pos starts, List.drop_left]
  exact dropRepeated_eq some plenty (Nat.le_refl _)

end Repetition

/-- The text behind an open scheme is judged by the host in front of its first
slash, once repetitions of the scheme are dropped. -/
theorem isExposed_open (behind : List Char) :
    isExposed (.ofList (openScheme ++ behind)) =
      !isLoopbackHost (hostOf
        ((dropRepeated openScheme behind.length behind).takeWhile
          (· != '/'))) := by
  have starts : openScheme.isPrefixOf (openScheme ++ behind) = true :=
    List.isPrefixOf_iff_prefix.2 (List.prefix_append _ _)
  rw [isExposed, authority, String.toList_ofList, starts, Bool.true_and]
  rw [dropRepeated_append (by decide)]

/-- A url is judged like the url without the first of two schemes. -/
theorem isExposed_repeated (behind : List Char) :
    isExposed (.ofList (openScheme ++ (openScheme ++ behind))) =
      isExposed (.ofList (openScheme ++ behind)) := by
  rw [isExposed_open, isExposed_open, dropRepeated_append (by decide)]

namespace WebHost

variable {host : WebHost}

theorem isPlainChar_of_isValid {name : List Char}
    (valid : (WebHost.plain name).IsValid) {c : Char}
    (other : isPlainChar c = false) : c ∉ name := by
  intro member
  have plain := List.all_eq_true.1 valid.2 c member
  exact absurd plain (by simp [other])

theorem not_mem_text (valid : host.IsValid) {c : Char}
    (inName : isPlainChar c = false)
    (inAddress : IpAddress.isAddressChar c = false)
    (around : c ∉ ['[', ']']) : c ∉ host.text := by
  cases host with
  | plain name => exact isPlainChar_of_isValid valid inName
  | bracketed address =>
      obtain ⟨groups, read⟩ := Option.isSome_iff_exists.1 valid
      intro member
      simp only [text, List.mem_cons, List.mem_append, List.not_mem_nil,
        or_false, not_or] at member around
      rcases member with opens | inside | closes
      · exact around.1 opens
      · exact absurd (IpAddress.isAddressChar_of_sixGroups? read c inside)
          (by simp [inAddress])
      · exact around.2 closes

theorem isLoopbackHost_text (valid : host.IsValid)
    (port : Option (List Char)) :
    isLoopbackHost (hostOf (host.text ++ WebAddress.portText port)) = true ↔
      host.IsLoopback := by
  cases host with
  | plain name =>
      have colonless : ':' ∉ name := isPlainChar_of_isValid valid (by decide)
      have unbracketed :
          (name ++ WebAddress.portText port).head? ≠ some '[' := by
        intro bracket
        apply isPlainChar_of_isValid valid (by decide : isPlainChar '[' = false)
        apply List.mem_of_mem_head?
        cases name with
        | nil => exact absurd rfl valid.1
        | cons first others => simpa using bracket
      have cut : (name ++ WebAddress.portText port).takeWhile (· != ':') =
          name := by
        cases port with
        | some port => exact takeWhile_stop colonless port
        | none =>
            rw [WebAddress.portText, List.append_nil, takeWhile_whole colonless]
      rw [text, hostOf_of_unbracketed unbracketed, cut]
      exact isLoopbackHost_plain colonless
  | bracketed address =>
      obtain ⟨groups, read⟩ := Option.isSome_iff_exists.1 valid
      have closed : ']' ∉ address := by
        intro member
        exact absurd (IpAddress.isAddressChar_of_sixGroups? read _ member)
          (by decide)
      rw [text, List.cons_append, hostOf, List.append_assoc,
        List.singleton_append, takeWhile_stop closed]
      exact isLoopbackHost_bracketed valid

end WebHost

namespace WebAddress

variable {address : WebAddress}

theorem slash_not_mem_server (valid : address.IsValid) :
    '/' ∉ address.server := by
  obtain ⟨user, host, port, path⟩ := address
  simp only [server, List.mem_append, not_or]
  refine ⟨?_, WebHost.not_mem_text valid.host (by decide) (by decide)
    (by decide), ?_⟩
  · cases user with
    | none => exact List.not_mem_nil
    | some user =>
        intro member
        simp only [userText, List.mem_append, List.mem_singleton] at member
        rcases member with inside | same
        · have kept := List.all_eq_true.1 (valid.user user rfl) _ inside
          exact absurd kept (by decide)
        · exact absurd same (by decide)
  · cases port with
    | none => exact List.not_mem_nil
    | some port =>
        intro member
        rcases List.mem_cons.1 member with same | inside
        · exact absurd same (by decide)
        · have digit := List.all_eq_true.1 (valid.port port rfl) _ inside
          exact absurd digit (by decide)

theorem takeWhile_server (valid : address.IsValid) :
    (address.server ++ address.path).takeWhile (· != '/') = address.server := by
  have slashless := slash_not_mem_server valid
  cases path : address.path with
  | nil =>
      rw [List.append_nil, takeWhile_whole slashless]
  | cons first rest =>
      obtain rfl : first = '/' := by simpa [path] using valid.path
      exact takeWhile_stop slashless rest

theorem of_repeats (valid : address.IsValid) {behind : List Char}
    (repeats : address.server ++ address.path = openScheme ++ behind) :
    address.user = none ∧ address.host = .plain "http".toList ∧
      address.port = some [] ∧ address.path = '/' :: '/' :: behind := by
  have server : address.server = "http:".toList := by
    rw [← takeWhile_server valid, repeats]
    rfl
  have path : address.path = '/' :: '/' :: behind := by
    rw [server] at repeats
    exact List.append_cancel_left repeats
  obtain ⟨user, host, port, _⟩ := address
  have userless : user = none := by
    cases user with
    | none => rfl
    | some user =>
        have inside : '@' ∈ "http:".toList := by
          rw [← server]
          simp [WebAddress.server, userText]
        exact absurd inside (by decide)
  subst userless
  rw [WebAddress.server, userText, List.nil_append] at server
  cases host with
  | bracketed address => cases server
  | plain name =>
      have colonless : ':' ∉ name :=
        WebHost.isPlainChar_of_isValid valid.host (by decide)
      cases port with
      | none =>
          rw [portText, List.append_nil] at server
          change name = "http:".toList at server
          exact absurd (by rw [server]; decide) colonless
      | some port =>
          have cut := takeWhile_stop colonless port
          obtain rfl : name = "http".toList := by
            rw [← cut]
            exact congrArg (List.takeWhile (· != ':')) server
          have same : ':' :: port = [':'] := List.append_cancel_left server
          obtain rfl : port = [] := (List.cons.inj same).2
          exact ⟨rfl, rfl, rfl, path⟩

/-- The check goes wrong about an address.  About user information it is wrong
where that begins with a loopback host and the address does not lead to one, or
the other way around.  Without user information it is wrong only about a
repeated scheme, in front of what it takes for a loopback host. -/
def Misleads (address : WebAddress) : Prop :=
  match address.user with
  | some user => ¬ (PosesAsLoopback user ↔ address.host.IsLoopback)
  | none =>
      address.host = .plain "http".toList ∧ address.port = some [] ∧
        ∃ behind, address.path = '/' :: '/' :: behind ∧
          isExposed (.ofList (openScheme ++ behind)) = false

theorem isExposed_of_single (valid : address.IsValid)
    (single : ¬ openScheme <+: address.server ++ address.path) :
    isExposed address.text = !isLoopbackHost (hostOf address.server) := by
  rw [text, isExposed_open, dropRepeated_eq_self single,
    takeWhile_server valid]

theorem isExposed_iff_not_isLoopback (valid : address.IsValid) :
    (isExposed address.text = true ↔ ¬ address.host.IsLoopback) ↔
      ¬ address.Misleads := by
  by_cases repeats : openScheme <+: address.server ++ address.path
  · obtain ⟨behind, same⟩ := repeats
    obtain ⟨user, host, port, path⟩ := of_repeats valid same.symm
    have remote : ¬ address.host.IsLoopback := by
      rw [host]
      rintro (named | ⟨others, octets⟩)
      · exact absurd named (by decide)
      · have unread : IpAddress.octets? "http".toList = none := by decide
        rw [unread] at octets
        cases octets
    rw [text, ← same, isExposed_repeated, iff_true_right remote, Misleads,
      user]
    simp [host, port, path]
  · rw [isExposed_of_single valid repeats, Bool.not_eq_true',
      ← Bool.not_eq_true]
    obtain ⟨user, host, port, path⟩ := address
    cases user with
    | some user =>
        have cut : WebAddress.server { user := some user, host, port, path } =
            user ++ '@' :: (host.text ++ portText port) := by
          simp [server, userText]
        rw [cut, isLoopbackHost_user, Misleads]
        grind
    | none =>
        have cut : WebAddress.server { host, port, path } =
            host.text ++ portText port := by
          simp [server, userText]
        have straight : ¬ Misleads { host, port, path } := by
          rintro ⟨rfl, rfl, behind, rfl, _⟩
          exact repeats ⟨behind, rfl⟩
        rw [cut, WebHost.isLoopbackHost_text valid.host]
        simp [straight]

end WebAddress

namespace Settings

/-- The check of accepted settings warns about an address exactly if it leads
to another machine, unless it goes wrong about the address. -/
theorem check_warns_rightly_iff {settings : Settings} {address : WebAddress}
    (valid : address.IsValid) (url : settings.url = address.text)
    (accepted : settings.refusal? = none) :
    (settings.check = .ok [.exposedUrl address.text] ∨
      settings.check = .ok []) ∧
    ((settings.check = .ok [.exposedUrl address.text] ↔
        ¬ address.host.IsLoopback) ↔
      ¬ address.Misleads) := by
  have checked : settings.check = .ok settings.warnings := by
    rw [check, accepted]
  rw [← WebAddress.isExposed_iff_not_isLoopback valid, checked, warnings, url]
  cases isExposed address.text <;> simp

/-- User information with a password does not look like a loopback host. -/
theorem check_warns_rightly_password :
    let address : WebAddress :=
      { user := some "admin:secret".toList
        host := .plain "vault.example".toList
        port := some "8200".toList
        path := "/".toList }
    let settings : Settings := { token := "t", url := address.text }
    address.IsValid ∧ settings.refusal? = none ∧
    (settings.check = .ok [.exposedUrl address.text] ∨
      settings.check = .ok []) ∧
    ((settings.check = .ok [.exposedUrl address.text] ↔
        ¬ address.host.IsLoopback) ↔
      ¬ address.Misleads) := by
  refine ⟨by decide, by decide, ?_⟩
  exact check_warns_rightly_iff (by decide) rfl (by decide)

/-- A remote machine passes for the machine itself when user information in
front of it begins with `localhost` and a colon. -/
theorem check_passes_remote :
    let address : WebAddress :=
      { user := some "localhost:x".toList
        host := .plain "vault.example".toList }
    let settings : Settings :=
      { token := "t", url := "http://localhost:x@vault.example" }
    address.IsValid ∧ settings.url = address.text ∧
      ¬ address.host.IsLoopback ∧ settings.check = .ok [] := by
  refine ⟨by decide, by decide, ?_, rfl⟩
  rw [← isLoopbackHost_plain (by decide)]
  decide

end Settings

end KeyCustody
