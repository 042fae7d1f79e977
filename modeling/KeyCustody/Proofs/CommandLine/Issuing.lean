import KeyCustody.CommandLine
import KeyCustody.Proofs.Http.Committing
import KeyCustody.Proofs.Session.Release
import KeyCustody.Proofs.Uuid.Text

/-!
# Issuing a key from the command line

The program is played against a server that answers requests from a prepared
list.  It prints the key that it made up and exits with 0 exactly if the server
has stored the key: it answered with success to a patch at the user's data, or
to a post there right behind a patch that was answered as for a missing path.
In all other cases it exits with 1 and prints nothing.
-/

namespace KeyCustody

namespace CommandLine

open Http Text

/-- The exit of the program when the server answers from a list, and the
requests that the server has received by then. -/
def play (lookup : String → Option String) (arguments : List String)
    (fresh : IssuedKey) (answers : List Answer) : Exit × List Request :=
  match prepare lookup arguments with
  | .error exit => (exit, [])
  | .ok (settings, command) =>
      let done := (command.perform ⟨settings.apiKeysMount⟩ fresh).run
        (Link.service settings) { store := { peer := { answers } } }
      (.ofOutcome done.1, done.2.store.peer.received)

/-- The response to the request at a position, unless the connection fails. -/
def answerTo (answers : List Answer) (position : Nat) : Option Response :=
  Peer.answer? { answers } position

/-- The request at a position has stored what it holds at a target.  It is a
patch, or a post right behind a patch that was answered as for a missing path,
and it was answered with success. -/
structure Stored (answers : List Answer) (received : List Request)
    (target : String) (position : Nat) (request : Request) : Prop where
  sent : received[position]? = some request
  toTarget : request.url.target = target
  answered : isSuccess (answerTo answers position) = true
  isWrite : request.method = .patch ∨
    request.method = .post ∧ ∃ before patch, position = before + 1 ∧
      received[before]? = some patch ∧ patch.method = .patch ∧
      patch.url.target = target ∧ isMissing (answerTo answers before) = true

section Arguments

variable {text : String} {user : Uuid}

theorem looksLikeOption_of_isUuid (named : Uuid.ofString? text = some user) :
    looksLikeOption text = false := by
  unfold looksLikeOption
  split
  next c rest shown =>
    rw [Uuid.ofString?, shown, Uuid.ofChars?_hyphen] at named
    cases named
  next => rfl

theorem ofArguments?_issue (named : Uuid.ofString? text = some user) :
    Command.ofArguments? ["issue", "--user", text] = some (.issue user) := by
  have cut : "--user".toList.dropWhile (· != '=') = [] := by decide
  have name : OptionName.ofChars? ("--user".toList.takeWhile (· != '=')) =
      some .user := by
    decide
  have given : options? ["--user", text] = some [(.user, text)] := by
    unfold options?
    simp only [cut, name, looksLikeOption_of_isUuid named]
    rw [if_neg (by decide), options?]
    rfl
  simp [Command.ofArguments?, given, only?, named]

theorem prepare_issue {lookup : String → Option String}
    (named : Uuid.ofString? text = some user) {settings : Settings}
    {warnings : List Warning}
    (loads : Settings.load lookup = .ok (settings, warnings)) :
    prepare lookup ["issue", "--user", text] =
      .ok (settings, .issue user) := by
  have version : asksVersion ["issue", "--user", text] = false := by
    rw [asksVersion]
    decide
  rw [prepare, version, ofArguments?_issue named, loads]
  rfl

end Arguments

section Storing

variable {answers : List Answer} {sent : List Request} {target : String}
variable {position : Nat} {request : Request} {settings : Settings} {url : Url}
variable {entries : List (String × Json)}
variable (unpatched : ∀ request ∈ sent, request.method ≠ .patch)
include unpatched

theorem not_stored {later : List Request} (early : position < sent.length) :
    ¬ Stored answers (sent ++ later) target position request := by
  intro stored
  have earlier {index : Nat} {other : Request} (before : index < sent.length)
      (held : (sent ++ later)[index]? = some other) : other ∈ sent := by
    rw [List.getElem?_append_left before] at held
    exact List.mem_of_getElem? held
  rcases stored.isWrite with patches | ⟨_, before, patch, rfl, held, patches, _⟩
  · exact unpatched request (earlier early stored.sent) patches
  · exact unpatched patch (earlier (by omega) held) patches

theorem not_stored_unpatched :
    ¬ Stored answers sent target position request := by
  intro stored
  rcases Nat.lt_or_ge position sent.length with before | after
  · have more : sent ++ [] = sent := List.append_nil sent
    rw [← more] at stored
    exact not_stored unpatched before stored
  · have held := stored.sent
    rw [List.getElem?_eq_none after] at held
    cases held

/-- The requests that set entries have stored them exactly if the answer that
decides is a success, and the last of these requests has. -/
theorem stored_iff (atTarget : url.target = target) :
    Stored answers (sent ++ setting settings url entries
        (answerTo answers sent.length)) target position request ↔
      isSuccess (Peer.deciding? { answers } sent.length) = true ∧
        if isMissing (answerTo answers sent.length) then
          position = sent.length + 1 ∧
            request = writing settings .post url entries
        else
          position = sent.length ∧
            request = writing settings .patch url entries := by
  have placed {later : List Request}
      (stored : Stored answers (sent ++ later) target position request) :
      ∃ offset, position = sent.length + offset ∧
        later[offset]? = some request := by
    have late : sent.length ≤ position :=
      Nat.le_of_not_lt fun early => not_stored unpatched early stored
    have held := stored.sent
    rw [List.getElem?_append_right late] at held
    exact ⟨_, (Nat.add_sub_of_le late).symm, held⟩
  have decides : Peer.deciding? { answers } sent.length =
      if isMissing (answerTo answers sent.length) then
        answerTo answers (sent.length + 1)
      else answerTo answers sent.length :=
    rfl
  rw [decides, setting]
  cases missing : isMissing (answerTo answers sent.length) with
  | true =>
      rw [if_pos rfl, if_pos rfl, if_pos rfl]
      constructor
      · intro stored
        have answered := stored.answered
        obtain ⟨_ | _ | later, rfl, held⟩ := placed stored
        · rw [Nat.add_zero, isSuccess_of_isMissing missing] at answered
          cases answered
        · exact ⟨answered, rfl, (Option.some.inj held).symm⟩
        · cases held
      · rintro ⟨success, rfl, rfl⟩
        exact ⟨by simp, atTarget, success, Or.inr ⟨rfl, sent.length,
          writing settings .patch url entries, rfl, by simp, rfl, atTarget,
          missing⟩⟩
  | false =>
      rw [if_neg Bool.false_ne_true, if_neg Bool.false_ne_true,
        if_neg Bool.false_ne_true]
      constructor
      · intro stored
        have answered := stored.answered
        obtain ⟨_ | later, rfl, held⟩ := placed stored
        · exact ⟨answered, rfl, (Option.some.inj held).symm⟩
        · cases held
      · rintro ⟨success, rfl, rfl⟩
        exact ⟨by simp, atTarget, success, Or.inl rfl⟩

theorem exists_stored_iff (atTarget : url.target = target) :
    (∃ position request, Stored answers (sent ++ setting settings url entries
        (answerTo answers sent.length)) target position request) ↔
      isSuccess (Peer.deciding? { answers } sent.length) = true := by
  simp only [stored_iff unpatched atTarget]
  split <;> simp

theorem eq_writing_of_stored (atTarget : url.target = target)
    (stored : Stored answers (sent ++ setting settings url entries
        (answerTo answers sent.length)) target position request) :
    ∃ method, request = writing settings method url entries := by
  obtain ⟨_, last⟩ := (stored_iff unpatched atTarget).1 stored
  split at last
  · exact ⟨.post, last.2⟩
  · exact ⟨.patch, last.2⟩

end Storing

theorem run_work_issue {σ : Type} (service : Service σ) (ring : KeyRing)
    (fresh : IssuedKey) (user : Uuid) (session : Session) (world : World σ) :
    ((Command.issue user).work ring fresh session).run service world =
      let queued := ring.add session user fresh.id.toString fresh.key
      let done := queued.commit.run service world
      ((done.1.1.map fun _ => issuedJson fresh, done.1.2), done.2) := by
  simp only [Command.work, KeyRing.issue, Dialogue.bind_eq_bind,
    Dialogue.run_bind]
  generalize (ring.add session user fresh.id.toString fresh.key).commit.run
    service world = done
  obtain ⟨⟨outcome, left⟩, reached⟩ := done
  cases outcome <;> rfl

/-- When nothing is left to undo, the client is released behind the commit, and
that does not change how the command ends. -/
theorem run_perform_issue {σ : Type} {service : Service σ} {ring : KeyRing}
    {fresh : IssuedKey} {user : Uuid} {client : Handle}
    {world reached : World σ} {outcome : Outcome Unit} {left : Session}
    (connects : (service.connect world.store).1 = .value client)
    (run : (ring.add { id := 1, client } user fresh.id.toString
      fresh.key).commit.run service
        { world with store := (service.connect world.store).2 } =
          ((outcome, left), reached))
    (settled : left.Settled) :
    ((Command.issue user).perform ring fresh).run service world =
      (outcome.map fun _ => issuedJson fresh,
        (left.release.run service reached).2) := by
  refine (Session.run_scope_dialogue connects 1 _).trans ?_
  dsimp only
  rw [run_work_issue]
  dsimp only
  rw [run, Session.leave_settled left settled,
    (Session.run_release service left reached).1]

theorem peer_release (settings : Settings) (session : Session)
    (world : World Link) :
    (session.release.run (Link.service settings) world).2.store.peer =
      world.store.peer :=
  rfl

/-- Issuing a key sends what committing its write sends, and nothing more. -/
theorem issue_sends {settings : Settings} {server : String} {home : Url}
    (leads : LeadsTo settings server home)
    (sendable : isSendable settings.token = true) (user : Uuid)
    (fresh : IssuedKey) (answers : List Answer) :
    let mount := settings.apiKeysMount
    let url := home.beneath (bundleName mount user.toString)
    let entries := [(fresh.id.toString, Json.string fresh.key.toString)]
    ∃ sent outcome reached,
      ((Command.issue user).perform ⟨mount⟩ fresh).run (Link.service settings)
          { store := { peer := { answers } } } =
        (outcome.map fun _ => issuedJson fresh, reached) ∧
      (∀ request ∈ sent, request.method ≠ .patch) ∧
      ((∃ error, outcome = .fault error ∧
          reached.store.peer.received = sent) ∨
        outcome = writeOutcome mount user.toString
            (Peer.deciding? { answers } sent.length) ∧
          reached.store.peer.received = sent ++
            setting settings url entries (answerTo answers sent.length)) := by
  intro mount url entries
  let write : Write :=
    ⟨mount, user.toString, fresh.id.toString, fresh.key.toString⟩
  have only : (KeyRing.add ⟨mount⟩ { id := 1, client := 0 } user
      fresh.id.toString fresh.key).operations = [write.operation] :=
    rfl
  obtain ⟨sent, outcome, left, reached, run, settled, _, unpatched, ends⟩ :=
    commit_sends leads sendable only
      { store := { connected := 1, peer := { answers } } }
      ⟨List.not_mem_nil, rfl⟩
  refine ⟨sent, outcome, _, run_perform_issue rfl run settled, unpatched, ?_⟩
  rw [peer_release]
  rcases ends with ⟨error, failed, peer⟩ | ⟨decided, peer⟩
  · refine Or.inl ⟨error, failed, ?_⟩
    rw [peer, Peer.received_afterAll]
    rfl
  · refine Or.inr ⟨decided, ?_⟩
    rw [peer, Peer.received_afterAll]
    rfl

/-- The exit of a program that prints a key and its id. -/
def Exit.issued (fresh : IssuedKey) : Exit where
  code := 0
  output := "\x7b\n  \"api_key_id\": \"" ++ fresh.id.toString ++
    "\",\n  \"api_key\": \"" ++ fresh.key.toString ++ "\"\n\x7d\n"

/-- The text of a body that holds a key under its id. -/
def keyBody (fresh : IssuedKey) : String :=
  "\x7b\"data\":\x7b\"" ++ fresh.id.toString ++ "\":\"" ++
    fresh.key.toString ++ "\"\x7d\x7d"

theorem ofOutcome_value (fresh : IssuedKey) :
    Exit.ofOutcome (.value (issuedJson fresh)) = Exit.issued fresh := by
  have id : Json.writeString "api_key_id" = "\"api_key_id\"".toList := by
    decide
  have key : Json.writeString "api_key" = "\"api_key\"".toList := by
    decide
  have printed : (issuedJson fresh).renderPretty ++ "\n" =
      (Exit.issued fresh).output := by
    apply String.toList_injective
    simp [issuedJson, Exit.issued, Json.renderPretty, Json.writePretty,
      Json.writePrettyMembers, Json.newLine, Uuid.writeString_toString,
      Uuid.toList_toString, id, key]
  rw [Exit.ofOutcome, printed]
  rfl

theorem render_keyBody (fresh : IssuedKey) :
    (Json.object [("data", .object
      [(fresh.id.toString, .string fresh.key.toString)])]).render =
        keyBody fresh := by
  have data : Json.writeString "data" = "\"data\"".toList := by
    decide
  apply String.toList_injective
  simp [keyBody, Json.render, Json.write, Json.writeMembers,
    Uuid.writeString_toString, Uuid.toList_toString, data]

/-- The target of the requests about the keys of a user. -/
def userTarget (mount : String) (user : Uuid) : String :=
  "/v1/" ++ encodeName (trimSlashes mount) ++ "/data/" ++
    encodeName user.toString

theorem dotless_toString (user : Uuid) : Dotless user.toString := by
  intro segment member dots
  have whole : segments (· == '/') user.toChars = [user.toChars] :=
    segments_of_whole user.slashless_toChars
  rw [Uuid.toString, String.toList_ofList, whole,
    List.mem_singleton] at member
  have hyphen := user.hyphen_mem_toChars
  rw [← member] at hyphen
  rcases dots with rfl | rfl <;> exact absurd hyphen (by decide)

theorem target_beneath_user {home : Url} (plain : home.query = none)
    {mount : String} (dotless : Dotless (trimSlashes mount)) (user : Uuid) :
    (home.beneath (bundleName mount user.toString)).target =
      userTarget mount user := by
  have whole : Dotless (bundleName mount user.toString) := by
    rw [dotless_bundleName, user.trimSlashes_toString]
    exact ⟨dotless, dotless_toString user⟩
  rw [target_of_dotless plain whole, bundleName, user.trimSlashes_toString,
    encodeName_versioned, encodeName_dataName, userTarget,
    slash_versioned_data]

/-- Unless the work crashes, the program prints the key exactly if the work ends
with a value, and otherwise nothing. -/
theorem ofOutcome_issued (fresh : IssuedKey) {outcome : Outcome Unit}
    (quiet : ∀ message, outcome ≠ .crash message) :
    let exit := Exit.ofOutcome (outcome.map fun _ => issuedJson fresh)
    (exit = Exit.issued fresh ↔ outcome = .value ()) ∧
      (exit ≠ Exit.issued fresh → exit.code = 1 ∧ exit.output = "") := by
  have codes (error : StoreError) : Exit.failure error ≠ Exit.issued fresh := by
    intro same
    have code : 1 = 0 := congrArg Exit.code same
    cases code
  cases outcome with
  | value result =>
      have printed : Exit.ofOutcome ((Outcome.value result).map fun _ =>
          issuedJson fresh) = Exit.issued fresh :=
        ofOutcome_value fresh
      exact ⟨⟨fun _ => rfl, fun _ => printed⟩, absurd printed⟩
  | fault error =>
      refine ⟨⟨fun same => absurd same (codes error), nofun⟩, fun _ => ?_⟩
      exact ⟨rfl, rfl⟩
  | crash message => exact absurd rfl (quiet message)

theorem writeOutcome_ne_crash (mount path : String) (answer : Option Response)
    (message : String) : writeOutcome mount path answer ≠ .crash message := by
  rw [← inBackground_writeOutcome]
  exact Outcome.inBackground_ne_crash _ message

/-- With settings that load and lead to a server, issuing a key for a user
prints the new key with its id and exits with 0 exactly if the server has stored
something at the user's data in the mount point that is set.  What is stored
then is just the key that is printed, under its id.  In every other case nothing
is printed and the program exits with 1. -/
theorem issue_prints_iff {lookup : String → Option String}
    {settings : Settings} {warnings : List Warning} {server text : String}
    {home : Url} {user : Uuid}
    (loads : Settings.load lookup = .ok (settings, warnings))
    (leads : LeadsTo settings server home)
    (sendable : isSendable settings.token = true)
    (dotless : Dotless (trimSlashes settings.apiKeysMount))
    (named : Uuid.ofString? text = some user) (fresh : IssuedKey)
    (answers : List Answer) :
    let played := play lookup ["issue", "--user", text] fresh answers
    let target := userTarget settings.apiKeysMount user
    (played.1 = Exit.issued fresh ↔
      ∃ position request, Stored answers played.2 target position request) ∧
    (∀ position request, Stored answers played.2 target position request →
      request.url.host = home.host ∧ request.url.port = home.port ∧
      request.body = some (.object [("data", .object
        [(fresh.id.toString, .string fresh.key.toString)])]) ∧
      request.body.map Json.render = some (keyBody fresh)) ∧
    (played.1 ≠ Exit.issued fresh →
      played.1.code = 1 ∧ played.1.output = "") := by
  obtain ⟨sent, outcome, reached, run, unpatched, ends⟩ :=
    issue_sends leads sendable user fresh answers
  have played : play lookup ["issue", "--user", text] fresh answers =
      (.ofOutcome (outcome.map fun _ => issuedJson fresh),
        reached.store.peer.received) := by
    rw [play, prepare_issue named loads]
    dsimp only
    rw [run]
  have target := target_beneath_user (leads.isHome.ofAuthority? []).2 dotless
    user
  rw [played]
  dsimp only
  rcases ends with ⟨error, rfl, received⟩ | ⟨decided, received⟩
  · have quiet : ∀ message, (Outcome.fault error : Outcome Unit) ≠
      .crash message := fun _ => nofun
    obtain ⟨prints, silent⟩ := ofOutcome_issued fresh quiet
    rw [received]
    refine ⟨⟨fun printed => ?_, fun ⟨_, _, stored⟩ => ?_⟩,
      fun _ _ stored => ?_, silent⟩
    · cases prints.1 printed
    · exact absurd stored (not_stored_unpatched unpatched)
    · exact absurd stored (not_stored_unpatched unpatched)
  · have quiet : ∀ message, outcome ≠ .crash message := by
      rw [decided]
      exact writeOutcome_ne_crash _ _ _
    obtain ⟨prints, silent⟩ := ofOutcome_issued fresh quiet
    have valued : outcome = .value () ↔
        isSuccess (Peer.deciding? { answers } sent.length) = true := by
      rw [← Outcome.isValue_eq_true, decided, isValue_writeOutcome]
    rw [received]
    refine ⟨prints.trans (valued.trans (exists_stored_iff unpatched
      target).symm), fun position request stored => ?_, silent⟩
    obtain ⟨method, rfl⟩ := eq_writing_of_stored unpatched target stored
    exact ⟨home.host_beneath _, home.port_beneath _, rfl,
      congrArg some (render_keyBody fresh)⟩

/-- Variables of which only the token is set. -/
def tokenOnly (name : String) : Option String :=
  if name = "VAULT_TOKEN" then some "vault-token" else none

/-- A server without an engine for the keys that knows nothing of the user. -/
def newcomer : List Answer :=
  [.respond (.ofText 200 "\x7b\"sys/\":1\x7d"), .respond (.ofText 204 ""),
    .respond (.ofText 404 ""), .respond (.ofText 200 "")]

/-- The key of a user without keys is stored by the post behind the patch. -/
theorem issue_prints_newcomer :
    let text := "00000000-0000-0000-0000-00000000002A"
    let fresh : IssuedKey := ⟨⟨1⟩, ⟨2⟩⟩
    let played := play tokenOnly ["issue", "--user", text] fresh newcomer
    Settings.load tokenOnly = .ok (usual, []) ∧
    Uuid.ofString? text = some ⟨42⟩ ∧ played.1 = Exit.issued fresh ∧
    ∃ position request, Stored newcomer played.2 (userTarget "api-keys" ⟨42⟩)
      position request := by
  intro text fresh
  have loads : Settings.load tokenOnly = .ok (usual, []) := by decide
  have named : Uuid.ofString? text = some ⟨42⟩ := by decide
  obtain ⟨prints, _, silent⟩ := issue_prints_iff loads usual_leadsTo
    (by decide) (by decide) named fresh newcomer
  have code : (play tokenOnly ["issue", "--user", text] fresh
      newcomer).1.code = 0 := by
    decide +kernel
  have printed : (play tokenOnly ["issue", "--user", text] fresh
      newcomer).1 = Exit.issued fresh := by
    by_contra other
    rw [(silent other).1] at code
    cases code
  exact ⟨loads, named, printed, prints.1 printed⟩

end CommandLine

end KeyCustody
