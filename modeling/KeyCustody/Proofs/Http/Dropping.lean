import KeyCustody.Proofs.Http.Writes
import KeyCustody.Proofs.Json.Resending

/-!
# Dropping entries through a server

An entry is dropped by reading its bundle and putting what is left.  Nothing is
put unless the answer to reading shows the entry in an object, and then all
other members of that object are put.  Their texts, words, arrays and objects
are as they were answered.  Their numbers are those that the answered numerals
are read as, written anew, which changes some of them.
-/

namespace KeyCustody

namespace Http

open Text

variable {settings : Settings} {mount path key : String} {url : Url}
variable {client : Handle} {world : World Link}

/-- A success with a body that is a text of data. -/
def Holds (answer : Option Response) (body : Json.Data Json.Numeral) : Prop :=
  ∃ response text, answer = some response ∧ response.isSuccess = true ∧
    response.body.bind utf8Chars? = some text ∧
    Json.TextOf Json.Numeral.Readable 127 text body

/-- What lies under `data` in the `data` of a body. -/
def kept? (body : Json.Data Json.Numeral) : Option (Json.Data Json.Numeral) :=
  (body.get? "data").bind fun data => data.get? "data"

/-- The answer to reading a bundle tells that it has no such entry: the bundle
is missing, or its data are no object with that member. -/
def Lacks (key : String) (answer : Option Response) : Prop :=
  isMissing answer = true ∨ ∃ body, Holds answer body ∧
    ∀ members, kept? body = some (.object members) →
      key ∉ members.map Prod.fst

/-- The answer to reading a bundle shows an entry among the members of an
object. -/
def Shows (key : String) (members : List (String × Json.Data Json.Numeral))
    (answer : Option Response) : Prop :=
  ∃ body, Holds answer body ∧ kept? body = some (.object members) ∧
    key ∈ members.map Prod.fst

/-- The body of a request is a text of an object with data under `data`. -/
def Carries (request : Request) (data : Json.Data Json.Numeral) : Prop :=
  ∃ text, request.body.map Json.render = some text ∧
    Json.TextOf (fun _ => True) 127 text.toList (.object [("data", data)])

/-- The members without those of a name. -/
def others (key : String) (members : List (String × Json.Data Json.Numeral)) :
    List (String × Json.Data Json.Numeral) :=
  members.filter fun member => member.1 ≠ key

/-- What members are read as. -/
def entriesOf (members : List (String × Json.Data Json.Numeral)) :
    List (String × Json) :=
  members.map fun member => (member.1, member.2.toJson)

section Reading

variable {answer : Option Response} {body : Json.Data Json.Numeral}

theorem holds_iff {response : Response} {value : Json} :
    response.body.bind Json.ofBytes? = some value ↔
      ∃ text data, response.body.bind utf8Chars? = some text ∧
        Json.TextOf Json.Numeral.Readable 127 text data ∧
        value = data.toJson := by
  have parsed (text : List Char) : (Json.read text).toOption = some value ↔
      Json.read text = .ok value := by
    cases Json.read text with
    | error malformed => simp [Except.toOption]
    | ok found => simp [Except.toOption]
  cases response.body with
  | none => simp
  | some bytes =>
      simp only [Option.bind_some, Json.ofBytes?]
      cases utf8Chars? bytes with
      | none => simp
      | some text => simp [parsed, Json.read_eq_ok_iff]

theorem replyOf_read_of_holds (holds : Holds answer body) :
    replyOf (.read mount path) answer = .value (bundleOf body.toJson) := by
  obtain ⟨response, text, rfl, success, decoded, writes⟩ := holds
  have parsed := holds_iff.2 ⟨text, body, decoded, writes, rfl⟩
  simp only [replyOf, success, if_true, accept, readBody, parsed]

theorem kept?_toJson (body : Json.Data Json.Numeral) :
    ((body.toJson.get? "data").bind fun data => data.get? "data") =
      (kept? body).map Json.Data.toJson := by
  rw [Json.Data.get?_toJson, kept?]
  cases body.get? "data" with
  | none => rfl
  | some data => exact data.get?_toJson "data"

theorem object?_toJson (data : Json.Data Json.Numeral) :
    data.toJson.object? = match data with
      | .object members =>
          some (members.map fun member => (member.1, member.2.toJson))
      | _ => none := by
  cases data with
  | object members => rw [Json.Data.toJson]; rfl
  | number numeral =>
      rw [Json.Data.toJson]
      rcases numeral.toJson_cases with ⟨n, same⟩ | ⟨x, same⟩ <;>
        rw [same] <;> rfl
  | null | bool _ | string _ | array _ => rw [Json.Data.toJson]; rfl

theorem bundleOf_toJson (body : Json.Data Json.Numeral) :
    bundleOf body.toJson = Bundle.ofEntries
      ((((kept? body).map Json.Data.toJson).bind Json.object?).getD []) := by
  rw [← kept?_toJson]
  rfl

theorem contains_bundleOf :
    (bundleOf body.toJson).contains key = true ↔
      ∃ members, kept? body = some (.object members) ∧
        key ∈ members.map Prod.fst := by
  rw [bundleOf_toJson, Bundle.ofEntries, Std.ExtTreeMap.contains_ofList,
    List.contains_iff_mem]
  cases kept? body with
  | none => simp
  | some data =>
      rw [Option.map_some, Option.bind_some, object?_toJson]
      cases data <;> simp

theorem Holds.tidy (holds : Holds answer body)
    {members : List (String × Json.Data Json.Numeral)}
    (kept : kept? body = some (.object members)) :
    Json.Tidy (fun _ _ => True) 125 (.object (entriesOf members)) := by
  obtain ⟨response, text, _, _, _, padded, _, writes⟩ := holds
  have found : (body.toJson.get? "data").bind (fun data => data.get? "data") =
      some (.object (entriesOf members)) := by
    rw [kept?_toJson, kept, Option.map_some, Json.Data.toJson]
    rfl
  obtain ⟨data, outer, inner⟩ := Option.bind_eq_some_iff.1 found
  exact (writes.tidy.get? outer).get? inner

theorem toList_erase_bundleOf
    {members : List (String × Json.Data Json.Numeral)}
    (holds : Holds answer body) (kept : kept? body = some (.object members)) :
    ((bundleOf body.toJson).erase key).toList =
      entriesOf (others key members) := by
  have listed : (bundleOf body.toJson).toList = entriesOf members := by
    rw [bundleOf_toJson, kept, Option.map_some, Option.bind_some,
      object?_toJson]
    cases holds.tidy kept with
    | object ordered parts => exact Json.lastOnes_eq_self ordered
  rw [Bundle.toList_erase, listed, entriesOf, List.filter_map]
  rfl

theorem carries_writing {members : List (String × Json.Data Json.Numeral)}
    (holds : Holds answer body) (kept : kept? body = some (.object members)) :
    Carries (writing settings .post url (entriesOf (others key members)))
      (.map Json.Numeral.resent (.object (others key members))) := by
  have rest : Json.Tidy (fun _ _ => True) 125
      (.object (entriesOf (others key members))) := by
    cases holds.tidy kept with
    | object ordered parts =>
        have fewer : (entriesOf (others key members)).Sublist
            (entriesOf members) :=
          List.filter_sublist.map _
        exact .object (ordered.sublist fewer)
          fun member listed => parts member (fewer.subset listed)
  have whole : Json.Tidy (fun _ _ => True) 126
      (.object [("data", .object (entriesOf (others key members)))]) :=
    .object (List.pairwise_singleton _ _) (List.forall_mem_singleton.2 rest)
  have data : (Json.object [("data", .object
      (entriesOf (others key members)))]).data = .object [("data",
        .map Json.Numeral.resent (.object (others key members)))] := by
    rw [← Json.data_toJson, Json.Data.toJson, Json.data]
    rfl
  have deeper := whole.mono (fun _ _ => id) (show 126 ≤ 127 by decide)
  refine ⟨_, rfl, ?_⟩
  rw [Json.toList_render, ← data]
  exact deeper.textOf (fun _ _ _ => trivial) .flat

theorem replyOf_read_of_lacks (lacks : Lacks key answer) :
    (∃ detail, replyOf (.read mount path) answer =
      .fault (.pathNotFound detail)) ∨
    ∃ bundle : Bundle, replyOf (.read mount path) answer = .value bundle ∧
      bundle.contains key = false := by
  rcases lacks with missing | ⟨body, holds, absent⟩
  · obtain ⟨response, rfl, status⟩ := isMissing_iff.1 missing
    refine Or.inl ⟨bundleDetail mount path response.body, ?_⟩
    have failed : response.isSuccess = false :=
      Bool.eq_false_iff.2 fun success => status_ne_of_isSuccess success status
    rw [replyOf, failed, errorOf_eq (Or.inl rfl), status]
    rfl
  · refine Or.inr ⟨_, replyOf_read_of_holds holds, ?_⟩
    rw [Bool.eq_false_iff]
    intro contains
    obtain ⟨members, kept, listed⟩ := contains_bundleOf.1 contains
    exact absent members kept listed

/-- Any other answer is an error, but not that of a missing path. -/
theorem replyOf_read_of_neither (present : ¬ Lacks key answer)
    (unshown : ∀ members, ¬ Shows key members answer) :
    ∃ error, replyOf (.read mount path) answer = .fault error ∧
      ∀ detail, error ≠ .pathNotFound detail := by
  have unheld : ∀ body, ¬ Holds answer body := by
    intro body holds
    refine present (Or.inr ⟨body, holds, fun members kept listed => ?_⟩)
    exact unshown members ⟨body, holds, kept, listed⟩
  cases answer with
  | none => exact ⟨.network, rfl, nofun⟩
  | some response =>
      cases success : response.isSuccess with
      | false =>
          refine ⟨errorOf (.read mount path) response, ?_, ?_⟩
          · rw [replyOf, success]
            rfl
          · rw [errorOf]
            exact ofStatus_ne_pathNotFound (fun status =>
              present (Or.inl (isMissing_iff.2 ⟨response, rfl, status⟩))) _
      | true =>
          refine ⟨.network, ?_, nofun⟩
          cases parsed : response.body.bind Json.ofBytes? with
          | none =>
              simp only [replyOf, success, if_true, accept, readBody, parsed]
          | some value =>
              obtain ⟨text, body, decoded, writes, _⟩ := holds_iff.1 parsed
              exact absurd ⟨response, text, rfl, success, decoded, writes⟩
                (unheld body)

end Reading

/-- What the run of dropping an entry comes to, from the answer to reading. -/
theorem run_dropEntry_addressed
    (addressed : Addressed settings mount path url)
    (connected : Connected client world.store) (key : String) :
    let first := world.store.peer.answer? 0
    let read := world.store.after (reading settings url)
    let done := (dropEntry client mount path key).run (Link.service settings)
      world
    (Lacks key first → done = (.value (), { world with store := read })) ∧
    (∀ members, Shows key members first →
      done = (writeOutcome mount path (world.store.peer.answer? 1),
        { world with store := read.after (writing settings .post url
          (entriesOf (others key members))) })) ∧
    (¬ Lacks key first → (∀ members, ¬ Shows key members first) →
      ∃ error, done = (.fault error, { world with store := read })) := by
  intro first read done
  have run : done = _ := run_dropEntry (Link.service settings) client mount path
    key world
  dsimp only at run
  rw [connected.answer addressed.read] at run
  dsimp only at run
  refine ⟨fun lacks => ?_, fun members shows => ?_, fun present unshown => ?_⟩
  · rcases replyOf_read_of_lacks lacks with
      ⟨detail, reply⟩ | ⟨bundle, reply, absent⟩
    · rw [run, reply]
    · rw [run, reply]
      dsimp only
      rw [if_neg (by simp [absent])]
  · obtain ⟨body, holds, kept, listed⟩ := shows
    have held := contains_bundleOf.2 ⟨members, kept, listed⟩
    have put := addressed.put ((bundleOf body.toJson).erase key)
    rw [toList_erase_bundleOf holds kept] at put
    rw [run, replyOf_read_of_holds holds]
    dsimp only
    rw [if_pos held, (connected.after _).answer put]
    dsimp only
    rw [replyOf_put, inBackground_writeOutcome, Link.peer_after,
      Peer.answer?_after]
  · obtain ⟨error, reply, other⟩ := replyOf_read_of_neither present unshown
    refine ⟨error, ?_⟩
    rw [run, reply]
    cases error with
    | pathNotFound detail => exact absurd rfl (other detail)
    | _ => rfl

/-- An operation that writes an entry, that was executed through a server and
has not been undone since. -/
structure Outstanding (settings : Settings) (write : Write)
    (operation : Operation) : Prop where
  isWrite : operation.task = write.task
  executed : operation.executed = true
  undone : operation.undone = false
  ran : ∃ (pending : Operation) (client : Handle) (index : Nat)
    (world : World Link),
    pending.task = write.task ∧ pending.executed = false ∧
    ((pending.run client index).run (Link.service settings) world).1.2 =
      operation

theorem exists_request_of_value {call : Call} (sent : call ≠ .close)
    {link : Link} {reply : call.Reply}
    (answered : ((Link.service settings).answer client call link).1 =
      .value reply) :
    ∃ request, requestFor? settings call = some request := by
  change (Link.answer settings client call link).1 = _ at answered
  cases requested : requestFor? settings call with
  | some request => exact ⟨request, rfl⟩
  | none =>
      exfalso
      by_cases released : link.released.contains client
      · cases call <;> simp_all [Link.answer]
      · have unreleased : client ∉ link.released := by simpa using released
        rw [answer_eq_request sent unreleased, Link.request,
          requested] at answered
        cases answered

theorem Outstanding.addressed {write : Write} {operation : Operation}
    (outstanding : Outstanding settings write operation) :
    ∃ url, Addressed settings write.mount write.path url := by
  obtain ⟨pending, client, index, world, isWrite, unexecuted, left⟩ :=
    outstanding.ran
  have executed := outstanding.executed
  rw [← left, Operation.executed_run] at executed
  rw [Operation.run_eq_setEntry _ isWrite unexecuted] at executed
  rw [Outcome.isValue_eq_true, run_setEntry] at executed
  dsimp only at executed
  split at executed
  next =>
    obtain ⟨request, requested⟩ := exists_request_of_value Call.noConfusion
      (Outcome.inBackground_eq_value.1 executed)
    exact exists_addressed (Or.inr (Or.inr ⟨_, rfl⟩)) requested
  next =>
    obtain ⟨request, requested⟩ := exists_request_of_value Call.noConfusion
      (Outcome.inBackground_eq_value.1 executed)
    exact exists_addressed (Or.inr (Or.inl ⟨_, rfl⟩)) requested

section Undoing

variable {write : Write} {operation : Operation}
variable (outstanding : Outstanding settings write operation)
include outstanding

theorem Outstanding.needsUndo : operation.needsUndo = true := by
  rw [Operation.needsUndo_write outstanding.isWrite, outstanding.executed,
    outstanding.undone]
  rfl

variable (addressed : Addressed settings write.mount write.path url)
variable (connected : Connected client world.store)
include addressed connected

theorem Outstanding.undo_of_shows (index : Nat)
    {members : List (String × Json.Data Json.Numeral)}
    (shows : Shows write.key members (world.store.peer.answer? 0)) :
    let second := world.store.peer.answer? 1
    let done := (operation.undo client index).run (Link.service settings) world
    let post := writing settings .post url
      (entriesOf (others write.key members))
    done.2.store.peer.received =
      world.store.peer.received ++ [reading settings url, post] ∧
    done.1 = (writeOutcome write.mount write.path second,
      { operation with undone := isSuccess second }) ∧
    Carries post (.map Json.Numeral.resent
      (.object (others write.key members))) := by
  intro second done post
  have run : done = _ := Operation.undo_eq_dropEntry (Link.service settings)
    outstanding.isWrite outstanding.needsUndo client index world
  obtain ⟨_, showing, _⟩ := run_dropEntry_addressed addressed connected
    write.key
  rw [run, showing members shows, ← isValue_writeOutcome write.mount write.path]
  refine ⟨List.append_assoc _ _ _, rfl, ?_⟩
  obtain ⟨body, holds, kept, _⟩ := shows
  exact carries_writing holds kept

end Undoing

/-- Undoing the operation of a write that was executed is reading its bundle,
and one put to the same url if the answer shows the entry: all members but that
entry.  The operation counts as undone if there is no such entry, and with a put
exactly if that is answered with a success.  After any other answer nothing is
put, and the operation is left as it was.

The text that is put writes the same data as the answer but for the numerals:
each is the numeral of the number that the answered one is read as.  So the
members are put as they were answered exactly if each of these numerals has the
value of the answered one, and that holds for all short ones. -/
theorem undo_sends_rest {write : Write} {operation : Operation}
    (outstanding : Outstanding settings write operation)
    (connected : Connected client world.store) (index : Nat) :
    ∃ url, Url.ofString? (dataUrl settings write.mount write.path) = some url ∧
    let first := world.store.peer.answer? 0
    let second := world.store.peer.answer? 1
    let done := (operation.undo client index).run (Link.service settings) world
    let received := world.store.peer.received
    (Lacks write.key first →
      done.2.store.peer.received = received ++ [reading settings url] ∧
      done.1 = (.value (), { operation with undone := true })) ∧
    (∀ members, Shows write.key members first →
      let rest := Json.Data.object (others write.key members)
      let post := writing settings .post url
        (entriesOf (others write.key members))
      done.2.store.peer.received =
        received ++ [reading settings url, post] ∧
      done.1 = (writeOutcome write.mount write.path second,
        { operation with undone := isSuccess second }) ∧
      Carries post (rest.map Json.Numeral.resent) ∧
      ((rest.map Json.Numeral.resent).map Json.Numeral.value =
          rest.map Json.Numeral.value ↔
        ∀ numeral ∈ rest.numbers, numeral.resent.value = numeral.value) ∧
      ∀ numeral ∈ rest.numbers, numeral.Short →
        numeral.resent.value = numeral.value) ∧
    (¬ Lacks write.key first → (∀ members, ¬ Shows write.key members first) →
      done.2.store.peer.received = received ++ [reading settings url] ∧
      ∃ error, done.1 = (.fault error, operation)) := by
  obtain ⟨url, addressed⟩ := outstanding.addressed
  refine ⟨url, addressed.found, ?_⟩
  intro first second done received
  have run : done = _ := Operation.undo_eq_dropEntry (Link.service settings)
    outstanding.isWrite outstanding.needsUndo client index world
  obtain ⟨lacking, _, neither⟩ := run_dropEntry_addressed
    addressed connected write.key
  refine ⟨fun lacks => ?_, fun members shows => ?_, fun present unshown => ?_⟩
  · rw [run, lacking lacks]
    exact ⟨rfl, rfl⟩
  · intro rest post
    obtain ⟨sent, ended, carries⟩ :=
      outstanding.undo_of_shows addressed connected index shows
    refine ⟨sent, ended, carries, ?_, fun _ _ short => short.value_resent⟩
    rw [Json.Data.map_map]
    exact Json.Data.map_eq_map_iff
  · obtain ⟨error, failed⟩ := neither present unshown
    rw [run, failed]
    refine ⟨rfl, error, ?_⟩
    have same : { operation with undone := false } = operation := by
      rw [← outstanding.undone]
    exact congrArg (Prod.mk _) same

theorem LeadsTo.outstanding {server : String} {home : Url}
    (leads : LeadsTo settings server home)
    (sendable : isSendable settings.token = true) (write : Write) :
    Outstanding settings write { write.operation with executed := true } where
  isWrite := rfl
  executed := rfl
  undone := rfl
  ran := by
    refine ⟨write.operation, 0, 0, responding [.ofText 200 ""], rfl, rfl, ?_⟩
    rw [Operation.run_eq_setEntry _ rfl rfl, run_setEntry_addressed
      (leads.addressed sendable write.mount write.path) ⟨List.not_mem_nil, rfl⟩]
    rfl

theorem writes_data {depth : Nat} {text : List Char}
    {data : Json.Data Json.Numeral}
    (writes : Json.Writes Json.Numeral.Readable depth text data) :
    Json.Writes Json.Numeral.Readable (depth + 1)
      ("\x7b\"data\":".toList ++ text ++ "\x7d".toList)
      (.object [("data", data)]) := by
  have parts : ∀ member ∈ [("data", text, data)],
      Json.Writes Json.Numeral.Readable depth member.2.1 member.2.2 :=
    List.forall_mem_singleton.2 writes
  have whole := Json.Writes.object_in .flat 0 parts
  have name : Json.writeString "data" = "\"data\"".toList := by decide
  rw [List.map_singleton, List.map_singleton,
    Json.lastOnes_eq_self (List.pairwise_singleton _ _), name] at whole
  simpa [Json.Layout.bracketed, Json.Layout.flat, Json.noGaps,
    joinSegments] using whole

theorem shows_ofText {text : String} {inner : List Char}
    {members : List (String × Json.Data Json.Numeral)}
    (cut : text.toList =
      "\x7b\"data\":\x7b\"data\":".toList ++ inner ++ "\x7d\x7d".toList)
    (writes : Json.Writes Json.Numeral.Readable 125 inner (.object members))
    (listed : key ∈ members.map Prod.fst) :
    Shows key members (some (.ofText 200 text)) := by
  have body := writes_data (writes_data writes)
  have same : "\x7b\"data\":".toList ++ ("\x7b\"data\":".toList ++ inner ++
      "\x7d".toList) ++ "\x7d".toList = text.toList := by
    rw [cut]
    simp
  rw [same] at body
  have decoded : (Response.ofText 200 text).body.bind utf8Chars? =
      some text.toList :=
    utf8Chars?_utf8Bytes text.toList
  exact ⟨_, ⟨_, _, rfl, rfl, decoded, body.textOf⟩, rfl, listed⟩

/-- The numeral with a point between two numbers. -/
def pointed (whole fraction : Nat) : Json.Numeral where
  whole := .ofNat whole
  fraction := some (.ofNat fraction)
  unpadded := Json.Digits.unpadded_ofNat whole

theorem value_pointed (whole fraction : Nat) :
    (pointed whole fraction).value =
      whole + fraction / 10 ^ (decimalDigits fraction).length := by
  simp [pointed, Json.Numeral.value]

theorem writes_rate {rate : Json.Numeral} (readable : rate.Readable) :
    Json.Writes Json.Numeral.Readable 125
      ("\x7b\"a\":[1,null],\"id\":\"key\",\"rate\":".toList ++ rate.text ++
        "\x7d".toList)
      (.object [("a", .array [.number (.ofInt 1), .null]),
        ("id", .string "key"), ("rate", .number rate)]) := by
  obtain ⟨literal, shown, spells⟩ := Json.exists_literal "key"
  have one : (Json.Numeral.ofInt 1).Readable :=
    ⟨_, Json.Numeral.reading_ofInt (by decide) (by decide)⟩
  have list : Json.Writes Json.Numeral.Readable 124 "[1,null]".toList
      (.array [.number (.ofInt 1), .null]) := by
    have parts : ∀ item ∈ [((Json.Numeral.ofInt 1).text,
        Json.Data.number (.ofInt 1)), ("null".toList, .null)],
        Json.Writes Json.Numeral.Readable 123 item.1 item.2 := by
      simp only [List.forall_mem_cons]
      exact ⟨.number one, .word (by simp [Json.words]), by simp⟩
    exact Json.Writes.array_in .flat 0 parts
  have parts : ∀ member ∈ [("a", "[1,null]".toList,
        Json.Data.array [.number (.ofInt 1), .null]),
      ("id", Json.writeString "key", .string "key"),
      ("rate", rate.text, .number rate)],
      Json.Writes Json.Numeral.Readable 124 member.2.1 member.2.2 := by
    simp only [List.forall_mem_cons]
    exact ⟨list, shown ▸ .string spells, .number readable, by simp⟩
  have whole := Json.Writes.object_in .flat 0 parts
  have ordered : Json.Increasing [("a", Json.Data.array
        [.number (.ofInt 1), .null]),
      ("id", .string "key"), ("rate", .number rate)] := by
    simp only [Json.Increasing, List.pairwise_cons, List.forall_mem_cons]
    exact ⟨⟨by decide, by decide, by simp⟩, ⟨by decide, by simp⟩, by simp⟩
  have names : Json.writeString "a" = "\"a\"".toList ∧
      Json.writeString "id" = "\"id\"".toList ∧
      Json.writeString "key" = "\"key\"".toList ∧
      Json.writeString "rate" = "\"rate\"".toList := by
    decide
  simp only [List.map_cons, List.map_nil, names,
    Json.lastOnes_eq_self ordered] at whole
  simpa [Json.Layout.bracketed, Json.Layout.flat, Json.noGaps,
    joinSegments] using whole

/-- The numbers of the other members keep their values if they are short. -/
theorem undo_sends_rest_numbers :
    let write : Write := ⟨"api-keys", "user", "id", "key"⟩
    let operation : Operation := { write.operation with executed := true }
    let list := Json.Data.array [.number (.ofInt 1), .null]
    let members := [("a", list), ("id", .string "key"),
      ("rate", .number (pointed 1 5))]
    let world := responding [.ofText 200 <| "\x7b\"data\":\x7b\"data\":" ++
      "\x7b\"a\":[1,null],\"id\":\"key\",\"rate\":1.5\x7d\x7d\x7d",
      .ofText 204 ""]
    let rest := Json.Data.object [("a", list), ("rate", .number (pointed 1 5))]
    let done := (operation.undo 0 0).run (Link.service usual) world
    Outstanding usual write operation ∧
    Shows "id" members (world.store.peer.answer? 0) ∧
    (∃ url post, done.2.store.peer.received = [reading usual url, post] ∧
      post.body.map Json.render =
        some "\x7b\"data\":\x7b\"a\":[1,null],\"rate\":1.5\x7d\x7d" ∧
      Carries post (rest.map Json.Numeral.resent) ∧
      (rest.map Json.Numeral.resent).map Json.Numeral.value =
        rest.map Json.Numeral.value) ∧
    done.1 = (.value (), { operation with undone := true }) := by
  intro write operation list members world rest
  have outstanding : Outstanding usual write operation :=
    usual_leadsTo.outstanding (by decide) write
  have connected : Connected 0 world.store := ⟨List.not_mem_nil, rfl⟩
  have few : (pointed 1 5).Short := .inr ⟨by decide, by decide, by decide⟩
  have shows : Shows "id" members (world.store.peer.answer? 0) :=
    shows_ofText (by decide) (writes_rate few.readable) (by decide)
  obtain ⟨url, _, _, showing, _⟩ := undo_sends_rest outstanding connected 0
  obtain ⟨received, ended, carries, same, short⟩ := showing members shows
  have left : others write.key members =
      [("a", list), ("rate", .number (pointed 1 5))] :=
    rfl
  have rate : (pointed 1 5).toJson = .float ⟨4609434218613702656⟩ := by
    decide +kernel
  have one : (Json.Numeral.ofInt 1).toJson = .int 1 := by decide +kernel
  have entries : entriesOf (others write.key members) =
      [("a", .array [.int 1, .null]), ("rate", .float ⟨4609434218613702656⟩)] := by
    simp [left, entriesOf, list, Json.Data.toJson, rate, one]
  have allFew : ∀ numeral ∈ rest.numbers, numeral.Short := by
    simp only [rest, list, Json.Data.numbers, List.flatMap_cons,
      List.flatMap_nil, List.append_nil, List.cons_append, List.nil_append,
      List.forall_mem_cons]
    exact ⟨.inr ⟨by decide, by decide, by decide⟩, few, by simp⟩
  rw [left] at carries same short
  refine ⟨outstanding, shows, ⟨url, _, received, ?_, carries,
    same.2 fun numeral listed => short numeral listed (allFew numeral listed)⟩,
    ended⟩
  rw [entries]
  exact congrArg some (by decide +kernel)

/-- A number with seventeen digits is put as another one. -/
theorem undo_rewrites_number :
    let write : Write := ⟨"api-keys", "user", "id", "key"⟩
    let operation : Operation := { write.operation with executed := true }
    let list := Json.Data.array [.number (.ofInt 1), .null]
    let rate := pointed 31 245270191439438
    let members := [("a", list), ("id", .string "key"), ("rate", .number rate)]
    let world := responding [.ofText 200 <| "\x7b\"data\":\x7b\"data\":" ++
      "\x7b\"a\":[1,null],\"id\":\"key\",\"rate\":31.245270191439438" ++
      "\x7d\x7d\x7d", .ofText 204 ""]
    let rest := Json.Data.object [("a", list), ("rate", .number rate)]
    let done := (operation.undo 0 0).run (Link.service usual) world
    Outstanding usual write operation ∧
    Shows "id" members (world.store.peer.answer? 0) ∧
    rate.value = 31.245270191439438 ∧
    ∃ url post, done.2.store.peer.received = [reading usual url, post] ∧
      post.body.map Json.render = some ("\x7b\"data\":\x7b\"a\":[1,null]," ++
        "\"rate\":31.24527019143944\x7d\x7d") ∧
      Carries post (rest.map Json.Numeral.resent) ∧
      (rest.map Json.Numeral.resent).map Json.Numeral.value ≠
        rest.map Json.Numeral.value := by
  intro write operation list rate members world rest
  have outstanding : Outstanding usual write operation :=
    usual_leadsTo.outstanding (by decide) write
  have connected : Connected 0 world.store := ⟨List.not_mem_nil, rfl⟩
  have shows : Shows "id" members (world.store.peer.answer? 0) := by
    have readable : rate.Readable := by decide +kernel
    exact shows_ofText (by decide) (writes_rate readable) (by decide)
  have addressed := usual_leadsTo.addressed (by decide) write.mount write.path
  obtain ⟨received, _, carries⟩ :=
    outstanding.undo_of_shows addressed connected 0 shows
  have left : others write.key members = [("a", list), ("rate", .number rate)] :=
    rfl
  have read : rate.toJson = .float ⟨4629487979381582467⟩ := by decide +kernel
  have one : (Json.Numeral.ofInt 1).toJson = .int 1 := by decide +kernel
  have entries : entriesOf (others write.key members) =
      [("a", .array [.int 1, .null]), ("rate", .float ⟨4629487979381582467⟩)] := by
    simp [left, entriesOf, list, Json.Data.toJson, read, one]
  have value : rate.value = 31.245270191439438 := by
    have length : (decimalDigits 245270191439438).length = 15 := by decide
    rw [value_pointed, length]
    norm_num
  have resent : rate.resent.value = 31.24527019143944 := by
    have fewest : Binary64.shortest
        (⟨4629487979381582467⟩ : Binary64).magnitude = ⟨3124527019143944, -14⟩ := by
      decide +kernel
    have positive : (⟨4629487979381582467⟩ : Binary64).isNegative = false := by
      decide
    rw [Json.Numeral.resent_of_float read, Json.Numeral.ofFloat,
      Json.Numeral.value_ofDecimal, fewest, positive, Binary64.Decimal.value]
    norm_num
  rw [left] at carries
  refine ⟨outstanding, shows, value, _, _, received, ?_, carries, ?_⟩
  · rw [entries]
    exact congrArg some (by decide +kernel)
  · rw [Json.Data.map_map, Ne, Json.Data.map_eq_map_iff]
    intro same
    have kept := same rate (by simp [rest, Json.Data.numbers])
    rw [Function.comp_apply, resent, value] at kept
    norm_num at kept

end Http

end KeyCustody
