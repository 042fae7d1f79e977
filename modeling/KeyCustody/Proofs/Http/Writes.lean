import KeyCustody.Proofs.Http.Bundles
import KeyCustody.Proofs.Operation.Write
import Mathlib

/-!
# Setting entries through a server

An entry is set by a patch with that entry alone, and by a put of the same when
the patch is answered as for a missing path.  The last answer alone decides what
becomes of the operation.
-/

namespace KeyCustody

namespace Http

open Text

variable {settings : Settings} {mount path key : String} {url : Url}
variable {client : Handle} {world : World Link}

/-- A response with the status for a missing path. -/
def isMissing (answer : Option Response) : Bool :=
  answer.any fun response => response.status == 404

/-- A response that counts as a success. -/
def isSuccess (answer : Option Response) : Bool :=
  answer.any Response.isSuccess

theorem isMissing_iff {answer : Option Response} :
    isMissing answer = true ↔
      ∃ response, answer = some response ∧ response.status = 404 := by
  cases answer <;> simp [isMissing]

@[simp]
theorem isValue_writeOutcome (mount path : String)
    (answer : Option Response) :
    (writeOutcome mount path answer).isValue = isSuccess answer := by
  cases answer with
  | none => rfl
  | some response =>
      cases success : response.isSuccess <;>
        simp [writeOutcome, isSuccess, success, Outcome.isValue]

@[simp]
theorem inBackground_writeOutcome (mount path : String)
    (answer : Option Response) :
    (writeOutcome mount path answer).inBackground =
      writeOutcome mount path answer := by
  cases answer with
  | none => rfl
  | some response =>
      rw [writeOutcome]
      split <;> rfl

theorem status_ne_of_isSuccess {response : Response}
    (success : response.isSuccess = true) : response.status ≠ 404 := by
  rintro missing
  simp [Response.isSuccess, missing] at success

theorem isSuccess_of_isMissing {answer : Option Response}
    (missing : isMissing answer = true) : isSuccess answer = false := by
  obtain ⟨response, rfl, status⟩ := isMissing_iff.1 missing
  exact Bool.eq_false_iff.2 fun success =>
    status_ne_of_isSuccess success status

theorem ofStatus_ne_pathNotFound {status : Nat} (other : status ≠ 404)
    (detail text : String) :
    StoreError.ofStatus status detail ≠ .pathNotFound text := by
  intro same
  have kind := StoreError.isPathNotFound_ofStatus status detail
  rw [same, decide_eq_false other] at kind
  cases kind

theorem writeOutcome_cases (mount path : String) (answer : Option Response) :
    (isMissing answer = true ∧
      ∃ detail, writeOutcome mount path answer =
        .fault (.pathNotFound detail)) ∨
    (isMissing answer = false ∧
      ∀ detail, writeOutcome mount path answer ≠
        .fault (.pathNotFound detail)) := by
  cases answer with
  | none => exact Or.inr ⟨rfl, fun _ => by simp [writeOutcome]⟩
  | some response =>
      by_cases missing : response.status = 404
      · have failed : response.isSuccess = false := by
          simp [Response.isSuccess, missing]
        refine Or.inl ⟨by simp [isMissing, missing],
          bundleDetail mount path response.body, ?_⟩
        rw [writeOutcome, failed, missing]
        rfl
      · refine Or.inr ⟨by simp [isMissing, missing], fun detail => ?_⟩
        rw [writeOutcome]
        split
        · simp
        · simpa using ofStatus_ne_pathNotFound missing _ _

/-- What the run of setting an entry comes to, from the answer to the patch. -/
theorem run_setEntry_addressed
    (addressed : Addressed settings mount path url)
    (connected : Connected client world.store) (key value : String) :
    let patch := writing settings .patch url [(key, .string value)]
    let put := writing settings .post url [(key, .string value)]
    let patched := world.store.after patch
    (setEntry client mount path key value).run (Link.service settings) world =
      if isMissing (world.store.peer.answer? 0) then
        (writeOutcome mount path (world.store.peer.answer? 1),
          { world with store := patched.after put })
      else
        (writeOutcome mount path (world.store.peer.answer? 0),
          { world with store := patched }) := by
  intro patch put patched
  have sentPatch := addressed.patch (Bundle.ofEntries [(key, .string value)])
  have sentPut := addressed.put (Bundle.ofEntries [(key, .string value)])
  rw [Bundle.toList_ofEntries_single] at sentPatch sentPut
  rw [run_setEntry]
  dsimp only
  rw [connected.answer sentPatch, (connected.after _).answer sentPut]
  dsimp only
  rw [replyOf_patch, replyOf_put, inBackground_writeOutcome, Link.peer_after,
    Peer.answer?_after]
  rcases writeOutcome_cases mount path (world.store.peer.answer? 0) with
    ⟨missing, detail, reported⟩ | ⟨there, unreported⟩
  · rw [missing, reported, if_pos rfl]
  · rw [there, if_neg Bool.false_ne_true]
    split
    next detail reported => exact absurd reported (unreported detail)
    next => rw [inBackground_writeOutcome]

/-- Executing the operation of a write that was not executed is one patch with
its entry, and a put of the same to the same url exactly if the patch is
answered with the status for a missing path.  The operation counts as executed
exactly if the last answer is a success.  Otherwise the error is that of a
connection that failed, or that of the status of the last answer. -/
theorem run_sends_entry {server : String} {home : Url}
    (leads : LeadsTo settings server home)
    (sendable : isSendable settings.token = true) {operation : Operation}
    {write : Write} (isWrite : operation.task = write.task)
    (connected : Connected client world.store) (index : Nat) :
    let url := home.beneath (bundleName write.mount write.path)
    let entries := [(write.key, Json.string write.value)]
    let first := world.store.peer.answer? 0
    let last := if isMissing first then world.store.peer.answer? 1 else first
    let done := (operation.run client index).run (Link.service settings) world
    (operation.executed = true → done = ((.value (), operation), world)) ∧
    (operation.executed = false →
      done.2.store.peer.received = world.store.peer.received ++
        writing settings .patch url entries ::
          (if isMissing first then [writing settings .post url entries]
          else []) ∧
      done.1 = (writeOutcome write.mount write.path last,
        { operation with executed := isSuccess last })) := by
  intro url entries first last done
  refine ⟨fun executed => ?_, fun pending => ?_⟩
  · change (operation.run client index).run _ world = _
    rw [Operation.run_executed executed]
    rfl
  · have addressed := leads.addressed sendable write.mount write.path
    have run : done = _ := Operation.run_eq_setEntry (Link.service settings)
      isWrite pending client index world
    rw [run_setEntry_addressed addressed connected] at run
    have outcome := isValue_writeOutcome write.mount write.path
    cases missing : isMissing first with
    | true =>
        have second : last = world.store.peer.answer? 1 := if_pos missing
        rw [if_pos missing] at run
        rw [second, run, ← outcome]
        exact ⟨List.append_assoc _ _ _, rfl⟩
    | false =>
        have only : last = first := if_neg (by simp [missing])
        rw [if_neg (by simpa using missing)] at run
        rw [only, run, ← outcome]
        exact ⟨rfl, rfl⟩

/-- A response with a text as its body. -/
def Response.ofText (status : Nat) (text : String) : Response where
  status := status
  body := some (utf8Bytes text.toList)

/-- The world of a server with prepared responses. -/
def responding (responses : List Response) : World Link where
  store := { peer := { answers := responses.map .respond } }

/-- A write to a missing path that the store refuses as sealed. -/
theorem run_sends_entry_sealed :
    let write : Write := ⟨"api-keys", "user", "id", "key"⟩
    let sealed := Response.ofText 503 "\x7b\"errors\":[1,\"sealed\"]\x7d"
    let world := responding [.ofText 404 "", sealed]
    let url := usualHome.beneath (bundleName write.mount write.path)
    let entries := [(write.key, Json.string write.value)]
    let done := (write.operation.run 0 0).run (Link.service usual) world
    done.2.store.peer.received =
      [writing usual .patch url entries, writing usual .post url entries] ∧
    done.1 = (.fault (.unavailable "sealed"), write.operation) := by
  intro write sealed world url entries
  have connected : Connected 0 world.store := ⟨List.not_mem_nil, rfl⟩
  have listed : listedErrors sealed.body = ["sealed"] := by
    cbv
  have outcome : writeOutcome write.mount write.path (some sealed) =
      .fault (.unavailable "sealed") := by
    rw [writeOutcome, if_neg (by decide), bundleDetail, listed]
    rfl
  have missing : isMissing (world.store.peer.answer? 0) = true := by decide
  have second : world.store.peer.answer? 1 = some sealed := rfl
  obtain ⟨received, ended⟩ := (run_sends_entry usual_leadsTo (by decide)
    write.task_operation connected 0).2 rfl
  rw [if_pos missing] at received ended
  rw [second, outcome] at ended
  exact ⟨received, ended⟩

end Http

end KeyCustody
