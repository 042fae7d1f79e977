import KeyCustody.KeyRing
import KeyCustody.Proofs.Session.Settlement
import KeyCustody.Proofs.Uuid.Text

/-!
# Issuing keys through one session

Keys are issued one after the other through a session that is used for nothing
else.  Issuing queues the write of a new key and commits.  When that fails, the
write stays in the queue, not executed, and a later request may execute it.

So what the users have afterwards is what they had before together with the
keys whose writes are in effect.  All keys that were returned are among them.
A key that was not returned is among them only if a later request executed its
write and did not undo it.
-/

namespace KeyCustody

variable {σ : Type}

namespace KeyRing

/-- A request for a key of a user, with the key that is made up for it. -/
structure Request where
  user : Uuid
  fresh : IssuedKey
deriving DecidableEq, Repr

def place (ring : KeyRing) (user : Uuid) : Location :=
  Location.of ring.mount user.toString

def write (ring : KeyRing) (request : Request) : Write where
  mount := ring.mount
  path := request.user.toString
  key := request.fresh.id.toString
  value := request.fresh.key.toString

theorem place_injective (ring : KeyRing) : Function.Injective ring.place := by
  intro first second same
  have paths := congrArg Location.path same
  simp only [place, Location.of, Uuid.trimSlashes_toString] at paths
  exact Uuid.toString_injective paths

theorem write_names {ring : KeyRing} {request : Request} {user : Uuid}
    {key : String} :
    (ring.write request).Names (ring.place user) key ↔
      request.user = user ∧ request.fresh.id.toString = key := by
  have same : (ring.write request).place = ring.place request.user := rfl
  rw [Write.Names, same, (ring.place_injective).eq_iff]
  rfl

end KeyRing

namespace Course

open KeyRing

/-- The outcome of a request for a key, and the course after it. -/
def issue (service : Service σ) (ring : KeyRing) (course : Course σ)
    (request : Request) : Outcome IssuedKey × Course σ :=
  let queued := course.enqueue (ring.write request)
  let done := (ring.issue course.session request.user request.fresh).run
    service { store := course.store }
  (done.1.1,
    { queued with
      session := done.1.2
      store := done.2.store
      deeds := course.deeds ++
        done.2.notes.filterMap (Note.deed? queued.first) })

/-- The outcomes of requests for keys, one after the other, and the course after
them. -/
def issueAll (service : Service σ) (ring : KeyRing) (course : Course σ) :
    List Request → List (Outcome IssuedKey) × Course σ
  | [] => ([], course)
  | request :: later =>
      let (outcome, course) := course.issue service ring request
      let (outcomes, course) := issueAll service ring course later
      (outcome :: outcomes, course)

section Issue

variable {service : Service σ} {view : σ → MemoryStore} {fair : σ → Prop}
variable {base : Bundles} {course : Course σ} {ring : KeyRing}

theorem issue_eq (request : Request) :
    course.issue service ring request =
      let queued := course.enqueue (ring.write request)
      ((queued.attempt service .commit).1.1.map fun _ => request.fresh,
        queued.perform service .commit) := by
  simp [issue, KeyRing.issue, attempt, perform, Verb.dialogue, enqueue,
    KeyRing.add, KeyRing.write]

theorem issueAll_append (first second : List Request) :
    issueAll service ring course (first ++ second) =
      let done := issueAll service ring course first
      let rest := issueAll service ring done.2 second
      (done.1 ++ rest.1, rest.2) := by
  induction first generalizing course with
  | nil => rfl
  | cons request later ih => simp [issueAll, ih]

theorem length_issueAll (service : Service σ) (ring : KeyRing)
    (course : Course σ) (requests : List Request) :
    (issueAll service ring course requests).1.length = requests.length := by
  induction requests generalizing course with
  | nil => rfl
  | cons request later ih => simp [issueAll, ih]

theorem Sound.issue_returns (relays : service.Relays view fair)
    (sound : course.Sound view fair base) {request : Request}
    {key : IssuedKey}
    (returns : (course.issue service ring request).1 = .value key) :
    request.fresh = key ∧
    course.writes.length < (course.issue service ring request).2.first ∧
    Deed.InEffect (course.issue service ring request).2.deeds
      course.writes.length := by
  have soundQueued := sound.enqueue (ring.write request)
  rw [issue_eq] at returns ⊢
  dsimp only at returns ⊢
  obtain ⟨commits, same⟩ :
      ((course.enqueue (ring.write request)).attempt service .commit).1.1 =
        .value () ∧ request.fresh = key := by
    cases outcome : ((course.enqueue (ring.write request)).attempt service
      .commit).1.1 <;> simp_all [Outcome.map]
  have whole := sound.whole
  have queued : (course.enqueue (ring.write request)).Queued
      course.writes.length := by
    constructor
    · rw [first_enqueue]
      omega
    · simp
  refine ⟨same, ?_, ?_⟩
  · have emptied := (commit_eq_of_value commits).2.2
    simp [first, Course.perform, emptied]
  · rw [(soundQueued.inEffect_commit relays commits queued).2]
    intro undone
    exact Nat.lt_irrefl _ (sound.known _ undone)

/-- The write of a key that is not returned has not been executed. -/
theorem Sound.issue_fails (relays : service.Relays view fair)
    (sound : course.Sound view fair base) {request : Request}
    (fails : ∀ key, (course.issue service ring request).1 ≠ .value key) :
    ⟨course.writes.length, .execute⟩ ∉
      (course.issue service ring request).2.deeds := by
  have soundQueued := sound.enqueue (ring.write request)
  rw [issue_eq] at fails ⊢
  dsimp only at fails ⊢
  have commitFails : ((course.enqueue (ring.write request)).attempt service
      .commit).1.1 ≠ .value () := by
    intro commits
    rw [commits] at fails
    exact fails request.fresh rfl
  have pending := pending_commit commitFails (by simp)
  have last := (soundQueued.perform relays .commit).last_pending pending
  have number : (course.enqueue (ring.write request)).writes.length - 1 =
      course.writes.length := by
    simp
  rw [← number]
  exact last

/-- What is known of a course in which only keys were requested. -/
structure Issued (ring : KeyRing) (requests : List Request)
    (outcomes : List (Outcome IssuedKey)) (course : Course σ) : Prop where
  writes : course.writes = requests.map ring.write
  length : outcomes.length = requests.length
  /-- The keys that were returned are settled and in effect. -/
  returned : ∀ (number : Nat) (key : IssuedKey),
    outcomes[number]? = some (.value key) →
    (∃ request, requests[number]? = some request ∧ request.fresh = key) ∧
      number < course.first ∧ Deed.InEffect course.deeds number

theorem Issued.issue (relays : service.Relays view fair)
    (sound : course.Sound view fair base) {requests : List Request}
    {outcomes : List (Outcome IssuedKey)}
    (issued : Issued ring requests outcomes course) (request : Request) :
    let done := course.issue service ring request
    Issued ring (requests ++ [request]) (outcomes ++ [done.1]) done.2 := by
  have number : course.writes.length = outcomes.length := by
    rw [issued.writes, List.length_map, issued.length]
  have whole := sound.whole
  have soundQueued := sound.enqueue (ring.write request)
  have sameFirst := first_enqueue course (ring.write request)
  have later := first_le_commit service (course.enqueue (ring.write request))
  refine ⟨?_, ?_, ?_⟩
  · rw [issue_eq]
    simp [issued.writes]
  · simp [issued.length]
  · intro position key returns
    rcases getElem?_concat_cases returns with ⟨rfl, here⟩ | before
    · obtain ⟨same, settled, inEffect⟩ :=
        sound.issue_returns relays here.symm
      rw [number] at settled inEffect
      refine ⟨⟨request, ?_, same⟩, settled, inEffect⟩
      rw [issued.length]
      simp
    · obtain ⟨⟨asked, foundAsked, same⟩, settled, inEffect⟩ :=
        issued.returned position key before
      rw [issue_eq]
      refine ⟨⟨asked, ?_, same⟩, ?_, ?_⟩
      · rw [List.getElem?_append_left
          (List.getElem?_eq_some_iff.1 foundAsked).1]
        exact foundAsked
      · dsimp only
        omega
      · refine inEffect.append fun deed member same => ?_
        obtain ⟨note, _, told⟩ := List.mem_filterMap.1 member
        have bound := Note.first_le_of_deed? told
        omega

/-- Whatever keys are requested, those that are returned are in effect. -/
theorem Issued.issueAll (relays : service.Relays view fair)
    (sound : course.Sound view fair base) {earlier : List Request}
    {outcomes : List (Outcome IssuedKey)}
    (issued : Issued ring earlier outcomes course)
    (requests : List Request) :
    let done := course.issueAll service ring requests
    done.2.Sound view fair base ∧
      Issued ring (earlier ++ requests) (outcomes ++ done.1) done.2 := by
  induction requests generalizing course earlier outcomes with
  | nil => simpa [Course.issueAll] using ⟨sound, issued⟩
  | cons request later ih =>
      have next := issued.issue relays sound request
      have soundNext :
          (course.issue service ring request).2.Sound view fair base := by
        rw [issue_eq]
        exact (sound.enqueue _).perform relays .commit
      have rest := ih soundNext next
      simpa [Course.issueAll] using rest

theorem issued_nil (started : course.writes = []) :
    Issued ring [] [] course :=
  ⟨started, rfl, by simp⟩

theorem Issued.exists_request {requests : List Request}
    {outcomes : List (Outcome IssuedKey)}
    (issued : Issued ring requests outcomes course) {number : Nat}
    {write : Write} (found : course.writes[number]? = some write) :
    ∃ request, requests[number]? = some request ∧
      ring.write request = write := by
  rw [issued.writes, List.getElem?_map] at found
  exact Option.map_eq_some_iff.1 found

/-- An entry that a request names, when ids are different and the entry had no
value before, has the new key exactly while the write of it is in effect. -/
theorem Issued.value?_of_request (sound : course.Sound view fair base)
    {requests : List Request} {outcomes : List (Outcome IssuedKey)}
    (issued : Issued ring requests outcomes course)
    (distinct : (requests.map fun request => request.fresh.id).Nodup)
    {number : Nat} {request : Request}
    (found : requests[number]? = some request)
    (absent : base.value? (ring.place request.user)
      request.fresh.id.toString = none) :
    let value := Bundles.value? (view course.store).bundles
      (ring.place request.user) request.fresh.id.toString
    (Deed.InEffect course.deeds number →
      value = some (.string request.fresh.key.toString)) ∧
    (¬ Deed.InEffect course.deeds number → value = none) := by
  have foundWrite : course.writes[number]? = some (ring.write request) := by
    rw [issued.writes, List.getElem?_map, found]
    rfl
  refine sound.value?_of_only foundWrite (write_names.2 ⟨rfl, rfl⟩) ?_ absent
  intro other further foundOther names
  obtain ⟨asked, foundAsked, rfl⟩ := issued.exists_request foundOther
  have ids := Uuid.toString_injective (write_names.1 names).2
  have bound := (List.getElem?_eq_some_iff.1 foundAsked).1
  refine (List.getElem?_inj (by simpa using bound) distinct).1 ?_
  simp [foundAsked, found, ids]

theorem Issued.value?_elsewhere (sound : course.Sound view fair base)
    {requests : List Request} {outcomes : List (Outcome IssuedKey)}
    (issued : Issued ring requests outcomes course) {user : Uuid}
    {key : String}
    (elsewhere : ∀ request ∈ requests,
      ¬ (request.user = user ∧ request.fresh.id.toString = key)) :
    Bundles.value? (view course.store).bundles (ring.place user) key =
      base.value? (ring.place user) key := by
  refine (sound.entries _ _).trans (Deed.replay_of_not_touches ?_ _)
  rintro deed member ⟨write, found, names⟩
  obtain ⟨request, asked, rfl⟩ := issued.exists_request found
  exact elsewhere request (List.mem_of_getElem? asked) (write_names.1 names)

theorem issueAll_fails (relays : service.Relays view fair)
    (sound : course.Sound view fair base) (started : course.writes = [])
    {requests : List Request} {number : Nat} {outcome : Outcome IssuedKey}
    (answered :
      (course.issueAll service ring requests).1[number]? = some outcome)
    (fails : ∀ key, outcome ≠ .value key) :
    ⟨number, .execute⟩ ∉
      (course.issueAll service ring (requests.take (number + 1))).2.deeds := by
  have inside : number < requests.length := by
    have bound := (List.getElem?_eq_some_iff.1 answered).1
    rwa [length_issueAll] at bound
  obtain ⟨soundBefore, issued⟩ :=
    Issued.issueAll relays sound (issued_nil started) (requests.take number)
  have upTo : requests.take (number + 1) =
      requests.take number ++ [requests[number]] := by
    rw [List.take_append_getElem]
  have split : requests = requests.take (number + 1) ++
      requests.drop (number + 1) := by
    rw [List.take_append_drop]
  rw [split, issueAll_append, upTo, issueAll_append] at answered
  rw [upTo, issueAll_append]
  have count := length_issueAll service ring course (requests.take number)
  have writes := congrArg List.length issued.writes
  generalize course.issueAll service ring (requests.take number) = before
    at *
  dsimp only [Course.issueAll] at answered ⊢
  have here : before.1.length = number := by
    rw [count, List.length_take]
    omega
  have same : (before.2.issue service ring requests[number]).1 = outcome := by
    rw [List.getElem?_append_left (by simp [here]),
      List.getElem?_append_right (Nat.le_of_eq here)] at answered
    simpa [here] using answered
  have failsHere : ∀ key,
      (before.2.issue service ring requests[number]).1 ≠ .value key := by
    rw [same]
    exact fails
  have last := soundBefore.issue_fails relays failsHere
  have position : before.2.writes.length = number := by
    rw [writes, List.length_map, List.nil_append, List.length_take]
    omega
  rwa [position] at last

end Issue

section Keys

open MemoryStore

/-- After keys have been requested, each user has the keys from before together
with exactly the requested keys whose writes are in effect.  All keys that were
returned are among them.  A request that failed has not executed the write of
its key itself. -/
theorem issueAll_stores (ring : KeyRing) (id : Nat) (client : Handle)
    {store : Guarded MemoryStore} {requests : List Request}
    (truthful : store.plan.Truthful)
    (distinct : (requests.map fun request => request.fresh.id).Nodup)
    (unused : ∀ request ∈ requests, Bundles.value? store.inner.bundles
      (ring.place request.user) request.fresh.id.toString = none) :
    let start : Course (Guarded MemoryStore) :=
      { session := { id, client }, store }
    let done := start.issueAll service.guarded ring requests
    let after := done.2.store.inner.bundles
    (∀ number request, requests[number]? = some request →
      Deed.InEffect done.2.deeds number →
      Bundles.value? after (ring.place request.user)
          request.fresh.id.toString =
        some (.string request.fresh.key.toString)) ∧
    (∀ user key, (∀ number request, requests[number]? = some request →
        Deed.InEffect done.2.deeds number →
        ¬ (request.user = user ∧ request.fresh.id.toString = key)) →
      Bundles.value? after (ring.place user) key =
        Bundles.value? store.inner.bundles (ring.place user) key) ∧
    (∀ number key, done.1[number]? = some (.value key) →
      (∃ request, requests[number]? = some request ∧ request.fresh = key) ∧
        Deed.InEffect done.2.deeds number) ∧
    (∀ number outcome, done.1[number]? = some outcome →
      (∀ key, outcome ≠ .value key) →
      ⟨number, .execute⟩ ∉ (start.issueAll service.guarded ring
        (requests.take (number + 1))).2.deeds) := by
  intro start done after
  have soundStart : start.Sound Guarded.inner
      (fun state => state.plan.Truthful) store.inner.bundles :=
    Account.start store truthful
  have startIssued : Issued ring [] [] start := issued_nil rfl
  obtain ⟨sound, issued⟩ :=
    startIssued.issueAll guarded_relays soundStart requests
  refine ⟨?_, ?_, ?_, ?_⟩
  · intro number request found inEffect
    have absent := unused request (List.mem_of_getElem? found)
    exact (issued.value?_of_request sound distinct found absent).1 inEffect
  · intro user key elsewhere
    by_cases named : ∃ request ∈ requests,
      request.user = user ∧ request.fresh.id.toString = key
    · obtain ⟨request, member, rfl, rfl⟩ := named
      obtain ⟨number, found⟩ := List.mem_iff_getElem?.1 member
      have absent := unused request member
      refine Eq.trans ?_ absent.symm
      refine (issued.value?_of_request sound distinct found absent).2 ?_
      intro inEffect
      exact elsewhere number request found inEffect ⟨rfl, rfl⟩
    · refine issued.value?_elsewhere sound fun request member names => ?_
      exact named ⟨request, member, names⟩
  · intro number key returned
    obtain ⟨asked, _, inEffect⟩ := issued.returned number key (by simpa)
    exact ⟨asked, inEffect⟩
  · intro number outcome answered fails
    exact issueAll_fails guarded_relays soundStart rfl answered fails

/-- A session over a store that cannot list its engines when it is asked for
the first time. -/
def interrupted : Course (Guarded MemoryStore) where
  session := { id := 1, client := 1 }
  store := { inner := {}, plan := { mounts := [.fail (.internal "down")] } }

/-- Requests of two users. -/
def twoRequests : List Request :=
  [⟨⟨1⟩, ⟨2⟩, ⟨3⟩⟩, ⟨⟨4⟩, ⟨5⟩, ⟨6⟩⟩]

set_option maxRecDepth 10000 in
/-- The key that is returned for the second request is stored. -/
theorem issueAll_stores_interrupted :
    let done := interrupted.issueAll service.guarded ⟨"api-keys"⟩ twoRequests
    interrupted.store.plan.Truthful ∧
    done.1 = [.fault (.internal "down"), .value ⟨⟨5⟩, ⟨6⟩⟩] ∧
    Bundles.value? done.2.store.inner.bundles
        (KeyRing.place ⟨"api-keys"⟩ ⟨4⟩) (Uuid.toString ⟨5⟩) =
      some (.string (Uuid.toString ⟨6⟩)) := by
  have truthful : interrupted.store.plan.Truthful := by
    intro kind error planned
    cases kind <;> simp_all [interrupted, FaultPlan.faults,
      StoreError.isPathNotFound]
  have outcomes : (interrupted.issueAll service.guarded ⟨"api-keys"⟩
      twoRequests).1 = [.fault (.internal "down"), .value ⟨⟨5⟩, ⟨6⟩⟩] := by
    decide
  have distinct :
      (twoRequests.map fun request => request.fresh.id).Nodup := by
    decide
  obtain ⟨stored, _, returned, _⟩ := issueAll_stores ⟨"api-keys"⟩ 1 1
    truthful distinct (fun request _ => by simp [interrupted, Bundles.value?])
  refine ⟨truthful, outcomes, ?_⟩
  have settled := returned 1 ⟨⟨5⟩, ⟨6⟩⟩ (congrArg (·[1]?) outcomes)
  exact stored 1 ⟨⟨4⟩, ⟨5⟩, ⟨6⟩⟩ rfl settled.2

set_option maxRecDepth 10000 in
/-- A key that was never returned can be stored: the request for it fails, and
the next one executes its write. -/
theorem issueAll_stores_unreturned :
    let done := interrupted.issueAll service.guarded ⟨"api-keys"⟩ twoRequests
    done.1 = [.fault (.internal "down"), .value ⟨⟨5⟩, ⟨6⟩⟩] ∧
    Bundles.value? interrupted.store.inner.bundles
        (KeyRing.place ⟨"api-keys"⟩ ⟨1⟩) (Uuid.toString ⟨2⟩) = none ∧
    Bundles.value? done.2.store.inner.bundles
        (KeyRing.place ⟨"api-keys"⟩ ⟨1⟩) (Uuid.toString ⟨2⟩) =
      some (.string (Uuid.toString ⟨3⟩)) := by
  refine ⟨by decide, by decide, by decide⟩

end Keys

end Course

end KeyCustody
