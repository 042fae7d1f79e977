import KeyCustody.Proofs.Session.Account

/-!
# Sessions over time

A session that writes entries is used by queueing writes and by flushing,
rolling back and committing in any order.  Between two uses, the store behind
it may change in any way that leaves the bundles alone: further faults may be
planned or injected, and engines mounted.

A course is such a session with its store, and with all that was queued and
done since it started.  In every course that can be reached, queue, deeds and
store agree.
-/

namespace KeyCustody

variable {σ : Type}

/-- The uses of a session that act on the store. -/
inductive Verb
  | flush
  | rollback
  | commit
deriving DecidableEq, Repr

def Verb.dialogue : Verb → Session → Dialogue (Outcome Unit × Session)
  | .flush => Session.flush
  | .rollback => Session.rollback
  | .commit => Session.commit

/-- A session in use, with the store behind it. -/
structure Course (σ : Type) where
  session : Session
  store : σ
  /-- All writes that were ever queued, oldest first. -/
  writes : List Write := []
  /-- All that was done to the store, oldest first. -/
  deeds : List Deed := []

namespace Course

/-- The number of the operation at the head of the queue. -/
def first (course : Course σ) : Nat :=
  course.writes.length - course.session.operations.length

def enqueue (course : Course σ) (write : Write) : Course σ :=
  { course with
    session := course.session.addWrite write.path write.key write.value
      write.mount
    writes := course.writes ++ [write] }

/-- What a verb comes to: its outcome, the session and the world. -/
def attempt (service : Service σ) (course : Course σ) (verb : Verb) :
    (Outcome Unit × Session) × World σ :=
  (verb.dialogue course.session).run service { store := course.store }

/-- The course after a verb. -/
def perform (service : Service σ) (course : Course σ) (verb : Verb) :
    Course σ :=
  let done := course.attempt service verb
  { course with
    session := done.1.2
    store := done.2.store
    deeds := course.deeds ++
      done.2.notes.filterMap (Note.deed? course.first) }

@[simp]
theorem writes_enqueue (course : Course σ) (write : Write) :
    (course.enqueue write).writes = course.writes ++ [write] :=
  rfl

@[simp]
theorem operations_enqueue (course : Course σ) (write : Write) :
    (course.enqueue write).session.operations =
      course.session.operations ++ [write.operation] :=
  rfl

@[simp]
theorem first_enqueue (course : Course σ) (write : Write) :
    (course.enqueue write).first = course.first := by
  simp [first]

@[simp]
theorem writes_perform (service : Service σ) (course : Course σ)
    (verb : Verb) : (course.perform service verb).writes = course.writes :=
  rfl

/-- The courses that a fresh session over a store can take. -/
inductive Reachable (service : Service σ) (view : σ → MemoryStore)
    (fair : σ → Prop) (id : Nat) (client : Handle) (store : σ) :
    Course σ → Prop
  | start : Reachable service view fair id client store
      { session := { id, client }, store }
  | enqueue {course : Course σ} (write : Write) :
      Reachable service view fair id client store course →
      Reachable service view fair id client store (course.enqueue write)
  | perform {course : Course σ} (verb : Verb) :
      Reachable service view fair id client store course →
      Reachable service view fair id client store
        (course.perform service verb)
  | disturb {course : Course σ} (next : σ) (isFair : fair next)
      (same : (view next).bundles = (view course.store).bundles) :
      Reachable service view fair id client store course →
      Reachable service view fair id client store { course with store := next }

/-- Queue, deeds and store of a course agree. -/
def Sound (view : σ → MemoryStore) (fair : σ → Prop) (base : Bundles)
    (course : Course σ) : Prop :=
  Account view fair base course.writes course.first course.session.operations
    course.deeds course.store

variable {service : Service σ} {view : σ → MemoryStore} {fair : σ → Prop}
variable {base : Bundles} {course : Course σ}

theorem sound_of_account {first : Nat}
    (account : Account view fair base course.writes first
      course.session.operations course.deeds course.store) :
    course.Sound view fair base := by
  have number : course.first = first := by
    have whole := account.whole
    unfold Course.first
    omega
  rw [Sound, number]
  exact account

theorem Sound.told (sound : course.Sound view fair base) :
    Told view fair base course.writes course.first course.deeds
      (course.session.operations, { store := course.store }) := by
  simpa [Told, Sound] using sound

theorem Sound.enqueue (sound : course.Sound view fair base) (write : Write) :
    (course.enqueue write).Sound view fair base :=
  sound_of_account (Account.enqueue sound write)

theorem Sound.disturb (sound : course.Sound view fair base) {next : σ}
    (isFair : fair next)
    (same : (view next).bundles = (view course.store).bundles) :
    Sound view fair base { course with store := next } :=
  Account.elsewhere sound isFair same

/-- A verb leaves a sound course sound, however it ends. -/
theorem Sound.perform (relays : service.Relays view fair)
    (sound : course.Sound view fair base) (verb : Verb) :
    (course.perform service verb).Sound view fair base := by
  have told := sound.told
  cases verb with
  | flush =>
      have flushed := told.flush relays course.session
      exact sound_of_account flushed
  | rollback =>
      have undone := told.rollback relays course.session
      exact sound_of_account undone
  | commit =>
      have flushed := told.flush relays course.session
      have undone := Told.rollback relays _ _ flushed
      rcases Session.commit_cases service course.session
        { store := course.store } with
        ⟨_, committed⟩ | ⟨_, _, undoneSame | flushedSame⟩
      · apply sound_of_account
        simp only [Course.perform, attempt, Verb.dialogue, committed]
        exact Account.empty flushed
      · obtain ⟨sameSession, sameWorld⟩ := Prod.mk.inj undoneSame
        apply sound_of_account
        simp only [Course.perform, attempt, Verb.dialogue, sameSession,
          sameWorld]
        exact undone
      · obtain ⟨sameSession, sameWorld⟩ := Prod.mk.inj flushedSame
        apply sound_of_account
        simp only [Course.perform, attempt, Verb.dialogue, sameSession,
          sameWorld]
        exact flushed

/-- Whatever a session goes through, its queue, its deeds and the store
agree. -/
theorem Reachable.sound (relays : service.Relays view fair) {id : Nat}
    {client : Handle} {store : σ} (isFair : fair store)
    (reachable : Reachable service view fair id client store course) :
    course.Sound view fair (view store).bundles := by
  induction reachable with
  | start => exact Account.start store isFair
  | enqueue write _ ih => exact ih.enqueue write
  | perform verb _ ih => exact ih.perform relays verb
  | disturb next isFair same _ ih => exact ih.disturb isFair same

end Course

end KeyCustody
