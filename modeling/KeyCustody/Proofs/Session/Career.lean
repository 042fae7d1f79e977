import KeyCustody.Proofs.Session.Release
import KeyCustody.Proofs.Session.Shape

/-!
# The career of a session

A session is queued to, flushed, rolled back, committed and closed in any order,
until it is disconnected or left as the session of a scope.  Its incidents are
all invocations of the actions of its operations, in order, together with the
points at which operations leave the queue for good.

Operations are numbered over all that were ever queued, so that a number stays
that of one operation when the queue is emptied.

Whatever the actions and the store do, and however often they fail or crash, an
operation is not executed again once that has succeeded, it is undone only after
it has been executed and not again once that has succeeded, and nothing of it is
invoked after it was committed or closed.
-/

namespace KeyCustody

variable {σ : Type}

/-- Something that happens to operations of a session. -/
inductive Incident
  /-- An action of an operation was invoked and ended with an outcome. -/
  | invoked (number : Nat) (phase : Phase) (outcome : Outcome Unit)
  /-- The operations from one number on, up to but without another, left the
  queue with a commit that succeeded or a closing that was completed. -/
  | retired (first beyond : Nat)
deriving DecidableEq, Repr

/-- What a note tells of, where `first` is the number of the operation at the
head of the queue. -/
def Note.incident? (first : Nat) : Note → Option Incident
  | .acted index _ phase outcome =>
      some (.invoked (first + index) phase outcome)
  | .warned _ => none

namespace Incident

/-- Whether an incident may happen after others. -/
def Allowed (before : List Incident) : Incident → Prop
  | invoked number phase _ =>
      (phase = .execute → invoked number .execute (.value ()) ∉ before) ∧
      (phase = .rollback → invoked number .execute (.value ()) ∈ before ∧
        invoked number .rollback (.value ()) ∉ before) ∧
      ∀ first beyond, retired first beyond ∈ before →
        number < first ∨ beyond ≤ number
  | retired _ _ => True

/-- The invocations that notes tell of. -/
def told (first : Nat) (notes : List Note) : List Incident :=
  notes.filterMap (Note.incident? first)

theorem invoked_mem_told {first number : Nat} {notes : List Note}
    {phase : Phase} {outcome : Outcome Unit} :
    invoked number phase outcome ∈ told first notes ↔
      ∃ index label, number = first + index ∧
        .acted index label phase outcome ∈ notes := by
  simp only [told, List.mem_filterMap]
  constructor
  · rintro ⟨note, member, tells⟩
    cases note with
    | acted index label phase outcome =>
        simp only [Note.incident?, Option.some.injEq, invoked.injEq] at tells
        obtain ⟨rfl, rfl, rfl⟩ := tells
        exact ⟨index, label, rfl, member⟩
    | warned warning => simp [Note.incident?] at tells
  · rintro ⟨index, label, rfl, member⟩
    exact ⟨_, member, rfl⟩

theorem retired_not_mem_told {first early beyond : Nat} {notes : List Note} :
    retired early beyond ∉ told first notes := by
  intro member
  obtain ⟨note, _, tells⟩ := List.mem_filterMap.1 member
  cases note <;> simp [Note.incident?] at tells

end Incident

open Incident

/-- A queue agrees with the incidents so far: its flags tell which actions of
its operations have succeeded, and nothing in it has been retired.  The head of
the queue has the number `first`. -/
structure Record (first : Nat) (queue : List Operation)
    (incidents : List Incident) : Prop where
  done : ∀ index < queue.length, ∀ phase, Done queue index phase ↔
    invoked (first + index) phase (.value ()) ∈ incidents
  known : ∀ number phase outcome,
    invoked number phase outcome ∈ incidents → number < first + queue.length
  retired : ∀ early beyond,
    Incident.retired early beyond ∈ incidents → beyond ≤ first
  lawful : Lawful Allowed incidents

namespace Record

variable {first : Nat} {start queue : List Operation}
variable {incidents : List Incident} {notes : List Note}

/-- What has succeeded since the outset is what the incidents tell. -/
theorem doneSince_iff (record : Record first start incidents) {index : Nat}
    (inside : index < start.length) (notes : List Note) (phase : Phase) :
    DoneSince start notes index phase ↔
      invoked (first + index) phase (.value ()) ∈
        incidents ++ told first notes := by
  rw [DoneSince, record.done index inside, List.mem_append, invoked_mem_told]
  refine or_congr Iff.rfl ?_
  constructor
  · rintro ⟨label, member⟩
    exact ⟨index, label, rfl, member⟩
  · rintro ⟨other, label, same, member⟩
    obtain rfl : index = other := by omega
    exact ⟨label, member⟩

theorem allowed (record : Record first start incidents) {note : Note}
    {incident : Incident} (timely : note.Timely start notes)
    (tells : note.incident? first = some incident) :
    incident.Allowed (incidents ++ told first notes) := by
  cases note with
  | warned warning => simp [Note.incident?] at tells
  | acted index label phase outcome =>
      obtain ⟨inside, due⟩ := timely
      simp only [Note.incident?, Option.some.injEq] at tells
      subst tells
      refine ⟨?_, ?_, ?_⟩
      · rintro rfl
        rw [← record.doneSince_iff inside]
        exact due.1
      · rintro rfl
        rw [← record.doneSince_iff inside, ← record.doneSince_iff inside]
        exact due
      · intro early beyond member
        rcases List.mem_append.1 member with known | new
        · exact Or.inr (Nat.le_add_right_of_le
            (record.retired early beyond known))
        · exact absurd new retired_not_mem_told

/-- A record is carried on by the notes that agree with what has become of the
queue. -/
theorem tally (record : Record first start incidents)
    (tally : Tally start queue notes) :
    Record first queue (incidents ++ told first notes) where
  done := by
    intro index inside phase
    rw [tally.length] at inside
    rw [tally.done, record.doneSince_iff inside]
  known := by
    intro number phase outcome member
    rw [tally.length]
    rcases List.mem_append.1 member with known | new
    · exact record.known number phase outcome known
    · obtain ⟨index, label, rfl, noted⟩ := invoked_mem_told.1 new
      obtain ⟨before, after, split⟩ := List.append_of_mem noted
      have inside := (tally.timely before _ after split).1
      omega
  retired := by
    intro early beyond member
    rcases List.mem_append.1 member with known | new
    · exact record.retired early beyond known
    · exact absurd new retired_not_mem_told
  lawful := by
    refine record.lawful.append (tally.timely.filterMap ?_)
    intro before note incident _ timely tells
    exact record.allowed timely tells

theorem concat (record : Record first queue incidents)
    {operation : Operation} (fresh : ∀ phase, operation.done phase = false) :
    Record first (queue ++ [operation]) incidents where
  done := by
    intro index inside phase
    rw [List.length_append, List.length_singleton] at inside
    rcases Nat.lt_or_eq_of_le (Nat.le_of_lt_succ inside) with before | rfl
    · rw [← record.done index before, Done, Done,
        List.getElem?_append_left before]
    · rw [done_middle, fresh]
      refine iff_of_false (by simp) fun member => ?_
      exact absurd (record.known _ _ _ member) (Nat.lt_irrefl _)
  known := by
    intro number phase outcome member
    have known := record.known number phase outcome member
    rw [List.length_append]
    omega
  retired := record.retired
  lawful := record.lawful

theorem retire (record : Record first queue incidents) :
    Record (first + queue.length) []
      (incidents ++ [.retired first (first + queue.length)]) where
  done := by simp
  known := by
    intro number phase outcome member
    have known : invoked number phase outcome ∈ incidents := by
      simpa using member
    exact record.known number phase outcome known
  retired := by
    intro early beyond member
    rcases List.mem_append.1 member with known | new
    · exact Nat.le_add_right_of_le (record.retired early beyond known)
    · rw [List.mem_singleton] at new
      injection new with _ same
      exact Nat.le_of_eq same
  lawful := record.lawful.concat trivial

end Record

namespace Tallied

variable {start : List Operation} {before : List Note} {world : World σ}
variable (service : Service σ) (session : Session)

/-- What is left of a queue when it is concluded: nothing after a success, and
otherwise the queue as far as it came. -/
def LeftBy (start : List Operation) (before : List Note)
    (done : (Outcome Unit × Session) × World σ) : Prop :=
  ∃ queue, Tallied start before (queue, done.2) ∧
    done.1.2.operations = if done.1.1.isValue then [] else queue

theorem commit
    (tallied : Tallied start before (session.operations, world)) :
    LeftBy start before (session.commit.run service world) := by
  have flushed := tallied.flush service session world
  rcases Session.commit_cases service session world with
    ⟨_, committed⟩ | ⟨_, fails, same⟩
  · rw [committed]
    exact ⟨_, flushed, rfl⟩
  · have failed : (session.commit.run service world).1.1.isValue = false :=
      Bool.eq_false_iff.2 (mt Outcome.isValue_eq_true.1 fails)
    refine ⟨(session.commit.run service world).1.2.operations, ?_, by
      rw [failed]; rfl⟩
    rcases same with same | same
    · obtain ⟨sameSession, sameWorld⟩ := Prod.mk.inj same
      rw [sameSession, sameWorld]
      exact flushed.rollback service _ _
    · obtain ⟨sameSession, sameWorld⟩ := Prod.mk.inj same
      rw [sameSession, sameWorld]
      exact flushed

theorem close
    (tallied : Tallied start before (session.operations, world)) :
    LeftBy start before (session.close.run service world) := by
  have undone := tallied.rollback service session world
  rcases Session.close_cases service session world with
    ⟨_, closed⟩ | ⟨_, ⟨message, crashed⟩ | closed⟩
  · rw [closed]
    exact ⟨_, tallied, rfl⟩
  · rw [crashed]
    exact ⟨_, undone, rfl⟩
  · rw [closed]
    exact ⟨_, undone, rfl⟩

theorem compensate {α : Type} (outcome : Outcome α)
    (tallied : Tallied start before (session.operations, world)) :
    ∃ queue, Tallied start before
      (queue, ((Session.compensate outcome session).run service world).2) := by
  unfold Session.compensate
  split
  · obtain ⟨queue, left, _⟩ := tallied.close service session
    exact ⟨queue, left⟩
  · have undone := tallied.rollback service session world
    simp only [Dialogue.bind_eq_bind, Dialogue.run_bind]
    split
    · exact ⟨_, undone⟩
    · obtain ⟨queue, left, _⟩ := undone.close service
        (session.rollback.run service world).1.2
      exact ⟨queue, left⟩

theorem release {queue : List Operation}
    (tallied : Tallied start before (queue, world)) :
    Tallied start before (queue, (session.release.run service world).2) := by
  obtain ⟨notes, taken, tally⟩ := tallied
  unfold Session.release
  simp only [Dialogue.bind_eq_bind, Dialogue.run_bind, Dialogue.call,
    Dialogue.run]
  split
  next message crashed =>
    refine ⟨notes ++ [.warned (.notReleased (taskReport message))], ?_,
      tally.warned _⟩
    dsimp only at taken
    simp [taken]
  · exact ⟨notes, taken, tally⟩

theorem leave {α : Type} (outcome : Outcome α)
    (tallied : Tallied start before (session.operations, world)) :
    ∃ queue, Tallied start before
      (queue, ((Session.leave outcome session).run service world).2) := by
  obtain ⟨queue, left⟩ := tallied.compensate service session outcome
  rw [Session.leave_eq, Dialogue.run_bind]
  split
  · exact ⟨queue, left⟩
  · exact ⟨queue, left.release service _⟩

end Tallied

/-- A session in use, with how many operations were ever queued and with all
that has happened to them, oldest first. -/
structure Career where
  session : Session
  enrolled : Nat := 0
  incidents : List Incident := []

namespace Career

/-- The number of the operation at the head of the queue. -/
def first (career : Career) : Nat :=
  career.enrolled - career.session.operations.length

def add (career : Career) (mount : String) (action : Action) : Career :=
  { career with
    session := career.session.add mount action
    enrolled := career.enrolled + 1 }

/-- What happens while the store is at hand, if work on the session takes notes
and, where it is meant to, concludes the queue with a success. -/
def after (career : Career) (notes : List Note) (concluded : Bool) :
    List Incident :=
  career.incidents ++ told career.first notes ++
    if concluded then [.retired career.first career.enrolled] else []

/-- The career after flushing or rolling back. -/
def use (service : Service σ)
    (verb : Session → Dialogue (Outcome Unit × Session)) (career : Career)
    (store : σ) : Career :=
  let done := (verb career.session).run service { store }
  { career with
    session := done.1.2
    incidents := career.after done.2.notes false }

/-- The career after committing or closing, which retires the queue if it
succeeds. -/
def conclude (service : Service σ)
    (verb : Session → Dialogue (Outcome Unit × Session)) (career : Career)
    (store : σ) : Career :=
  let done := (verb career.session).run service { store }
  { career with
    session := done.1.2
    incidents := career.after done.2.notes done.1.1.isValue }

/-- All that has happened when a career is over, where the last work on the
session has closed it on the way if it succeeds. -/
def ended (service : Service σ) (ending : Session → Dialogue (Outcome Unit))
    (career : Career) (store : σ) : List Incident :=
  let done := (ending career.session).run service { store }
  career.after done.2.notes done.1.isValue

/-- The careers that a fresh session can take, whatever the store is at each
use.  Queueing a write is a case of queueing an operation. -/
inductive Reachable (service : Service σ) : Career → Prop
  | start (id : Nat) (client : Handle) :
      Reachable service { session := { id, client } }
  | add {career : Career} (mount : String) (action : Action) :
      Reachable service career → Reachable service (career.add mount action)
  | flush {career : Career} (store : σ) :
      Reachable service career →
      Reachable service (career.use service Session.flush store)
  | rollback {career : Career} (store : σ) :
      Reachable service career →
      Reachable service (career.use service Session.rollback store)
  | commit {career : Career} (store : σ) :
      Reachable service career →
      Reachable service (career.conclude service Session.commit store)
  | close {career : Career} (store : σ) :
      Reachable service career →
      Reachable service (career.conclude service Session.close store)

/-- All that happens in a run: a career as far as it has come, or one that was
ended by disconnecting the session or by leaving the scope that it belongs to,
behind work with some outcome. -/
inductive Run (service : Service σ) : List Incident → Prop
  | going {career : Career} :
      Reachable service career → Run service career.incidents
  | disconnected {career : Career} (store : σ) :
      Reachable service career →
      Run service (career.ended service Session.disconnect store)
  | left {career : Career} {α : Type} (outcome : Outcome α) (store : σ) :
      Reachable service career →
      Run service (career.ended service (Session.leave outcome) store)

variable {service : Service σ} {career : Career}

/-- Queue and incidents of a career agree. -/
structure Sound (career : Career) : Prop where
  whole : career.enrolled =
    career.first + career.session.operations.length
  record : Record career.first career.session.operations career.incidents

theorem sound_of_record {first : Nat}
    (whole : career.enrolled = first + career.session.operations.length)
    (record : Record first career.session.operations career.incidents) :
    career.Sound := by
  have same : career.first = first := by
    unfold Career.first
    omega
  exact ⟨by omega, same ▸ record⟩

theorem outset (career : Career) (store : σ) :
    Tallied career.session.operations []
      (career.session.operations, ({ store } : World σ)) :=
  ⟨[], rfl, Tally.refl _⟩

/-- What happens while a queue is worked on is on record. -/
theorem Sound.carriedOn (sound : career.Sound) {queue : List Operation}
    {world : World σ}
    (tallied : Tallied career.session.operations [] (queue, world)) :
    queue.length = career.session.operations.length ∧
    Record career.first queue (career.after world.notes false) := by
  obtain ⟨notes, taken, tally⟩ := tallied
  rw [List.nil_append] at taken
  dsimp only at taken
  refine ⟨tally.length, ?_⟩
  rw [after, taken, if_neg (by simp), List.append_nil]
  exact sound.record.tally tally

theorem Sound.retired (sound : career.Sound) {queue : List Operation}
    {world : World σ}
    (tallied : Tallied career.session.operations [] (queue, world)) :
    Record career.enrolled [] (career.after world.notes true) := by
  obtain ⟨length, record⟩ := sound.carriedOn tallied
  have beyond : career.first + queue.length = career.enrolled := by
    rw [length, ← sound.whole]
  have retire := record.retire
  rw [beyond] at retire
  simpa [after] using retire

theorem Sound.add (sound : career.Sound) (mount : String) (action : Action) :
    (career.add mount action).Sound := by
  have fresh (phase : Phase) :
      ({ mount, action } : Operation).done phase = false := by
    cases phase <;> rfl
  refine sound_of_record ?_ (sound.record.concat fresh)
  simp only [Career.add, Session.add, List.length_append,
    List.length_singleton]
  rw [← Nat.add_assoc, ← sound.whole]

theorem Sound.use (sound : career.Sound)
    {verb : Session → Dialogue (Outcome Unit × Session)} {store : σ}
    (left : let done := (verb career.session).run service { store }
      Tallied career.session.operations [] (done.1.2.operations, done.2)) :
    (career.use service verb store).Sound := by
  obtain ⟨length, record⟩ := sound.carriedOn left
  refine sound_of_record ?_ record
  exact sound.whole.trans (congrArg _ length.symm)

theorem Sound.conclude (sound : career.Sound)
    {verb : Session → Dialogue (Outcome Unit × Session)} {store : σ}
    (left : Tallied.LeftBy career.session.operations []
      ((verb career.session).run service { store })) :
    (career.conclude service verb store).Sound := by
  obtain ⟨queue, tallied, operations⟩ := left
  cases succeeded : ((verb career.session).run service
    { store }).1.1.isValue with
  | true =>
      rw [succeeded, if_pos rfl] at operations
      have retired := sound.retired tallied
      rw [← operations, ← succeeded] at retired
      refine sound_of_record ?_ retired
      simp [Career.conclude, operations]
  | false =>
      rw [succeeded, if_neg (by simp)] at operations
      obtain ⟨length, record⟩ := sound.carriedOn tallied
      rw [← operations] at length
      rw [← operations, ← succeeded] at record
      refine sound_of_record ?_ record
      exact sound.whole.trans (congrArg _ length.symm)

theorem Reachable.sound (reachable : Reachable service career) :
    career.Sound := by
  induction reachable with
  | start id client =>
      exact ⟨rfl, by simp, by simp, by simp, lawful_nil⟩
  | add mount action _ ih => exact ih.add mount action
  | @flush career store _ ih =>
      exact ih.use ((career.outset store).flush service career.session _)
  | @rollback career store _ ih =>
      exact ih.use ((career.outset store).rollback service career.session _)
  | @commit career store _ ih =>
      exact ih.conclude ((career.outset store).commit service career.session)
  | @close career store _ ih =>
      exact ih.conclude ((career.outset store).close service career.session)

/-- What happens up to the end of a career is lawful, too. -/
theorem Sound.lawful_ended {α : Type} (sound : career.Sound)
    (service : Service σ) (outcome : Outcome α) (store : σ) :
    Lawful Allowed (career.ended service (Session.leave outcome) store) := by
  obtain ⟨queue, tallied⟩ := (career.outset store).leave service
    career.session outcome
  unfold ended
  dsimp only
  cases ((Session.leave outcome career.session).run service
    { store }).1.isValue with
  | true => exact (sound.retired tallied).lawful
  | false => exact (sound.carriedOn tallied).2.lawful

theorem Run.lawful {incidents : List Incident}
    (run : Run service incidents) : Lawful Allowed incidents := by
  cases run with
  | going reachable => exact reachable.sound.record.lawful
  | @disconnected career store reachable =>
      have lawful := reachable.sound.lawful_ended service
        (Outcome.value ()) store
      exact lawful
  | left outcome store reachable =>
      exact reachable.sound.lawful_ended service outcome store

/-- In every run of a session, the execution of an operation is not invoked
again once it has succeeded, its undoing is invoked only after its execution has
succeeded and not again once it has itself succeeded, and neither is invoked
after the operation was retired. -/
theorem run_keeps_protocol {incidents : List Incident}
    (run : Run service incidents) :
    ∀ before number phase outcome after,
      incidents = before ++ invoked number phase outcome :: after →
      (phase = .execute → invoked number .execute (.value ()) ∉ before) ∧
      (phase = .rollback → invoked number .execute (.value ()) ∈ before ∧
        invoked number .rollback (.value ()) ∉ before) ∧
      ∀ first beyond, .retired first beyond ∈ before →
        number < first ∨ beyond ≤ number := by
  intro before number phase outcome after split
  exact run.lawful before _ after split

/-- A career whose first commit fails at its second operation and whose second
commit succeeds, since when an operation was added and flushed. -/
def recommitted : Career :=
  let queued := (({ session := { id := 1, client := 1 } } : Career).add "m"
    (.scripted "A" [] (some []))).add "m"
    (.scripted "B" [.fail (.internal "down"), .succeed] none)
  let committed := (queued.conclude MemoryStore.service Session.commit
    {}).conclude MemoryStore.service Session.commit {}
  (committed.add "m" (.scripted "C" [] (some []))).use MemoryStore.service
    Session.flush {}

theorem recommitted_reachable :
    Reachable MemoryStore.service recommitted :=
  (((((Reachable.start 1 1).add _ _).add _ _).commit _).commit _).add _ _
    |>.flush _

set_option maxRecDepth 10000 in
/-- When the scope of such a session is left with an error, what was flushed
last is undone, and nothing else of it or of the others is invoked. -/
theorem run_keeps_protocol_recommitted :
    recommitted.ended MemoryStore.service
        (Session.leave (.fault (.internal "late") : Outcome Unit)) {} =
      [.invoked 0 .execute (.value ()),
        .invoked 1 .execute (.fault (.internal "down")),
        .invoked 0 .rollback (.value ()),
        .invoked 1 .execute (.value ()),
        .retired 0 2,
        .invoked 2 .execute (.value ()),
        .invoked 2 .rollback (.value ()),
        .retired 2 3] ∧
    ((Phase.rollback = .execute → invoked 2 .execute (.value ()) ∉
        recommitted.incidents) ∧
      (Phase.rollback = .rollback →
        invoked 2 .execute (.value ()) ∈ recommitted.incidents ∧
        invoked 2 .rollback (.value ()) ∉ recommitted.incidents) ∧
      ∀ first beyond, .retired first beyond ∈ recommitted.incidents →
        2 < first ∨ beyond ≤ 2) := by
  have happened : recommitted.ended MemoryStore.service
      (Session.leave (.fault (.internal "late") : Outcome Unit)) {} =
      recommitted.incidents ++
        .invoked 2 .rollback (.value ()) :: [.retired 2 3] := by
    decide
  refine ⟨by decide, ?_⟩
  exact run_keeps_protocol
    (Run.left (.fault (.internal "late") : Outcome Unit) {}
      recommitted_reachable) _ 2 .rollback _ _ happened

end Career

end KeyCustody
