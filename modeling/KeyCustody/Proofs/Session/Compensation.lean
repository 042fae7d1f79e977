import KeyCustody.Proofs.Session.Work

/-!
# What a scope undoes behind its work

Behind the work of a scope, the operations that were executed, are still queued
and have not been undone are undone, the newest one first.  A failure to undo
one stops none of the others.  If the work did not succeed, what failed to be
undone is tried once more, in the same order; after work that succeeded there
is one pass only.

What was committed or closed in the course of the work has left the queue and is
not undone.  The scope ends as the work does, even if operations fail to be
undone or the release of the client crashes.
-/

namespace KeyCustody

open Incident

variable {α σ : Type}

/-- An attempt to undo an operation: its number and how the attempt ended. -/
abbrev Attempt := Nat × Outcome Unit

namespace Attempt

def incident (attempt : Attempt) : Incident :=
  .invoked attempt.1 .rollback attempt.2

/-- The numbers of the operations that failed to be undone. -/
def failures (attempts : List Attempt) : List Nat :=
  (attempts.filter fun attempt => !attempt.2.isValue).map Prod.fst

theorem failures_append (first second : List Attempt) :
    failures (first ++ second) = failures first ++ failures second := by
  simp [failures]

end Attempt

/-- The numbers of the operations that are to be undone, the newest one first.
The head of the queue has the number `first`. -/
def Operation.due (first : Nat) (queue : List Operation) : List Nat :=
  (((queue.zipIdx first).filter fun entry => entry.1.needsUndo).map
    Prod.snd).reverse

theorem Operation.due_cons (first : Nat) (operation : Operation)
    (later : List Operation) :
    due first (operation :: later) =
      due (first + 1) later ++ if operation.needsUndo then [first] else [] := by
  cases needed : operation.needsUndo <;> simp [due, List.zipIdx_cons, needed]

theorem Operation.le_of_mem_due {first number : Nat} {queue : List Operation}
    (member : number ∈ due first queue) : first ≤ number := by
  simp only [due, List.mem_reverse, List.mem_map, List.mem_filter] at member
  obtain ⟨entry, ⟨listed, _⟩, rfl⟩ := member
  exact List.le_snd_of_mem_zipIdx listed

/-- One pass over a queue, told by the notes it takes: each operation that is to
be undone is tried once, the newest one first, and what fails is what is left
to be undone.  Notes give positions, of which the queue begins at `index`, and
the operation at position zero has the number `first`. -/
structure Pass (first index : Nat) (queue left : List Operation)
    (notes : List Note) (attempts : List Attempt) : Prop where
  told : told first notes = attempts.map Attempt.incident
  once : attempts.map Prod.fst = Operation.due (first + index) queue
  again : Operation.due (first + index) left = Attempt.failures attempts

namespace Pass

variable {first index : Nat} {queue left later rest : List Operation}
variable {notes : List Note} {attempts : List Attempt}
variable {operation changed : Operation}

theorem nil (first index : Nat) : Pass first index [] [] [] [] :=
  ⟨rfl, rfl, rfl⟩

theorem skip (pass : Pass first (index + 1) later rest notes attempts)
    (settled : operation.needsUndo = false) :
    Pass first index (operation :: later) (operation :: rest) notes
      attempts where
  told := pass.told
  once := by
    rw [Operation.due_cons, settled, if_neg Bool.false_ne_true,
      List.append_nil]
    exact pass.once
  again := by
    rw [Operation.due_cons, settled, if_neg Bool.false_ne_true,
      List.append_nil]
    exact pass.again

/-- An operation is tried after all that come later in the queue. -/
theorem attempt (pass : Pass first (index + 1) later rest notes attempts)
    (needed : operation.needsUndo) {outcome : Outcome Unit}
    (left : changed.needsUndo = !outcome.isValue) (label : Option String) :
    Pass first index (operation :: later) (changed :: rest)
      (notes ++ [.acted index label .rollback outcome])
      (attempts ++ [(first + index, outcome)]) where
  told := by
    rw [Incident.told, List.filterMap_append, List.map_append]
    exact congrArg (· ++ _) pass.told
  once := by
    rw [Operation.due_cons, needed, if_pos rfl, List.map_append]
    exact congrArg (· ++ _) pass.once
  again := by
    have others : Operation.due (first + index + 1) rest =
        Attempt.failures attempts := pass.again
    rw [Operation.due_cons, others, Attempt.failures_append]
    cases outcome <;> simp [left, Attempt.failures, Outcome.isValue]

theorem warned (pass : Pass first index queue left notes attempts)
    (warning : Warning) :
    Pass first index queue left (notes ++ [.warned warning]) attempts where
  told := by
    rw [← pass.told, Incident.told, List.filterMap_append]
    exact List.append_nil _
  once := pass.once
  again := pass.again

end Pass

namespace Operation

theorem undoAll_pass (service : Service σ) (client : Handle)
    (first index : Nat) (queue : List Operation) (world : World σ) :
    let done := (undoAll client index queue).run service world
    (∀ message, done.1.1 ≠ .crash message) →
    ∃ notes attempts, done.2.notes = world.notes ++ notes ∧
      Pass first index queue done.1.2 notes attempts := by
  induction queue generalizing index with
  | nil =>
      intro done _
      exact ⟨[], [], (List.append_nil _).symm, Pass.nil first index⟩
  | cons operation later ih =>
      have rest := ih (index + 1)
      rw [run_undoAll_cons]
      generalize (undoAll client (index + 1) later).run service world =
        undone at rest ⊢
      obtain ⟨⟨outcome, left⟩, reached⟩ := undone
      dsimp only at rest ⊢
      cases outcome with
      | crash message => exact fun goesOn => absurd rfl (goesOn message)
      | _ =>
        obtain ⟨notes, attempts, taken, pass⟩ := rest (by simp)
        by_cases needed : operation.needsUndo
        · obtain ⟨outcome, action, store, run, same⟩ := undo_attempt needed
            service client index reached
          rw [run]
          dsimp only
          have isLeft : ({ operation with
              action, undone := outcome.isValue } : Operation).needsUndo =
                !outcome.isValue := by
            obtain ⟨executed, _, canUndo⟩ := needsUndo_iff.1 needed
            simp [needsUndo, executed, same, canUndo]
          have tried := pass.attempt needed isLeft action.label?
          cases outcome with
          | value result =>
              intro _
              exact ⟨_, _, by rw [taken, List.append_assoc], tried⟩
          | fault error =>
              intro _
              have warned := tried.warned
                (.notUndone index operation.mount error)
              refine ⟨_, _, ?_, warned⟩
              simp [taken]
          | crash message => exact fun goesOn => absurd rfl (goesOn message)
        · have settled : operation.needsUndo = false := by simpa using needed
          rw [undo_settled settled]
          exact fun _ => ⟨notes, attempts, taken, pass.skip settled⟩

end Operation

namespace Session

variable {session : Session}

theorem rollback_pass (service : Service σ) (session : Session) (first : Nat)
    (world : World σ) :
    let done := session.rollback.run service world
    (∀ message, done.1.1 ≠ .crash message) →
    ∃ notes attempts, done.2.notes = world.notes ++ notes ∧
      Pass first 0 session.operations done.1.2.operations notes attempts := by
  rw [run_rollback]
  exact Operation.undoAll_pass service session.client first 0
    session.operations world

/-- Closing a session undoes what rolling it back undoes.  If it is committed,
that is nothing. -/
theorem close_undoes (service : Service σ) (coherent : session.Coherent)
    (world : World σ) :
    let undone := session.rollback.run service world
    let done := session.close.run service world
    done.2 = undone.2 ∧ ∀ message,
      undone.1.1 = .crash message → done.1.1 = .crash message := by
  unfold close
  split
  next committed =>
    rw [coherent.rollback_committed service committed]
    exact ⟨rfl, by simp⟩
  next =>
    simp only [Dialogue.bind_eq_bind, Dialogue.run_bind]
    generalize session.rollback.run service world = undone
    obtain ⟨⟨outcome, left⟩, reached⟩ := undone
    cases outcome <;> simp

/-- What is undone behind work, told by the notes that it takes: after work
that succeeded, what is due once, and after any other work whatever has failed
once more. -/
structure Compensated (first : Nat) (queue : List Operation)
    (succeeded : Bool) (notes : List Note) (tried retried : List Attempt) :
    Prop where
  told : told first notes = (tried ++ retried).map Attempt.incident
  once : tried.map Prod.fst = Operation.due first queue
  again : retried.map Prod.fst =
    if succeeded then [] else Attempt.failures tried

theorem compensate_undoes (service : Service σ) (coherent : session.Coherent)
    (first : Nat) (outcome : Outcome α) (world : World σ) :
    let done := (compensate outcome session).run service world
    (∀ message, done.1.1 ≠ .crash message) →
    ∃ notes tried retried, done.2.notes = world.notes ++ notes ∧
      Compensated first session.operations outcome.isValue notes tried
        retried := by
  unfold compensate
  split
  next succeeded =>
    intro done goesOn
    obtain ⟨same, crashes⟩ := close_undoes service coherent world
    obtain ⟨notes, tried, taken, pass⟩ :=
      rollback_pass service session first world fun message crashed =>
        goesOn message (crashes message crashed)
    refine ⟨notes, tried, [], (congrArg World.notes same).trans taken, ?_,
      pass.once, ?_⟩
    · rw [List.append_nil, pass.told]
    · rw [succeeded]
      rfl
  next failed =>
    have undoes := rollback_pass service session first world
    have left := coherent.rollback service world
    simp only [Dialogue.bind_eq_bind, Dialogue.run_bind]
    generalize session.rollback.run service world = undone at undoes left ⊢
    obtain ⟨⟨rolledBack, session'⟩, reached⟩ := undone
    cases rolledBack with
    | crash message => exact fun goesOn => absurd rfl (goesOn message)
    | _ =>
      intro goesOn
      obtain ⟨notes, tried, taken, pass⟩ := undoes (by simp)
      obtain ⟨same, crashes⟩ := close_undoes service left reached
      obtain ⟨later, retried, takenLater, passAgain⟩ :=
        rollback_pass service session' first reached fun message crashed =>
          goesOn message (crashes message crashed)
      refine ⟨notes ++ later, tried, retried, ?_, ?_, pass.once, ?_⟩
      · rw [← List.append_assoc, ← taken, ← takenLater]
        exact congrArg World.notes same
      · rw [List.map_append, ← pass.told, ← passAgain.told]
        exact List.filterMap_append
      · rw [if_neg failed, passAgain.once]
        exact pass.again

theorem told_release (service : Service σ) (session : Session) (first : Nat)
    (world : World σ) :
    ∃ notes, (session.release.run service world).2.notes =
      world.notes ++ notes ∧ told first notes = [] := by
  unfold release
  simp only [Dialogue.bind_eq_bind, Dialogue.run_bind]
  simp only [Dialogue.call, Dialogue.run]
  split
  next => exact ⟨_, rfl, rfl⟩
  next => exact ⟨[], (List.append_nil _).symm, rfl⟩

theorem leave_undoes (service : Service σ) (coherent : session.Coherent)
    (first : Nat) (outcome : Outcome α) (world : World σ)
    (quiet : ¬ CrashesOnLeaving service session outcome world) :
    ∃ notes tried retried,
      ((leave outcome session).run service world).2.notes =
        world.notes ++ notes ∧
      Compensated first session.operations outcome.isValue notes tried
        retried := by
  rw [crashesOnLeaving_iff, not_exists] at quiet
  obtain ⟨notes, tried, retried, taken, undone⟩ :=
    compensate_undoes service coherent first outcome world quiet
  rw [leave_eq, Dialogue.run_bind]
  generalize (compensate outcome session).run service world = done
    at quiet taken ⊢
  obtain ⟨⟨undoing, left⟩, reached⟩ := done
  obtain ⟨more, takenMore, silent⟩ :=
    told_release service left first reached
  have released : ((left.release).run service reached).2.notes =
      world.notes ++ (notes ++ more) := by
    rw [takenMore, taken, List.append_assoc]
  have sameTold : Compensated first session.operations outcome.isValue
      (notes ++ more) tried retried := by
    refine ⟨?_, undone.once, undone.again⟩
    rw [← undone.told, Incident.told, List.filterMap_append]
    exact (congrArg (_ ++ ·) silent).trans (List.append_nil _)
  cases undoing with
  | crash message => exact absurd rfl (quiet message)
  | _ => exact ⟨_, tried, retried, released, sameTold⟩

theorem Compensated.queued {first : Nat} {queue : List Operation}
    {succeeded : Bool} {notes : List Note} {tried retried : List Attempt}
    (undone : Compensated first queue succeeded notes tried retried) :
    ∀ attempt ∈ tried ++ retried, first ≤ attempt.1 := by
  have early : ∀ attempt ∈ tried, first ≤ attempt.1 := by
    intro attempt member
    have due := List.mem_map_of_mem (f := Prod.fst) member
    rw [undone.once] at due
    exact Operation.le_of_mem_due due
  intro attempt member
  rcases List.mem_append.1 member with first | second
  · exact early attempt first
  · have again := List.mem_map_of_mem (f := Prod.fst) second
    rw [undone.again] at again
    cases succeeded with
    | true => exact absurd again List.not_mem_nil
    | false =>
        obtain ⟨failed, member, same⟩ := List.mem_map.1 again
        rw [← same]
        exact early failed (List.mem_filter.1 member).1

/-- A scope ends as its work does, if no operation crashes while it is undone
behind the work; that others fail to be undone, or that releasing the client
crashes, changes nothing.

The attempts to undo operations there are one for each operation that was
executed, is still queued and has not been undone when the work ends, the newest
one first, and, unless the work succeeded, another one for each that has failed.
None of them is for an operation that was committed or closed by the work. -/
theorem scope_compensates (service : Service σ) (id : Nat) {client : Handle}
    {world : World σ} (work : Work α)
    (connected : (service.connect world.store).1 = .value client) :
    let begun := { world with store := (service.connect world.store).2 }
    let worked := work.perform service { id, client } begun
    let career := work.career service { session := { id, client } } begun
    let done := scope (m := StateM (World σ))
      (fun dialogue => dialogue.run service) id (work.perform service) world
    career.session = worked.1.2 ∧
    (¬ CrashesOnLeaving service worked.1.2 worked.1.1 worked.2 →
      done.1 = worked.1.1 ∧
      ∃ notes tried retried, done.2.notes = worked.2.notes ++ notes ∧
        Compensated career.first worked.1.2.operations worked.1.1.isValue
          notes tried retried ∧
        ∀ attempt ∈ tried ++ retried, ∀ first beyond,
          .retired first beyond ∈ career.incidents → beyond ≤ attempt.1) := by
  intro begun worked career done
  have same : career.session = worked.1.2 :=
    Career.session_work service work { session := { id, client } } begun
  refine ⟨same, fun quiet => ?_⟩
  have reachable : Career.Reachable service career :=
    (Career.Reachable.start id client).work work begun
  have coherent : worked.1.2.Coherent := same ▸ reachable.session.coherent
  obtain ⟨notes, tried, retried, taken, undone⟩ :=
    leave_undoes service coherent career.first worked.1.1 worked.2 quiet
  have released := (leave_releases service worked.1.2 worked.1.1 worked.2
    quiet).1
  have ends : done = (worked.1.1,
      ((leave worked.1.1 worked.1.2).run service worked.2).2) := by
    refine (run_scope connected id (work.perform service)).trans ?_
    dsimp only
    rw [released]
  rw [ends]
  refine ⟨rfl, notes, tried, retried, taken, undone, ?_⟩
  · intro attempt member first beyond retired
    have known := reachable.sound.record.retired first beyond retired
    exact Nat.le_trans known (undone.queued attempt member)

/-- Work that commits one operation, executes two others and then fails. -/
def failingLate : Work Unit :=
  .add "m" (.scripted "A" [] (some [])) <|
  .use .commit fun _ =>
  .add "m" (.scripted "B" []
    (some [.fail (.internal "down"), .succeed])) <|
  .add "m" (.scripted "C" [] (some [])) <|
  .use .flush fun _ =>
  .ends (.fault (.internal "late"))

/-- A store that crashes when a client is released. -/
def unreleasing : Guarded MemoryStore where
  inner := {}
  plan := { close := [.crash "closing"] }

set_option maxRecDepth 10000 in
/-- Behind such work the last two operations are undone, one of them at the
second attempt, and the scope fails as the work does. -/
theorem scope_compensates_failure :
    let service := MemoryStore.service.guarded
    let begun : World (Guarded MemoryStore) :=
      { store := (service.connect unreleasing).2 }
    let worked := failingLate.perform service { id := 1, client := 0 } begun
    let career := failingLate.career service
      { session := { id := 1, client := 0 } } begun
    let done := scope (m := StateM (World (Guarded MemoryStore)))
      (fun dialogue => dialogue.run service) 1 (failingLate.perform service)
      { store := unreleasing }
    (service.connect unreleasing).1 = .value 0 ∧
    ¬ CrashesOnLeaving service worked.1.2 worked.1.1 worked.2 ∧
    .retired 0 1 ∈ career.incidents ∧
    done.1 = .fault (.internal "late") ∧
    ∃ notes, ∃ tried retried : List Attempt,
      done.2.notes = worked.2.notes ++ notes ∧
      tried.map Prod.fst = [2, 1] ∧
      (tried ++ retried).map Attempt.incident =
        [.invoked 2 .rollback (.value ()),
          .invoked 1 .rollback (.fault (.internal "down")),
          .invoked 1 .rollback (.value ())] ∧
      ∀ attempt ∈ tried ++ retried, 1 ≤ attempt.1 := by
  intro service begun worked career done
  have connected : (service.connect ({ store := unreleasing } :
      World (Guarded MemoryStore)).store).1 = .value 0 :=
    rfl
  have trace : (leave worked.1.1 worked.1.2).trace service worked.2 =
      [.noted (.acted 1 (some "C") .rollback (.value ())),
        .noted (.acted 0 (some "B") .rollback (.fault (.internal "down"))),
        .noted (.warned (.notUndone 0 "m" (.internal "down"))),
        .noted (.acted 0 (some "B") .rollback (.value ())),
        .asked 0 .close,
        .noted (.warned (.notReleased (taskReport "closing")))] := by
    decide
  have quiet : ¬ CrashesOnLeaving service worked.1.2 worked.1.1 worked.2 := by
    rintro ⟨event, member, index, label, message, rfl⟩
    rw [trace] at member
    simp at member
  have retired : Incident.retired 0 1 ∈ career.incidents := by decide
  have fails : worked.1.1 = .fault (.internal "late") := by decide
  have due : Operation.due career.first worked.1.2.operations = [2, 1] := by
    decide
  have noted : done.2.notes = worked.2.notes ++
      [.acted 1 (some "C") .rollback (.value ()),
        .acted 0 (some "B") .rollback (.fault (.internal "down")),
        .warned (.notUndone 0 "m" (.internal "down")),
        .acted 0 (some "B") .rollback (.value ()),
        .warned (.notReleased (taskReport "closing"))] := by
    decide
  have numbered : career.first = 1 := by decide
  have compensates := scope_compensates service 1 failingLate connected
  dsimp only [worked, career, done, begun] at *
  obtain ⟨ends, notes, tried, retried, taken, undone, kept⟩ :=
    compensates.2 quiet
  have same := List.append_cancel_left (taken.symm.trans noted)
  refine ⟨connected, quiet, retired, ends.trans fails, notes, tried, retried,
    taken, undone.once.trans due, ?_, fun attempt member =>
      kept attempt member 0 1 retired⟩
  rw [← undone.told, same, numbered]
  rfl

end Session

end KeyCustody
