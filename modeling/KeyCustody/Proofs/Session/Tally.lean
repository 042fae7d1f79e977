import KeyCustody.Proofs.Operation.Attempt
import KeyCustody.Proofs.Session.Steps

/-!
# Notes and flags

The flags of the operations in a queue tell which actions have succeeded so far,
and so do the notes: an action has succeeded if its flag was set at the outset
or a note taken since tells of its success.  Flushing and rolling back keep the
two in agreement.

Whatever is invoked on the way is due by the notes before it: an operation is
executed only while that has not succeeded and only after all operations before
it, and it is undone only once it has been executed and while the undoing has
not succeeded.
-/

namespace KeyCustody

open Relation

variable {σ : Type}

section Lawful

variable {α β : Type} {allowed : List α → α → Prop} {log more : List α}

/-- Every entry of a log is allowed by the entries before it. -/
def Lawful (allowed : List α → α → Prop) (log : List α) : Prop :=
  ∀ before entry after, log = before ++ entry :: after → allowed before entry

theorem lawful_nil : Lawful allowed [] := by
  intro before entry after split
  simp at split

theorem append_eq_append_cons {before after : List α} {entry : α}
    (split : log ++ more = before ++ entry :: after) :
    (∃ rest, log = before ++ entry :: rest) ∨
      ∃ early, before = log ++ early ∧ more = early ++ entry :: after := by
  rcases List.append_eq_append_iff.1 split with
    ⟨early, sameBefore, sameMore⟩ | ⟨late, sameLog, sameAfter⟩
  · exact Or.inr ⟨early, sameBefore, sameMore⟩
  · rcases List.cons_eq_append_iff.1 sameAfter with
      ⟨rfl, sameMore⟩ | ⟨rest, rfl, _⟩
    · exact Or.inr ⟨[], by simpa using sameLog.symm, sameMore⟩
    · exact Or.inl ⟨rest, sameLog⟩

theorem Lawful.append (lawful : Lawful allowed log)
    (further : Lawful (fun before => allowed (log ++ before)) more) :
    Lawful allowed (log ++ more) := by
  intro before entry after split
  rcases append_eq_append_cons split with ⟨rest, early⟩ | ⟨early, rfl, late⟩
  · exact lawful before entry rest early
  · exact further early entry after late

theorem Lawful.concat {last : α} (lawful : Lawful allowed log)
    (permitted : allowed log last) : Lawful allowed (log ++ [last]) := by
  refine lawful.append fun before entry after split => ?_
  rcases List.cons_eq_append_iff.1 split with ⟨rfl, same⟩ | ⟨rest, rfl, same⟩
  · obtain ⟨rfl, _⟩ := List.cons.inj same
    rw [List.append_nil]
    exact permitted
  · simp at same

/-- What a log is read as is lawful if each entry that counts is allowed by how
those before it are read. -/
theorem Lawful.filterMap {read : α → Option β}
    {permitted : List β → β → Prop} (lawful : Lawful allowed log)
    (implies : ∀ before entry result, entry ∈ log → allowed before entry →
      read entry = some result → permitted (before.filterMap read) result) :
    Lawful permitted (log.filterMap read) := by
  intro before result after split
  obtain ⟨first, second, rfl, rfl, rest⟩ :=
    List.filterMap_eq_append_iff.1 split
  obtain ⟨skipped, entry, last, rfl, silent, reads, _⟩ :=
    List.filterMap_eq_cons_iff.1 rest
  have same : (first ++ skipped).filterMap read = first.filterMap read := by
    rw [List.filterMap_append, List.filterMap_eq_nil_iff.2 silent,
      List.append_nil]
  rw [← same]
  refine implies _ entry result (by simp) ?_ reads
  exact lawful _ entry last (by simp)

end Lawful

/-- Whether the action of an operation has succeeded in a phase. -/
def Operation.done (operation : Operation) : Phase → Bool
  | .execute => operation.executed
  | .rollback => operation.undone

/-- The action of the operation at a position has succeeded in a phase, going
by its flag. -/
def Done (queue : List Operation) (index : Nat) (phase : Phase) : Prop :=
  ∃ operation, queue[index]? = some operation ∧ operation.done phase

theorem done_middle (earlier later : List Operation) (operation : Operation)
    (phase : Phase) :
    Done (earlier ++ operation :: later) earlier.length phase ↔
      operation.done phase := by
  simp [Done]

theorem done_elsewhere {earlier : List Operation} {index : Nat}
    (elsewhere : index ≠ earlier.length) (old new : Operation)
    (later : List Operation) (phase : Phase) :
    Done (earlier ++ new :: later) index phase ↔
      Done (earlier ++ old :: later) index phase := by
  have same : (earlier ++ new :: later)[index]? =
      (earlier ++ old :: later)[index]? := by
    rcases Nat.lt_or_gt_of_ne elsewhere with before | after
    · rw [List.getElem?_append_left before, List.getElem?_append_left before]
    · rw [List.getElem?_append_right (Nat.le_of_lt after),
        List.getElem?_append_right (Nat.le_of_lt after)]
      obtain ⟨offset, position⟩ := Nat.exists_eq_add_of_lt after
      have inside : index - earlier.length = offset + 1 := by omega
      rw [inside, List.getElem?_cons_succ, List.getElem?_cons_succ]
  rw [Done, Done, same]

/-- A note tells that the action at a position has succeeded. -/
def Succeeded (notes : List Note) (index : Nat) (phase : Phase) : Prop :=
  ∃ label, .acted index label phase (.value ()) ∈ notes

/-- The action at a position has succeeded, going by the queue at the outset and
the notes taken since. -/
def DoneSince (start : List Operation) (notes : List Note) (index : Nat)
    (phase : Phase) : Prop :=
  Done start index phase ∨ Succeeded notes index phase

theorem succeeded_concat (notes : List Note) (index position : Nat)
    (label : Option String) (phase other : Phase) (outcome : Outcome Unit) :
    Succeeded (notes ++ [.acted index label phase outcome]) position other ↔
      Succeeded notes position other ∨
        (position = index ∧ other = phase ∧ outcome = .value ()) := by
  constructor
  · rintro ⟨said, member⟩
    rcases List.mem_append.1 member with early | last
    · exact Or.inl ⟨said, early⟩
    · rw [List.mem_singleton] at last
      injection last with samePosition _ samePhase sameOutcome
      exact Or.inr ⟨samePosition, samePhase, sameOutcome.symm⟩
  · rintro (⟨said, member⟩ | ⟨rfl, rfl, rfl⟩)
    · exact ⟨said, List.mem_append_left _ member⟩
    · exact ⟨label, List.mem_append_right _ (List.mem_singleton_self _)⟩

/-- When it is the turn of the action at a position. -/
def Due (start : List Operation) (notes : List Note) (index : Nat) :
    Phase → Prop
  | .execute => ¬ DoneSince start notes index .execute ∧
      ∀ earlier < index, DoneSince start notes earlier .execute
  | .rollback => DoneSince start notes index .execute ∧
      ¬ DoneSince start notes index .rollback

/-- A note tells of nothing that was not due. -/
def Note.Timely (start : List Operation) (notes : List Note) : Note → Prop
  | .acted index _ phase _ => index < start.length ∧ Due start notes index phase
  | .warned _ => True

/-- What has become of a queue since the outset agrees with the notes taken,
and each of them was timely. -/
structure Tally (start queue : List Operation) (notes : List Note) :
    Prop where
  length : queue.length = start.length
  done : ∀ index phase,
    Done queue index phase ↔ DoneSince start notes index phase
  timely : Lawful (Note.Timely start) notes

namespace Tally

variable {start queue earlier later : List Operation} {notes : List Note}
variable {operation : Operation}

theorem refl (start : List Operation) : Tally start start [] where
  length := rfl
  done := by simp [DoneSince, Succeeded]
  timely := lawful_nil

theorem warned (tally : Tally start queue notes) (warning : Warning) :
    Tally start queue (notes ++ [.warned warning]) where
  length := tally.length
  done := by
    intro index phase
    rw [tally.done]
    simp [DoneSince, Succeeded]
  timely := tally.timely.concat trivial

/-- An attempt that is due and noted is accounted for, if it sets the flag of
its phase exactly if it succeeds. -/
theorem attempt (tally : Tally start (earlier ++ operation :: later) notes)
    {phase : Phase} (due : Due start notes earlier.length phase)
    {changed : Operation} {outcome : Outcome Unit}
    (flags : ∀ other, changed.done other ↔
      operation.done other ∨ (other = phase ∧ outcome = .value ()))
    (label : Option String) :
    Tally start (earlier ++ changed :: later)
      (notes ++ [.acted earlier.length label phase outcome]) where
  length := by
    rw [← tally.length]
    simp
  done := by
    intro index other
    rw [DoneSince, succeeded_concat, ← or_assoc]
    change _ ↔ DoneSince start notes index other ∨ _
    rw [← tally.done]
    by_cases here : index = earlier.length
    · subst here
      simp [done_middle, flags other]
    · rw [done_elsewhere here operation changed later other]
      simp [here]
  timely := by
    refine tally.timely.concat ⟨?_, due⟩
    rw [← tally.length]
    simp

theorem due_execute (tally : Tally start (earlier ++ operation :: later) notes)
    (settled : ∀ other ∈ earlier, other.executed)
    (pending : operation.executed = false) :
    Due start notes earlier.length .execute := by
  constructor
  · rw [← tally.done, done_middle]
    simp [Operation.done, pending]
  · intro position before
    rw [← tally.done]
    refine ⟨earlier[position], ?_, settled _ (List.getElem_mem before)⟩
    rw [List.getElem?_append_left before, List.getElem?_eq_getElem before]

theorem due_rollback
    (tally : Tally start (earlier ++ operation :: later) notes)
    (needed : operation.needsUndo) :
    Due start notes earlier.length .rollback := by
  obtain ⟨executed, kept, _⟩ := Operation.needsUndo_iff.1 needed
  constructor
  · rw [← tally.done, done_middle]
    exact executed
  · rw [← tally.done, done_middle]
    simp [Operation.done, kept]

end Tally

/-- A standing agrees with the notes taken since the outset. -/
def Tallied (start : List Operation) (before : List Note)
    (standing : Standing σ) : Prop :=
  ∃ notes, standing.2.notes = before ++ notes ∧ Tally start standing.1 notes

namespace Tallied

variable {service : Service σ} {client : Handle} {start : List Operation}
variable {before : List Note} {standing next : Standing σ}

theorem executeStep (tallied : Tallied start before standing)
    (step : ExecuteStep service client standing next) :
    Tallied start before next := by
  obtain ⟨notes, taken, tally⟩ := tallied
  cases step with
  | provide mount operations world =>
      obtain ⟨outcome, store, run⟩ :=
        ensureMount_takes_no_notes service client mount world
      rw [run]
      exact ⟨notes, taken, tally⟩
  | @execute earlier later operation world done settled pending attempt =>
      obtain ⟨outcome, action, store, run, _⟩ := Operation.run_attempt pending
        service client earlier.length world
      rw [run] at attempt
      subst attempt
      refine ⟨_, by rw [taken, List.append_assoc], ?_⟩
      refine tally.attempt (tally.due_execute settled pending) ?_ _
      intro phase
      cases phase with
      | execute => simp [Operation.done, pending]
      | rollback => simp [Operation.done]

theorem undoStep (tallied : Tallied start before standing)
    (step : UndoStep service client standing next) :
    Tallied start before next := by
  obtain ⟨notes, taken, tally⟩ := tallied
  cases step with
  | warn operations world warning =>
      exact ⟨_, by rw [taken, List.append_assoc], tally.warned warning⟩
  | @undo earlier later operation world done needed attempt =>
      obtain ⟨outcome, action, store, run, _⟩ := Operation.undo_attempt needed
        service client earlier.length world
      rw [run] at attempt
      subst attempt
      refine ⟨_, by rw [taken, List.append_assoc], ?_⟩
      refine tally.attempt (tally.due_rollback needed) ?_ _
      have kept := (Operation.needsUndo_iff.1 needed).2.1
      intro phase
      cases phase with
      | execute => simp [Operation.done]
      | rollback => simp [Operation.done, kept]

theorem flush (service : Service σ) (session : Session) (world : World σ)
    (tallied : Tallied start before (session.operations, world)) :
    let done := session.flush.run service world
    Tallied start before (done.1.2.operations, done.2) :=
  flush_keeps service (Tallied start before) session world
    (fun _ _ step tallied => tallied.executeStep step) tallied

theorem rollback (service : Service σ) (session : Session) (world : World σ)
    (tallied : Tallied start before (session.operations, world)) :
    let done := session.rollback.run service world
    Tallied start before (done.1.2.operations, done.2) :=
  rollback_keeps service (Tallied start before) session world
    (fun _ _ step tallied => tallied.undoStep step) tallied

end Tallied

end KeyCustody
