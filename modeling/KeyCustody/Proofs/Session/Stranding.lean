import KeyCustody.Proofs.Operation.Attempt
import KeyCustody.Proofs.Operation.Write
import KeyCustody.Proofs.Session.Release

/-!
# Rolling back over a released client

A released client refuses every call, except for being released once more.  A
session over it makes all its calls through it, so what becomes of its queue
does not depend on the store.

Writes cannot be undone then: each one that was executed stays as it is, and a
warning is noted for it.  Only an operation of another kind can crash, which
ends the rollback; the writes queued before that operation get no warning.
-/

namespace KeyCustody

variable {α : Type}

/-- What a released client answers. -/
def Call.refusal : (call : Call) → Outcome call.Reply
  | .close => .value ()
  | .read _ _ | .patch _ _ _ | .put _ _ _ | .mounts | .enable _ _ =>
      .fault .sessionClosed

theorem Call.refusal_of_ne {call : Call} (asks : call ≠ .close) :
    call.refusal = .fault .sessionClosed := by
  cases call with
  | close => exact absurd rfl asks
  | read _ _ | patch _ _ _ | put _ _ _ | mounts | enable _ _ => rfl

/-- A store whose clients are all released. -/
def refusing : Service Unit where
  connect _ := (.fault .sessionClosed, ())
  answer _ call _ := (call.refusal, ())

/-- If the event involves a client, it is the given one. -/
def Event.GoesThrough (client : Handle) : Event → Prop
  | .connected => False
  | .asked asker _ => asker = client
  | .noted _ => True

/-- A dialogue that makes calls only through the given client. -/
abbrev Dialogue.GoesThrough (client : Handle) (dialogue : Dialogue α) : Prop :=
  dialogue.Assures (Event.GoesThrough client) fun _ => True

section Through

variable (client : Handle)

theorem Act.goesThrough_perform (act : Act) :
    (act.perform client).GoesThrough client := by
  cases act with
  | ask call => exact ⟨rfl, fun _ => trivial⟩
  | _ => trivial

theorem goesThrough_dropEntry (mount path key : String) :
    (dropEntry client mount path key).GoesThrough client := by
  refine ⟨rfl, fun reply => ?_⟩
  dsimp only [Dialogue.result_bind]
  split
  next bundle =>
    split
    · exact ⟨rfl, fun _ => trivial⟩
    · trivial
  all_goals trivial

theorem Action.goesThrough_rollback (mount : String) (action : Action) :
    (action.invoke client mount .rollback).GoesThrough client := by
  cases action with
  | write path key value =>
      exact (goesThrough_dropEntry client mount path key).bind
        fun _ _ => trivial
  | scripted label execute rollback =>
      exact (Act.goesThrough_perform client _).bind fun _ _ => trivial

theorem Operation.goesThrough_undo (index : Nat) (operation : Operation) :
    (operation.undo client index).GoesThrough client := by
  unfold undo invoke
  split
  · simp only [Dialogue.bind_eq_bind, Dialogue.bind_assoc]
    exact (Action.goesThrough_rollback client operation.mount
      operation.action).bind fun _ _ => ⟨trivial, trivial⟩
  · trivial

theorem Operation.goesThrough_undoAll (index : Nat) (queue : List Operation) :
    (undoAll client index queue).GoesThrough client := by
  induction queue generalizing index with
  | nil => trivial
  | cons operation later ih =>
      unfold undoAll
      refine (ih (index + 1)).bind ?_
      rintro ⟨outcome, left⟩ _
      have undoes : ((operation.undo client index).bind
          (noteUndone index left)).GoesThrough client := by
        refine (goesThrough_undo client index operation).bind ?_
        rintro ⟨undone, changed⟩ _
        cases undone with
        | fault error => exact ⟨trivial, trivial⟩
        | _ => trivial
      cases outcome with
      | crash message => trivial
      | _ => exact undoes

theorem Session.goesThrough_rollback (session : Session) :
    session.rollback.GoesThrough session.client :=
  (Operation.goesThrough_undoAll session.client 0 session.operations).bind
    fun _ _ => trivial

end Through

/-- A warning that the operation at a position was not undone. -/
def Note.warnsOf (position : Nat) : Note → Bool
  | .warned (.notUndone index _ _) => index == position
  | _ => false

/-- The warnings about the operation at a position. -/
def warningsOf (position : Nat) (notes : List Note) : List Note :=
  notes.filter (Note.warnsOf position)

theorem warningsOf_append (position : Nat) (early late : List Note) :
    warningsOf position (early ++ late) =
      warningsOf position early ++ warningsOf position late :=
  List.filter_append ..

/-- What an attempt to undo the operation at a position notes warns of no other
operation. -/
theorem warningsOf_attempt {position index : Nat} (differs : index ≠ position)
    (label : Option String) (outcome : Outcome Unit) (mount : String)
    (error : StoreError) :
    warningsOf position [.acted index label .rollback outcome] = [] ∧
    warningsOf position [.acted index label .rollback outcome,
      .warned (.notUndone index mount error)] = [] := by
  simp [warningsOf, Note.warnsOf, differs]

/-- A rollback of a queue over a released client.  It comes as far as the
operation `reached`, counted from the head of the queue, whose position is
`index`: all the way, unless the operation before that one crashes. -/
structure Stranded (index : Nat) (queue : List Operation)
    (outcome : Outcome Unit) (left : List Operation) (notes : List Note)
    (reached : Nat) : Prop where
  /-- Writes stay as they are. -/
  keeps : ∀ (place : Nat) (operation : Operation),
    queue[place]? = some operation → operation.write?.isSome →
    left[place]? = some operation
  /-- There is one warning for each write that should have been undone. -/
  warned : ∀ (place : Nat) (operation : Operation),
    queue[place]? = some operation → operation.write?.isSome →
    operation.needsUndo →
    warningsOf (index + place) notes =
      if reached ≤ place then
        [.warned (.notUndone (index + place) operation.mount .sessionClosed)]
      else []
  silent : ∀ position < index, warningsOf position notes = []
  whole : (∀ message, outcome ≠ .crash message) → reached = 0
  crashed : ∀ message, outcome = .crash message →
    ∃ (place : Nat) (operation : Operation) (label : Option String),
      reached = place + 1 ∧
      queue[place]? = some operation ∧ operation.write? = none ∧
      .acted (index + place) label .rollback (.crash message) ∈ notes

namespace Stranded

variable {index reached : Nat} {operation : Operation}
variable {later left : List Operation} {outcome : Outcome Unit}
variable {notes : List Note}

theorem nil (index : Nat) : Stranded index [] (.value ()) [] [] 0 where
  keeps place _ present := by simp at present
  warned place _ present := by simp at present
  silent _ _ := rfl
  whole _ := rfl
  crashed := by simp

theorem spared {message : String}
    (rest : Stranded (index + 1) later (.crash message) left notes reached) :
    Stranded index (operation :: later) (.crash message) (operation :: left)
      notes (reached + 1) where
  keeps place other present isWrite := by
    cases place with
    | zero => exact present
    | succ place => exact rest.keeps place other present isWrite
  warned place other present isWrite needed := by
    cases place with
    | zero => exact rest.silent index (Nat.lt_succ_self index)
    | succ place =>
        have warned := rest.warned place other present isWrite needed
        rw [Nat.add_assoc, Nat.add_comm 1] at warned
        simpa using warned
  silent position early := rest.silent position (Nat.lt_succ_of_lt early)
  whole goesOn := absurd rfl (goesOn message)
  crashed other same := by
    obtain ⟨place, culprit, label, reached, present, isOther, noted⟩ :=
      rest.crashed other same
    rw [Nat.add_assoc, Nat.add_comm 1] at noted
    exact ⟨place + 1, culprit, label, congrArg (· + 1) reached, present,
      isOther, noted⟩

/-- The head of the queue is tried last.  Nothing it notes is a warning about
another operation. -/
theorem tried {last : Outcome Unit} {changed : Operation} {added : List Note}
    (rest : Stranded (index + 1) later outcome left notes reached)
    (goesOn : ∀ message, outcome ≠ .crash message)
    (ends : ∀ message, last ≠ .crash message)
    (kept : operation.write?.isSome → changed = operation)
    (own : operation.write?.isSome → operation.needsUndo →
      warningsOf index added =
        [.warned (.notUndone index operation.mount .sessionClosed)])
    (others : ∀ position, index ≠ position → warningsOf position added = []) :
    Stranded index (operation :: later) last (changed :: left)
      (notes ++ added) 0 where
  keeps place other present isWrite := by
    cases place with
    | zero =>
        cases present
        exact congrArg some (kept isWrite)
    | succ place => exact rest.keeps place other present isWrite
  warned place other present isWrite needed := by
    rw [warningsOf_append]
    cases place with
    | zero =>
        cases present
        rw [Nat.add_zero, rest.silent index (Nat.lt_succ_self index),
          own isWrite needed]
        rfl
    | succ place =>
        have warned := rest.warned place other present isWrite needed
        rw [rest.whole goesOn, Nat.add_assoc, Nat.add_comm 1] at warned
        rw [warned, others _ (by omega)]
        rfl
  silent position early := by
    rw [warningsOf_append, rest.silent position (Nat.lt_succ_of_lt early),
      others position (by omega)]
    rfl
  whole _ := rfl
  crashed message same := absurd same (ends message)

theorem stopped {message : String} {changed : Operation}
    {label : Option String}
    (rest : Stranded (index + 1) later outcome left notes reached)
    (goesOn : ∀ message, outcome ≠ .crash message)
    (isOther : operation.write? = none) :
    Stranded index (operation :: later) (.crash message) (changed :: left)
      (notes ++ [.acted index label .rollback (.crash message)]) 1 where
  keeps place other present isWrite := by
    cases place with
    | zero =>
        cases present
        rw [isOther] at isWrite
        cases isWrite
    | succ place => exact rest.keeps place other present isWrite
  warned place other present isWrite needed := by
    cases place with
    | zero =>
        cases present
        rw [isOther] at isWrite
        cases isWrite
    | succ place =>
        have warned := rest.warned place other present isWrite needed
        rw [rest.whole goesOn, Nat.add_assoc, Nat.add_comm 1] at warned
        rw [warningsOf_append, warned]
        simp [warningsOf, Note.warnsOf]
  silent position early := by
    rw [warningsOf_append, rest.silent position (Nat.lt_succ_of_lt early)]
    rfl
  whole goesOn := absurd rfl (goesOn message)
  crashed other same := by
    cases same
    exact ⟨0, operation, label, rfl, rfl, isOther,
      List.mem_append_right _ (List.mem_singleton_self _)⟩

end Stranded

namespace Operation

theorem undo_write_refused {operation : Operation}
    (isWrite : operation.write?.isSome) (needed : operation.needsUndo)
    (client : Handle) (index : Nat) (world : World Unit) :
    (operation.undo client index).run refusing world =
      ((.fault .sessionClosed, operation),
        { world with
          notes := world.notes ++
            [.acted index none .rollback (.fault .sessionClosed)] }) := by
  obtain ⟨executed, pending, _⟩ := needsUndo_iff.1 needed
  rw [undo_needed needed, run_invoke]
  obtain ⟨mount, action, _, _⟩ := operation
  cases executed
  cases pending
  cases action with
  | write path key value => rfl
  | scripted label execute rollback => cases isWrite

/-- Unless the later operations crash, the head of the queue is undone, and a
failure is noted. -/
theorem run_undoAll_cons_of_ne {σ : Type} (service : Service σ)
    (client : Handle) (index : Nat) (operation : Operation)
    (later : List Operation) (world : World σ) :
    let rest := (undoAll client (index + 1) later).run service world
    (∀ message, rest.1.1 ≠ .crash message) →
    (undoAll client index (operation :: later)).run service world =
      ((operation.undo client index).bind (noteUndone index rest.1.2)).run
        service rest.2 := by
  rw [run_undoAll_cons]
  generalize (undoAll client (index + 1) later).run service world = rest
  obtain ⟨⟨outcome, left⟩, reached⟩ := rest
  dsimp only
  intro goesOn
  rw [Dialogue.run_bind]
  generalize (operation.undo client index).run service reached = done
  obtain ⟨⟨undone, changed⟩, last⟩ := done
  cases outcome with
  | crash message => exact absurd rfl (goesOn message)
  | _ => cases undone <;> rfl

variable {index reached : Nat} {operation : Operation}
variable {later left : List Operation} {outcome : Outcome Unit}
variable {notes : List Note}

theorem undo_strands
    (rest : Stranded (index + 1) later outcome left notes reached)
    (goesOn : ∀ message, outcome ≠ .crash message) (client : Handle)
    (world : World Unit) :
    let done := ((operation.undo client index).bind
      (noteUndone index left)).run refusing world
    ∃ added reached, done.2.notes = world.notes ++ added ∧
      Stranded index (operation :: later) done.1.1 done.1.2 (notes ++ added)
        reached := by
  rw [Dialogue.run_bind]
  by_cases needed : operation.needsUndo
  · by_cases isWrite : operation.write?.isSome
    · rw [undo_write_refused isWrite needed]
      refine ⟨[.acted index none .rollback (.fault .sessionClosed),
        .warned (.notUndone index operation.mount .sessionClosed)], 0, ?_, ?_⟩
      · exact List.append_assoc ..
      · refine rest.tried goesOn (by simp [noteUndone]) (fun _ => rfl) ?_ ?_
        · intro _ _
          simp [warningsOf, Note.warnsOf]
        · intro position differs
          exact (warningsOf_attempt differs ..).2
    · obtain ⟨undone, action, store, run, _⟩ := undo_attempt needed refusing
        client index world
      rw [run]
      have isOther : operation.write? = none := by simpa using isWrite
      cases undone with
      | value result =>
          refine ⟨_, 0, rfl, rest.tried goesOn (by simp [noteUndone])
            (absurd · isWrite) (absurd · isWrite) ?_⟩
          intro position differs
          exact (warningsOf_attempt differs _ _ "" .sessionClosed).1
      | fault error =>
          refine ⟨_, 0, List.append_assoc .., rest.tried goesOn
            (by simp [noteUndone]) (absurd · isWrite) (absurd · isWrite) ?_⟩
          intro position differs
          exact (warningsOf_attempt differs ..).2
      | crash message => exact ⟨_, 1, rfl, rest.stopped goesOn isOther⟩
  · have settled : operation.needsUndo = false := by simpa using needed
    rw [undo_settled settled]
    refine ⟨[], 0, (List.append_nil _).symm, ?_⟩
    refine rest.tried goesOn (by simp [noteUndone]) (fun _ => rfl) ?_ ?_
    · exact fun _ due => absurd due needed
    · exact fun _ _ => rfl

/-- Rolling a queue back over a released client strands its writes. -/
theorem undoAll_strands (client : Handle) (index : Nat)
    (queue : List Operation) (world : World Unit) :
    let done := (undoAll client index queue).run refusing world
    ∃ notes reached, done.2.notes = world.notes ++ notes ∧
      Stranded index queue done.1.1 done.1.2 notes reached := by
  induction queue generalizing index with
  | nil => exact ⟨[], 0, (List.append_nil _).symm, Stranded.nil index⟩
  | cons operation later ih =>
      obtain ⟨notes, reached, taken, rest⟩ := ih (index + 1)
      have head := run_undoAll_cons_of_ne refusing client index operation
        later world
      by_cases crashed : ∃ message, ((undoAll client (index + 1) later).run
          refusing world).1.1 = .crash message
      · obtain ⟨message, crashed⟩ := crashed
        rw [run_undoAll_cons]
        dsimp only
        rw [crashed] at rest ⊢
        exact ⟨notes, reached + 1, taken, rest.spared⟩
      · rw [not_exists] at crashed
        rw [head crashed]
        obtain ⟨added, reached, takenOn, whole⟩ :=
          undo_strands rest crashed client _
        refine ⟨notes ++ added, reached, ?_, whole⟩
        rw [takenOn, taken, List.append_assoc]

end Operation

theorem Session.rollback_strands (session : Session) (world : World Unit) :
    let done := session.rollback.run refusing world
    ∃ notes reached, done.2.notes = world.notes ++ notes ∧
      done.1.2 = { session with operations := done.1.2.operations } ∧
      Stranded 0 session.operations done.1.1 done.1.2.operations notes
        reached := by
  rw [run_rollback]
  obtain ⟨notes, reached, taken, stranded⟩ := Operation.undoAll_strands
    session.client 0 session.operations world
  exact ⟨notes, reached, taken, rfl, stranded⟩

end KeyCustody
