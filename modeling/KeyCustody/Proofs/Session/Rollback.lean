import KeyCustody.Proofs.Operation.Attempt

/-!
# One rollback

A rollback tries each operation that was executed, has not been undone and can
be undone, once and the newest one first.  Each failure is followed by a
warning that names the operation by its position in the queue.  What succeeds
is marked as undone; nothing else changes.

So another rollback tries what has failed, and nothing else.
-/

namespace KeyCustody

variable {σ : Type}

/-- What an action is after an attempt to undo it: one act of the script has
been used up. -/
def Action.afterUndo : Action → Action
  | .write path key value => .write path key value
  | .scripted label execute rollback =>
      .scripted label execute (rollback.map fun script => (nextAct script).2)

namespace Action

@[simp]
theorem label?_afterUndo (action : Action) :
    action.afterUndo.label? = action.label? := by
  cases action <;> rfl

@[simp]
theorem canUndo_afterUndo (action : Action) :
    action.afterUndo.canUndo = action.canUndo := by
  cases action <;> simp [afterUndo, canUndo]

/-- The attempt to undo an action takes no notes and uses up one act. -/
theorem run_rollback (service : Service σ) (client : Handle) (mount : String)
    (action : Action) (world : World σ) :
    ∃ outcome store, (action.invoke client mount .rollback).run service world =
      ((outcome, action.afterUndo), { world with store }) := by
  cases action with
  | write path key value =>
      obtain ⟨outcome, store, run⟩ := dropEntry_takes_no_notes service client
        mount path key world
      exact ⟨outcome, store, by simp [invoke, afterUndo, run]⟩
  | scripted label execute rollback =>
      obtain ⟨outcome, store, run⟩ :=
        (nextAct (rollback.getD [])).1.run_perform service client world
      refine ⟨outcome, store, ?_⟩
      have left : (rollback.map fun _ => (nextAct (rollback.getD [])).2) =
          rollback.map fun script => (nextAct script).2 := by
        cases rollback <;> rfl
      simp [invoke, afterUndo, run, left]

/-- Whether an attempt to undo an action crashes in the foreground. -/
def CrashesNext : Action → Prop
  | .write _ _ _ => False
  | .scripted _ _ rollback =>
      ∃ message, (nextAct (rollback.getD [])).1 = .crash message

/-- What an action asks of the store is done in the background and does not
crash. -/
theorem run_rollback_ne_crash {action : Action} (calm : ¬ action.CrashesNext)
    (service : Service σ) (client : Handle) (mount message : String)
    (world : World σ) :
    ((action.invoke client mount .rollback).run service world).1.1 ≠
      .crash message := by
  cases action with
  | write path key value =>
      simp only [invoke, Dialogue.bind_eq_bind, Dialogue.run_bind,
        Dialogue.pure_eq_result, Dialogue.run_result]
      rw [run_dropEntry]
      dsimp only
      split
      · split
        · exact Outcome.inBackground_ne_crash _ _
        · simp
      · simp
      · simp
      · simp [Outcome.inBackground]
  | scripted label execute rollback =>
      simp only [CrashesNext, not_exists] at calm
      simp only [invoke, Dialogue.bind_eq_bind, Dialogue.run_bind,
        Dialogue.pure_eq_result, Dialogue.run_result]
      cases act : (nextAct (rollback.getD [])).1 with
      | crash other => exact absurd act (calm other)
      | ask call => exact Outcome.inBackground_ne_crash _ _
      | _ => simp [Act.perform, Outcome.inBackground]

end Action

namespace Operation

/-- Undoing the operation succeeds or fails, whatever it meets; in particular
it does not crash.  A crash in the background is a failure like any other. -/
def EndsUndo (service : Service σ) (operation : Operation) : Prop :=
  ∀ client index world message,
    ((operation.undo client index).run service world).1.1 ≠ .crash message

theorem endsUndo_of_calm {operation : Operation}
    (calm : operation.needsUndo → ¬ operation.action.CrashesNext)
    (service : Service σ) : operation.EndsUndo service := by
  intro client index world message
  by_cases needed : operation.needsUndo
  · rw [undo_needed needed, run_invoke]
    exact Action.run_rollback_ne_crash (calm needed) service client
      operation.mount message world
  · rw [undo_settled (by simpa using needed)]
    simp

/-- What an operation is after an attempt to undo it. -/
def afterUndo (operation : Operation) (outcome : Outcome Unit) : Operation :=
  { operation with
    action := operation.action.afterUndo
    undone := outcome.isValue }

/-- What an operation is after a rollback in which the attempt at each position
ended as `ended` says. -/
def rolledBack (ended : Nat → Outcome Unit) (entry : Operation × Nat) :
    Operation :=
  if entry.1.needsUndo then entry.1.afterUndo (ended entry.2) else entry.1

/-- What is noted of the attempt to undo the operation at a position: how it
ended, and a warning if it failed. -/
def undoNotes (ended : Nat → Outcome Unit) (entry : Operation × Nat) :
    List Note :=
  .acted entry.2 entry.1.action.label? .rollback (ended entry.2) ::
    match ended entry.2 with
    | .fault error => [.warned (.notUndone entry.2 entry.1.mount error)]
    | _ => []

/-- The operations that a rollback tries, with their positions, in the order in
which it tries them. -/
def toUndo (index : Nat) (queue : List Operation) : List (Operation × Nat) :=
  ((queue.zipIdx index).filter fun entry => entry.1.needsUndo).reverse

theorem toUndo_cons (index : Nat) (operation : Operation)
    (later : List Operation) :
    toUndo index (operation :: later) =
      toUndo (index + 1) later ++
        if operation.needsUndo then [(operation, index)] else [] := by
  cases needed : operation.needsUndo <;>
    simp [toUndo, List.zipIdx_cons, needed]

theorem mem_toUndo {index position : Nat} {operation : Operation}
    {queue : List Operation} :
    (operation, position) ∈ toUndo index queue ↔
      (operation, position) ∈ queue.zipIdx index ∧ operation.needsUndo := by
  simp [toUndo]

theorem le_of_mem_toUndo {index : Nat} {entry : Operation × Nat}
    {queue : List Operation} (member : entry ∈ toUndo index queue) :
    index ≤ entry.2 :=
  List.le_snd_of_mem_zipIdx (mem_toUndo.1 member).1

theorem toUndo_decreases (index : Nat) (queue : List Operation) :
    (toUndo index queue).Pairwise fun early late => late.2 < early.2 := by
  induction queue generalizing index with
  | nil => exact .nil
  | cons operation later ih =>
      rw [toUndo_cons, List.pairwise_append]
      refine ⟨ih (index + 1), ?_, ?_⟩
      · split
        · exact List.pairwise_singleton _ _
        · exact .nil
      · intro early member late last
        have isHead : late = (operation, index) := by
          split at last
          · exact List.mem_singleton.1 last
          · exact absurd last List.not_mem_nil
        rw [isHead]
        exact le_of_mem_toUndo member

theorem toUndo_rolledBack (ended : Nat → Outcome Unit) (index : Nat)
    (queue : List Operation) :
    (toUndo index ((queue.zipIdx index).map (rolledBack ended))).map
        Prod.snd =
      ((toUndo index queue).map Prod.snd).filter fun position =>
        !(ended position).isValue := by
  induction queue generalizing index with
  | nil => rfl
  | cons operation later ih =>
      rw [List.zipIdx_cons, List.map_cons, toUndo_cons, toUndo_cons,
        List.map_append, List.map_append, List.filter_append, ih]
      congr 1
      cases needed : operation.needsUndo with
      | false => simp [rolledBack, needed]
      | true =>
          obtain ⟨executed, _, canUndo⟩ := needsUndo_iff.1 needed
          have again : (rolledBack ended (operation, index)).needsUndo =
              !(ended index).isValue := by
            rw [rolledBack, if_pos needed]
            simp [needsUndo, afterUndo, executed, canUndo]
          rw [again, if_pos rfl, List.map_singleton, List.filter_cons]
          cases (ended index).isValue <;> rfl

theorem run_undo_needed {operation : Operation} (needed : operation.needsUndo)
    (service : Service σ) (client : Handle) (index : Nat) (world : World σ) :
    ∃ outcome store, (operation.undo client index).run service world =
      ((outcome, operation.afterUndo outcome),
        { store
          notes := world.notes ++
            [.acted index operation.action.label? .rollback outcome] }) := by
  obtain ⟨outcome, store, run⟩ := operation.action.run_rollback service client
    operation.mount world
  refine ⟨outcome, store, ?_⟩
  rw [undo_needed needed, run_invoke, run]
  simp [afterUndo]

/-- What a rollback makes of a queue, the head of which stands at the position
`index`, and what it notes, if the attempts end as `ended` says. -/
structure RollsBack (index : Nat) (queue left : List Operation)
    (notes : List Note) (ended : Nat → Outcome Unit) : Prop where
  left_eq : left = (queue.zipIdx index).map (rolledBack ended)
  notes_eq : notes = (toUndo index queue).flatMap (undoNotes ended)
  calm : ∀ position message, ended position ≠ .crash message

namespace RollsBack

variable {index : Nat} {operation : Operation} {later left : List Operation}
variable {notes : List Note} {ended : Nat → Outcome Unit}

theorem nil (index : Nat) :
    RollsBack index [] [] [] fun _ => .value () where
  left_eq := rfl
  notes_eq := rfl
  calm := by simp

theorem skip (rest : RollsBack (index + 1) later left notes ended)
    (settled : operation.needsUndo = false) :
    RollsBack index (operation :: later) (operation :: left) notes ended where
  left_eq := by
    rw [List.zipIdx_cons, List.map_cons, ← rest.left_eq]
    simp [rolledBack, settled]
  notes_eq := by
    rw [toUndo_cons, rest.notes_eq]
    simp [settled]
  calm := rest.calm

/-- Only how the attempts at the positions of the queue end matters. -/
theorem congr {other : Nat → Outcome Unit} {queue : List Operation}
    (rolls : RollsBack index queue left notes ended)
    (same : ∀ position, index ≤ position → other position = ended position)
    (calm : ∀ position message, other position ≠ .crash message) :
    RollsBack index queue left notes other where
  left_eq := by
    rw [rolls.left_eq]
    apply List.map_congr_left
    intro entry member
    simp [rolledBack, same _ (List.le_snd_of_mem_zipIdx member)]
  notes_eq := by
    rw [rolls.notes_eq, List.flatMap_def, List.flatMap_def]
    congr 1
    apply List.map_congr_left
    intro entry member
    simp [undoNotes, same _ (le_of_mem_toUndo member)]
  calm := calm

theorem attempt (rest : RollsBack (index + 1) later left notes ended)
    (needed : operation.needsUndo) {outcome : Outcome Unit}
    (calm : ∀ message, outcome ≠ .crash message) :
    ∃ endedAll, endedAll index = outcome ∧
      RollsBack index (operation :: later)
        (operation.afterUndo outcome :: left)
        (notes ++ undoNotes endedAll (operation, index)) endedAll := by
  let endedAll (position : Nat) : Outcome Unit :=
    if position = index then outcome else ended position
  have own : endedAll index = outcome := if_pos rfl
  have others (position : Nat) (beyond : index + 1 ≤ position) :
      endedAll position = ended position :=
    if_neg (by omega)
  have allCalm : ∀ position message, endedAll position ≠ .crash message := by
    intro position message
    by_cases here : position = index
    · rw [here, own]
      exact calm message
    · rw [show endedAll position = ended position from if_neg here]
      exact rest.calm position message
  have same := rest.congr others allCalm
  refine ⟨endedAll, own, ?_, ?_, allCalm⟩
  · rw [List.zipIdx_cons, List.map_cons, ← same.left_eq, rolledBack,
      if_pos needed, own]
  · rw [toUndo_cons, if_pos needed, List.flatMap_append, ← same.notes_eq]
    simp

end RollsBack

theorem run_undoAll (service : Service σ) (client : Handle) (index : Nat)
    {queue : List Operation}
    (ends : ∀ operation ∈ queue, operation.EndsUndo service)
    (world : World σ) :
    let done := (undoAll client index queue).run service world
    done.1.1 = .value () ∧
      ∃ notes ended, done.2.notes = world.notes ++ notes ∧
        RollsBack index queue done.1.2 notes ended := by
  induction queue generalizing index with
  | nil =>
      exact ⟨rfl, [], _, (List.append_nil _).symm, RollsBack.nil index⟩
  | cons operation later ih =>
      have rest := ih (index + 1)
        fun other member => ends other (List.mem_cons_of_mem _ member)
      rw [run_undoAll_cons]
      generalize (undoAll client (index + 1) later).run service world =
        undone at rest ⊢
      obtain ⟨⟨outcome, left⟩, reached⟩ := undone
      obtain ⟨succeeds, notes, ended, taken, rolls⟩ := rest
      dsimp only at succeeds taken rolls ⊢
      rw [succeeds]
      by_cases needed : operation.needsUndo
      · have ending := ends operation List.mem_cons_self client index reached
        obtain ⟨outcome, store, run⟩ := run_undo_needed needed service client
          index reached
        rw [run] at ending ⊢
        obtain ⟨endedAll, own, whole⟩ := rolls.attempt needed ending
        cases outcome with
        | value result =>
            refine ⟨rfl, _, endedAll, ?_, whole⟩
            simp [taken, undoNotes, own]
        | fault error =>
            refine ⟨rfl, _, endedAll, ?_, whole⟩
            simp [taken, undoNotes, own, afterUndo]
        | crash message => exact absurd rfl (ending message)
      · have settled : operation.needsUndo = false := by simpa using needed
        rw [undo_settled settled]
        exact ⟨rfl, notes, ended, taken, rolls.skip settled⟩

end Operation

namespace Session

open Operation

theorem run_rollback_undone (service : Service σ) (session : Session)
    (ends : ∀ operation ∈ session.operations, operation.EndsUndo service)
    (world : World σ) :
    let done := session.rollback.run service world
    ∃ ended notes,
      done.1 = (.value (), { session with operations := done.1.2.operations }) ∧
      done.2.notes = world.notes ++ notes ∧
      RollsBack 0 session.operations done.1.2.operations notes ended := by
  rw [run_rollback]
  obtain ⟨succeeds, notes, ended, taken, rolls⟩ :=
    run_undoAll service session.client 0 ends world
  exact ⟨ended, notes, Prod.ext succeeds rfl, taken, rolls⟩

/-- A rollback in which no attempt crashes tries exactly the operations that
were executed, have not been undone and can be undone, once each and with
falling positions.  What it notes are these attempts, each with its outcome,
and after a failure a warning with the position, the mount point and the error.
What succeeds is marked as undone, and nothing else of the session changes.

So the next rollback, whatever has become of the store and the notes until
then, tries exactly what has failed. -/
theorem rollback_retries_failures (service : Service σ) (session : Session)
    (ends : ∀ operation ∈ session.operations, operation.EndsUndo service)
    (world : World σ) :
    let queue := session.operations
    let done := session.rollback.run service world
    let left := done.1.2
    ∃ ended : Nat → Outcome Unit,
      (∀ position message, ended position ≠ .crash message) ∧
      done.1 = (.value (), { session with
        operations := queue.zipIdx.map (rolledBack ended) }) ∧
      done.2.notes =
        world.notes ++ (toUndo 0 queue).flatMap (undoNotes ended) ∧
      (∀ operation position, (operation, position) ∈ toUndo 0 queue ↔
        queue[position]? = some operation ∧ operation.executed ∧
          operation.undone = false ∧ operation.action.canUndo) ∧
      (toUndo 0 queue).Pairwise (fun early late => late.2 < early.2) ∧
      (toUndo 0 left.operations).map Prod.snd =
        ((toUndo 0 queue).map Prod.snd).filter
          (fun position => !(ended position).isValue) ∧
      ∀ next : World σ,
        (∀ operation ∈ left.operations, operation.EndsUndo service) →
        ∃ endedAgain : Nat → Outcome Unit,
          (left.rollback.run service next).2.notes = next.notes ++
            (toUndo 0 left.operations).flatMap (undoNotes endedAgain) := by
  intro queue done left
  obtain ⟨ended, notes, same, taken, rolls⟩ :=
    run_rollback_undone service session ends world
  refine ⟨ended, rolls.calm, ?_, ?_, ?_, toUndo_decreases 0 queue, ?_, ?_⟩
  · rw [← rolls.left_eq]
    exact same
  · rw [← rolls.notes_eq]
    exact taken
  · intro operation position
    rw [mem_toUndo, List.mem_zipIdx_iff_getElem?, needsUndo_iff]
  · rw [show left.operations = _ from rolls.left_eq]
    exact toUndo_rolledBack ended 0 queue
  · intro next endsAgain
    obtain ⟨endedAgain, retriedNotes, _, retaken, again⟩ :=
      run_rollback_undone service left endsAgain next
    exact ⟨endedAgain, retaken.trans (congrArg _ again.notes_eq)⟩

/-- Two operations whose compensations fail, one of them in the background, a
write, and three operations with nothing to undo: one is undone, one cannot be
undone, and one was not executed. -/
def mixedQueue : List Operation :=
  [{ mount := "m"
     action := .scripted "A" [] (some [.fail (.internal "down"), .succeed])
     executed := true },
    { mount := "m", action := .write "p" "k" "v", executed := true },
    { mount := "m", action := .scripted "B" [] (some [])
      executed := true, undone := true },
    { mount := "m", action := .scripted "C" [] none, executed := true },
    { mount := "n", action := .scripted "D" [] (some [.crashInBackground "x"])
      executed := true },
    { mount := "n", action := .scripted "E" [] (some [.crash "y"]) }]

theorem endsUndo_of_mem_mixedQueue :
    ∀ operation ∈ mixedQueue, operation.EndsUndo MemoryStore.service := by
  intro operation member
  apply endsUndo_of_calm
  intro needed
  simp only [mixedQueue, List.mem_cons, List.not_mem_nil, or_false] at member
  rcases member with rfl | rfl | rfl | rfl | rfl | rfl
  · simp [Action.CrashesNext, nextAct]
  · exact not_false
  · cases needed
  · cases needed
  · simp [Action.CrashesNext, nextAct]
  · cases needed

/-- Of the queue, the operations at 4, 1 and 0 are tried, and those at 4 and 0
again by the next rollback. -/
theorem rollback_retries_failures_mixed :
    let session : Session :=
      { id := 1, client := 0, operations := mixedQueue }
    let done := session.rollback.run MemoryStore.service { store := {} }
    let crashed : StoreError := .background (taskReport "x")
    (∀ operation ∈ mixedQueue, operation.EndsUndo MemoryStore.service) ∧
    done.2.notes =
      [.acted 4 (some "D") .rollback (.fault crashed),
        .warned (.notUndone 4 "n" crashed),
        .acted 1 none .rollback (.value ()),
        .acted 0 (some "A") .rollback (.fault (.internal "down")),
        .warned (.notUndone 0 "m" (.internal "down"))] ∧
    (toUndo 0 done.1.2.operations).map Prod.snd = [4, 0] := by
  intro session done crashed
  have noted : done.2.notes =
      [.acted 4 (some "D") .rollback (.fault crashed),
        .warned (.notUndone 4 "n" crashed),
        .acted 1 none .rollback (.value ()),
        .acted 0 (some "A") .rollback (.fault (.internal "down")),
        .warned (.notUndone 0 "m" (.internal "down"))] := by
    decide
  obtain ⟨ended, _, _, notes, _, _, again, _⟩ := rollback_retries_failures
    MemoryStore.service session endsUndo_of_mem_mixedQueue { store := {} }
  have tried : toUndo 0 mixedQueue =
      [(mixedQueue[4], 4), (mixedQueue[1], 1), (mixedQueue[0], 0)] := by
    decide
  refine ⟨endsUndo_of_mem_mixedQueue, noted, again.trans ?_⟩
  have same := noted.symm.trans notes
  rw [show session.operations = mixedQueue from rfl, tried] at same ⊢
  simp only [List.nil_append, List.flatMap_cons, undoNotes, List.cons_append,
    List.cons.injEq, Note.acted.injEq] at same
  obtain ⟨⟨_, _, _, last⟩, same⟩ := same
  simp only [← last, List.cons_append, List.nil_append, List.cons.injEq,
    Note.acted.injEq] at same
  obtain ⟨_, ⟨_, _, _, middle⟩, same⟩ := same
  simp only [← middle, List.nil_append, List.cons.injEq,
    Note.acted.injEq] at same
  obtain ⟨⟨_, _, _, first⟩, _⟩ := same
  simp [← first, ← middle, ← last, Outcome.isValue]

end Session

end KeyCustody
