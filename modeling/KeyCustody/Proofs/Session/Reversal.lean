import KeyCustody.Proofs.Session.Runs
import KeyCustody.Proofs.Store.Continuity

/-!
# Commits that fail and are undone

A fresh session of writes is committed to a store in memory that refuses some
keys and some reads.  The commit fails at the first write of a refused key.
Before it, each write has set its entry; afterwards, unless a read that an
undoing needs is refused, the same entries are dropped one by one, in the
opposite order.  Several of them may share a bundle and even a key, and still
each entry is left either without a value or as it was.
-/

namespace KeyCustody

namespace Write

/-- The operation of a write that has been executed. -/
def carriedOut (write : Write) : Operation :=
  { write.operation with executed := true }

def takenBack (write : Write) : Operation :=
  { write.operation with executed := true, undone := true }

def setAll (writes : List Write) (bundles : Bundles) : Bundles :=
  writes.foldl (fun bundles write => write.setIn bundles) bundles

/-- The bundles after writes are undone, the last one first. -/
def dropAll (writes : List Write) (bundles : Bundles) : Bundles :=
  writes.foldr (fun write bundles => write.dropIn bundles) bundles

theorem value?_setAll {writes : List Write} {place : Location} {key : String}
    (elsewhere : ∀ write ∈ writes, ¬ write.Names place key)
    (bundles : Bundles) :
    (setAll writes bundles).value? place key = bundles.value? place key := by
  induction writes generalizing bundles with
  | nil => rfl
  | cons write later ih =>
      have rest := ih (fun other member =>
        elsewhere other (List.mem_cons_of_mem _ member)) (write.setIn bundles)
      rw [value?_setIn, if_neg (elsewhere write List.mem_cons_self)] at rest
      exact rest

theorem value?_dropAll (writes : List Write) (bundles : Bundles)
    (place : Location) (key : String) :
    (dropAll writes bundles).value? place key =
      if ∃ write ∈ writes, write.Names place key then none
      else bundles.value? place key := by
  induction writes with
  | nil => simp [dropAll]
  | cons write later ih =>
      have first : (dropAll (write :: later) bundles).value? place key =
          if write.Names place key then none
          else (dropAll later bundles).value? place key :=
        value?_dropIn write _ place key
      rw [first, ih]
      by_cases names : write.Names place key
      · simp [names]
      · simp [names]

/-- Undoing writes in the opposite order leaves the entries that they name
without a value and all others as they were. -/
theorem value?_dropAll_setAll (writes : List Write) (bundles : Bundles)
    (place : Location) (key : String) :
    (dropAll writes (setAll writes bundles)).value? place key =
      if ∃ write ∈ writes, write.Names place key then none
      else bundles.value? place key := by
  rw [value?_dropAll]
  split
  next => rfl
  next elsewhere =>
    exact value?_setAll (fun write member names =>
      elsewhere ⟨write, member, names⟩) bundles

end Write

namespace MemoryStore

theorem run_ensureMount_mounts (client : Handle) (mount : String)
    (world : World MemoryStore) :
    let done := (ensureMount client mount).run service world
    done.1 = .value () ∧
      done.2.store.listed.contains (listedName mount) := by
  rw [run_ensureMount]
  by_cases listed : listedName mount ∈ world.store.listed
  · simp [service, answer, record, Outcome.inBackground, listed]
  · simp [service, answer, record, Outcome.inBackground, enableEngine,
      MemoryStore.mount, listed]

theorem run_ensureMounts_mounts (client : Handle) (mounts : List String)
    (world : World MemoryStore) :
    let done := (ensureMounts client mounts).run service world
    done.1 = .value () ∧ done.2.notes = world.notes ∧
      done.2.store.bundles = world.store.bundles ∧
      ∀ mount ∈ mounts, done.2.store.listed.contains (listedName mount) := by
  induction mounts generalizing world with
  | nil => exact ⟨rfl, rfl, rfl, by simp⟩
  | cons mount others ih =>
      obtain ⟨provided, listed⟩ := run_ensureMount_mounts client mount world
      obtain ⟨_, sameNotes, sameBundles⟩ :=
        ensureMount_keeps_bundles service_relays client mount world trivial
      rw [run_ensureMounts_cons]
      dsimp only
      rw [provided]
      dsimp only
      generalize ((ensureMount client mount).run service world).2 = reached
        at listed sameNotes sameBundles ⊢
      obtain ⟨rest, restNotes, restBundles, restListed⟩ := ih reached
      have continues := run_continues (ensureMounts client others) reached
      refine ⟨rest, restNotes.trans sameNotes, restBundles.trans sameBundles,
        ?_⟩
      intro other member
      rcases List.mem_cons.1 member with rfl | member
      · exact continues.listed _ listed
      · exact restListed other member

variable (client : Handle) (index : Nat)

theorem run_operation_admitted {write : Write} {world : World MemoryStore}
    (admitted : write.key ∉ world.store.refusedKeys)
    (mounted : world.store.listed.contains (listedName write.mount)) :
    ∃ reached,
      (write.operation.run client index).run service world =
        ((.value (), write.carriedOut), reached) ∧
      reached.notes =
        world.notes ++ [.acted index none .execute (.value ())] ∧
      reached.store.bundles = write.setIn world.store.bundles := by
  obtain ⟨outcome, reached, attempt, run, attempted⟩ :=
    Operation.run_write service_relays write.task_operation
      write.executed_operation client index world trivial
  have succeeds := run_setEntry_admitted admitted mounted client write.path
    write.value
  rw [attempt] at succeeds
  subst succeeds
  rcases attempted.effect with ⟨_, changed⟩ | ⟨error, failed, _⟩
  · exact ⟨_, run, rfl, changed⟩
  · simp at failed

theorem run_operation_refused {write : Write} {world : World MemoryStore}
    (refused : write.key ∈ world.store.refusedKeys) :
    ∃ reached,
      (write.operation.run client index).run service world =
        ((.fault (refusal write.place), write.operation), reached) ∧
      reached.notes = world.notes ++
        [.acted index none .execute (.fault (refusal write.place))] ∧
      reached.store.bundles = world.store.bundles := by
  obtain ⟨outcome, reached, attempt, run, attempted⟩ :=
    Operation.run_write service_relays write.task_operation
      write.executed_operation client index world trivial
  have fails := run_setEntry_refused refused client write.mount write.path
    write.value
  rw [attempt] at fails
  subst fails
  rcases attempted.effect with ⟨succeeded, _⟩ | ⟨error, _, same⟩
  · simp at succeeded
  · exact ⟨_, run, rfl, same⟩

/-- The notes of operations that succeeded, at the given positions. -/
def succeeded (phase : Phase) (positions : List Nat) : List Note :=
  positions.map fun index => .acted index none phase (.value ())

theorem run_runAll_admitted {writes : List Write} {world : World MemoryStore}
    (admitted : ∀ write ∈ writes, write.key ∉ world.store.refusedKeys)
    (mounted : ∀ write ∈ writes,
      world.store.listed.contains (listedName write.mount))
    (later : List Operation) :
    ∃ reached,
      let rest := (Operation.runAll client (index + writes.length)
        later).run service reached
      (Operation.runAll client index
          (writes.map Write.operation ++ later)).run service world =
        ((rest.1.1, writes.map Write.carriedOut ++ rest.1.2), rest.2) ∧
      reached.notes = world.notes ++
        succeeded .execute (List.range' index writes.length) ∧
      reached.store.bundles = Write.setAll writes world.store.bundles ∧
      Continues world.store reached.store := by
  induction writes generalizing index world with
  | nil =>
      refine ⟨world, rfl, ?_, rfl, Continues.refl _⟩
      simp [succeeded]
  | cons write others ih =>
      obtain ⟨next, run, notes, changed⟩ := run_operation_admitted client
        index (admitted write List.mem_cons_self)
        (mounted write List.mem_cons_self)
      have continues := run_continues (write.operation.run client index) world
      rw [run] at continues
      have admittedNext : ∀ other ∈ others,
          other.key ∉ next.store.refusedKeys := by
        intro other member
        rw [continues.refusedKeys]
        exact admitted other (List.mem_cons_of_mem _ member)
      have mountedNext : ∀ other ∈ others,
          next.store.listed.contains (listedName other.mount) := by
        intro other member
        exact continues.listed _
          (mounted other (List.mem_cons_of_mem _ member))
      obtain ⟨reached, runs, allNotes, allChanged, allContinues⟩ :=
        ih (index + 1) admittedNext mountedNext
      refine ⟨reached, ?_, ?_, ?_, continues.trans _ _ _ allContinues⟩
      · rw [List.map_cons, List.cons_append, Operation.run_runAll_cons]
        dsimp only
        rw [run]
        dsimp only
        rw [runs, List.length_cons, Nat.add_right_comm, Nat.add_assoc]
        rfl
      · rw [allNotes, notes, List.length_cons, List.range'_succ]
        simp [succeeded]
      · rw [allChanged, changed]
        rfl

/-- No failure to undo an operation has been noted. -/
def NoneNotUndone (notes : List Note) : Prop :=
  ∀ index mount error, .warned (.notUndone index mount error) ∉ notes

theorem run_undoAll_carriedOut (writes : List Write) {later : List Operation}
    (settled : ∀ operation ∈ later, operation.needsUndo = false)
    (world : World MemoryStore) :
    let done := (Operation.undoAll client index
      (writes.map Write.carriedOut ++ later)).run service world
    NoneNotUndone done.2.notes →
      done.1 = (.value (), writes.map Write.takenBack ++ later) ∧
      done.2.notes = world.notes ++
        succeeded .rollback (List.range' index writes.length).reverse ∧
      done.2.store.bundles = Write.dropAll writes world.store.bundles := by
  -- The later writes are undone first, and notes are only ever added: if no
  -- failure is noted in the end, none was noted by then.
  induction writes generalizing index with
  | nil =>
      intro done _
      have run : done = ((.value (), later), world) := by
        change (Operation.undoAll client index later).run service world = _
        rw [Operation.undoAll_settled settled]
        rfl
      rw [run]
      simp [succeeded, Write.dropAll]
  | cons write others ih =>
      have rest := ih (index + 1)
      rw [List.map_cons, List.cons_append, Operation.run_undoAll_cons]
      generalize (Operation.undoAll client (index + 1)
        (others.map Write.carriedOut ++ later)).run service world = undone
        at rest ⊢
      have isWrite : write.carriedOut.task = write.task := rfl
      have needed : write.carriedOut.needsUndo := rfl
      obtain ⟨outcome, reached, run, attempted⟩ := Operation.undo_write
        service_relays isWrite needed client index undone.2 trivial
      obtain ⟨⟨restOutcome, restQueue⟩, restWorld⟩ := undone
      dsimp only at rest run ⊢
      rw [run]
      have quieter {more : List Note}
          (quiet : NoneNotUndone (restWorld.notes ++ more)) :
          NoneNotUndone restWorld.notes :=
        fun position mount error member =>
          quiet position mount error (List.mem_append_left _ member)
      cases restOutcome with
      | crash message =>
          intro quiet
          simpa using (rest quiet).1
      | fault error =>
          intro quiet
          have quietRest : NoneNotUndone restWorld.notes := by
            rcases attempted.effect with ⟨rfl, _⟩ | ⟨error, rfl, _⟩
            · exact quieter quiet
            · exact quieter (by simpa using quiet)
          simpa using (rest quietRest).1
      | value result =>
          rcases attempted.effect with ⟨rfl, changed⟩ | ⟨error, rfl, _⟩
          · intro quiet
            obtain ⟨same, notes, changedRest⟩ := rest (quieter quiet)
            obtain ⟨_, rfl⟩ := Prod.mk.inj same
            refine ⟨rfl, ?_, ?_⟩
            · simp [notes, succeeded, List.range'_succ]
            · exact changed.trans (congrArg write.dropIn changedRest)
          · intro quiet
            exact absurd (List.mem_append_right _ (List.mem_singleton_self _))
              (quiet index write.mount error)

end MemoryStore

namespace Session

def addWrites (session : Session) (writes : List Write) : Session :=
  writes.foldl (fun session write =>
    session.addWrite write.path write.key write.value write.mount) session

/-- A session with a queue of writes that have not been executed. -/
def ofWrites (id : Nat) (client : Handle) (writes : List Write) : Session where
  id := id
  client := client
  operations := writes.map Write.operation

theorem addWrites_pending (id : Nat) (client : Handle)
    (operations : List Operation) (writes : List Write) :
    addWrites { id, client, operations } writes =
      { id, client
        operations := operations ++ writes.map Write.operation } := by
  induction writes generalizing operations with
  | nil => simp [addWrites]
  | cons write later ih =>
      have rest := ih (operations ++ [write.operation])
      rw [List.append_assoc, List.singleton_append] at rest
      exact rest

open MemoryStore

/-- Flushing writes executes those before a refused key, with their engines
mounted, and comes to the rest of the queue. -/
theorem run_flush_admitted (id : Nat) (client : Handle) (store : MemoryStore)
    {writes : List Write} (more : List Write)
    (admitted : ∀ write ∈ writes, write.key ∉ store.refusedKeys) :
    ∃ reached,
      let rest := (Operation.runAll client writes.length
        (more.map Write.operation)).run service reached
      (ofWrites id client (writes ++ more)).flush.run service { store } =
        ((rest.1.1, { id, client
                      operations := writes.map Write.carriedOut ++ rest.1.2 }),
          rest.2) ∧
      reached.notes = succeeded .execute (List.range writes.length) ∧
      reached.store.bundles = Write.setAll writes store.bundles ∧
      Continues store reached.store := by
  let session := ofWrites id client (writes ++ more)
  obtain ⟨provided, notes, same, listed⟩ :=
    run_ensureMounts_mounts session.client session.mounts { store }
  have continues := run_continues
    (ensureMounts session.client session.mounts) { store }
  have run := run_flush service session { store }
  dsimp only at run
  rw [provided] at run
  generalize ((ensureMounts session.client session.mounts).run service
    { store }).2 = mounted at notes same listed continues run
  have listedHere : ∀ write ∈ writes,
      mounted.store.listed.contains (listedName write.mount) := by
    intro write member
    refine listed write.mount (List.mem_eraseDups.2 ?_)
    simp only [session, ofWrites, List.map_append, List.mem_append,
      List.map_map]
    exact Or.inl (List.mem_map.2 ⟨write, member, rfl⟩)
  have admittedHere : ∀ write ∈ writes,
      write.key ∉ mounted.store.refusedKeys := by
    rw [continues.refusedKeys]
    exact admitted
  obtain ⟨reached, runs, allNotes, changed, further⟩ := run_runAll_admitted
    client 0 admittedHere listedHere (more.map Write.operation)
  refine ⟨reached, ?_, ?_, ?_, continues.trans _ _ _ further⟩
  · rw [Nat.zero_add, ← List.map_append] at runs
    refine run.trans ?_
    exact congrArg (fun done => ((done.1.1, { session with
      operations := done.1.2 }), done.2)) runs
  · rw [allNotes, notes, List.range_eq_range']
    rfl
  · rw [changed, same]

theorem run_flush_refused (id : Nat) (client : Handle) (store : MemoryStore)
    {earlier : List Write} {failing : Write} (later : List Write)
    (admitted : ∀ write ∈ earlier, write.key ∉ store.refusedKeys)
    (refused : failing.key ∈ store.refusedKeys) :
    ∃ stopped,
      (ofWrites id client (earlier ++ failing :: later)).flush.run service
          { store } =
        ((.fault (refusal failing.place),
          { id, client
            operations := earlier.map Write.carriedOut ++
              (failing :: later).map Write.operation }), stopped) ∧
      stopped.notes = succeeded .execute (List.range earlier.length) ++
        [.acted earlier.length none .execute
          (.fault (refusal failing.place))] ∧
      stopped.store.bundles = Write.setAll earlier store.bundles := by
  obtain ⟨reached, run, notes, changed, continues⟩ :=
    run_flush_admitted id client store (failing :: later) admitted
  rw [← continues.refusedKeys] at refused
  obtain ⟨stopped, stops, stoppedNotes, unchanged⟩ :=
    run_operation_refused client earlier.length refused
  have rest := Operation.run_runAll_cons service client earlier.length
    failing.operation (later.map Write.operation) reached
  rw [stops] at rest
  dsimp only at rest
  refine ⟨stopped, ?_, ?_, ?_⟩
  · rw [List.map_cons, rest] at run
    exact run
  · rw [stoppedNotes, notes]
  · rw [unchanged, changed]

theorem first_refused (store : MemoryStore) (writes : List Write) :
    (∀ write ∈ writes, write.key ∉ store.refusedKeys) ∨
    ∃ earlier failing later, writes = earlier ++ failing :: later ∧
      (∀ write ∈ earlier, write.key ∉ store.refusedKeys) ∧
      failing.key ∈ store.refusedKeys := by
  cases first : writes.find? fun write => write.key ∈ store.refusedKeys with
  | none =>
      left
      simpa using first
  | some failing =>
      right
      obtain ⟨refused, earlier, later, split, admitted⟩ :=
        List.find?_eq_some_iff_append.1 first
      refine ⟨earlier, failing, later, split, ?_, ?_⟩
      · simpa using admitted
      · simpa using refused

theorem run_commit_admitted (id : Nat) (client : Handle) (store : MemoryStore)
    {writes : List Write}
    (admitted : ∀ write ∈ writes, write.key ∉ store.refusedKeys) :
    ((ofWrites id client writes).commit.run service { store }).1.1 =
      .value () := by
  obtain ⟨reached, flushed, _⟩ :=
    run_flush_admitted id client store [] admitted
  rw [List.append_nil] at flushed
  rw [run_commit, flushed]
  rfl

/-- A commit that stops at a refused key takes back what came before, if no
failure is noted. -/
theorem run_commit_refused (id : Nat) (client : Handle) (store : MemoryStore)
    {earlier : List Write} {failing : Write} (later : List Write)
    (admitted : ∀ write ∈ earlier, write.key ∉ store.refusedKeys)
    (refused : failing.key ∈ store.refusedKeys) :
    let done := (ofWrites id client (earlier ++ failing :: later)).commit.run
      service { store }
    NoneNotUndone done.2.notes →
      done.1 = (.fault (refusal failing.place),
        { id, client
          operations := earlier.map Write.takenBack ++
            (failing :: later).map Write.operation }) ∧
      done.2.notes = succeeded .execute (List.range earlier.length) ++
        .acted earlier.length none .execute (.fault (refusal failing.place)) ::
        succeeded .rollback (List.range earlier.length).reverse ∧
      done.2.store.bundles =
        Write.dropAll earlier (Write.setAll earlier store.bundles) := by
  intro done quiet
  obtain ⟨stopped, flushed, notes, changed⟩ :=
    run_flush_refused id client store later admitted refused
  have settled : ∀ operation ∈ (failing :: later).map Write.operation,
      operation.needsUndo = false := by
    intro operation member
    obtain ⟨write, _, rfl⟩ := List.mem_map.1 member
    rfl
  have undoes := run_undoAll_carriedOut client 0 earlier settled stopped
  have run : done = _ := run_commit service _ { store }
  dsimp only at undoes run
  rw [flushed, run_rollback] at run
  dsimp only at run
  generalize (Operation.undoAll client 0 (earlier.map Write.carriedOut ++
    (failing :: later).map Write.operation)).run service stopped = undone
    at undoes run
  obtain ⟨⟨outcome, operations⟩, reached⟩ := undone
  have sameWorld : done.2 = reached := by
    cases outcome <;> rw [run]
  rw [sameWorld] at quiet
  obtain ⟨same, undoneNotes, dropped⟩ := undoes quiet
  obtain ⟨rfl, rfl⟩ := Prod.mk.inj same
  refine ⟨congrArg Prod.fst run, ?_, ?_⟩
  · rw [sameWorld, undoneNotes, notes, List.range_eq_range',
      List.append_assoc]
    rfl
  · rw [sameWorld, dropped, changed]

/-- If a fresh session of writes fails to commit and no failure to undo is
noted, then the commit has stopped at the first write of a refused key, with
the store's refusal.  Every entry that was written before is without a value,
every other one is as it was, no bundle is gone, and the queue is kept, with
exactly the operations before the failing one executed and undone. -/
theorem commit_reverses {id : Nat} {client : Handle} {store : MemoryStore}
    {writes : List Write} {error : StoreError} :
    let session := addWrites { id, client } writes
    let done := session.commit.run MemoryStore.service { store }
    done.1.1 = .fault error → NoneNotUndone done.2.notes →
    ∃ earlier failing later, writes = earlier ++ failing :: later ∧
      (∀ write ∈ earlier, write.key ∉ store.refusedKeys) ∧
      failing.key ∈ store.refusedKeys ∧ error = refusal failing.place ∧
      done.2.notes = succeeded .execute (List.range earlier.length) ++
        .acted earlier.length none .execute (.fault error) ::
        succeeded .rollback (List.range earlier.length).reverse ∧
      (∀ place key, Bundles.value? done.2.store.bundles place key =
        if ∃ write ∈ earlier, write.Names place key then none
        else Bundles.value? store.bundles place key) ∧
      (∀ place ∈ store.bundles, place ∈ done.2.store.bundles) ∧
      done.1.2 =
        { id, client
          operations := earlier.map Write.takenBack ++
            (failing :: later).map Write.operation } := by
  intro session done fails quiet
  have isSession : session = ofWrites id client writes :=
    addWrites_pending id client [] writes
  have run : done = (ofWrites id client writes).commit.run service { store } :=
    congrArg (fun session : Session =>
      session.commit.run service { store }) isSession
  rcases first_refused store writes with
    admitted | ⟨earlier, failing, later, rfl, admitted, refused⟩
  · rw [run, run_commit_admitted id client store admitted] at fails
    simp at fails
  · have continues := run_continues session.commit { store }
    rw [run] at fails quiet
    obtain ⟨left, notes, bundles⟩ :=
      run_commit_refused id client store later admitted refused quiet
    rw [left] at fails
    have same : refusal failing.place = error := by simpa using fails
    refine ⟨earlier, failing, later, rfl, admitted, refused, same.symm, ?_, ?_,
      continues.bundles, ?_⟩
    · rw [run, notes, same]
    · intro place key
      rw [run, bundles]
      exact Write.value?_dropAll_setAll earlier store.bundles place key
    · rw [run, left]

/-- A store with a bundle of two entries that refuses another key. -/
def refusingStore : MemoryStore :=
  (MemoryStore.insert {} "m" "p"
    (Bundle.ofEntries [("a", .string "0"), ("z", .string "9")])).refuseKey "b"

/-- A session that overwrites one entry and then writes the refused key. -/
def refusedSession : Session :=
  addWrites { id := 1, client := 1 }
    [⟨"m", "p", "a", "1"⟩, ⟨"m", "p", "b", "2"⟩, ⟨"m", "q", "c", "3"⟩]

set_option maxRecDepth 10000 in
/-- The overwritten entry is lost, and the other one is left alone. -/
theorem commit_reverses_refused :
    let done := refusedSession.commit.run MemoryStore.service
      { store := refusingStore }
    done.1.1 = .fault (refusal (Location.of "m" "p")) ∧
    NoneNotUndone done.2.notes ∧
    Bundles.value? done.2.store.bundles (Location.of "m" "p") "z" =
      some (.string "9") ∧
    ∃ earlier failing later,
      refusedSession.operations =
        (earlier ++ failing :: later).map Write.operation ∧
      failing.key ∈ refusingStore.refusedKeys ∧
      done.1.2.operations = earlier.map Write.takenBack ++
        (failing :: later).map Write.operation := by
  intro done
  have fails : done.1.1 = .fault (refusal (Location.of "m" "p")) := by
    decide
  have noted : done.2.notes =
      [.acted 0 none .execute (.value ()),
        .acted 1 none .execute (.fault (refusal (Location.of "m" "p"))),
        .acted 0 none .rollback (.value ())] := by
    decide
  have quiet : NoneNotUndone done.2.notes := by
    intro index mount error member
    rw [noted] at member
    simp at member
  obtain ⟨earlier, failing, later, split, admitted, refused, _, _, values, _,
    kept⟩ := commit_reverses fails quiet
  refine ⟨fails, quiet, ?_, earlier, failing, later, ?_, refused, ?_⟩
  · refine (values (Location.of "m" "p") "z").trans ?_
    rw [if_neg]
    · decide
    · rintro ⟨write, member, _, isLast⟩
      have queued := List.mem_append_left (failing :: later) member
      rw [← split] at queued
      simp only [List.mem_cons, List.not_mem_nil, or_false] at queued
      rcases queued with rfl | rfl | rfl <;> simp at isLast
  · rw [← split]
    rfl
  · exact congrArg Session.operations kept

end Session

end KeyCustody
