import KeyCustody.Proofs.Session.Fulfilment
import KeyCustody.Proofs.Session.Release

/-!
# Which engines a flush mounts

Before a store in memory sees anything of the bundles, each mount point of the
queue has its turn.  In its turn the engines are listed, and the engine at the
mount point is mounted unless its listed name was there from the start or is
that of an earlier mount point.  Different spellings of a mount point have turns
of their own, but share a listed name.

So no engine is mounted twice, in one flush or in flushes that follow each
other, and mounting never fails.
-/

namespace KeyCustody

namespace Sighting

/-- The listed name of the engine that is to be mounted. -/
def engine? : Sighting → Option String
  | .enable mount => some (listedName mount)
  | _ => none

/-- Whether a bundle is read or written. -/
def isAboutBundle : Sighting → Bool
  | .read _ _ | .patch _ _ _ | .put _ _ _ => true
  | _ => false

end Sighting

/-- The listed names of the engines that are to be mounted, in order. -/
def engines (seen : List Sighting) : List String :=
  seen.filterMap Sighting.engine?

namespace MemoryStore

/-- What is seen while mount points have their turns: `listed` are the names
listed from the start, and `earlier` had their turns before. -/
def turns (listed : Std.ExtTreeSet String) (earlier : List String) :
    List String → List Sighting
  | [] => []
  | mount :: later =>
      .mounts ::
        (if listedName mount ∈ listed ∨
            listedName mount ∈ earlier.map listedName then []
        else [.enable mount]) ++
        turns listed (earlier ++ [mount]) later

theorem not_isAboutBundle_of_mem_turns {listed : Std.ExtTreeSet String}
    {earlier mounts : List String} {sighting : Sighting}
    (member : sighting ∈ turns listed earlier mounts) :
    sighting.isAboutBundle = false := by
  induction mounts generalizing earlier with
  | nil => exact absurd member List.not_mem_nil
  | cons mount later ih =>
      rw [turns, List.cons_append, List.mem_cons, List.mem_append] at member
      rcases member with rfl | here | there
      · rfl
      · split at here
        · exact absurd here List.not_mem_nil
        · rw [List.mem_singleton.1 here]
          rfl
      · exact ih there

/-- No turn mounts an engine that was listed or had a turn before, and no two
turns mount the same engine. -/
theorem engines_turns (listed : Std.ExtTreeSet String)
    (earlier mounts : List String) :
    (engines (turns listed earlier mounts)).Nodup ∧
      ∀ name ∈ engines (turns listed earlier mounts),
        name ∉ listed ∧ name ∉ earlier.map listedName ∧
          name ∈ mounts.map listedName := by
  induction mounts generalizing earlier with
  | nil => simp [engines, turns]
  | cons mount later ih =>
      obtain ⟨once, fresh⟩ := ih (earlier ++ [mount])
      have ofLater : ∀ name ∈ engines (turns listed (earlier ++ [mount]) later),
          name ∉ listed ∧ name ∉ earlier.map listedName ∧
            name ≠ listedName mount ∧ name ∈ later.map listedName := by
        intro name member
        obtain ⟨unlisted, notEarlier, needed⟩ := fresh name member
        rw [List.map_append, List.mem_append, not_or] at notEarlier
        exact ⟨unlisted, notEarlier.1,
          fun same => notEarlier.2 (by simp [same]), needed⟩
      by_cases known : listedName mount ∈ listed ∨
          listedName mount ∈ earlier.map listedName
      · have here : engines (turns listed earlier (mount :: later)) =
            engines (turns listed (earlier ++ [mount]) later) := by
          rw [turns, if_pos known]
          rfl
        rw [here]
        refine ⟨once, fun name member => ?_⟩
        obtain ⟨unlisted, notEarlier, _, needed⟩ := ofLater name member
        exact ⟨unlisted, notEarlier, List.mem_cons_of_mem _ needed⟩
      · have here : engines (turns listed earlier (mount :: later)) =
            listedName mount ::
              engines (turns listed (earlier ++ [mount]) later) := by
          rw [turns, if_neg known]
          rfl
        rw [not_or] at known
        rw [here, List.nodup_cons, List.forall_mem_cons]
        refine ⟨⟨fun again => ?_, once⟩,
          ⟨known.1, known.2, List.mem_cons_self⟩, fun name member => ?_⟩
        · exact (ofLater _ again).2.2.1 rfl
        · obtain ⟨unlisted, notEarlier, _, needed⟩ := ofLater name member
          exact ⟨unlisted, notEarlier, List.mem_cons_of_mem _ needed⟩

theorem run_ensureMount_turn (client : Handle) (mount : String)
    (world : World MemoryStore) :
    let done := (ensureMount client mount).run service world
    done.1 = .value () ∧
      done.2.store.seen = world.store.seen ++
        .mounts :: (if listedName mount ∈ world.store.listed then []
          else [.enable mount]) ∧
      ∀ name, name ∈ done.2.store.listed ↔
        name ∈ world.store.listed ∨ name = listedName mount := by
  rw [run_ensureMount]
  by_cases listed : listedName mount ∈ world.store.listed
  · have known (name : String) : name ∈ world.store.listed ↔
        name ∈ world.store.listed ∨ name = listedName mount :=
      ⟨Or.inl, fun either => either.elim id fun same => same ▸ listed⟩
    simp only [service, answer, record, Outcome.inBackground,
      Call.sighting, List.contains_eq_mem, Std.ExtTreeSet.mem_toList, listed,
      decide_true, if_true]
    exact ⟨trivial, trivial, known⟩
  · have gained (name : String) :
        name ∈ world.store.listed.insert (listedName mount) ↔
          name ∈ world.store.listed ∨ name = listedName mount := by
      rw [Std.ExtTreeSet.mem_insert, Std.compare_eq_iff_eq, or_comm,
        eq_comm (a := name)]
    simpa [service, answer, record, Outcome.inBackground, enableEngine,
      MemoryStore.mount, listed, Call.sighting] using gained

theorem run_ensureMounts_turns (client : Handle)
    {listed : Std.ExtTreeSet String} {earlier : List String}
    (mounts : List String) {world : World MemoryStore}
    (reached : ∀ name, name ∈ world.store.listed ↔
      name ∈ listed ∨ name ∈ earlier.map listedName) :
    let done := (ensureMounts client mounts).run service world
    done.1 = .value () ∧
      done.2.store.seen =
        world.store.seen ++ turns listed earlier mounts ∧
      ∀ name, name ∈ done.2.store.listed ↔
        name ∈ listed ∨ name ∈ (earlier ++ mounts).map listedName := by
  induction mounts generalizing earlier world with
  | nil =>
      refine ⟨rfl, (List.append_nil _).symm, ?_⟩
      rw [List.append_nil]
      exact reached
  | cons mount later ih =>
      obtain ⟨provided, seen, gained⟩ :=
        run_ensureMount_turn client mount world
      rw [run_ensureMounts_cons]
      dsimp only
      rw [provided]
      dsimp only
      generalize ((ensureMount client mount).run service world).2 = next
        at seen gained ⊢
      have reachedNext : ∀ name, name ∈ next.store.listed ↔
          name ∈ listed ∨ name ∈ (earlier ++ [mount]).map listedName := by
        intro name
        rw [gained, reached, or_assoc, List.map_append, List.mem_append,
          List.map_singleton, List.mem_singleton]
      obtain ⟨rest, restSeen, restGained⟩ := ih reachedNext
      refine ⟨rest, ?_, ?_⟩
      · rw [restSeen, seen, List.append_assoc, turns]
        simp only [reached]
      · rw [List.append_assoc] at restGained
        exact restGained

end MemoryStore

/-- Executing the action may itself mount an engine. -/
def Action.MayMount : Action → Prop
  | .write _ _ _ => False
  | .scripted _ execute _ =>
      ∃ mount description, .ask (.enable mount description) ∈ execute

/-- A call that mounts no engine. -/
def Call.LeavesEngines (call : Call) : Prop :=
  ∀ mount description, call ≠ .enable mount description

theorem asks_setEntry (client : Handle) (mount path key value : String) :
    (setEntry client mount path key value).Assures
      (Event.Asks Call.LeavesEngines) fun _ => True := by
  have patches (data : Bundle) :
      Call.LeavesEngines (.patch mount path data) := nofun
  have puts (data : Bundle) : Call.LeavesEngines (.put mount path data) := nofun
  refine ⟨Event.asks_asked.2 (patches _), fun reply => ?_⟩
  dsimp only [Dialogue.result_bind]
  split
  · exact ⟨Event.asks_asked.2 (puts _), fun _ => trivial⟩
  · trivial

namespace Operation

theorem asks_run {operation : Operation}
    (modest : ¬ operation.action.MayMount) (client : Handle) (index : Nat) :
    (operation.run client index).Assures (Event.Asks Call.LeavesEngines)
      fun _ => True := by
  have action : (operation.action.invoke client operation.mount
      .execute).Assures (Event.Asks Call.LeavesEngines) fun _ => True := by
    cases same : operation.action with
    | write path key value =>
        exact (asks_setEntry client operation.mount path key value).bind
          fun _ _ => trivial
    | scripted label execute rollback =>
        rw [same] at modest
        have act : ((nextAct execute).1.perform client).Assures
            (Event.IsCall Call.LeavesEngines) fun _ => True := by
          refine Act.assures_perform client ?_
          rintro call asks mount description rfl
          rcases nextAct_mem execute with succeeds | member
          · exact Act.noConfusion (succeeds.symm.trans asks)
          · rw [asks] at member
            exact modest ⟨mount, description, member⟩
        refine (act.mono ?_ fun _ => id).bind fun _ _ => trivial
        rintro event ⟨asker, call, rfl, leaves⟩
        exact Event.asks_asked.2 leaves
  unfold run invoke
  split
  · trivial
  · simp only [Dialogue.bind_eq_bind, Dialogue.bind_assoc]
    exact action.bind fun done _ => ⟨Event.asks_noted _ _, trivial⟩

theorem asks_runAll {queue : List Operation}
    (modest : ∀ operation ∈ queue, ¬ operation.action.MayMount)
    (client : Handle) (index : Nat) :
    (runAll client index queue).Assures (Event.Asks Call.LeavesEngines)
      fun _ => True := by
  induction queue generalizing index with
  | nil => trivial
  | cons operation later ih =>
      rw [List.forall_mem_cons] at modest
      refine (asks_run modest.1 client index).bind fun done _ => ?_
      obtain ⟨outcome, left⟩ := done
      cases outcome with
      | value result =>
          exact (ih modest.2 (index + 1)).bind fun _ _ => trivial
      | fault error => trivial
      | crash message => trivial

end Operation

namespace MemoryStore

variable {α : Type}

theorem engines_of_asks {dialogue : Dialogue α} {kind : α → Prop}
    (asks : dialogue.Assures (Event.Asks Call.LeavesEngines) kind)
    (world : World MemoryStore) :
    engines ((dialogue.trace service world).filterMap Event.sighting?) =
      [] := by
  rw [engines, List.filterMap_filterMap, List.filterMap_eq_nil_iff]
  intro event member
  have allowed := asks.mem_trace service world event member
  cases event with
  | connected => rfl
  | noted entry => rfl
  | asked asker call =>
      have leaves := Event.asks_asked.1 allowed
      cases call with
      | enable mount description => exact absurd rfl (leaves mount description)
      | _ => rfl

end MemoryStore

namespace Session

open MemoryStore

/-- Over a store in memory a flush first gives each mount point that the queue
names its turn, in the order in which the queue first names it.  The turns
succeed, tell nothing of the bundles and come before all that the queue itself
does; only operations of other kinds than writes can mount engines there.  The
turns mount each engine once, and none that a flush before has mounted, whatever
was done in between; and they leave every engine that the queue needs
mounted. -/
theorem flush_provides (session : Session) (world : World MemoryStore) :
    let mounts := (session.operations.map Operation.mount).eraseDups
    let asked := turns world.store.listed [] mounts
    let provided := (ensureMounts session.client mounts).run service world
    let flushed := session.flush.run service world
    (provided.1 = .value () ∧
      provided.2.store.seen = world.store.seen ++ asked) ∧
    (∃ executing,
      flushed.2.store.seen = world.store.seen ++ asked ++ executing ∧
      (∀ sighting ∈ asked, sighting.isAboutBundle = false) ∧
      ((∀ operation ∈ session.operations, ¬ operation.action.MayMount) →
        engines executing = [])) ∧
    (engines asked).Nodup ∧
    (∀ (β : Type) (between : Dialogue β) (later : Session),
      let next := (between.run service flushed.2).2
      ∀ name ∈ engines asked,
        name ∉ engines (turns next.store.listed [] later.mounts)) ∧
    ∀ mount ∈ mounts,
      listedName mount ∈ provided.2.store.listed ∧
        listedName mount ∈ flushed.2.store.listed := by
  intro mounts asked provided flushed
  obtain ⟨succeeds, seen, _⟩ : provided.1 = .value () ∧
      provided.2.store.seen = world.store.seen ++ asked ∧ _ :=
    run_ensureMounts_turns session.client mounts (by simp)
  obtain ⟨_, _, _, mounted⟩ :=
    run_ensureMounts_mounts session.client mounts world
  let execution := Operation.runAll session.client 0 session.operations
  have rest : flushed.2 = (execution.run service provided.2).2 :=
    congrArg Prod.snd (run_flush_provided (Prod.ext succeeds rfl))
  have listed : ∀ mount ∈ mounts,
      listedName mount ∈ flushed.2.store.listed :=
    run_flush_mounts session world
  refine ⟨⟨succeeds, seen⟩, ⟨(execution.trace service provided.2).filterMap
    Event.sighting?, ?_, fun _ => not_isAboutBundle_of_mem_turns, ?_⟩,
    (engines_turns _ _ _).1, ?_, fun mount needed => ⟨?_, listed mount needed⟩⟩
  · rw [rest, run_seen, seen]
  · exact fun modest => engines_of_asks
      (Operation.asks_runAll modest session.client 0) provided.2
  · intro β between later next name before again
    obtain ⟨_, _, needed⟩ := (engines_turns _ _ _).2 name before
    obtain ⟨mount, member, rfl⟩ := List.mem_map.1 needed
    have remains : listedName mount ∈ next.store.listed :=
      (run_continues between flushed.2).mem_listed (listed mount member)
    exact ((engines_turns _ _ _).2 _ again).1 remains
  · exact Std.ExtTreeSet.contains_iff_mem.1 (mounted mount needed)

/-- Spellings of one mount point have turns of their own but mount its engine
once. -/
example : turns ∅ [] (["a", "/a", "b", "a", "/a/"].eraseDups) =
    [.mounts, .enable "a", .mounts, .mounts, .enable "b", .mounts] := by
  decide

end Session

end KeyCustody
