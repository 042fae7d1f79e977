import KeyCustody.Proofs.Dialogue.Duet
import KeyCustody.Proofs.Session.Foresight

/-!
# Two sessions that take turns at a store

Two sessions write to one store in memory, which refuses nothing.  They may
share bundles but not entries, and one move of a session, be it queueing a
write or calling a method, is over before the next move of either begins.

Undoing a write puts back a whole bundle, and so does creating one; the entries
of the other session go through the hands of both.  Still neither session can
tell that the other one is there: its moves end as they would without the
other, it is left in the same state, and so are its entries.
-/

namespace KeyCustody

/-- A move of a session that only writes entries. -/
inductive Move
  | queue (write : Write)
  | use (method : Method)
  | disconnect
deriving DecidableEq

/-- A session in use, which is gone once it is disconnected. -/
structure Party where
  session : Option Session
  /-- How the moves of the party ended, oldest first. -/
  outcomes : List (Outcome Unit) := []
deriving DecidableEq

namespace Move

def dialogue (session : Session) :
    Move → Dialogue (Outcome Unit × Option Session)
  | .queue write =>
      return (.value (),
        some (session.addWrite write.path write.key write.value write.mount))
  | .use method => do
      let (outcome, session) ← method.dialogue session
      return (outcome, some session)
  | .disconnect => do
      let outcome ← session.disconnect
      return (outcome, none)

/-- What a move makes of a session that gets its way. -/
def foresee (session : Session) : Move → List Edit × Option Session
  | .queue write =>
      ([], some
        (session.addWrite write.path write.key write.value write.mount))
  | .use method =>
      ((method.foresee session).1, some (method.foresee session).2)
  | .disconnect => ((Method.close.foresee session).1, none)

end Move

namespace Party

/-- Makes a move, if the session is still there to make it. -/
def make (party : Party) (move : Move) : Dialogue Party :=
  match party.session with
  | none => return party
  | some session => do
      let (outcome, session) ← move.dialogue session
      return { session, outcomes := party.outcomes ++ [outcome] }

def foresee (party : Party) (move : Move) : List Edit × Party :=
  match party.session with
  | none => ([], party)
  | some session =>
      ((move.foresee session).1,
        { session := (move.foresee session).2
          outcomes := party.outcomes ++ [.value ()] })

/-- What moves make of a party that gets its way, and their edits. -/
def foreseeAll (party : Party) : List Move → List Edit × Party
  | [] => ([], party)
  | move :: later =>
      let rest := (party.foresee move).2.foreseeAll later
      ((party.foresee move).1 ++ rest.1, rest.2)

open MemoryStore

/-- A party with some of the given writes gets its way in a store. -/
def Served (writes : List Write) (party : Party) (store : MemoryStore) :
    Prop :=
  ∀ session, party.session = some session → session.Served writes store

theorem Served.continues {writes : List Write} {party : Party}
    {before after : MemoryStore} (served : party.Served writes before)
    (continues : Continues before after) : party.Served writes after :=
  fun session present => (served session present).continues continues

end Party

namespace Session

open MemoryStore

variable {writes : List Write} {session : Session}

theorem Served.addWrite {store : MemoryStore}
    (served : Served writes session store) {write : Write}
    (listed : write ∈ writes) :
    Served writes
      (session.addWrite write.path write.key write.value write.mount)
      store where
  areWrites operation member := by
    rcases List.mem_append.1 member with before | added
    · exact served.areWrites operation before
    · refine ⟨write, listed, ?_⟩
      rw [List.mem_singleton.1 added]
      rfl
  obliging := served.obliging
  mounted operation member executed := by
    rcases List.mem_append.1 member with before | added
    · exact served.mounted operation before executed
    · rw [List.mem_singleton.1 added] at executed
      exact absurd executed Bool.false_ne_true

/-- Every move succeeds and does what was foreseen of it, edits only entries of
the writes and leaves a session that gets its way. -/
theorem Served.run_move {world : World MemoryStore}
    (served : Served writes session world.store) {move : Move}
    (named : ∀ write, move = .queue write → write ∈ writes) :
    ∃ reached,
      (move.dialogue session).run service world =
        ((.value (), (move.foresee session).2), reached) ∧
      reached.store.bundles =
        Edit.applyAll (move.foresee session).1 world.store.bundles ∧
      (∀ edit ∈ (move.foresee session).1, edit.write ∈ writes) ∧
      ∀ left, (move.foresee session).2 = some left →
        left.Served writes reached.store := by
  cases move with
  | queue write =>
      refine ⟨world, rfl, rfl, fun _ => (absurd · List.not_mem_nil), ?_⟩
      rintro left ⟨⟩
      exact served.addWrite (named write rfl)
  | use method =>
      obtain ⟨reached, run, changes⟩ := served.run_method method
      have later := served.method method
      rw [run] at later
      refine ⟨reached, ?_, changes, fun edit => served.mem_foresee, ?_⟩
      · simp [Move.dialogue, run, Move.foresee]
      · rintro left ⟨⟩
        exact later
  | disconnect =>
      obtain ⟨reached, run, changes⟩ := served.run_method .close
      rw [Method.dialogue] at run
      refine ⟨{ reached with store := reached.store.record .close }, ?_,
        changes, fun edit => served.mem_foresee, fun left absent => ?_⟩
      · simp only [Move.dialogue, disconnect, Dialogue.bind_eq_bind,
          Dialogue.run_bind, run]
        rfl
      · cases absent

end Session

namespace Party

open MemoryStore

theorem Served.run_make {writes : List Write} {party : Party}
    {world : World MemoryStore} (served : party.Served writes world.store)
    {move : Move} (named : ∀ write, move = .queue write → write ∈ writes) :
    ∃ reached,
      (party.make move).run service world =
        ((party.foresee move).2, reached) ∧
      reached.store.bundles =
        Edit.applyAll (party.foresee move).1 world.store.bundles ∧
      (∀ edit ∈ (party.foresee move).1, edit.write ∈ writes) ∧
      (party.foresee move).2.Served writes reached.store := by
  cases present : party.session with
  | none =>
      refine ⟨world, ?_, ?_, ?_, ?_⟩ <;> simp only [make, foresee, present]
      · rfl
      · rfl
      · exact fun _ => (absurd · List.not_mem_nil)
      · exact served
  | some session =>
      obtain ⟨reached, run, changes, edits, left⟩ :=
        (served session present).run_move named
      refine ⟨reached, ?_, ?_, ?_, ?_⟩ <;> simp only [make, foresee, present]
      · simp [run]
      · exact changes
      · exact edits
      · exact left

end Party

/-- A move of the party on one side. -/
abbrev Turn := Side × Move

/-- The moves of one side. -/
def movesOf (side : Side) (turns : List Turn) : List Move :=
  turns.filterMap fun turn => if turn.1 = side then some turn.2 else none

theorem movesOf_own (side : Side) (move : Move) (later : List Turn) :
    movesOf side ((side, move) :: later) = move :: movesOf side later := by
  simp [movesOf]

theorem movesOf_other {side actor : Side} (differs : actor ≠ side)
    (move : Move) (later : List Turn) :
    movesOf side ((actor, move) :: later) = movesOf side later := by
  simp [movesOf, differs]

/-- The writes that one side queues. -/
def writesOf (side : Side) (turns : List Turn) : List Write :=
  (movesOf side turns).filterMap fun
    | .queue write => some write
    | _ => none

/-- The turns of one side alone. -/
def turnsOf (side : Side) (turns : List Turn) : List Turn :=
  turns.filter fun turn => turn.1 = side

/-- Two parties at one store. -/
structure Meeting where
  party : Side → Party
  world : World MemoryStore

namespace Meeting

open MemoryStore

/-- Two fresh sessions at a store. -/
def fresh (id : Side → Nat) (client : Side → Handle) (store : MemoryStore) :
    Meeting where
  party side := { session := some { id := id side, client := client side } }
  world := { store }

/-- The meeting after a turn. -/
def turn (meeting : Meeting) (turn : Turn) : Meeting :=
  let done := ((meeting.party turn.1).make turn.2).run service meeting.world
  { party := fun side => if side = turn.1 then done.1 else meeting.party side
    world := done.2 }

def play (meeting : Meeting) (turns : List Turn) : Meeting :=
  turns.foldl turn meeting

variable {meeting : Meeting} {writes : Side → List Write}

/-- Both parties, each with some of its writes, get their way. -/
def Served (writes : Side → List Write) (meeting : Meeting) : Prop :=
  ∀ side, (meeting.party side).Served (writes side) meeting.world.store

/-- A move does what was foreseen of it, to entries of the side that makes it;
the other side is not involved, and both still get their way. -/
theorem Served.turn (served : meeting.Served writes) {side : Side}
    {move : Move} (named : ∀ write, move = .queue write → write ∈ writes side) :
    let foreseen := (meeting.party side).foresee move
    let after := meeting.turn (side, move)
    after.party side = foreseen.2 ∧
      after.party side.other = meeting.party side.other ∧
      after.world.store.bundles =
        Edit.applyAll foreseen.1 meeting.world.store.bundles ∧
      (∀ edit ∈ foreseen.1, edit.write ∈ writes side) ∧
      after.Served writes := by
  intro foreseen after
  obtain ⟨reached, run, changes, edits, servedHere⟩ :=
    (served side).run_make named
  have continues := run_continues ((meeting.party side).make move)
    meeting.world
  rw [run] at continues
  have made : after = { party := fun another =>
      if another = side then foreseen.2 else meeting.party another
                        world := reached } := by
    simp only [after, Meeting.turn, run]
    rfl
  have there : side.other ≠ side := side.other_ne
  rw [made]
  refine ⟨if_pos rfl, if_neg there, changes, edits, fun another => ?_⟩
  by_cases same : another = side
  · subst another
    dsimp only
    rw [if_pos rfl]
    exact servedHere
  · dsimp only
    rw [if_neg same]
    exact (served another).continues continues

/-- The writes that the sides queue are among the given ones. -/
def Names (writes : Side → List Write) (turns : List Turn) : Prop :=
  ∀ side, ∀ write ∈ writesOf side turns, write ∈ writes side

theorem Names.head {side : Side} {move : Move} {later : List Turn}
    (names : Names writes ((side, move) :: later)) (write : Write)
    (queues : move = .queue write) : write ∈ writes side := by
  subst queues
  refine names side write ?_
  rw [writesOf, movesOf_own]
  exact List.mem_cons_self

theorem Names.tail {turn : Turn} {later : List Turn}
    (names : Names writes (turn :: later)) : Names writes later := by
  intro side write queued
  refine names side write ?_
  rw [writesOf, movesOf, List.filterMap_cons]
  split
  · exact queued
  · rw [List.filterMap_cons]
    split
    · exact queued
    · exact List.mem_cons_of_mem _ queued

/-- A party ends as its own moves let foresee, and so do the entries that the
other side does not name. -/
theorem Served.play (served : meeting.Served writes) {turns : List Turn}
    (names : Names writes turns) (side : Side) :
    let foreseen := (meeting.party side).foreseeAll (movesOf side turns)
    let done := meeting.play turns
    done.party side = foreseen.2 ∧
      ∀ place key, (∀ write ∈ writes side.other, ¬ write.Names place key) →
        Bundles.value? done.world.store.bundles place key =
          Bundles.value?
            (Edit.applyAll foreseen.1 meeting.world.store.bundles) place
            key := by
  induction turns generalizing meeting with
  | nil => exact ⟨rfl, fun _ _ _ => rfl⟩
  | cons turn later ih =>
      obtain ⟨actor, move⟩ := turn
      obtain ⟨acts, idles, changes, edits, servedAfter⟩ :=
        served.turn names.head
      obtain ⟨ends, values⟩ := ih servedAfter names.tail
      by_cases own : actor = side
      · subst actor
        rw [acts] at ends values
        rw [changes] at values
        rw [movesOf_own, Party.foreseeAll]
        dsimp only
        rw [Edit.applyAll_append]
        exact ⟨ends, values⟩
      · obtain rfl : actor = side.other := Side.eq_other_of_ne own
        rw [Side.other_other] at idles
        rw [idles] at ends values
        rw [movesOf_other own]
        refine ⟨ends, fun place key elsewhere => ?_⟩
        -- The turn has not edited the entry, and what later edits make of it
        -- depends on nothing else.
        refine (values place key elsewhere).trans ?_
        refine Edit.value?_applyAll_congr _ ?_
        rw [changes]
        exact Edit.value?_applyAll_elsewhere (fun edit member =>
          elsewhere edit.write (edits edit member)) _

theorem Served.play_elsewhere (served : meeting.Served writes)
    {turns : List Turn} (names : Names writes turns) {place : Location}
    {key : String}
    (elsewhere : ∀ side, ∀ write ∈ writes side, ¬ write.Names place key) :
    Bundles.value? (meeting.play turns).world.store.bundles place key =
      Bundles.value? meeting.world.store.bundles place key := by
  induction turns generalizing meeting with
  | nil => rfl
  | cons turn later ih =>
      obtain ⟨_, _, changes, edits, servedAfter⟩ := served.turn names.head
      refine (ih servedAfter names.tail).trans ?_
      rw [changes]
      exact Edit.value?_applyAll_elsewhere (fun edit member =>
        elsewhere turn.1 edit.write (edits edit member)) _

theorem fresh_served {id : Side → Nat} {client : Side → Handle}
    {store : MemoryStore} (obliging : store.Obliging)
    (writes : Side → List Write) : (fresh id client store).Served writes := by
  rintro side session ⟨⟩
  exact ⟨fun _ member => absurd member List.not_mem_nil, obliging,
    fun _ member => absurd member List.not_mem_nil⟩

theorem movesOf_turnsOf (side : Side) (turns : List Turn) :
    movesOf side (turnsOf side turns) = movesOf side turns := by
  simp only [movesOf, turnsOf, List.filterMap_filter]
  refine congrArg (List.filterMap · turns) (funext fun turn => ?_)
  by_cases own : turn.1 = side <;> simp [own]

theorem Names.turnsOf {turns : List Turn} (names : Names writes turns)
    (side : Side) : Names writes (turnsOf side turns) := by
  intro another write queued
  refine names another write ?_
  obtain ⟨move, moves, queues⟩ := List.mem_filterMap.1 queued
  obtain ⟨turn, own, isMove⟩ := List.mem_filterMap.1 moves
  exact List.mem_filterMap.2 ⟨move,
    List.mem_filterMap.2 ⟨turn, (List.mem_filter.1 own).1, isMove⟩, queues⟩

/-- Two fresh sessions take turns, move by move, at a store that refuses
nothing, and write different entries.  Then each is left as its own moves alone
would leave it, they end as they would alone, and its entries hold what they
would.  Entries that neither of them writes keep their values. -/
theorem parties_isolated {id : Side → Nat} {client : Side → Handle}
    {store : MemoryStore} {turns : List Turn}
    (noRefusedKeys : store.refusedKeys = [])
    (noRefusedPaths : store.refusedPaths = [])
    (disjoint : ∀ one ∈ writesOf .left turns, ∀ other ∈ writesOf .right turns,
      ¬ other.Names one.place one.key) :
    let start := fresh id client store
    let joint := start.play turns
    (∀ side,
      let alone := start.play (turnsOf side turns)
      joint.party side = alone.party side ∧
      ∀ write ∈ writesOf side turns,
        Bundles.value? joint.world.store.bundles write.place write.key =
          Bundles.value? alone.world.store.bundles write.place write.key) ∧
    ∀ place key,
      (∀ side, ∀ write ∈ writesOf side turns, ¬ write.Names place key) →
      Bundles.value? joint.world.store.bundles place key =
        Bundles.value? store.bundles place key := by
  intro start joint
  have served : start.Served (writesOf · turns) :=
    fresh_served ⟨noRefusedKeys, noRefusedPaths⟩ _
  have names : Names (writesOf · turns) turns := fun _ _ queued =>
    queued
  have apart : ∀ side, ∀ write ∈ writesOf side turns,
      ∀ other ∈ writesOf side.other turns,
        ¬ other.Names write.place write.key := by
    intro side write queued other queuedThere
    cases side with
    | left => exact disjoint write queued other queuedThere
    | right =>
        rw [Write.names_comm]
        exact disjoint other queuedThere write queued
  refine ⟨fun side => ?_, fun place key => served.play_elsewhere names⟩
  obtain ⟨ends, values⟩ := served.play names side
  obtain ⟨endsAlone, valuesAlone⟩ := served.play (names.turnsOf side) side
  rw [movesOf_turnsOf] at endsAlone valuesAlone
  refine ⟨ends.trans endsAlone.symm, fun write queued => ?_⟩
  have elsewhere := apart side write queued
  exact (values _ _ elsewhere).trans (valuesAlone _ _ elsewhere).symm

/-- A store with one bundle. -/
def sharedStore : MemoryStore :=
  MemoryStore.insert {} "m" "p" (Bundle.ofEntries [("z", .string "9")])

/-- One session flushes and takes its writes back while the other one commits
to the same bundles. -/
def sharedTurns : List Turn :=
  [(.left, .queue ⟨"m", "p", "a", "1"⟩), (.right, .queue ⟨"m", "p", "b", "2"⟩),
    (.left, .queue ⟨"/m/", "q", "a", "3"⟩), (.left, .use .flush),
    (.right, .queue ⟨"m", "/q", "b", "4"⟩), (.right, .use .commit),
    (.left, .use .rollback), (.right, .disconnect), (.left, .disconnect)]

set_option maxRecDepth 10000 in
/-- Both are left with what they would have alone, and the entry that was there
before is kept. -/
theorem parties_isolated_sharing :
    let start := fresh (fun _ => 1) (fun _ => 0) sharedStore
    let joint := start.play sharedTurns
    (∀ side, joint.party side =
      (start.play (turnsOf side sharedTurns)).party side) ∧
    Bundles.value? joint.world.store.bundles (Location.of "m" "q") "b" =
      Bundles.value? (start.play (turnsOf .right
        sharedTurns)).world.store.bundles (Location.of "m" "q") "b" ∧
    Bundles.value? joint.world.store.bundles (Location.of "m" "p") "z" =
      some (.string "9") := by
  have apart : ∀ one ∈ writesOf .left sharedTurns,
      ∀ other ∈ writesOf .right sharedTurns,
        ¬ other.Names one.place one.key := by
    decide
  have unnamed : ∀ side, ∀ write ∈ writesOf side sharedTurns,
      ¬ write.Names (Location.of "m" "p") "z" := by
    intro side
    cases side <;> decide
  have before : Bundles.value? sharedStore.bundles (Location.of "m" "p") "z" =
      some (.string "9") := by
    decide
  have written : (⟨"m", "/q", "b", "4"⟩ : Write) ∈
      writesOf .right sharedTurns := by
    decide
  have place : Write.place ⟨"m", "/q", "b", "4"⟩ = Location.of "m" "q" := by
    decide
  obtain ⟨sides, others⟩ := @parties_isolated (fun _ => 1) (fun _ => 0)
    sharedStore sharedTurns rfl rfl apart
  refine ⟨fun side => (sides side).1, ?_, ?_⟩
  · have values := (sides .right).2 _ written
    rw [place] at values
    exact values
  · exact (others _ _ unnamed).trans before

end Meeting

end KeyCustody
