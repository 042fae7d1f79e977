import KeyCustody.Proofs.Session.Deeds
import KeyCustody.Proofs.Session.Steps

/-!
# Queue, deeds and store agree

What has become of each queued operation, the deeds of the session and the
store tell the same story: operations are executed in the order of their
numbers, each at most once, and undone at most once after that, and the store
holds what replaying the deeds gives.

Every step of flushing and undoing keeps this, whichever calls fail on the way,
and so does queueing another write.
-/

namespace KeyCustody

open Relation

variable {σ : Type}

/-- The deeds of an operation, going by what has become of it. -/
def Operation.past (operation : Operation) (number : Nat) : List Deed :=
  (if operation.executed then [⟨number, .execute⟩] else []) ++
    if operation.undone then [⟨number, .rollback⟩] else []

/-- The queue, the deeds and the store of a session that started over the
bundles `base` and has queued `writes`.  The head of the queue has the number
`first`. -/
structure Account (view : σ → MemoryStore) (fair : σ → Prop) (base : Bundles)
    (writes : List Write) (first : Nat) (operations : List Operation)
    (deeds : List Deed) (store : σ) : Prop where
  fair : fair store
  tasks : operations.map Operation.task = (writes.drop first).map Write.task
  whole : first + operations.length = writes.length
  /-- Operations are executed in the order of the queue. -/
  ordered : ∀ (before after : Nat) (earlier later : Operation),
    before < after → operations[before]? = some earlier →
    operations[after]? = some later → later.executed → earlier.executed
  proper : ∀ operation ∈ operations, operation.undone → operation.executed
  past : ∀ (index : Nat) (operation : Operation),
    operations[index]? = some operation →
    deeds.filter (·.number = first + index) = operation.past (first + index)
  known : ∀ deed ∈ deeds, deed.number < writes.length
  sequence : (deeds.filter (·.phase = .execute)).Pairwise
    fun earlier later => earlier.number < later.number
  entries : ∀ place key, Bundles.value? (view store).bundles place key =
    Deed.replay writes place key deeds (base.value? place key)

theorem map_set_of_eq {α β : Type} {list : List α} {index : Nat}
    {old new : α} {image : α → β} (found : list[index]? = some old)
    (same : image new = image old) :
    (list.set index new).map image = list.map image := by
  have inside : index < list.length := (List.getElem?_eq_some_iff.1 found).1
  apply List.ext_getElem?
  intro position
  rw [List.getElem?_map, List.getElem?_map, List.getElem?_set]
  split
  next here =>
    rw [← here, found, Option.map_some, Option.map_some, same]
  next => rfl

theorem getElem?_set_cases {α : Type} {list : List α}
    {index position : Nat} {new element : α}
    (found : (list.set index new)[position]? = some element) :
    (position = index ∧ element = new) ∨
      (position ≠ index ∧ list[position]? = some element) := by
  rw [List.getElem?_set] at found
  split at found
  next same =>
    split at found
    · exact Or.inl ⟨same.symm, (Option.some.inj found).symm⟩
    · simp at found
  next other => exact Or.inr ⟨fun same => other same.symm, found⟩

theorem getElem?_concat_cases {α : Type} {list : List α} {position : Nat}
    {last element : α} (found : (list ++ [last])[position]? = some element) :
    (position = list.length ∧ element = last) ∨
      list[position]? = some element := by
  rw [List.getElem?_append] at found
  split at found
  next inside => exact Or.inr found
  next outside =>
    obtain ⟨none, same⟩ := List.getElem?_eq_some_iff.1 found
    simp only [List.length_singleton] at none
    refine Or.inl ⟨by omega, ?_⟩
    simpa using same.symm

theorem set_length_append {α : Type} (earlier later : List α)
    (old new : α) :
    (earlier ++ old :: later).set earlier.length new =
      earlier ++ new :: later := by
  simp

namespace Account

variable {view : σ → MemoryStore} {fair : σ → Prop} {base : Bundles}
variable {writes : List Write} {first : Nat} {operations : List Operation}
variable {deeds : List Deed} {store next : σ} {index : Nat}
variable {operation : Operation}

theorem start (store : σ) (isFair : fair store) :
    Account view fair (view store).bundles [] 0 [] [] store where
  fair := isFair
  tasks := rfl
  whole := rfl
  ordered := by simp
  proper := by simp
  past := by simp
  known := by simp
  sequence := by simp
  entries := by simp [Deed.replay]

theorem elsewhere
    (account : Account view fair base writes first operations deeds store)
    (isFair : fair next)
    (same : (view next).bundles = (view store).bundles) :
    Account view fair base writes first operations deeds next :=
  { account with
    fair := isFair
    entries := by
      rw [same]
      exact account.entries }

theorem isWrite
    (account : Account view fair base writes first operations deeds store)
    (found : operations[index]? = some operation) :
    ∃ write, writes[first + index]? = some write ∧
      operation.task = write.task := by
  have same := congrArg (fun tasks => tasks[index]?) account.tasks
  simp only [List.getElem?_map, List.getElem?_drop, found, Option.map_some]
    at same
  cases number : writes[first + index]? with
  | none => simp [number] at same
  | some write => exact ⟨write, rfl, by simpa [number] using same⟩

theorem executed_before
    (account : Account view fair base writes first operations deeds store)
    (found : operations[index]? = some operation)
    (pending : operation.executed = false) {deed : Deed}
    (member : deed ∈ deeds) :
    deed.number < first + index := by
  rcases Nat.lt_or_ge deed.number (first + index) with before | late
  · exact before
  have bound := account.known deed member
  have whole := account.whole
  obtain ⟨offset, number⟩ := Nat.exists_eq_add_of_le
    (show first ≤ deed.number by omega)
  have listed : offset < operations.length := by omega
  have queued : operations[offset]? = some operations[offset] :=
    List.getElem?_eq_getElem listed
  have told : deed ∈ operations[offset].past (first + offset) := by
    rw [← account.past offset _ queued]
    simp [member, number]
  have executed : operations[offset].executed := by
    rcases List.mem_append.1 told with executed | undone
    · exact (List.mem_ite_nil_right.1 executed).1
    · exact account.proper _ (List.getElem_mem listed)
        (List.mem_ite_nil_right.1 undone).1
  have both : operation.executed := by
    rcases Nat.eq_or_lt_of_le (show index ≤ offset by omega) with same | after
    · subst same
      rwa [Option.some.inj (queued.symm.trans found)] at executed
    · exact account.ordered index offset _ _ after found queued executed
  simp [pending] at both

/-- What holds after something new has become of one operation, if the bundles
have followed. -/
theorem advance
    (account : Account view fair base writes first operations deeds store)
    (found : operations[index]? = some operation) {changed : Operation}
    {phase : Phase} (sameTask : changed.task = operation.task)
    (stays : operation.executed → changed.executed)
    (proper : changed.undone → changed.executed)
    (past : changed.past (first + index) =
      operation.past (first + index) ++ [⟨first + index, phase⟩])
    (settled : changed.executed → ∀ (before : Nat) (other : Operation),
      before < index → operations[before]? = some other → other.executed)
    (fresh : phase = .execute → operation.executed = false)
    (isFair : fair next)
    (follows : ∀ place key, Bundles.value? (view next).bundles place key =
      Deed.effect writes place key
        (Bundles.value? (view store).bundles place key)
        ⟨first + index, phase⟩) :
    Account view fair base writes first (operations.set index changed)
      (deeds ++ [⟨first + index, phase⟩]) next where
  fair := isFair
  tasks := by
    rw [← account.tasks]
    exact map_set_of_eq found sameTask
  whole := by
    rw [List.length_set]
    exact account.whole
  ordered := by
    intro before after earlier later precedes foundEarlier foundLater executed
    rcases getElem?_set_cases foundLater with
      ⟨rfl, rfl⟩ | ⟨_, queuedLater⟩
    · rcases getElem?_set_cases foundEarlier with
        ⟨rfl, _⟩ | ⟨_, queuedEarlier⟩
      · omega
      · exact settled executed before earlier precedes queuedEarlier
    · rcases getElem?_set_cases foundEarlier with
        ⟨rfl, rfl⟩ | ⟨_, queuedEarlier⟩
      · exact stays (account.ordered _ _ _ _ precedes found queuedLater
          executed)
      · exact account.ordered _ _ _ _ precedes queuedEarlier queuedLater
          executed
  proper := by
    intro other member undone
    rcases List.mem_or_eq_of_mem_set member with member | rfl
    · exact account.proper other member undone
    · exact proper undone
  past := by
    intro position other foundOther
    rw [List.filter_append]
    rcases getElem?_set_cases foundOther with
      ⟨rfl, rfl⟩ | ⟨elsewhere, foundOther⟩
    · rw [account.past _ _ found, past]
      simp
    · rw [account.past _ _ foundOther, List.filter_cons_of_neg (by
        simpa using fun same => elsewhere same.symm)]
      simp
  known := by
    intro deed member
    rcases List.mem_append.1 member with member | member
    · exact account.known deed member
    · obtain ⟨write, number, _⟩ := account.isWrite found
      rw [List.mem_singleton.1 member]
      exact (List.getElem?_eq_some_iff.1 number).1
  sequence := by
    rw [List.filter_append]
    refine List.pairwise_append.2 ⟨account.sequence, ?_, ?_⟩
    · exact (List.pairwise_singleton _ _).filter _
    · intro earlier member last same
      obtain ⟨same, executes⟩ := List.mem_filter.1 same
      rw [List.mem_singleton.1 same] at executes ⊢
      exact account.executed_before found (fresh (by simpa using executes))
        (List.mem_filter.1 member).1
  entries := by
    intro place key
    rw [follows, account.entries, Deed.replay_append]
    rfl

theorem execute
    (account : Account view fair base writes first operations deeds store)
    (found : operations[index]? = some operation)
    (pending : operation.executed = false)
    (settled : ∀ (before : Nat) (other : Operation), before < index →
      operations[before]? = some other → other.executed)
    {write : Write} (number : writes[first + index]? = some write)
    (isFair : fair next)
    (changed : (view next).bundles = write.setIn (view store).bundles) :
    Account view fair base writes first
      (operations.set index { operation with executed := true })
      (deeds ++ [⟨first + index, .execute⟩]) next := by
  have kept : operation.undone = false := by
    cases undone : operation.undone with
    | false => rfl
    | true =>
        have executed := account.proper operation
          (List.mem_of_getElem? found) undone
        simp [pending] at executed
  refine account.advance found rfl (fun _ => rfl) (fun _ => rfl) ?_
    (fun _ => settled) (fun _ => pending) isFair ?_
  · simp [Operation.past, pending, kept]
  · intro place key
    rw [changed, Write.value?_setIn, Deed.effect_execute number]

theorem undo
    (account : Account view fair base writes first operations deeds store)
    (found : operations[index]? = some operation)
    (executed : operation.executed) (kept : operation.undone = false)
    {write : Write} (number : writes[first + index]? = some write)
    (isFair : fair next)
    (changed : (view next).bundles = write.dropIn (view store).bundles) :
    Account view fair base writes first
      (operations.set index { operation with undone := true })
      (deeds ++ [⟨first + index, .rollback⟩]) next := by
  refine account.advance found rfl (fun _ => executed) (fun _ => executed) ?_
    ?_ (fun undoes => by simp at undoes) isFair ?_
  · simp [Operation.past, executed, kept]
  · intro _ before other precedes foundOther
    exact account.ordered before index other operation precedes foundOther
      found executed
  · intro place key
    rw [changed, Write.value?_dropIn, Deed.effect_rollback number]

theorem enqueue
    (account : Account view fair base writes first operations deeds store)
    (write : Write) :
    Account view fair base (writes ++ [write]) first
      (operations ++ [write.operation]) deeds store where
  fair := account.fair
  tasks := by
    have whole := account.whole
    rw [List.map_append, account.tasks,
      List.drop_append_of_le_length (by omega), List.map_append]
    rfl
  whole := by
    have whole := account.whole
    simp only [List.length_append, List.length_singleton]
    omega
  ordered := by
    intro before after earlier later precedes foundEarlier foundLater executed
    rcases getElem?_concat_cases foundLater with ⟨_, rfl⟩ | queuedLater
    · simp at executed
    · have bound := (List.getElem?_eq_some_iff.1 queuedLater).1
      rw [List.getElem?_append_left (by omega)] at foundEarlier
      exact account.ordered before after earlier later precedes foundEarlier
        queuedLater executed
  proper := by
    intro other member undone
    rcases List.mem_append.1 member with member | member
    · exact account.proper other member undone
    · rw [List.mem_singleton.1 member] at undone
      simp at undone
  past := by
    intro position other found
    rcases getElem?_concat_cases found with ⟨rfl, rfl⟩ | queued
    · have whole := account.whole
      refine List.filter_eq_nil_iff.2 fun deed member => ?_
      have bound := account.known deed member
      simp only [decide_eq_true_eq]
      omega
    · exact account.past position other queued
  known := by
    intro deed member
    have bound := account.known deed member
    simp only [List.length_append, List.length_singleton]
    omega
  sequence := account.sequence
  entries := by
    intro place key
    rw [account.entries, Deed.replay_queue_append account.known]

theorem deed_mem_iff
    (account : Account view fair base writes first operations deeds store)
    (found : operations[index]? = some operation) (phase : Phase) :
    (⟨first + index, phase⟩ : Deed) ∈ deeds ↔
      ⟨first + index, phase⟩ ∈ operation.past (first + index) := by
  rw [← account.past index operation found]
  simp

theorem rollback_mem_iff
    (account : Account view fair base writes first operations deeds store)
    (found : operations[index]? = some operation) :
    (⟨first + index, .rollback⟩ : Deed) ∈ deeds ↔ operation.undone := by
  rw [account.deed_mem_iff found]
  simp [Operation.past]

theorem count_execute
    (account : Account view fair base writes first operations deeds store)
    (found : operations[index]? = some operation)
    (executed : operation.executed) :
    deeds.count ⟨first + index, .execute⟩ = 1 := by
  have past := account.past index operation found
  rw [← List.count_filter (p := fun deed => deed.number = first + index)
    (by simp), past]
  cases undone : operation.undone <;> simp [Operation.past, executed, undone]

/-- An operation is in effect if it has been executed and not undone. -/
theorem inEffect_iff
    (account : Account view fair base writes first operations deeds store)
    (found : operations[index]? = some operation) :
    Deed.InEffect deeds (first + index) ↔
      operation.executed ∧ operation.undone = false :=
  Deed.inEffect_iff_of_past
    (account.proper operation (List.mem_of_getElem? found))
    (account.past index operation found)

/-- Once the last write to an entry is executed, the entry has its value until
something is undone there, and no value from then on. -/
theorem value?_of_last
    (account : Account view fair base writes first operations deeds store)
    {number : Nat} {write : Write} {place : Location} {key : String}
    (executed : ⟨number, .execute⟩ ∈ deeds)
    (found : writes[number]? = some write) (names : write.Names place key)
    (last : ∀ (later : Nat) (other : Write), number < later →
      writes[later]? = some other → ¬ other.Names place key) :
    let value := Bundles.value? (view store).bundles place key
    (¬ Deed.DroppedSince writes deeds number place key →
      value = some (.string write.value)) ∧
    (Deed.DroppedSince writes deeds number place key → value = none) := by
  intro value
  have entry : value = _ := account.entries place key
  obtain ⟨earlier, _, split⟩ := Deed.eq_append_since executed
  have sequence := account.sequence
  unfold Deed.DroppedSince
  generalize Deed.since deeds number = since at split ⊢
  subst split
  rw [List.filter_append, List.filter_cons_of_pos (by simp)] at sequence
  -- Executions since are of later operations, which write to other entries.
  have increasing := (List.pairwise_append.1 sequence).2.1
  have undoing : ∀ deed ∈ since, deed.Touches writes place key →
      deed.phase = .rollback := by
    rintro ⟨later, phase⟩ member ⟨other, foundOther, namesOther⟩
    cases phase with
    | rollback => rfl
    | execute =>
        have executes : (⟨later, .execute⟩ : Deed) ∈
            since.filter (·.phase = .execute) :=
          List.mem_filter.2 ⟨member, by simp⟩
        have after := List.rel_of_pairwise_cons increasing executes
        exact absurd namesOther (last later other after foundOther)
  rw [Deed.replay_append, Deed.replay, List.foldl_cons,
    Deed.effect_execute found, if_pos names] at entry
  constructor
  · intro kept
    refine entry.trans (Deed.replay_of_not_touches ?_ _)
    intro deed member touches
    exact kept ⟨deed, member, undoing deed member touches, touches⟩
  · rintro ⟨deed, member, _, touches⟩
    exact entry.trans
      (Deed.replay_of_rollback undoing ⟨deed, member, touches⟩ _)

/-- An entry that only one write is to and that had no value before has the
value of the write exactly while the write is in effect. -/
theorem value?_of_only
    (account : Account view fair base writes first operations deeds store)
    {number : Nat} {write : Write} {place : Location} {key : String}
    (found : writes[number]? = some write) (names : write.Names place key)
    (only : ∀ (other : Nat) (further : Write),
      writes[other]? = some further → further.Names place key →
      other = number)
    (absent : base.value? place key = none) :
    let value := Bundles.value? (view store).bundles place key
    (Deed.InEffect deeds number → value = some (.string write.value)) ∧
    (¬ Deed.InEffect deeds number → value = none) := by
  intro value
  by_cases executed : ⟨number, .execute⟩ ∈ deeds
  · obtain ⟨kept, dropped⟩ := account.value?_of_last executed found names
      fun later other after foundOther namesOther =>
        Nat.ne_of_gt after (only later other foundOther namesOther)
    have same : Deed.DroppedSince writes deeds number place key ↔
        ⟨number, .rollback⟩ ∈ Deed.since deeds number := by
      constructor
      · rintro ⟨⟨other, phase⟩, member, rfl, further, foundOther, namesOther⟩
        rw [only other further foundOther namesOther] at member
        exact member
      · intro member
        exact ⟨_, member, rfl, write, found, names⟩
    rw [same] at kept dropped
    constructor
    · intro inEffect
      exact kept inEffect.2
    · intro undone
      apply dropped
      exact Decidable.byContradiction fun notDropped =>
        undone ⟨executed, notDropped⟩
  · have undoing : ∀ deed ∈ deeds, deed.Touches writes place key →
        deed.phase = .rollback := by
      rintro ⟨other, phase⟩ member ⟨further, foundOther, namesOther⟩
      cases phase with
      | rollback => rfl
      | execute =>
          rw [only other further foundOther namesOther] at member
          exact absurd member executed
    have none : value = none := by
      have entry : value = _ := account.entries place key
      rw [absent, Deed.replay_none undoing] at entry
      exact entry
    exact ⟨fun inEffect => absurd inEffect.1 executed, fun _ => none⟩

theorem last_pending
    (account : Account view fair base writes first operations deeds store)
    (pending : false ∈ operations.map Operation.executed) :
    ⟨writes.length - 1, .execute⟩ ∉ deeds := by
  obtain ⟨operation, member, isPending⟩ := List.mem_map.1 pending
  obtain ⟨index, found⟩ := List.mem_iff_getElem?.1 member
  have inside := (List.getElem?_eq_some_iff.1 found).1
  have whole := account.whole
  intro executed
  have before := account.executed_before found isPending executed
  dsimp only at before
  omega

theorem empty
    (account : Account view fair base writes first operations deeds store) :
    Account view fair base writes writes.length [] deeds store :=
  { account with
    tasks := by simp
    whole := rfl
    ordered := by simp
    proper := by simp
    past := by simp }

end Account

/-- A standing is told by the deeds before it and its own notes. -/
def Told (view : σ → MemoryStore) (fair : σ → Prop) (base : Bundles)
    (writes : List Write) (first : Nat) (before : List Deed)
    (standing : Standing σ) : Prop :=
  Account view fair base writes first standing.1
    (before ++ standing.2.notes.filterMap (Note.deed? first))
    standing.2.store

namespace Told

variable {service : Service σ} {view : σ → MemoryStore} {fair : σ → Prop}
variable {base : Bundles} {writes : List Write} {first : Nat}
variable {before : List Deed} {client : Handle}

theorem executeStep (relays : service.Relays view fair)
    {standing next : Standing σ}
    (told : Told view fair base writes first before standing)
    (step : ExecuteStep service client standing next) :
    Told view fair base writes first before next := by
  cases step with
  | provide mount operations world =>
      obtain ⟨isFair, notes, same⟩ :=
        ensureMount_keeps_bundles relays client mount world told.fair
      unfold Told
      rw [notes]
      exact Account.elsewhere told isFair same
  | @execute earlier later operation world done settled pending attempt =>
      have account : Account view fair base writes first
        (earlier ++ operation :: later) _ world.store := told
      have found : (earlier ++ operation :: later)[earlier.length]? =
          some operation := by
        simp
      obtain ⟨write, number, isWrite⟩ := account.isWrite found
      obtain ⟨outcome, reached, _, run, attempted⟩ :=
        Operation.run_write relays isWrite pending client earlier.length world
          account.fair
      rw [run] at attempt
      subst attempt
      rcases attempted.effect with ⟨rfl, changed⟩ | ⟨error, rfl, same⟩
      · have settledBefore (position : Nat) (other : Operation)
            (precedes : position < earlier.length)
            (queued : (earlier ++ operation :: later)[position]? =
              some other) : other.executed := by
          rw [List.getElem?_append_left precedes] at queued
          exact settled other (List.mem_of_getElem? queued)
        have advanced := account.execute found pending settledBefore number
          attempted.fair changed
        rw [set_length_append, List.append_assoc] at advanced
        simpa [Told, Outcome.isValue] using advanced
      · have stays := account.elsewhere attempted.fair same
        have kept : { operation with executed := false } = operation := by
          rw [← pending]
        simpa [Told, List.filterMap_cons, Outcome.isValue, kept] using stays

theorem undoStep (relays : service.Relays view fair)
    {standing next : Standing σ}
    (told : Told view fair base writes first before standing)
    (step : UndoStep service client standing next) :
    Told view fair base writes first before next := by
  cases step with
  | warn operations world warning =>
      simpa [Told, List.filterMap_cons] using told
  | @undo earlier later operation world done needed attempt =>
      have account : Account view fair base writes first
        (earlier ++ operation :: later) _ world.store := told
      have found : (earlier ++ operation :: later)[earlier.length]? =
          some operation := by
        simp
      obtain ⟨write, number, isWrite⟩ := account.isWrite found
      obtain ⟨outcome, reached, run, attempted⟩ := Operation.undo_write relays
        isWrite needed client earlier.length world account.fair
      rw [run] at attempt
      subst attempt
      obtain ⟨executed, kept⟩ : operation.executed ∧
          operation.undone = false := by
        simpa [Operation.needsUndo_write isWrite] using needed
      rcases attempted.effect with ⟨rfl, changed⟩ | ⟨error, rfl, same⟩
      · have advanced := account.undo found executed kept number
          attempted.fair changed
        rw [set_length_append, List.append_assoc] at advanced
        simpa [Told, Outcome.isValue] using advanced
      · have stays := account.elsewhere attempted.fair same
        have kept : { operation with undone := false } = operation := by
          rw [← kept]
        simpa [Told, List.filterMap_cons, Outcome.isValue, kept] using stays

theorem executeSteps (relays : service.Relays view fair)
    {standing last : Standing σ}
    (told : Told view fair base writes first before standing)
    (steps : ReflTransGen (ExecuteStep service client) standing last) :
    Told view fair base writes first before last := by
  induction steps with
  | refl => exact told
  | tail _ step ih => exact executeStep relays ih step

theorem undoSteps (relays : service.Relays view fair)
    {standing last : Standing σ}
    (told : Told view fair base writes first before standing)
    (steps : ReflTransGen (UndoStep service client) standing last) :
    Told view fair base writes first before last := by
  induction steps with
  | refl => exact told
  | tail _ step ih => exact undoStep relays ih step

theorem flush (relays : service.Relays view fair) (session : Session)
    (world : World σ)
    (told : Told view fair base writes first before
      (session.operations, world)) :
    let done := session.flush.run service world
    Told view fair base writes first before
      (done.1.2.operations, done.2) := by
  exact executeSteps relays told (flush_steps service session world)

theorem rollback (relays : service.Relays view fair) (session : Session)
    (world : World σ)
    (told : Told view fair base writes first before
      (session.operations, world)) :
    let done := session.rollback.run service world
    Told view fair base writes first before
      (done.1.2.operations, done.2) := by
  exact undoSteps relays told (rollback_steps service session world)

end Told

end KeyCustody
