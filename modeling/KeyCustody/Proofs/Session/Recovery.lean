import KeyCustody.Proofs.Session.Reversal
import KeyCustody.Proofs.Session.Steps
import KeyCustody.Proofs.Store.Faults

/-!
# Operations that recover

An operation recovers if its execution succeeds sooner or later: a write does
unless its key is refused, and a scripted action does if its script ends with
success.  When a flush of such operations fails over a store in memory, it has
used up a planned fault or an act of a script.  Both are finite in number.
-/

namespace KeyCustody

open Operation

variable {σ : Type}

theorem length_nextAct_le (script : List Act) :
    (nextAct script).2.length ≤ script.length := by
  rcases script with _ | ⟨first, _ | ⟨second, later⟩⟩ <;> simp [nextAct]

/-- A script that ends with success goes on to it from any act that may
fail. -/
theorem nextAct_cases {script : List Act}
    (ends : ∀ last ∈ script.getLast?, last = .succeed) :
    (∀ last ∈ (nextAct script).2.getLast?, last = .succeed) ∧
      ((nextAct script).1 = .succeed ∨
        (nextAct script).2.length < script.length) := by
  rcases script with _ | ⟨first, _ | ⟨second, later⟩⟩
  · simp [nextAct]
  · have succeeds : first = .succeed := ends first rfl
    simp [nextAct, succeeds]
  · rw [List.getLast?_cons_cons] at ends
    exact ⟨ends, Or.inr (Nat.lt_succ_self _)⟩

namespace Action

/-- How many acts an action has left for its execution. -/
def actsLeft : Action → Nat
  | .write _ _ _ => 0
  | .scripted _ execute _ => execute.length

/-- The execution of an action succeeds sooner or later: it writes a key that is
not refused, or its script ends with success. -/
def Recovers (refused : List String) : Action → Prop
  | .write _ key _ => key ∉ refused
  | .scripted _ execute _ => ∀ last ∈ execute.getLast?, last = .succeed

theorem invoke_execute (service : Service σ) (client : Handle)
    (mount : String) {refused : List String} {action : Action}
    (recovers : action.Recovers refused) (world : World σ) :
    let done := (action.invoke client mount .execute).run service world
    done.1.2.Recovers refused ∧ done.1.2.actsLeft ≤ action.actsLeft ∧
      ((∃ label, action.label? = some label) → done.1.1 = .value () ∨
        done.1.2.actsLeft < action.actsLeft) := by
  cases action with
  | write path key value =>
      simpa [invoke, actsLeft, label?] using recovers
  | scripted label execute rollback =>
      have left : ((invoke client mount .execute
          (.scripted label execute rollback)).run service world).1.2 =
            .scripted label (nextAct execute).2 rollback := by
        simp [invoke]
      dsimp only
      rw [left]
      obtain ⟨ends, succeeds | shorter⟩ := nextAct_cases recovers
      · refine ⟨ends, length_nextAct_le execute, fun _ => Or.inl ?_⟩
        simp [invoke, succeeds, Act.perform]
      · exact ⟨ends, length_nextAct_le execute, fun _ => Or.inr shorter⟩

end Action

namespace Operation

/-- How many acts the operations of a queue have left for their execution. -/
def actsLeft : List Operation → Nat
  | [] => 0
  | operation :: later =>
      (if operation.executed then 0 else operation.action.actsLeft) +
        actsLeft later

theorem actsLeft_append (earlier later : List Operation) :
    actsLeft (earlier ++ later) = actsLeft earlier + actsLeft later := by
  induction earlier with
  | nil => exact (Nat.zero_add _).symm
  | cons operation others ih =>
      rw [List.cons_append, actsLeft, actsLeft, ih, Nat.add_assoc]

theorem recovers_executeStep {service : Service σ} {client : Handle}
    {refused : List String} {standing next : Standing σ}
    (step : ExecuteStep service client standing next)
    (recovers : ∀ operation ∈ standing.1, operation.action.Recovers refused) :
    (∀ operation ∈ next.1, operation.action.Recovers refused) ∧
      actsLeft next.1 ≤ actsLeft standing.1 := by
  cases step with
  | provide mount operations world => exact ⟨recovers, Nat.le_refl _⟩
  | @execute earlier later operation world done settled pending attempt =>
      obtain ⟨stillRecovers, fewer, _⟩ := Action.invoke_execute service client
        operation.mount (recovers operation (by simp)) world
      have run := run_pending pending service client earlier.length world
      rw [run_invoke] at run
      rw [run] at attempt
      subst attempt
      constructor
      · intro other member
        rcases List.mem_append.1 member with early | late
        · exact recovers other (List.mem_append_left _ early)
        · rcases List.mem_cons.1 late with rfl | late
          · exact stillRecovers
          · exact recovers other (by simp [late])
      · simp only [actsLeft_append, actsLeft, pending, Bool.false_eq_true,
          if_false]
        split <;> omega

/-- With its engine mounted in a store in memory, executing an operation that
recovers succeeds or uses up an act. -/
theorem run_recovers {operation : Operation} {world : World MemoryStore}
    (recovers : operation.action.Recovers world.store.refusedKeys)
    (mounted : world.store.listed.contains (listedName operation.mount))
    (client : Handle) (index : Nat) :
    let done := (operation.run client index).run MemoryStore.service world
    done.1.1 = .value () ∨
      actsLeft [done.1.2] < actsLeft [operation] := by
  by_cases executed : operation.executed
  · rw [run_executed executed]
    exact Or.inl rfl
  · have pending : operation.executed = false := by simpa using executed
    rw [run_pending pending, run_invoke]
    obtain ⟨mount, action, _, _⟩ := operation
    cases action with
    | write path key value =>
        have succeeds := MemoryStore.run_setEntry_admitted recovers mounted
          client path value
        left
        simp [Action.invoke, succeeds]
    | scripted label execute rollback =>
        obtain ⟨_, _, progress⟩ := Action.invoke_execute MemoryStore.service
          client mount recovers world
        refine (progress ⟨label, rfl⟩).imp_right fun fewer => ?_
        obtain rfl : _ = false := pending
        simp only [actsLeft]
        split <;> simp at fewer ⊢ <;> omega

/-- Over a store in memory with the engines mounted, executing a queue that
recovers succeeds or uses up an act. -/
theorem runAll_recovers {queue : List Operation} {world : World MemoryStore}
    (recovers : ∀ operation ∈ queue,
      operation.action.Recovers world.store.refusedKeys)
    (mounted : ∀ operation ∈ queue,
      world.store.listed.contains (listedName operation.mount))
    (client : Handle) (index : Nat) :
    let done := (runAll client index queue).run MemoryStore.service world
    done.1.1 = .value () ∨ actsLeft done.1.2 < actsLeft queue := by
  induction queue generalizing index world with
  | nil => exact Or.inl rfl
  | cons operation later ih =>
      have first := run_recovers (recovers operation List.mem_cons_self)
        (mounted operation List.mem_cons_self) client index
      have marked := executed_run MemoryStore.service client index operation
        world
      have continues := MemoryStore.run_continues (operation.run client index)
        world
      rw [run_runAll_cons]
      dsimp only at first marked ⊢
      generalize (operation.run client index).run MemoryStore.service world =
        done at first marked continues ⊢
      obtain ⟨⟨outcome, left⟩, reached⟩ := done
      dsimp only at first marked continues ⊢
      have rest := @ih reached
        (fun other member => by
          rw [continues.refusedKeys]
          exact recovers other (List.mem_cons_of_mem _ member))
        (fun other member => continues.listed _
          (mounted other (List.mem_cons_of_mem _ member)))
        (index + 1)
      cases outcome with
      | value result =>
          refine rest.imp_right fun fewer => ?_
          have executed : left.executed := marked
          rw [actsLeft, if_pos executed, Nat.zero_add]
          exact Nat.lt_of_lt_of_le fewer (Nat.le_add_left _ _)
      | fault error =>
          right
          have fewer := first.resolve_left (by simp)
          simpa [actsLeft] using fewer
      | crash message =>
          right
          have fewer := first.resolve_left (by simp)
          simpa [actsLeft] using fewer

end Operation

namespace Session

open MemoryStore

theorem run_flush_recovers {session : Session} {world : World MemoryStore}
    (recovers : ∀ operation ∈ session.operations,
      operation.action.Recovers world.store.refusedKeys) :
    let done := session.flush.run service world
    done.1.1 = .value () ∨
      actsLeft done.1.2.operations < actsLeft session.operations := by
  obtain ⟨provided, _, _, mounted⟩ :=
    run_ensureMounts_mounts session.client session.mounts world
  have continues := run_continues
    (ensureMounts session.client session.mounts) world
  rw [run_flush]
  dsimp only
  rw [provided]
  refine runAll_recovers ?_ ?_ session.client 0
  · rw [continues.refusedKeys]
    exact recovers
  · intro operation queued
    exact mounted operation.mount
      (List.mem_eraseDups.2 (List.mem_map_of_mem queued))

/-- Behind a plan of faults, flushing succeeds or uses up a fault or an act, and
what recovers still does. -/
theorem run_guarded_flush_recovers {session : Session}
    {world : World (Guarded MemoryStore)} {refused : List String}
    (refuses : world.store.inner.refusedKeys = refused)
    (recovers : ∀ operation ∈ session.operations,
      operation.action.Recovers refused) :
    let done := session.flush.run service.guarded world
    (done.1.1 = .value () ∨
      done.2.store.plan.size + actsLeft done.1.2.operations <
        world.store.plan.size + actsLeft session.operations) ∧
    done.2.store.inner.refusedKeys = refused ∧
    ∀ operation ∈ done.1.2.operations,
      operation.action.Recovers refused := by
  obtain ⟨stillRecovers, acts⟩ := flush_keeps service.guarded
    (fun standing =>
      (∀ operation ∈ standing.1, operation.action.Recovers refused) ∧
        actsLeft standing.1 ≤ actsLeft session.operations) session world
    (by
      rintro standing next step ⟨held, bound⟩
      obtain ⟨kept, fewer⟩ := recovers_executeStep step held
      exact ⟨kept, Nat.le_trans fewer bound⟩)
    ⟨recovers, Nat.le_refl _⟩
  have continues := guarded_continues session.flush world
  refine ⟨?_, continues.refusedKeys.trans refuses, stillRecovers⟩
  rcases run_guarded_cases service session.flush world with spent | same
  · exact Or.inr (Nat.add_lt_add_of_lt_of_le spent acts)
  · rw [← refuses] at recovers
    rw [same]
    exact (run_flush_recovers recovers).imp_right
      (Nat.add_lt_add_left · _)

end Session

end KeyCustody
