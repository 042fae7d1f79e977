import KeyCustody.Proofs.Session.Career

/-!
# Work on a session

The work inside a scope queues operations, calls methods of its session and
asks the store, in any order, and each time it may go by how the last step
ended.  At last it succeeds, fails or crashes.

Whatever work does, its session goes through a career that is reachable.
-/

namespace KeyCustody

variable {α σ : Type}

/-- A dialogue does not depend on the notes taken before it. -/
theorem Dialogue.run_noted_before (service : Service σ) (dialogue : Dialogue α)
    (world : World σ) :
    dialogue.run service world =
      let done := dialogue.run service { store := world.store }
      (done.1, { done.2 with notes := world.notes ++ done.2.notes }) := by
  suffices after : ∀ (store : σ) (before notes : List Note),
      dialogue.run service { store, notes := before ++ notes } =
        let done := dialogue.run service { store, notes }
        (done.1, { done.2 with notes := before ++ done.2.notes }) by
    have outset := after world.store world.notes []
    rw [List.append_nil] at outset
    exact outset
  induction dialogue with
  | result value => exact fun _ _ _ => rfl
  | connect next ih => exact fun _ _ _ => ih _ _ _ _
  | ask client call next ih => exact fun _ _ _ => ih _ _ _ _
  | note entry next ih =>
      intro store before notes
      have rest := ih store before (notes ++ [entry])
      rw [← List.append_assoc] at rest
      exact rest

/-- The methods of a session that act on its queue. -/
inductive Method
  | flush
  | commit
  | rollback
  | close
deriving DecidableEq, Repr

def Method.dialogue : Method → Session → Dialogue (Outcome Unit × Session)
  | .flush => Session.flush
  | .commit => Session.commit
  | .rollback => Session.rollback
  | .close => Session.close

/-- The career after a method is called.  Committing and closing conclude the
queue. -/
def Career.call (service : Service σ) (career : Career) (method : Method)
    (store : σ) : Career :=
  match method with
  | .flush | .rollback => career.use service method.dialogue store
  | .commit | .close => career.conclude service method.dialogue store

/-- Work on a session that ends with an outcome. -/
inductive Work (α : Type) : Type
  | ends (outcome : Outcome α)
  | add (mount : String) (action : Action) (next : Work α)
  | use (method : Method) (next : Outcome Unit → Work α)
  | ask (call : Call) (next : Outcome call.Reply → Work α)

namespace Work

/-- Does the work with a session. -/
def perform (service : Service σ) :
    Work α → Session → StateM (World σ) (Outcome α × Session)
  | .ends outcome, session, world => ((outcome, session), world)
  | .add mount action next, session, world =>
      next.perform service (session.add mount action) world
  | .use method next, session, world =>
      let done := (method.dialogue session).run service world
      (next done.1.1).perform service done.1.2 done.2
  | .ask call next, session, world =>
      let done := (session.ask call).run service world
      (next done.1).perform service session done.2

/-- The career of the session that the work is done with. -/
def career (service : Service σ) : Work α → Career → World σ → Career
  | .ends _, career, _ => career
  | .add mount action next, career, world =>
      next.career service (career.add mount action) world
  | .use method next, career, world =>
      let done := (method.dialogue career.session).run service world
      (next done.1.1).career service
        (career.call service method world.store) done.2
  | .ask call next, career, world =>
      let done := (career.session.ask call).run service world
      (next done.1).career service career done.2

end Work

namespace Career

variable {service : Service σ} {career : Career}

theorem session_call (service : Service σ) (career : Career) (method : Method)
    (world : World σ) :
    (career.call service method world.store).session =
      ((method.dialogue career.session).run service world).1.2 := by
  rw [Dialogue.run_noted_before]
  cases method <;> rfl

theorem Reachable.call (reachable : Reachable service career)
    (method : Method) (store : σ) :
    Reachable service (career.call service method store) := by
  cases method with
  | flush => exact reachable.flush store
  | commit => exact reachable.commit store
  | rollback => exact reachable.rollback store
  | close => exact reachable.close store

/-- The session of a reachable career is one that comes of a fresh session. -/
theorem Reachable.session (reachable : Reachable service career) :
    Session.Reachable service career.session := by
  induction reachable with
  | start id client => exact .fresh id client
  | add mount action _ ih => exact ih.add mount action
  | flush store _ ih => exact ih.flush { store }
  | rollback store _ ih => exact ih.rollback { store }
  | commit store _ ih => exact ih.commit { store }
  | close store _ ih => exact ih.close { store }

theorem session_work (service : Service σ) (work : Work α) (career : Career)
    (world : World σ) :
    (work.career service career world).session =
      (work.perform service career.session world).1.2 := by
  induction work generalizing career world with
  | ends outcome => rfl
  | add mount action next ih => exact ih (career.add mount action) world
  | use method next ih =>
      have rest := ih ((method.dialogue career.session).run service world).1.1
        (career.call service method world.store)
        ((method.dialogue career.session).run service world).2
      rw [session_call] at rest
      exact rest
  | ask call next ih => exact ih _ career _

/-- Whatever work does, the session goes through a reachable career. -/
theorem Reachable.work (reachable : Reachable service career)
    (work : Work α) (world : World σ) :
    Reachable service (work.career service career world) := by
  induction work generalizing career world with
  | ends outcome => exact reachable
  | add mount action next ih => exact ih (reachable.add mount action) world
  | use method next ih =>
      exact ih _ (reachable.call method world.store) _
  | ask call next ih => exact ih _ reachable _

end Career

end KeyCustody
