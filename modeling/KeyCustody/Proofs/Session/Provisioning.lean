import KeyCustody.Proofs.Dialogue.Trace
import KeyCustody.Proofs.Session.Runs

/-!
# Mounting what a queue needs

Before a queue is executed, the store is asked about each mount point in turn:
it lists the engines, and the engine at the mount point is mounted unless it is
listed.  Nothing else is asked, and each mount point has its turn once.
-/

namespace KeyCustody

variable {σ : Type} {service : Service σ} {client : Handle}

/-- The call that mounts the engine at a mount point. -/
def enabling (mount : String) : Call :=
  .enable mount ("KV engine for " ++ mount)

theorem requests_ensureMount {world : World σ} {listed : List String}
    (listing : (service.answer client .mounts world.store).1 = .value listed)
    (mount : String) :
    (ensureMount client mount).requests service world =
      (client, .mounts) ::
        if listedName mount ∈ listed then []
        else [(client, enabling mount)] := by
  have reply : (service.answer client .mounts world.store).1.inBackground =
      .value listed := by
    rw [listing]
    rfl
  rw [Dialogue.requests]
  simp only [ensureMount, Dialogue.bind_eq_bind, Dialogue.trace_bind,
    Dialogue.call, Dialogue.trace, Dialogue.run]
  rw [reply]
  dsimp only
  rw [List.contains_eq_mem]
  split
  next isListed => simp_all [Event.request?]
  next notListed => simp_all [Event.request?, enabling, Dialogue.trace]

/-- What is asked while mount points have their turns. -/
def Provides (client : Handle) (mounts : List String) (event : Event) : Prop :=
  event = .asked client .mounts ∨
    ∃ mount ∈ mounts, event = .asked client (enabling mount)

/-- Whatever the replies are, engines are only listed, and mounted at the given
mount points. -/
theorem assures_ensureMounts (client : Handle) (mounts : List String) :
    (ensureMounts client mounts).Assures (Provides client mounts)
      fun _ => True := by
  induction mounts with
  | nil => exact trivial
  | cons mount others ih =>
      have turn : (ensureMount client mount).Assures
          (Provides client (mount :: others)) fun _ => True := by
        refine ⟨Or.inl rfl, fun reply => ?_⟩
        dsimp only [Dialogue.call, Dialogue.bind]
        cases reply.inBackground with
        | value listed =>
            dsimp only
            split
            · exact trivial
            · exact ⟨Or.inr ⟨mount, List.mem_cons_self, rfl⟩,
                fun _ => trivial⟩
        | fault error => exact trivial
        | crash message => exact trivial
      refine turn.bind fun outcome _ => ?_
      cases outcome with
      | value result =>
          refine ih.mono (fun event provides => ?_) fun _ => id
          refine provides.imp id ?_
          rintro ⟨other, later, asked⟩
          exact ⟨other, List.mem_cons_of_mem _ later, asked⟩
      | fault error => exact trivial
      | crash message => exact trivial

theorem mem_requests_ensureMounts {mounts : List String} {world : World σ}
    {asker : Handle} {call : Call}
    (member : (asker, call) ∈
      (ensureMounts client mounts).requests service world) :
    asker = client ∧ (call = .mounts ∨
      ∃ mount ∈ mounts, call = enabling mount) := by
  obtain ⟨event, inside, asks⟩ := List.mem_filterMap.1 member
  rcases (assures_ensureMounts client mounts).mem_trace service world event
    inside with rfl | ⟨mount, needed, rfl⟩
  · cases asks
    exact ⟨rfl, Or.inl rfl⟩
  · cases asks
    exact ⟨rfl, Or.inr ⟨mount, needed, rfl⟩⟩

theorem ensureMounts_append (client : Handle) (before later : List String) :
    ensureMounts client (before ++ later) =
      (ensureMounts client before).bind fun outcome =>
        match outcome with
        | .value _ => ensureMounts client later
        | stopped => .result stopped := by
  induction before with
  | nil => rfl
  | cons mount others ih =>
      rw [List.cons_append, ensureMounts, ensureMounts, ih]
      simp only [Dialogue.bind_eq_bind, Dialogue.bind_assoc]
      refine congrArg _ (funext fun outcome => ?_)
      cases outcome <;> rfl

/-- An engine is mounted in the turn of its mount point or not at all, and it is
mounted exactly if it is not listed then. -/
theorem enables_iff {before later : List String} {mount : String}
    (once : (before ++ mount :: later).Nodup) {world reached : World σ}
    (comes : (ensureMounts client before).run service world =
      (.value (), reached)) {listed : List String}
    (listing : (service.answer client .mounts reached.store).1 =
      .value listed) :
    (∃ description, (client, .enable mount description) ∈
      (ensureMounts client (before ++ mount :: later)).requests service
        world) ↔
      listedName mount ∉ listed := by
  have parts := List.nodup_append.1 once
  have earlier : mount ∉ before := fun inside =>
    parts.2.2 mount inside mount List.mem_cons_self rfl
  have after : mount ∉ later := (List.nodup_cons.1 parts.2.1).1
  have elsewhere {mounts : List String} (absent : mount ∉ mounts)
      {world : World σ} {description : String} :
      (client, .enable mount description) ∉
        (ensureMounts client mounts).requests service world := by
    intro member
    rcases (mem_requests_ensureMounts member).2 with same |
      ⟨other, inside, same⟩
    · cases same
    · cases same
      exact absent inside
  -- The requests are those before the turn of the mount point, those in its
  -- turn, and those behind it if its turn ends well.
  rw [ensureMounts_append]
  simp only [Dialogue.requests_bind, comes, ensureMounts,
    Dialogue.bind_eq_bind, requests_ensureMount listing, List.mem_append,
    List.mem_cons]
  generalize (ensureMount client mount).run service reached = done
  obtain ⟨outcome, rest⟩ := done
  have behind (description : String) :
      (client, Call.enable mount description) ∉ Dialogue.requests service
        (match outcome with
          | .value _ => ensureMounts client later
          | stopped => pure stopped) rest := by
    cases outcome with
    | value result => exact elsewhere after
    | fault error => exact List.not_mem_nil
    | crash message => exact List.not_mem_nil
  constructor
  · rintro ⟨description, early | (listed | own) | late⟩
    · exact absurd early (elsewhere earlier)
    · cases listed
    · intro isListed
      rw [if_pos isListed] at own
      exact absurd own List.not_mem_nil
    · exact absurd late (behind description)
  · intro notListed
    refine ⟨"KV engine for " ++ mount, Or.inr (Or.inl (Or.inr ?_))⟩
    rw [if_neg notListed]
    exact List.mem_singleton_self _

theorem nodup_eraseDups (names : List String) : names.eraseDups.Nodup := by
  induction size : names.length using Nat.strongRecOn
    generalizing names with
  | ind size ih =>
      cases names with
      | nil => simp
      | cons name others =>
          rw [List.eraseDups_cons, List.nodup_cons]
          subst size
          refine ⟨by simp, ih _ ?_ _ rfl⟩
          rw [List.length_cons]
          exact Nat.lt_succ_of_le (List.length_filter_le _ _)

namespace Session

theorem mounts_nodup (session : Session) : session.mounts.Nodup :=
  nodup_eraseDups _

theorem requests_flush_prefix (session : Session) (world : World σ) :
    (ensureMounts session.client session.mounts).requests service world <+:
      session.flush.requests service world := by
  unfold flush
  simp only [Dialogue.bind_eq_bind, Dialogue.requests_bind]
  exact List.prefix_append _ _

end Session

end KeyCustody
