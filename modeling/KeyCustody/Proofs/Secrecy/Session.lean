import KeyCustody.KeyRing
import KeyCustody.Proofs.Secrecy.Store
import KeyCustody.Proofs.Session.Runs
import KeyCustody.Session.Scope
import Mathlib.Data.List.Forall2

/-!
# Sessions that differ in secrets

Two sessions are alike if the values that they are to write to secret entries
are all they differ in.  Whatever is done with them over stores that are alike
goes in lockstep: it has the same outcome, takes the same notes and leaves
sessions and stores that are alike.  The bundles that are read on the way may
differ in secret values, but only their keys decide how the work goes on.
-/

namespace KeyCustody

open List (Forall₂)

variable {secret : Location → String → Prop} {α β γ δ : Type}

/-- Dialogues that go in lockstep over stores that are alike. -/
def Dialogue.Alike (secret : Location → String → Prop)
    (results : α → β → Prop) (one : Dialogue α) (other : Dialogue β) : Prop :=
  Lockstep (World.Alike secret) results
    (one.run MemoryStore.service.guarded)
    (other.run MemoryStore.service.guarded)

theorem map_eq_of_forall₂ {related : α → β → Prop} {first : List α}
    {second : List β} (alike : Forall₂ related first second) {f : α → γ}
    {g : β → γ} (same : ∀ one other, related one other → f one = g other) :
    first.map f = second.map g := by
  have both : Forall₂ Eq (first.map f) (second.map g) :=
    List.rel_map (fun one other here => same one other here) alike
  rwa [List.forall₂_eq_eq_eq] at both

/-- Pairs of related results and related things that are left. -/
def Beside (results : α → β → Prop) (left : γ → δ → Prop)
    (first : α × γ) (second : β × δ) : Prop :=
  results first.1 second.1 ∧ left first.2 second.2

namespace Dialogue

theorem alike_result {results : α → β → Prop} {first : α} {second : β}
    (related : results first second) :
    Alike secret results (.result first) (.result second) :=
  fun _ _ worlds => ⟨related, worlds⟩

theorem Alike.bind {middle : α → β → Prop} {results : γ → δ → Prop}
    {one : Dialogue α} {other : Dialogue β} {next : α → Dialogue γ}
    {following : β → Dialogue δ} (alike : Alike secret middle one other)
    (rest : ∀ first second, middle first second →
      Alike secret results (next first) (following second)) :
    Alike secret results (one.bind next) (other.bind following) := by
  intro first second worlds
  rw [run_bind, run_bind]
  exact Lockstep.andThen alike rest first second worlds

theorem alike_connected : Alike secret Eq connected connected := by
  intro first second worlds
  obtain ⟨replies, stores⟩ := worlds.store.connect
  exact ⟨replies, stores, worlds.notes⟩

theorem alike_noted (entry : Note) :
    Alike secret (fun _ _ => True) (noted entry) (noted entry) := by
  intro first second worlds
  exact ⟨trivial, worlds.store, congrArg (· ++ [entry]) worlds.notes⟩

theorem alike_call (client : Handle) {one other : Call}
    (calls : Call.Alike secret one other) :
    Alike secret (Outcome.Paired (Call.RepliesAlike secret one other))
      (call client one) (call client other) := by
  intro first second worlds
  obtain ⟨replies, stores⟩ := worlds.store.answer calls client
  exact ⟨replies, stores, worlds.notes⟩

end Dialogue

open Dialogue

section Actions

theorem setEntry_alike (client : Handle) (mount path key : String)
    {one other : String}
    (same : one = other ∨ secret (Location.of mount path) key) :
    Dialogue.Alike secret Eq (setEntry client mount path key one)
      (setEntry client mount path key other) := by
  have data : Bundle.Alike secret (Location.of mount path)
      (Bundle.ofEntries [(key, .string one)])
      (Bundle.ofEntries [(key, .string other)]) :=
    Bundle.alike_ofEntries (same.imp_left (congrArg Json.string))
  refine (alike_call client (.patch mount path data)).bind ?_
  intro first second replies
  cases replies with
  | value _ => exact alike_result rfl
  | crash message => exact alike_result rfl
  | fault error =>
      cases error with
      | pathNotFound detail =>
          refine (alike_call client (.put mount path data)).bind ?_
          intro first second replies
          refine alike_result ?_
          cases replies <;> rfl
      | _ => exact alike_result rfl

theorem dropEntry_alike (client : Handle) (mount path key : String) :
    Dialogue.Alike secret Eq (dropEntry client mount path key)
      (dropEntry client mount path key) := by
  refine (alike_call client (.same (.read mount path))).bind ?_
  intro first second replies
  cases replies with
  | crash message => exact alike_result rfl
  | fault error => cases error <;> exact alike_result rfl
  | @value one other bundles =>
      have kept : Bundle.Alike secret (Location.of mount path) one other :=
        bundles
      dsimp only
      rw [kept.contains_eq key]
      split
      · refine (alike_call client (.put mount path (kept.erase key))).bind ?_
        intro first second replies
        refine alike_result ?_
        cases replies <;> rfl
      · exact alike_result rfl

theorem perform_alike (client : Handle) (act : Act) :
    Dialogue.Alike secret Eq (act.perform client) (act.perform client) := by
  cases act with
  | ask call =>
      refine (alike_call client (.same call)).bind ?_
      intro first second replies
      refine alike_result ?_
      cases replies <;> rfl
  | _ => exact alike_result rfl

/-- Actions that differ only in the value they write to a secret entry. -/
inductive Action.Alike (secret : Location → String → Prop) (mount : String) :
    Action → Action → Prop
  | same (action : Action) : Alike secret mount action action
  | write (path key one other : String)
      (hidden : secret (Location.of mount path) key) :
      Alike secret mount (.write path key one) (.write path key other)

namespace Action.Alike

variable {mount : String} {one other : Action}

theorem label?_eq (alike : Action.Alike secret mount one other) :
    one.label? = other.label? := by
  cases alike <;> rfl

theorem canUndo_eq (alike : Action.Alike secret mount one other) :
    one.canUndo = other.canUndo := by
  cases alike <;> rfl

theorem write_eq_or (path key : String) {one other : String}
    (same : one = other ∨ secret (Location.of mount path) key) :
    Action.Alike secret mount (.write path key one)
      (.write path key other) := by
  rcases same with rfl | hidden
  · exact .same _
  · exact .write path key one other hidden

theorem invoke (alike : Action.Alike secret mount one other)
    (client : Handle) (phase : Phase) :
    Dialogue.Alike secret (Beside Eq (Action.Alike secret mount))
      (one.invoke client mount phase) (other.invoke client mount phase) := by
  have write (path key : String) {first second : String}
      (same : first = second ∨ secret (Location.of mount path) key) :
      Dialogue.Alike secret (Beside Eq (Action.Alike secret mount))
        (Action.invoke client mount phase (.write path key first))
        (Action.invoke client mount phase (.write path key second)) := by
    cases phase with
    | execute =>
        exact (setEntry_alike client mount path key same).bind
          fun _ _ outcomes => alike_result ⟨outcomes, write_eq_or _ _ same⟩
    | rollback =>
        exact (dropEntry_alike client mount path key).bind
          fun _ _ outcomes => alike_result ⟨outcomes, write_eq_or _ _ same⟩
  cases alike with
  | write path key first second hidden => exact write path key (Or.inr hidden)
  | same =>
      cases one with
      | write path key value => exact write path key (Or.inl rfl)
      | scripted label execute rollback =>
          cases phase with
          | execute =>
              exact (perform_alike client _).bind
                fun _ _ outcomes => alike_result ⟨outcomes, .same _⟩
          | rollback =>
              exact (perform_alike client _).bind
                fun _ _ outcomes => alike_result ⟨outcomes, .same _⟩

end Action.Alike

end Actions

/-- Operations of which the same has become and that differ only in the value
they write to a secret entry. -/
structure Operation.Alike (secret : Location → String → Prop)
    (one other : Operation) : Prop where
  mount : one.mount = other.mount
  action : Action.Alike secret one.mount one.action other.action
  executed : one.executed = other.executed
  undone : one.undone = other.undone

namespace Operation

variable {one other : Operation} {queue same : List Operation}

namespace Alike

theorem needsUndo_eq (alike : Alike secret one other) :
    one.needsUndo = other.needsUndo := by
  unfold needsUndo
  rw [alike.executed, alike.undone, alike.action.canUndo_eq]

theorem invoke (alike : Alike secret one other) (client : Handle)
    (index : Nat) (phase : Phase) :
    Dialogue.Alike secret (Beside Eq (Alike secret))
      (one.invoke client index phase) (other.invoke client index phase) := by
  have actions := alike.action.invoke client phase
  rw [alike.mount] at actions
  unfold Operation.invoke
  rw [alike.mount]
  refine actions.bind ?_
  rintro ⟨outcome, action⟩ ⟨_, same⟩ ⟨rfl, left⟩
  dsimp only
  rw [left.label?_eq]
  refine (alike_noted _).bind fun _ _ _ => ?_
  exact alike_result ⟨rfl, rfl, left, alike.executed, alike.undone⟩

theorem run (alike : Alike secret one other) (client : Handle) (index : Nat) :
    Dialogue.Alike secret (Beside Eq (Alike secret))
      (one.run client index) (other.run client index) := by
  unfold Operation.run
  rw [alike.executed]
  split
  · exact alike_result ⟨rfl, alike⟩
  · refine (alike.invoke client index .execute).bind ?_
    rintro ⟨outcome, left⟩ ⟨_, same⟩ ⟨rfl, kept⟩
    exact alike_result ⟨rfl, kept.mount, kept.action, rfl, kept.undone⟩

theorem undo (alike : Alike secret one other) (client : Handle)
    (index : Nat) :
    Dialogue.Alike secret (Beside Eq (Alike secret))
      (one.undo client index) (other.undo client index) := by
  unfold Operation.undo
  rw [alike.needsUndo_eq]
  split
  · refine (alike.invoke client index .rollback).bind ?_
    rintro ⟨outcome, left⟩ ⟨_, same⟩ ⟨rfl, kept⟩
    exact alike_result ⟨rfl, kept.mount, kept.action, kept.executed, rfl⟩
  · exact alike_result ⟨rfl, alike⟩

end Alike

/-- Queues of operations that are alike one by one. -/
abbrev QueuesAlike (secret : Location → String → Prop) :
    List Operation → List Operation → Prop :=
  Forall₂ (Alike secret)

theorem QueuesAlike.runAll (alike : QueuesAlike secret queue same)
    (client : Handle) (index : Nat) :
    Dialogue.Alike secret (Beside Eq (QueuesAlike secret))
      (runAll client index queue) (runAll client index same) := by
  induction alike generalizing index with
  | nil => exact alike_result ⟨rfl, .nil⟩
  | cons here later ih =>
      refine (here.run client index).bind ?_
      rintro ⟨outcome, left⟩ ⟨_, leftToo⟩ ⟨rfl, kept⟩
      cases outcome with
      | value result =>
          refine (ih (index + 1)).bind ?_
          rintro ⟨outcome, rest⟩ ⟨_, restToo⟩ ⟨rfl, others⟩
          exact alike_result ⟨rfl, .cons kept others⟩
      | fault error => exact alike_result ⟨rfl, .cons kept later⟩
      | crash message => exact alike_result ⟨rfl, .cons kept later⟩

theorem Alike.undoBefore (alike : Alike secret one other)
    (later : QueuesAlike secret queue same) (client : Handle) (index : Nat) :
    Dialogue.Alike secret (Beside Eq (QueuesAlike secret))
      ((one.undo client index).bind (noteUndone index queue))
      ((other.undo client index).bind (noteUndone index same)) := by
  refine (alike.undo client index).bind ?_
  rintro ⟨outcome, left⟩ ⟨_, leftToo⟩ ⟨rfl, kept⟩
  cases outcome with
  | value result => exact alike_result ⟨rfl, .cons kept later⟩
  | crash message => exact alike_result ⟨rfl, .cons kept later⟩
  | fault error =>
      simp only [noteUndone, show left.mount = leftToo.mount from kept.mount]
      exact (alike_noted _).bind
        fun _ _ _ => alike_result ⟨rfl, .cons kept later⟩

theorem QueuesAlike.undoAll (alike : QueuesAlike secret queue same)
    (client : Handle) (index : Nat) :
    Dialogue.Alike secret (Beside Eq (QueuesAlike secret))
      (undoAll client index queue) (undoAll client index same) := by
  induction alike generalizing index with
  | nil => exact alike_result ⟨rfl, .nil⟩
  | cons here later ih =>
      refine (ih (index + 1)).bind ?_
      rintro ⟨outcome, rest⟩ ⟨_, restToo⟩ ⟨rfl, others⟩
      cases outcome with
      | value result => exact here.undoBefore others client index
      | fault error => exact here.undoBefore others client index
      | crash message => exact alike_result ⟨rfl, .cons here others⟩

end Operation

theorem ensureMount_alike (client : Handle) (mount : String) :
    Dialogue.Alike secret Eq (ensureMount client mount)
      (ensureMount client mount) := by
  refine (alike_call client (.same .mounts)).bind ?_
  intro first second replies
  cases replies with
  | fault error => exact alike_result rfl
  | crash message => exact alike_result rfl
  | @value listed _ same =>
      obtain rfl : listed = _ := same
      dsimp only [Outcome.inBackground]
      split
      · exact alike_result rfl
      · refine (alike_call client (.same (.enable mount _))).bind ?_
        intro first second replies
        refine alike_result ?_
        cases replies <;> rfl

theorem ensureMounts_alike (client : Handle) (mounts : List String) :
    Dialogue.Alike secret Eq (ensureMounts client mounts)
      (ensureMounts client mounts) := by
  induction mounts with
  | nil => exact alike_result rfl
  | cons mount others ih =>
      refine (ensureMount_alike client mount).bind ?_
      rintro outcome _ rfl
      cases outcome with
      | value result => exact ih
      | fault error => exact alike_result rfl
      | crash message => exact alike_result rfl

/-- Sessions that differ only in the values they are to write to secret
entries. -/
structure Session.Alike (secret : Location → String → Prop)
    (one other : Session) : Prop where
  id : one.id = other.id
  client : one.client = other.client
  committed : one.committed = other.committed
  operations : Operation.QueuesAlike secret one.operations other.operations

namespace Session

variable {one other : Session}

theorem alike_fresh (id : Nat) (client : Handle) :
    Alike secret { id, client } { id, client } :=
  ⟨rfl, rfl, rfl, .nil⟩

namespace Alike

theorem cleared (alike : Alike secret one other) :
    Alike secret one.cleared other.cleared :=
  ⟨alike.id, alike.client, rfl, .nil⟩

theorem add (alike : Alike secret one other) (mount : String)
    {action same : Action} (actions : Action.Alike secret mount action same) :
    Alike secret (one.add mount action) (other.add mount same) where
  id := alike.id
  client := alike.client
  committed := rfl
  operations := List.rel_append alike.operations
    (.cons ⟨rfl, actions, rfl, rfl⟩ .nil)

theorem mounts_eq (alike : Alike secret one other) :
    one.mounts = other.mounts := by
  have names : one.operations.map Operation.mount =
      other.operations.map Operation.mount :=
    map_eq_of_forall₂ alike.operations fun _ _ here => here.mount
  rw [mounts, mounts, names]

theorem flush (alike : Alike secret one other) :
    Dialogue.Alike secret (Beside Eq (Alike secret)) one.flush other.flush := by
  unfold Session.flush
  rw [alike.client, alike.mounts_eq]
  refine (ensureMounts_alike other.client other.mounts).bind ?_
  rintro outcome _ rfl
  cases outcome with
  | fault error => exact alike_result ⟨rfl, alike⟩
  | crash message => exact alike_result ⟨rfl, alike⟩
  | value result =>
      refine (alike.operations.runAll other.client 0).bind ?_
      rintro ⟨outcome, left⟩ ⟨_, leftToo⟩ ⟨rfl, queues⟩
      exact alike_result ⟨rfl, alike.id, rfl, alike.committed, queues⟩

theorem rollback (alike : Alike secret one other) :
    Dialogue.Alike secret (Beside Eq (Alike secret)) one.rollback
      other.rollback := by
  unfold Session.rollback
  rw [alike.client]
  refine (alike.operations.undoAll other.client 0).bind ?_
  rintro ⟨outcome, left⟩ ⟨_, leftToo⟩ ⟨rfl, queues⟩
  exact alike_result ⟨rfl, alike.id, rfl, alike.committed, queues⟩

theorem commit (alike : Alike secret one other) :
    Dialogue.Alike secret (Beside Eq (Alike secret)) one.commit
      other.commit := by
  refine alike.flush.bind ?_
  rintro ⟨outcome, left⟩ ⟨_, leftToo⟩ ⟨rfl, sessions⟩
  cases outcome with
  | value result =>
      exact alike_result ⟨rfl, sessions.id, sessions.client, rfl, .nil⟩
  | crash message => exact alike_result ⟨rfl, sessions⟩
  | fault error =>
      refine sessions.rollback.bind ?_
      rintro ⟨outcome, left⟩ ⟨_, leftToo⟩ ⟨rfl, sessions⟩
      cases outcome <;> exact alike_result ⟨rfl, sessions⟩

theorem close (alike : Alike secret one other) :
    Dialogue.Alike secret (Beside Eq (Alike secret)) one.close
      other.close := by
  unfold Session.close
  rw [alike.committed]
  split
  · exact alike_result ⟨rfl, alike.cleared⟩
  · refine alike.rollback.bind ?_
    rintro ⟨outcome, left⟩ ⟨_, leftToo⟩ ⟨rfl, sessions⟩
    cases outcome with
    | crash message => exact alike_result ⟨rfl, sessions⟩
    | value result => exact alike_result ⟨rfl, sessions.cleared⟩
    | fault error => exact alike_result ⟨rfl, sessions.cleared⟩

theorem release (alike : Alike secret one other) :
    Dialogue.Alike secret Eq one.release other.release := by
  unfold Session.release
  rw [alike.client]
  refine (alike_call other.client (.same .close)).bind ?_
  intro first second replies
  cases replies with
  | crash message =>
      exact (alike_noted _).bind fun _ _ _ => alike_result rfl
  | value _ => exact alike_result rfl
  | fault error => exact alike_result rfl

theorem disconnect (alike : Alike secret one other) :
    Dialogue.Alike secret Eq one.disconnect other.disconnect := by
  refine alike.close.bind ?_
  rintro ⟨outcome, left⟩ ⟨_, leftToo⟩ ⟨rfl, sessions⟩
  cases outcome with
  | crash message => exact alike_result rfl
  | value result => exact sessions.release
  | fault error => exact sessions.release

theorem leave {values : α → β → Prop} {outcome : Outcome α}
    {same : Outcome β} (outcomes : Outcome.Paired values outcome same)
    (alike : Alike secret one other) :
    Dialogue.Alike secret Eq (Session.leave outcome one)
      (Session.leave same other) := by
  unfold Session.leave
  rw [outcomes.isValue_eq]
  split
  · exact alike.disconnect
  · refine alike.rollback.bind ?_
    rintro ⟨outcome, left⟩ ⟨_, leftToo⟩ ⟨rfl, sessions⟩
    cases outcome with
    | crash message => exact alike_result rfl
    | value result => exact sessions.disconnect
    | fault error => exact sessions.disconnect

theorem ask (alike : Alike secret one other) (call : Call) :
    Dialogue.Alike secret
      (Outcome.Paired (Call.RepliesAlike secret call call))
      (one.ask call) (other.ask call) := by
  unfold Session.ask
  rw [alike.client]
  exact (alike_call other.client (.same call)).bind
    fun _ _ replies => alike_result replies.inBackground

theorem readBundle (alike : Alike secret one other) (path mount : String) :
    Dialogue.Alike secret
      (Outcome.Paired (Bundle.Alike secret (Location.of mount path)))
      (one.readBundle path mount) (other.readBundle path mount) :=
  alike.ask (.read mount path)

end Alike

theorem opened_alike (id : Nat) :
    Dialogue.Alike secret (Outcome.Paired (Alike secret)) (opened id)
      (opened id) := by
  refine alike_connected.bind ?_
  rintro reply _ rfl
  refine alike_result ?_
  exact (@Outcome.paired_of_eq _ Eq (fun _ => rfl) _).map
    fun client _ same => same ▸ alike_fresh id client

end Session

namespace KeyRing

variable {ring : KeyRing} {one other : Session}

theorem issue_alike (alike : Session.Alike secret one other) (user : Uuid)
    (fresh : IssuedKey) :
    Dialogue.Alike secret (Beside Eq (Session.Alike secret))
      (ring.issue one user fresh) (ring.issue other user fresh) := by
  refine (alike.add ring.mount (.same _)).commit.bind ?_
  rintro ⟨outcome, left⟩ ⟨_, leftToo⟩ ⟨rfl, sessions⟩
  exact alike_result ⟨rfl, sessions⟩

end KeyRing

/-- A resolved key without its text. -/
def ResolvedKey.blank (key : ResolvedKey) : ResolvedKey :=
  { key with key := key.key.map fun _ => "" }

theorem KeyRing.resolve_alike {ring : KeyRing} {one other : Session}
    (alike : Session.Alike secret one other) (user : Uuid)
    (ids : List String) :
    Dialogue.Alike secret
      (Outcome.Paired fun first second =>
        first.map ResolvedKey.blank = second.map ResolvedKey.blank)
      (ring.resolve one user ids) (ring.resolve other user ids) := by
  unfold resolve
  split
  · exact alike_result (.fault _)
  · refine (alike.readBundle user.toString ring.mount).bind ?_
    intro first second replies
    refine alike_result (replies.map fun bundle same bundles => ?_)
    rw [List.map_map, List.map_map]
    refine List.map_congr_left fun id _ => ?_
    rcases bundles.cases_at id with ⟨gone, goneToo⟩ | ⟨_, _, one, other, _⟩
    · simp [ResolvedKey.blank, gone, goneToo]
    · simp [ResolvedKey.blank, one, other]

end KeyCustody
