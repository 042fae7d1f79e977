import KeyCustody.Proofs.Secrecy.Session
import KeyCustody.Script.Play

/-!
# Stages that differ in secrets

A report on a step can be blanked: the values in bundles that were read, and
those that sessions are still to write, are left out of it.  Two stages are
alike if nothing but the values of secret entries tells them apart, and then
the verbs that steps are made of have the same blanked results on both.
-/

namespace KeyCustody

open List (Forall₂)

variable {secret : Location → String → Prop}

def Bundle.blank (bundle : Bundle) : Bundle :=
  bundle.map fun _ _ => .null

theorem Bundle.Alike.blank_eq {place : Location} {first second : Bundle}
    (alike : Alike secret place first second) : first.blank = second.blank :=
  Keywise.map_eq alike fun _ _ _ _ => rfl

theorem MemoryStore.Alike.found_eq {first second : MemoryStore}
    (alike : Alike secret first second) (mount path : String) :
    (first.get? mount path).map Bundle.blank =
      (second.get? mount path).map Bundle.blank := by
  unfold get?
  rcases alike.bundles.cases_at (Location.of mount path) with
    ⟨gone, goneToo⟩ | ⟨_, _, one, other, here⟩
  · rw [gone, goneToo]
  · rw [one, other]
    exact congrArg some here.blank_eq

def Action.blank : Action → Action
  | .write path key _ => .write path key ""
  | .scripted label execute rollback => .scripted label execute rollback

def Operation.blank (operation : Operation) : Operation :=
  { operation with action := operation.action.blank }

/-- A session without the values that it is to write. -/
def Session.blank (session : Session) : Session :=
  { session with operations := session.operations.map Operation.blank }

theorem Operation.Alike.blank_eq {one other : Operation}
    (alike : Alike secret one other) : one.blank = other.blank := by
  obtain ⟨mount, action, executed, undone⟩ := one
  obtain ⟨mountToo, actionToo, executedToo, undoneToo⟩ := other
  obtain ⟨rfl, actions, rfl, rfl⟩ := alike
  cases actions <;> rfl

theorem Session.Alike.blank_eq {one other : Session}
    (alike : Alike secret one other) : one.blank = other.blank := by
  have same : one.operations.map Operation.blank =
      other.operations.map Operation.blank :=
    map_eq_of_forall₂ alike.operations fun _ _ here => here.blank_eq
  unfold blank
  rw [alike.id, alike.client, alike.committed, same]

theorem Operation.Alike.describe_eq {one other : Operation}
    (alike : Alike secret one other) : one.describe = other.describe := by
  unfold describe
  rw [alike.mount, alike.action.canUndo_eq, alike.executed, alike.undone]

theorem Session.Alike.describe_eq {one other : Session}
    (alike : Alike secret one other) (number : Nat) :
    one.describe number = other.describe number := by
  have words : one.operations.map Operation.describe =
      other.operations.map Operation.describe :=
    map_eq_of_forall₂ alike.operations fun _ _ here => here.describe_eq
  unfold describe
  rw [words, alike.committed]

namespace Script

variable {κ : Type}

/-- What a step shows without the contents of bundles that were read. -/
def Shown.blank : Shown κ → Shown κ
  | .bundle contents => .bundle contents.blank
  | .found contents => .found (contents.map Bundle.blank)
  | .resolved keys => .resolved (keys.map ResolvedKey.blank)
  | other => other

def Verdict.blank : Verdict κ → Verdict κ
  | .done outcome => .done (outcome.map Shown.blank)
  | other => other

def Entry.blank (entry : Entry κ) : Entry κ :=
  { entry with
    verdict := entry.verdict.blank
    session := entry.session.map Session.blank }

def Report.blank (report : Report κ) : Report κ where
  toEntry := report.toEntry.blank
  inner := report.inner.map Entry.blank

/-- Named sessions that are alike one by one. -/
abbrev CastsAlike (secret : Location → String → Prop) :
    List (String × Session) → List (String × Session) → Prop :=
  Forall₂ (Beside Eq (Session.Alike secret))

/-- Stages that only the values of secret entries tell apart. -/
structure Stage.Alike (secret : Location → String → Prop)
    (first second : Stage (Guarded MemoryStore) Sighting) : Prop where
  world : World.Alike secret first.world second.world
  sessions : CastsAlike secret first.sessions second.sessions
  clients : first.clients = second.clients
  nextId : first.nextId = second.nextId
  firstShown : first.firstShown = second.firstShown
  issued : first.issued = second.issued
  reportedCalls : first.reportedCalls = second.reportedCalls
  reportedNotes : first.reportedNotes = second.reportedNotes
  inner : first.inner.map Entry.blank = second.inner.map Entry.blank

variable {α β γ δ : Type} {ring : KeyRing}

/-- Plays that go in lockstep on stages that are alike. -/
def PlaysAlike (secret : Location → String → Prop) (results : α → β → Prop)
    (one : Play (Guarded MemoryStore) Sighting α)
    (other : Play (Guarded MemoryStore) Sighting β) : Prop :=
  Lockstep (Stage.Alike secret) results one other

namespace PlaysAlike

theorem bind {middle : α → β → Prop} {results : γ → δ → Prop}
    {one : Play (Guarded MemoryStore) Sighting α}
    {other : Play (Guarded MemoryStore) Sighting β}
    {next : α → Play (Guarded MemoryStore) Sighting γ}
    {following : β → Play (Guarded MemoryStore) Sighting δ}
    (alike : PlaysAlike secret middle one other)
    (rest : ∀ first second, middle first second →
      PlaysAlike secret results (next first) (following second)) :
    PlaysAlike secret results (one >>= next) (other >>= following) :=
  Lockstep.andThen alike rest

theorem result {results : α → β → Prop} {first : α} {second : β}
    (related : results first second) :
    PlaysAlike secret results (pure first) (pure second) :=
  fun _ _ stages => ⟨related, stages⟩

theorem ofDialogue {results : α → β → Prop} {one : Dialogue α}
    {other : Dialogue β} (alike : one.Alike secret results other) :
    PlaysAlike secret results (carryOut (memorySite ring) one)
      (carryOut (memorySite ring) other) := by
  intro first second stages
  obtain ⟨result, worlds⟩ := alike _ _ stages.world
  exact ⟨result, { stages with world := worlds }⟩

theorem modify
    {change same : Stage (Guarded MemoryStore) Sighting →
      Stage (Guarded MemoryStore) Sighting}
    (keeps : ∀ first second, Stage.Alike secret first second →
      Stage.Alike secret (change first) (same second)) :
    PlaysAlike secret (fun _ _ => True) (modify change) (modify same) :=
  fun first second stages => ⟨trivial, keeps first second stages⟩

theorem get :
    PlaysAlike secret (Stage.Alike secret) MonadState.get MonadState.get :=
  fun _ _ stages => ⟨stages, stages⟩

end PlaysAlike

namespace CastsAlike

variable {cast same : List (String × Session)} {one other : Session}

theorem dismiss (alike : CastsAlike secret cast same) (name : String) :
    CastsAlike secret (Script.dismiss name cast)
      (Script.dismiss name same) := by
  induction alike with
  | nil => exact .nil
  | @cons first second _ _ here _ ih =>
      obtain ⟨key, session⟩ := first
      obtain ⟨_, sessionToo⟩ := second
      obtain ⟨rfl, sessions⟩ := here
      have both : Beside Eq (Session.Alike secret) (key, session)
          (key, sessionToo) :=
        ⟨rfl, sessions⟩
      by_cases named : key = name
      · simpa [Script.dismiss, named] using ih
      · simpa [Script.dismiss, named] using Forall₂.cons both ih

theorem assign (alike : CastsAlike secret cast same) (name : String)
    (sessions : Session.Alike secret one other) :
    CastsAlike secret (Script.assign name one cast)
      (Script.assign name other same) :=
  .cons ⟨rfl, sessions⟩ (alike.dismiss name)

theorem lookup (alike : CastsAlike secret cast same) (name : String) :
    Option.Rel (Session.Alike secret) (cast.lookup name)
      (same.lookup name) := by
  induction alike with
  | nil => exact .none
  | @cons first second _ _ here _ ih =>
      obtain ⟨key, session⟩ := first
      obtain ⟨_, sessionToo⟩ := second
      obtain ⟨rfl, sessions⟩ := here
      rw [List.lookup_cons, List.lookup_cons]
      cases name == key with
      | true => exact .some sessions
      | false => exact ih

end CastsAlike

theorem shownNumber_alike {one other : Session}
    (sessions : Session.Alike secret one other) :
    PlaysAlike secret Eq (shownNumber one) (shownNumber other) := by
  intro first second stages
  refine ⟨?_, { stages with firstShown := ?_ }⟩
  · simp only [shownNumber, stages.firstShown, sessions.id]
  · simp only [shownNumber, stages.firstShown, sessions.id]

/-- Reports that are the same once they are blanked. -/
def EntriesAlike (one other : Entry κ) : Prop := one.blank = other.blank

theorem report_alike {verdict same : Verdict Sighting}
    {session sessionToo : Option Session}
    (verdicts : verdict.blank = same.blank)
    (sessions : session.map Session.blank = sessionToo.map Session.blank) :
    PlaysAlike secret EntriesAlike (report (memorySite ring) verdict session)
      (report (memorySite ring) same sessionToo) := by
  intro first second stages
  have log : first.world.store.inner.seen = second.world.store.inner.seen :=
    stages.world.store.inner.seen
  refine ⟨?_, { stages with
    reportedCalls := congrArg List.length log
    reportedNotes := congrArg List.length stages.world.notes }⟩
  simp only [EntriesAlike, report, memorySite, Entry.blank, verdicts, sessions,
    log, stages.reportedCalls, stages.world.notes, stages.reportedNotes]

end Script

end KeyCustody
