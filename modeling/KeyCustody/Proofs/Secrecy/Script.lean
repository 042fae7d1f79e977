import KeyCustody.Proofs.Secrecy.Stage

/-!
# Values that stay secret

Scripts that differ only in the values to be written are played from the same
store in memory, with the same faults.  The reports then differ in nothing but
bundles that were read back, and the stores that are left differ only in the
values of entries that such a step names.
-/

namespace KeyCustody

namespace Script

open List (Forall₂)

/-- A task without the value that it gives to an entry. -/
def Task.blank : Task → Task
  | .addWrite path key _ mount => .addWrite path key "" mount
  | .addKey user id _ => .addKey user id ⟨0⟩
  | other => other

def Item.blank : Item → Item
  | .task work => .task work.blank
  | .aid help => .aid help

/-- A step without the values that it gives to entries. -/
def Step.blank : Step → Step
  | .task session work => .task session work.blank
  | .scope items ending stopsAtFault =>
      .scope (items.map Item.blank) ending stopsAtFault
  | other => other

/-- The entry that a task gives a value to, if it does. -/
def Task.entry? (ring : KeyRing) : Task → Option (Location × String)
  | .addWrite path key _ mount => some (Location.of mount path, key)
  | .addKey user id _ => some (Location.of ring.mount user.toString, id)
  | _ => none

def Item.entry? (ring : KeyRing) : Item → Option (Location × String)
  | .task work => work.entry? ring
  | .aid _ => none

/-- The entries that a step gives values to. -/
def Step.entries (ring : KeyRing) : Step → List (Location × String)
  | .task _ work => (work.entry? ring).toList
  | .scope items _ _ => items.filterMap (Item.entry? ring)
  | _ => []

section Alike

variable {ring : KeyRing} {secret : Location → String → Prop}

/-- Tasks that differ only in the value for a secret entry. -/
inductive Task.Alike (ring : KeyRing) (secret : Location → String → Prop) :
    Task → Task → Prop
  | same (task : Task) : Alike ring secret task task
  | addWrite (path key one other mount : String)
      (hidden : secret (Location.of mount path) key) :
      Alike ring secret (.addWrite path key one mount)
        (.addWrite path key other mount)
  | addKey (user : Uuid) (id : String) (one other : Uuid)
      (hidden : secret (Location.of ring.mount user.toString) id) :
      Alike ring secret (.addKey user id one) (.addKey user id other)

inductive Item.Alike (ring : KeyRing) (secret : Location → String → Prop) :
    Item → Item → Prop
  | task {one other : Task} (tasks : Task.Alike ring secret one other) :
      Alike ring secret (.task one) (.task other)
  | aid (aid : Aid) : Alike ring secret (.aid aid) (.aid aid)

/-- Steps that differ only in the values for secret entries. -/
inductive Step.Alike (ring : KeyRing) (secret : Location → String → Prop) :
    Step → Step → Prop
  | same (step : Step) : Alike ring secret step step
  | task (session : String) {one other : Task}
      (tasks : Task.Alike ring secret one other) :
      Alike ring secret (.task session one) (.task session other)
  | scope {items others : List Item}
      (alike : Forall₂ (Item.Alike ring secret) items others)
      (ending : Ending) (stopsAtFault : Bool) :
      Alike ring secret (.scope items ending stopsAtFault)
        (.scope others ending stopsAtFault)

theorem forall₂_of_map_eq {α β : Type} {f : α → β} {related : α → α → Prop}
    {first second : List α} (same : first.map f = second.map f)
    (here : ∀ one ∈ first, ∀ other, f one = f other → related one other) :
    Forall₂ related first second := by
  induction first generalizing second with
  | nil =>
      rw [List.map_eq_nil_iff.1 same.symm]
      exact .nil
  | cons one later ih =>
      obtain ⟨other, others, rfl, sameHead, sameTail⟩ :=
        List.map_eq_cons_iff.1 same.symm
      exact .cons (here one List.mem_cons_self other sameHead.symm)
        (ih sameTail.symm fun item member =>
          here item (List.mem_cons_of_mem _ member))

theorem Task.alike_of_blank_eq {one other : Task}
    (same : one.blank = other.blank)
    (hidden : ∀ place key, one.entry? ring = some (place, key) →
      secret place key) : Task.Alike ring secret one other := by
  cases one <;> cases other <;> cases same <;> first
    | exact .same _
    | exact .addWrite _ _ _ _ _ (hidden _ _ rfl)
    | exact .addKey _ _ _ _ (hidden _ _ rfl)

theorem Item.alike_of_blank_eq {one other : Item}
    (same : one.blank = other.blank)
    (hidden : ∀ place key, one.entry? ring = some (place, key) →
      secret place key) : Item.Alike ring secret one other := by
  cases one with
  | task work =>
      cases other with
      | task workToo =>
          exact .task (Task.alike_of_blank_eq (Item.task.inj same) hidden)
      | aid help => cases same
  | aid help =>
      cases other with
      | task work => cases same
      | aid helpToo =>
          cases same
          exact .aid help

theorem Step.alike_of_blank_eq {one other : Step}
    (same : one.blank = other.blank)
    (hidden : ∀ place key, (place, key) ∈ one.entries ring →
      secret place key) : Step.Alike ring secret one other := by
  cases one with
  | task name work =>
      cases other with
      | task nameToo workToo =>
          obtain ⟨rfl, tasks⟩ := Step.task.inj same
          refine .task name (Task.alike_of_blank_eq tasks ?_)
          intro place key names
          exact hidden place key (Option.mem_toList.2 names)
      | _ => cases same
  | scope items ending stopsAtFault =>
      cases other with
      | scope others endingToo stopsToo =>
          obtain ⟨blanks, rfl, rfl⟩ := Step.scope.inj same
          refine .scope (forall₂_of_map_eq blanks ?_) ending stopsAtFault
          intro item member itemToo sameItem
          refine Item.alike_of_blank_eq sameItem fun place key names => ?_
          exact hidden place key (List.mem_filterMap.2 ⟨item, member, names⟩)
      | _ => cases same
  | _ =>
      cases other <;> cases same
      exact .same _

variable {one other : Session}

/-- What two steps show if they differ in nothing but bundles read back. -/
def ShownAlike (first second : Shown Sighting) : Prop :=
  first.blank = second.blank

theorem outcomes_alike (outcome : Outcome (Shown Sighting)) :
    Outcome.Paired ShownAlike outcome outcome :=
  @Outcome.paired_of_eq _ ShownAlike (fun _ => rfl) outcome

theorem verb_alike {dialogue same : Dialogue (Outcome Unit × Session)}
    (alike : dialogue.Alike secret (Beside Eq (Session.Alike secret)) same) :
    PlaysAlike secret
      (Beside (Outcome.Paired ShownAlike) (Session.Alike secret))
      (do
        let (outcome, session) ← carryOut (memorySite ring) dialogue
        return (outcome.map fun _ => .nothing, session))
      (do
        let (outcome, session) ← carryOut (memorySite ring) same
        return (outcome.map fun _ => .nothing, session)) := by
  refine (PlaysAlike.ofDialogue alike).bind ?_
  rintro ⟨outcome, left⟩ ⟨_, leftToo⟩ ⟨rfl, sessions⟩
  exact .result ⟨outcomes_alike _, sessions⟩

theorem reading_alike {dialogue same : Dialogue (Outcome Bundle)}
    {place : Location} (sessions : Session.Alike secret one other)
    (alike : dialogue.Alike secret
      (Outcome.Paired (Bundle.Alike secret place)) same) :
    PlaysAlike secret
      (Beside (Outcome.Paired ShownAlike) (Session.Alike secret))
      (do
        let outcome ← carryOut (memorySite ring) dialogue
        return (outcome.map .bundle, one))
      (do
        let outcome ← carryOut (memorySite ring) same
        return (outcome.map .bundle, other)) := by
  refine (PlaysAlike.ofDialogue alike).bind fun _ _ replies => ?_
  exact .result ⟨replies.map fun _ _ bundles =>
    congrArg Shown.bundle bundles.blank_eq, sessions⟩

theorem shownReply_alike (call : Call) {reply same : call.Reply}
    (replies : Call.RepliesAlike secret call call reply same) :
    ShownAlike (shownReply call reply) (shownReply call same) := by
  cases call with
  | read mount path =>
      exact congrArg Shown.bundle (Bundle.Alike.blank_eq replies)
  | mounts => exact congrArg Shown.names replies
  | _ => rfl

theorem playTask_alike {task same : Task}
    (tasks : Task.Alike ring secret task same)
    (sessions : Session.Alike secret one other) :
    PlaysAlike secret
      (Beside (Outcome.Paired ShownAlike) (Session.Alike secret))
      (playTask (memorySite ring) one task)
      (playTask (memorySite ring) other same) := by
  cases tasks with
  | addWrite path key value valueToo mount hidden =>
      exact .result ⟨.value rfl, sessions.add mount (.write _ _ _ _ hidden)⟩
  | addKey user id value valueToo hidden =>
      exact .result ⟨.value rfl, sessions.add _ (.write _ _ _ _ hidden)⟩
  | same =>
      cases task with
      | addWrite path key value mount =>
          exact .result ⟨.value rfl, sessions.add mount (.same _)⟩
      | addKey user id value =>
          exact .result ⟨.value rfl, sessions.add _ (.same _)⟩
      | addScripted label mount execute rollback =>
          exact .result ⟨.value rfl, sessions.add mount (.same _)⟩
      | flush => exact verb_alike sessions.flush
      | commit => exact verb_alike sessions.commit
      | rollback => exact verb_alike sessions.rollback
      | close => exact verb_alike sessions.close
      | readBundle path mount =>
          exact reading_alike sessions (sessions.readBundle path mount)
      | keysOf user =>
          exact reading_alike sessions (sessions.readBundle _ _)
      | ask call =>
          refine (PlaysAlike.ofDialogue (sessions.ask call)).bind ?_
          intro first second replies
          exact .result ⟨replies.map fun _ _ => shownReply_alike call,
            sessions⟩
      | describe =>
          refine (shownNumber_alike sessions).bind ?_
          rintro number _ rfl
          exact .result ⟨.value
            (congrArg Shown.text (sessions.describe_eq number)), sessions⟩
      | issue user fresh =>
          refine (PlaysAlike.ofDialogue
            (KeyRing.issue_alike sessions user fresh)).bind ?_
          rintro ⟨outcome, left⟩ ⟨_, leftToo⟩ ⟨rfl, kept⟩
          dsimp only
          split
          · refine (PlaysAlike.modify fun first second stages => ?_).bind
              fun _ _ _ => .result ⟨outcomes_alike _, kept⟩
            exact { stages with
              issued := congrArg (· ++ [fresh.id.toString]) stages.issued }
          · exact .result ⟨outcomes_alike _, kept⟩
      | resolve user ids =>
          refine PlaysAlike.get.bind fun first second stages => ?_
          rw [stages.issued]
          refine (PlaysAlike.ofDialogue
            (KeyRing.resolve_alike sessions user _)).bind ?_
          intro first second replies
          exact .result ⟨replies.map fun _ _ => congrArg Shown.resolved,
            sessions⟩

theorem playAid_alike (aid : Aid) :
    PlaysAlike secret ShownAlike (playAid (memorySite ring) aid)
      (playAid (memorySite ring) aid) := by
  intro first second stages
  have guarded := stages.world.store
  have helped : ShownAlike (helpMemory aid first.world.store).1
        (helpMemory aid second.world.store).1 ∧
      Guarded.Alike secret (helpMemory aid first.world.store).2
        (helpMemory aid second.world.store).2 := by
    have stores := guarded.inner
    match aid with
    | .mount mount =>
        exact ⟨rfl, stores.mount_alike mount, guarded.plan⟩
    | .insert mount path data =>
        exact ⟨rfl, (stores.mount_alike mount).put (Bundle.alike_refl data),
          guarded.plan⟩
    | .get mount path =>
        exact ⟨congrArg Shown.found (stores.found_eq mount path), guarded⟩
    | .remove mount path =>
        exact ⟨congrArg Shown.found (stores.found_eq mount path),
          stores.remove mount path, guarded.plan⟩
    | .refuseKey key =>
        exact ⟨rfl, { stores with
          refusedKeys := congrArg (key :: ·) stores.refusedKeys },
          guarded.plan⟩
    | .refusePath path =>
        exact ⟨rfl, { stores with
          refusedPaths := congrArg (path :: ·) stores.refusedPaths },
          guarded.plan⟩
    | .forget => exact ⟨rfl, { stores with seen := rfl }, guarded.plan⟩
    | .recall => exact ⟨congrArg Shown.log stores.seen, guarded⟩
    | .plan later =>
        exact ⟨rfl, stores, congrArg (FaultPlan.append · later) guarded.plan⟩
  exact ⟨helped.1, { stages with
    world := ⟨helped.2, stages.world.notes⟩ }⟩

theorem playItem_alike {item same : Item}
    (items : Item.Alike ring secret item same)
    (sessions : Session.Alike secret one other) :
    PlaysAlike secret
      (Beside (Outcome.Paired ShownAlike) (Session.Alike secret))
      (playItem (memorySite ring) one item)
      (playItem (memorySite ring) other same) := by
  cases items with
  | task tasks => exact playTask_alike tasks sessions
  | aid aid =>
      exact (playAid_alike aid).bind
        fun _ _ shown => .result ⟨.value shown, sessions⟩

theorem verdict_blank_eq {outcome same : Outcome (Shown Sighting)}
    (outcomes : Outcome.Paired ShownAlike outcome same) :
    (Verdict.done outcome).blank = (Verdict.done same).blank :=
  congrArg Verdict.done (outcomes.map_eq fun _ _ shown => shown)

theorem keepEntry_alike {α β : Type} {results : α → β → Prop}
    {verdict same : Verdict Sighting} (verdicts : verdict.blank = same.blank)
    (sessions : Session.Alike secret one other)
    {next : Play (Guarded MemoryStore) Sighting α}
    {following : Play (Guarded MemoryStore) Sighting β}
    (rest : PlaysAlike secret results next following) :
    PlaysAlike secret results
      (do
        let entry ← report (memorySite ring) verdict (some one)
        modify fun stage => { stage with inner := stage.inner ++ [entry] }
        next)
      (do
        let entry ← report (memorySite ring) same (some other)
        modify fun stage => { stage with inner := stage.inner ++ [entry] }
        following) := by
  have blanks : (some one).map Session.blank = (some other).map Session.blank :=
    congrArg some sessions.blank_eq
  refine (report_alike verdicts blanks).bind fun entry entryToo entries => ?_
  refine (PlaysAlike.modify fun first second stages => ?_).bind
    fun _ _ _ => rest
  refine { stages with inner := ?_ }
  rw [List.map_append, List.map_append, stages.inner]
  exact congrArg (fun entry => _ ++ [entry]) entries

theorem playItems_alike {items same : List Item}
    (alike : Forall₂ (Item.Alike ring secret) items same)
    (stopsAtFault : Bool) (sessions : Session.Alike secret one other) :
    PlaysAlike secret (Beside Eq (Session.Alike secret))
      (playItems (memorySite ring) stopsAtFault one items)
      (playItems (memorySite ring) stopsAtFault other same) := by
  induction alike generalizing one other with
  | nil => exact .result ⟨rfl, sessions⟩
  | cons here later ih =>
      refine (playItem_alike here sessions).bind ?_
      rintro ⟨outcome, left⟩ ⟨outcomeToo, leftToo⟩ ⟨outcomes, kept⟩
      have verdicts := verdict_blank_eq outcomes
      cases outcomes with
      | crash message => exact .result ⟨rfl, kept⟩
      | value shown => exact keepEntry_alike verdicts kept (ih kept)
      | fault error =>
          refine keepEntry_alike verdicts kept ?_
          cases stopsAtFault with
          | true => exact .result ⟨rfl, kept⟩
          | false => exact ih kept

theorem playWork_alike {items same : List Item}
    (alike : Forall₂ (Item.Alike ring secret) items same) (ending : Ending)
    (stopsAtFault : Bool) (sessions : Session.Alike secret one other) :
    PlaysAlike secret
      (Beside (Outcome.Paired ShownAlike) (Session.Alike secret))
      (playWork (memorySite ring) items ending stopsAtFault one)
      (playWork (memorySite ring) same ending stopsAtFault other) := by
  refine (PlaysAlike.modify fun first second stages => ?_).bind
    fun _ _ _ => ?_
  · exact { stages with nextId := congrArg (· + 1) stages.nextId }
  refine (playItems_alike alike stopsAtFault sessions).bind ?_
  rintro ⟨outcome, left⟩ ⟨_, leftToo⟩ ⟨rfl, kept⟩
  cases outcome with
  | fault error => exact .result ⟨.fault error, kept⟩
  | crash message => exact .result ⟨.crash message, kept⟩
  | value done =>
      cases ending with
      | fail error => exact .result ⟨.fault error, kept⟩
      | crash message => exact .result ⟨.crash message, kept⟩
      | value result =>
          refine (shownNumber_alike kept).bind ?_
          rintro number _ rfl
          exact .result ⟨.value rfl, kept⟩

theorem scope_alike {items same : List Item}
    (alike : Forall₂ (Item.Alike ring secret) items same) (id : Nat)
    (ending : Ending) (stopsAtFault : Bool) :
    PlaysAlike secret (Outcome.Paired ShownAlike)
      (Session.scope (carryOut (memorySite ring)) id
        (playWork (memorySite ring) items ending stopsAtFault))
      (Session.scope (carryOut (memorySite ring)) id
        (playWork (memorySite ring) same ending stopsAtFault)) := by
  refine (PlaysAlike.ofDialogue (Session.opened_alike id)).bind ?_
  intro first second opened
  cases opened with
  | fault error => exact .result (.fault error)
  | crash message => exact .result (.crash message)
  | value sessions =>
      refine (playWork_alike alike ending stopsAtFault sessions).bind ?_
      rintro ⟨outcome, left⟩ ⟨outcomeToo, leftToo⟩ ⟨outcomes, kept⟩
      refine (PlaysAlike.ofDialogue (kept.leave outcomes)).bind ?_
      rintro ended _ rfl
      cases ended with
      | crash message => exact .result (.crash message)
      | value done => exact .result outcomes
      | fault error => exact .result outcomes

/-- Reports that are the same once they are blanked. -/
def ReportsAlike (first second : Report Sighting) : Prop :=
  first.blank = second.blank

theorem withoutInner_alike {one other : Play (Guarded MemoryStore) Sighting
      (Entry Sighting)}
    (alike : PlaysAlike secret EntriesAlike one other) :
    PlaysAlike secret ReportsAlike (do return { (← one) with })
      (do return { (← other) with }) :=
  alike.bind fun _ _ entries =>
    .result (congrArg (fun entry => (⟨entry, []⟩ : Report Sighting)) entries)

theorem withSession_alike {name : String}
    {action same : Session → Play (Guarded MemoryStore) Sighting
      (Entry Sighting)}
    (actions : ∀ one other, Session.Alike secret one other →
      PlaysAlike secret EntriesAlike (action one) (same other)) :
    PlaysAlike secret EntriesAlike
      (withSession (memorySite ring) name action)
      (withSession (memorySite ring) name same) := by
  refine PlaysAlike.get.bind fun first second stages => ?_
  have found := stages.sessions.lookup name
  generalize first.sessions.lookup name = one? at found ⊢
  generalize second.sessions.lookup name = other? at found ⊢
  cases found with
  | none => exact report_alike rfl rfl
  | some sessions => exact actions _ _ sessions

theorem reportBeside_alike {name : String} {verdict same : Verdict Sighting}
    (verdicts : verdict.blank = same.blank) :
    PlaysAlike secret EntriesAlike
      (reportBeside (memorySite ring) name verdict)
      (reportBeside (memorySite ring) name same) := by
  refine PlaysAlike.get.bind fun first second stages => ?_
  have found := stages.sessions.lookup name
  refine report_alike verdicts ?_
  generalize first.sessions.lookup name = one? at found ⊢
  generalize second.sessions.lookup name = other? at found ⊢
  cases found with
  | none => rfl
  | some sessions => exact congrArg some sessions.blank_eq

theorem enroll_alike {name : String}
    (sessions : Session.Alike secret one other) :
    PlaysAlike secret EntriesAlike (enroll (memorySite ring) name one)
      (enroll (memorySite ring) name other) := by
  refine (PlaysAlike.modify fun first second stages => ?_).bind
    fun _ _ _ => ?_
  · exact { stages with
      sessions := stages.sessions.assign name sessions
      nextId := congrArg (· + 1) stages.nextId }
  refine (shownNumber_alike sessions).bind ?_
  rintro number _ rfl
  exact report_alike rfl (congrArg some sessions.blank_eq)

theorem stepTask_alike (name : String) {task same : Task}
    (tasks : Task.Alike ring secret task same) :
    PlaysAlike secret ReportsAlike
      (playStep (memorySite ring) (.task name task))
      (playStep (memorySite ring) (.task name same)) := by
  refine withoutInner_alike (withSession_alike fun one other sessions => ?_)
  refine (playTask_alike tasks sessions).bind ?_
  rintro ⟨outcome, left⟩ ⟨outcomeToo, leftToo⟩ ⟨outcomes, kept⟩
  refine (PlaysAlike.modify fun first second stages => ?_).bind
    fun _ _ _ => ?_
  · exact { stages with sessions := stages.sessions.assign name kept }
  exact report_alike (verdict_blank_eq outcomes) (congrArg some kept.blank_eq)

theorem stepScope_alike {items same : List Item}
    (alike : Forall₂ (Item.Alike ring secret) items same)
    (ending : Ending) (stopsAtFault : Bool) :
    PlaysAlike secret ReportsAlike
      (playStep (memorySite ring) (.scope items ending stopsAtFault))
      (playStep (memorySite ring) (.scope same ending stopsAtFault)) := by
  refine (PlaysAlike.modify fun first second stages => ?_).bind
    fun _ _ _ => ?_
  · exact { stages with inner := rfl }
  refine PlaysAlike.get.bind fun first second stages => ?_
  rw [stages.nextId]
  refine (scope_alike alike _ ending stopsAtFault).bind fun _ _ outcomes => ?_
  refine PlaysAlike.get.bind fun first second inside => ?_
  refine (report_alike (verdict_blank_eq outcomes) rfl).bind
    fun _ _ entries => ?_
  exact .result (congrArg₂ (fun entry inner =>
    (⟨entry, inner⟩ : Report Sighting)) entries inside.inner)

theorem Item.alike_refl (item : Item) : Item.Alike ring secret item item := by
  cases item with
  | task work => exact .task (.same work)
  | aid help => exact .aid help

theorem playStep_opens_alike (name : String) :
    PlaysAlike secret ReportsAlike (playStep (memorySite ring) (.opens name))
      (playStep (memorySite ring) (.opens name)) := by
  refine PlaysAlike.get.bind fun first second stages => ?_
  rw [stages.nextId]
  refine (PlaysAlike.ofDialogue (Session.opened_alike _)).bind ?_
  intro first second opened
  cases opened with
  | value sessions => exact withoutInner_alike (enroll_alike sessions)
  | fault error => exact withoutInner_alike (reportBeside_alike rfl)
  | crash message => exact withoutInner_alike (reportBeside_alike rfl)

theorem playStep_connect_alike (name : String) :
    PlaysAlike secret ReportsAlike (playStep (memorySite ring) (.connect name))
      (playStep (memorySite ring) (.connect name)) := by
  refine (PlaysAlike.ofDialogue Dialogue.alike_connected).bind ?_
  rintro outcome _ rfl
  cases outcome with
  | fault error => exact withoutInner_alike (report_alike rfl rfl)
  | crash message => exact withoutInner_alike (report_alike rfl rfl)
  | value client =>
      refine (PlaysAlike.modify fun first second stages => ?_).bind
        fun _ _ _ => withoutInner_alike (report_alike rfl rfl)
      exact { stages with
        clients := congrArg (assign name client) stages.clients }

theorem playStep_start_alike (name clientName : String) :
    PlaysAlike secret ReportsAlike
      (playStep (memorySite ring) (.start name clientName))
      (playStep (memorySite ring) (.start name clientName)) := by
  refine PlaysAlike.get.bind fun first second stages => ?_
  rw [stages.clients]
  cases second.clients.lookup clientName with
  | none => exact withoutInner_alike (reportBeside_alike rfl)
  | some client =>
      refine PlaysAlike.get.bind fun first second stages => ?_
      rw [stages.nextId]
      exact withoutInner_alike (enroll_alike (Session.alike_fresh _ client))

theorem playStep_askClient_alike (name clientName : String) (call : Call) :
    PlaysAlike secret ReportsAlike
      (playStep (memorySite ring) (.askClient name clientName call))
      (playStep (memorySite ring) (.askClient name clientName call)) := by
  refine PlaysAlike.get.bind fun first second stages => ?_
  rw [stages.clients]
  cases second.clients.lookup clientName with
  | none => exact withoutInner_alike (reportBeside_alike rfl)
  | some client =>
      refine (PlaysAlike.ofDialogue
        (Dialogue.alike_call client (.same call))).bind ?_
      intro first second replies
      refine withoutInner_alike (reportBeside_alike ?_)
      exact verdict_blank_eq (replies.inBackground.map
        fun _ _ => shownReply_alike call)

theorem playStep_disconnect_alike (name : String) :
    PlaysAlike secret ReportsAlike
      (playStep (memorySite ring) (.disconnect name))
      (playStep (memorySite ring) (.disconnect name)) := by
  refine withoutInner_alike (withSession_alike fun one other sessions => ?_)
  refine (PlaysAlike.modify fun first second stages => ?_).bind
    fun _ _ _ => ?_
  · exact { stages with sessions := stages.sessions.dismiss name }
  refine (PlaysAlike.ofDialogue sessions.disconnect).bind ?_
  rintro outcome _ rfl
  exact report_alike rfl rfl

theorem playStep_aid_alike (name : String) (aid : Aid) :
    PlaysAlike secret ReportsAlike (playStep (memorySite ring) (.aid name aid))
      (playStep (memorySite ring) (.aid name aid)) := by
  refine (playAid_alike aid).bind fun _ _ shown => ?_
  have verdicts := verdict_blank_eq (.value shown)
  cases shows : aid.showsSession with
  | true => exact withoutInner_alike (reportBeside_alike verdicts)
  | false => exact withoutInner_alike (report_alike verdicts rfl)

theorem playStep_alike {step same : Step}
    (steps : Step.Alike ring secret step same) :
    PlaysAlike secret ReportsAlike (playStep (memorySite ring) step)
      (playStep (memorySite ring) same) := by
  cases steps with
  | task name tasks => exact stepTask_alike name tasks
  | scope alike ending stopsAtFault =>
      exact stepScope_alike alike ending stopsAtFault
  | same =>
      cases step with
      | task name task => exact stepTask_alike name (.same task)
      | scope items ending stopsAtFault =>
          exact stepScope_alike
            (List.forall₂_same.2 fun item _ => Item.alike_refl item) ending
            stopsAtFault
      | opens name => exact playStep_opens_alike name
      | connect name => exact playStep_connect_alike name
      | start name clientName => exact playStep_start_alike name clientName
      | askClient name clientName call =>
          exact playStep_askClient_alike name clientName call
      | disconnect name => exact playStep_disconnect_alike name
      | aid name aid => exact playStep_aid_alike name aid

theorem playSteps_alike {steps same : List Step}
    (alike : Forall₂ (Step.Alike ring secret) steps same) :
    PlaysAlike secret (Forall₂ ReportsAlike)
      (playSteps (memorySite ring) steps)
      (playSteps (memorySite ring) same) := by
  induction alike with
  | nil => exact .result .nil
  | cons here later ih =>
      refine (playStep_alike here).bind fun _ _ reports => ?_
      exact ih.bind fun _ _ others => .result (.cons reports others)

end Alike

/-- Scripts that differ only in the values they give to entries have the same
reports but for the contents of bundles that are read back: the same outcomes
with the same errors, sessions, calls and notes.  The stores that are left
differ only in the values of entries that the scripts give values to. -/
theorem values_stay_secret (ring : KeyRing) (store : Guarded MemoryStore)
    {steps others : List Step}
    (same : steps.map Step.blank = others.map Step.blank) :
    let first := play (memorySite ring) store steps
    let second := play (memorySite ring) store others
    let named := steps.flatMap (Step.entries ring)
    first.1.map Report.blank = second.1.map Report.blank ∧
    first.2.sessions.map (Prod.map id Session.blank) =
      second.2.sessions.map (Prod.map id Session.blank) ∧
    World.Alike (fun place key => (place, key) ∈ named) first.2.world
      second.2.world := by
  intro first second named
  have alike : Forall₂ (Step.Alike ring fun place key => (place, key) ∈ named)
      steps others := by
    refine forall₂_of_map_eq same fun step member other sameStep => ?_
    refine Step.alike_of_blank_eq sameStep fun place key names => ?_
    exact List.mem_flatMap.2 ⟨step, member, names⟩
  have outset : Stage.Alike (fun place key => (place, key) ∈ named)
      { world := { store } } { world := { store } } :=
    ⟨⟨Guarded.alike_refl store, rfl⟩, .nil, rfl, rfl, rfl, rfl, rfl, rfl,
      rfl⟩
  obtain ⟨reports, stages⟩ := playSteps_alike alike _ _ outset
  refine ⟨map_eq_of_forall₂ reports fun _ _ here => here, ?_, stages.world⟩
  exact map_eq_of_forall₂ stages.sessions
    fun _ _ here => Prod.ext here.1 here.2.blank_eq

/-- A script that writes a value, reads it back, and fails in a scope that is to
write it once more. -/
def disclosing (value : String) : List Step :=
  [.opens "s", .task "s" (.addWrite "p" "k" value "m"), .task "s" .commit,
    .task "s" (.readBundle "p" "m"),
    .scope [.task (.addWrite "/p/" "l" value "m"), .task .flush,
      .task .describe] (.fail (.internal "no")) true]

set_option maxRecDepth 10000 in
/-- The stores do differ, but none of the reports tells. -/
theorem values_stay_secret_disclosing :
    let site := memorySite ⟨"api-keys"⟩
    let first := play site { inner := {} } (disclosing "1")
    let second := play site { inner := {} } (disclosing "2")
    first.1.map Report.blank = second.1.map Report.blank ∧
    Bundles.value? first.2.world.store.inner.bundles
      (Location.of "m" "p") "k" = some (.string "1") ∧
    Bundles.value? second.2.world.store.inner.bundles
      (Location.of "m" "p") "k" = some (.string "2") := by
  obtain ⟨reports, _⟩ := @values_stay_secret ⟨"api-keys"⟩ { inner := {} }
    (disclosing "1") (disclosing "2") rfl
  exact ⟨reports, by decide +kernel, by decide +kernel⟩

end Script

end KeyCustody
