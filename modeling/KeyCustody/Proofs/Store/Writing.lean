import KeyCustody.Proofs.Store.Relay

/-!
# Writing one entry

What setting an entry and dropping one come to when the calls go to a service
that relays to a store in memory.  Both either succeed with exactly the effect
on the bundles that their names promise, or fail and leave the bundles alone;
neither ever crashes its caller.
-/

namespace KeyCustody

variable {σ : Type}

namespace Dialogue

@[simp]
theorem run_noted (service : Service σ) (entry : Note) (world : World σ) :
    (noted entry).run service world =
      ((), { world with notes := world.notes ++ [entry] }) :=
  rfl

end Dialogue

namespace Bundle

theorem ofEntries_single (key : String) (value : Json) :
    ofEntries [(key, value)] = (∅ : Bundle).insert key value :=
  rfl

theorem toList_ofEntries_single (key : String) (value : Json) :
    (ofEntries [(key, value)]).toList = [(key, value)] := by
  have one : (ofEntries [(key, value)]).toList.length = 1 := by
    rw [ofEntries_single, Std.ExtTreeMap.length_toList,
      Std.ExtTreeMap.size_insert]
    simp
  obtain ⟨entry, only⟩ := List.length_eq_one_iff.1 one
  have held : (key, value) ∈ (ofEntries [(key, value)]).toList := by
    rw [Std.ExtTreeMap.mem_toList_iff_getElem?_eq_some, ofEntries_single]
    simp
  rw [only] at held ⊢
  rw [List.mem_singleton.1 held]

end Bundle

namespace MemoryStore

theorem merged_ofEntries_single (bundle : Bundle) (key : String)
    (value : Json) :
    merged bundle (Bundle.ofEntries [(key, value)]) =
      bundle.insert key value := by
  rw [merged, Bundle.toList_ofEntries_single]
  exact Std.ExtTreeMap.insertMany_list_singleton

end MemoryStore

section Relays

variable {service : Service σ} {view : σ → MemoryStore} {fair : σ → Prop}

/-- A patch that succeeds merges the data into the bundle, which has to be
there.  Any other patch changes no bundle, and when the engine is mounted it
reports a missing path only for a missing bundle. -/
theorem Service.Relays.patch (relays : service.Relays view fair)
    (client : Handle) (mount path : String) (data : Bundle) (state : σ)
    (isFair : fair state) :
    let reply := service.answer client (.patch mount path data) state
    let place := Location.of mount path
    (reply.1 = .value () ∧ ∃ bundle,
      (view state).bundles[place]? = some bundle ∧
      (view reply.2).bundles = (view state).bundles.insert place
        (MemoryStore.merged bundle data)) ∨
    (reply.1 ≠ .value () ∧ (view reply.2).bundles = (view state).bundles ∧
      ∀ detail, reply.1 = .fault (.pathNotFound detail) →
        (view reply.2).listed.contains (listedName mount) →
        (view state).bundles[place]? = none) := by
  dsimp only
  rcases relays.answer client (.patch mount path data) state isFair with
    ⟨sameReply, sameStore⟩ | ⟨declines, unchanged⟩
  · rw [sameReply, sameStore]
    simp only [MemoryStore.answer, MemoryStore.patchBundle,
      MemoryStore.writeFault?, MemoryStore.record, MemoryStore.get?]
    by_cases refused : data.keys.any (view state).refusedKeys.contains
    · simp [refused]
    · by_cases mounted : (view state).listed.contains (listedName mount)
      · cases held : (view state).bundles[Location.of mount path]? with
        | none => simp [refused, mounted]
        | some bundle => simp [refused, mounted]
      · simp [refused, mounted]
  · right
    refine ⟨?_, by rw [unchanged], ?_⟩
    · intro succeeded
      simp [succeeded, Outcome.Declines] at declines
    · intro detail missing
      simp [missing, Outcome.Declines, StoreError.isPathNotFound] at declines

/-- A put that succeeds needs a mounted engine and replaces the bundle.  Any
other put changes no bundle. -/
theorem Service.Relays.put (relays : service.Relays view fair)
    (client : Handle) (mount path : String) (data : Bundle) (state : σ)
    (isFair : fair state) :
    let reply := service.answer client (.put mount path data) state
    (reply.1 = .value () ∧
      (view state).listed.contains (listedName mount) ∧
      (view reply.2).bundles =
        (view state).bundles.insert (Location.of mount path) data) ∨
    (reply.1 ≠ .value () ∧ (view reply.2).bundles = (view state).bundles) := by
  dsimp only
  rcases relays.answer client (.put mount path data) state isFair with
    ⟨sameReply, sameStore⟩ | ⟨declines, unchanged⟩
  · rw [sameReply, sameStore]
    simp only [MemoryStore.answer, MemoryStore.putBundle,
      MemoryStore.writeFault?, MemoryStore.record]
    by_cases refused : data.keys.any (view state).refusedKeys.contains
    · simp [refused]
    · by_cases mounted : (view state).listed.contains (listedName mount)
      · simp [refused, mounted]
      · simp [refused, mounted]
  · right
    refine ⟨?_, by rw [unchanged]⟩
    intro succeeded
    simp [succeeded, Outcome.Declines] at declines

/-- A read changes no bundle.  It finds only the bundle that is there, and it
reports a missing path only if there is none. -/
theorem Service.Relays.read (relays : service.Relays view fair)
    (client : Handle) (mount path : String) (state : σ)
    (isFair : fair state) :
    let reply := service.answer client (.read mount path) state
    let place := Location.of mount path
    (view reply.2).bundles = (view state).bundles ∧
      (∀ bundle, reply.1 = .value bundle →
        (view state).bundles[place]? = some bundle) ∧
      ∀ detail, reply.1 = .fault (.pathNotFound detail) →
        (view state).bundles[place]? = none := by
  dsimp only
  rcases relays.answer client (.read mount path) state isFair with
    ⟨sameReply, sameStore⟩ | ⟨declines, unchanged⟩
  · rw [sameReply, sameStore]
    refine ⟨rfl, ?_⟩
    simp only [MemoryStore.answer, MemoryStore.readBundle, MemoryStore.record,
      MemoryStore.get?]
    by_cases refused : path ∈ (view state).refusedPaths
    · simp [refused]
    · cases held : (view state).bundles[Location.of mount path]? with
      | none => simp [refused]
      | some bundle => simp [refused]
  · refine ⟨by rw [unchanged], ?_, ?_⟩
    · intro bundle found
      simp [found, Outcome.Declines] at declines
    · intro detail missing
      simp [missing, Outcome.Declines, StoreError.isPathNotFound] at declines

end Relays

theorem run_setEntry (service : Service σ) (client : Handle)
    (mount path key value : String) (world : World σ) :
    (setEntry client mount path key value).run service world =
      let data := Bundle.ofEntries [(key, .string value)]
      let patch := service.answer client (.patch mount path data) world.store
      let put := service.answer client (.put mount path data) patch.2
      match patch.1 with
      | .fault (.pathNotFound _) =>
          (put.1.inBackground, { world with store := put.2 })
      | reply => (reply.inBackground, { world with store := patch.2 }) := by
  simp only [setEntry, Dialogue.bind_eq_bind, Dialogue.run_bind]
  simp only [Dialogue.call, Dialogue.run]
  generalize (service.answer client (.patch mount path
    (Bundle.ofEntries [(key, .string value)])) world.store).1 = reply
  cases reply with
  | value result => rfl
  | fault error => cases error <;> rfl
  | crash message => rfl

theorem run_dropEntry (service : Service σ) (client : Handle)
    (mount path key : String) (world : World σ) :
    (dropEntry client mount path key).run service world =
      let read := service.answer client (.read mount path) world.store
      let after := { world with store := read.2 }
      match read.1 with
      | .value bundle =>
          if bundle.contains key then
            let put := service.answer client
              (.put mount path (bundle.erase key)) read.2
            (put.1.inBackground, { world with store := put.2 })
          else (.value (), after)
      | .fault (.pathNotFound _) => (.value (), after)
      | .fault error => (.fault error, after)
      | .crash message => ((Outcome.crash message).inBackground, after) := by
  simp only [dropEntry, Dialogue.bind_eq_bind, Dialogue.run_bind]
  simp only [Dialogue.call, Dialogue.run]
  generalize (service.answer client (.read mount path) world.store).1 = reply
  cases reply with
  | value bundle =>
      dsimp only
      by_cases held : Std.ExtTreeMap.contains bundle key
      · rw [if_pos held, if_pos held]
        rfl
      · rw [if_neg held, if_neg held]
        rfl
  | fault error => cases error <;> rfl
  | crash message => rfl

/-- The run of an attempt that either succeeds and changes the bundles as
`change` says, or fails and changes no bundle.  It takes no notes. -/
structure AllOrNothing (view : σ → MemoryStore) (fair : σ → Prop)
    (change : Bundles → Bundles) (before : World σ)
    (done : Outcome Unit × World σ) : Prop where
  fair : fair done.2.store
  notes : done.2.notes = before.notes
  effect :
    (done.1 = .value () ∧
      (view done.2.store).bundles = change (view before.store).bundles) ∨
    (∃ error, done.1 = .fault error ∧
      (view done.2.store).bundles = (view before.store).bundles)

variable {service : Service σ} {view : σ → MemoryStore} {fair : σ → Prop}

/-- Setting an entry through a relaying service is all or nothing. -/
theorem setEntry_allOrNothing (relays : service.Relays view fair)
    (client : Handle) (mount path key value : String) (world : World σ)
    (isFair : fair world.store) :
    AllOrNothing view fair
      (fun bundles => bundles.withEntry (Location.of mount path) key
        (.string value))
      world ((setEntry client mount path key value).run service world) := by
  have patched := relays.patch client mount path
    (Bundle.ofEntries [(key, .string value)]) world.store isFair
  have fairPatch := relays.fair_answer client
    (.patch mount path (Bundle.ofEntries [(key, .string value)])) world.store
    isFair
  rw [run_setEntry]
  dsimp only at patched ⊢
  split
  next detail missing =>
    have fairPut := relays.fair_answer client
      (.put mount path (Bundle.ofEntries [(key, .string value)])) _ fairPatch
    rcases patched with ⟨succeeded, _⟩ | ⟨_, unchanged, absent⟩
    · simp [succeeded] at missing
    rcases relays.put client mount path
        (Bundle.ofEntries [(key, .string value)]) _ fairPatch with
      ⟨stored, mounted, changed⟩ | ⟨failed, unchangedAgain⟩
    · refine ⟨fairPut, rfl, Or.inl ⟨by simpa using stored, ?_⟩⟩
      rw [changed, unchanged, Bundles.withEntry,
        absent detail missing mounted]
      rfl
    · obtain ⟨error, reported⟩ :=
        Outcome.inBackground_eq_fault_of_ne_value failed
      exact ⟨fairPut, rfl,
        Or.inr ⟨error, reported, unchangedAgain.trans unchanged⟩⟩
  next =>
    rcases patched with
      ⟨succeeded, bundle, held, changed⟩ | ⟨failed, unchanged, _⟩
    · refine ⟨fairPatch, rfl, Or.inl ⟨by simpa using succeeded, ?_⟩⟩
      rw [changed, MemoryStore.merged_ofEntries_single, Bundles.withEntry,
        held]
      rfl
    · obtain ⟨error, reported⟩ :=
        Outcome.inBackground_eq_fault_of_ne_value failed
      exact ⟨fairPatch, rfl, Or.inr ⟨error, reported, unchanged⟩⟩

theorem dropEntry_allOrNothing (relays : service.Relays view fair)
    (client : Handle) (mount path key : String) (world : World σ)
    (isFair : fair world.store) :
    AllOrNothing view fair
      (fun bundles => bundles.withoutEntry (Location.of mount path) key)
      world ((dropEntry client mount path key).run service world) := by
  obtain ⟨unchanged, found, missing⟩ :=
    relays.read client mount path world.store isFair
  have fairRead := relays.fair_answer client (.read mount path) world.store
    isFair
  rw [run_dropEntry]
  dsimp only
  split
  next bundle reply =>
    have held := found bundle reply
    split
    next contains =>
      have fairPut := relays.fair_answer client
        (.put mount path (bundle.erase key)) _ fairRead
      rcases relays.put client mount path (bundle.erase key) _ fairRead with
        ⟨stored, _, changed⟩ | ⟨failed, unchangedAgain⟩
      · refine ⟨fairPut, rfl, Or.inl ⟨by simpa using stored, ?_⟩⟩
        simp [changed, unchanged, Bundles.withoutEntry, held, contains]
      · obtain ⟨error, reported⟩ :=
          Outcome.inBackground_eq_fault_of_ne_value failed
        exact ⟨fairPut, rfl,
          Or.inr ⟨error, reported, unchangedAgain.trans unchanged⟩⟩
    next lacks =>
      refine ⟨fairRead, rfl, Or.inl ⟨rfl, ?_⟩⟩
      simp [unchanged, Bundles.withoutEntry, held, lacks]
  next detail reply =>
    have absent := missing detail reply
    refine ⟨fairRead, rfl, Or.inl ⟨rfl, ?_⟩⟩
    simp [unchanged, Bundles.withoutEntry, absent]
  next error _ _ => exact ⟨fairRead, rfl, Or.inr ⟨error, rfl, unchanged⟩⟩
  next message _ => exact ⟨fairRead, rfl, Or.inr ⟨_, rfl, unchanged⟩⟩

end KeyCustody
