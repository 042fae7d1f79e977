import KeyCustody.Proofs.Dialogue.Trace
import KeyCustody.Proofs.Operation.Write

/-!
# What a store in memory never gives up

No request makes a store in memory forget a bundle, unmount an engine or change
what it refuses.  So whatever a dialogue does, the store that is left still has
every bundle, mounted engine and refusal of the store it started from.

Therefore only a refused key can keep a write from succeeding once its engine
is mounted.
-/

namespace KeyCustody

theorem Bundle.keys_ofEntries_single (key : String) (value : Json) :
    (ofEntries [(key, value)]).keys = [key] := by
  rw [← Std.ExtTreeMap.map_fst_toList_eq_keys, toList_ofEntries_single]
  rfl

namespace MemoryStore

/-- A store that may have come after another one. -/
structure Continues (before after : MemoryStore) : Prop where
  refusedKeys : after.refusedKeys = before.refusedKeys
  refusedPaths : after.refusedPaths = before.refusedPaths
  listed : ∀ name, before.listed.contains name → after.listed.contains name
  bundles : ∀ place, place ∈ before.bundles → place ∈ after.bundles

namespace Continues

theorem refl (store : MemoryStore) : Continues store store :=
  ⟨rfl, rfl, fun _ => id, fun _ => id⟩

theorem trans (first second third : MemoryStore)
    (early : Continues first second) (late : Continues second third) :
    Continues first third where
  refusedKeys := late.refusedKeys.trans early.refusedKeys
  refusedPaths := late.refusedPaths.trans early.refusedPaths
  listed name held := late.listed name (early.listed name held)
  bundles place held := late.bundles place (early.bundles place held)

theorem record (store : MemoryStore) (sighting : Sighting) :
    Continues store (store.record sighting) :=
  ⟨rfl, rfl, fun _ => id, fun _ => id⟩

theorem insert (store : MemoryStore) (place : Location) (bundle : Bundle) :
    Continues store
      { store with bundles := store.bundles.insert place bundle } where
  refusedKeys := rfl
  refusedPaths := rfl
  listed _ := id
  bundles other held := by simp [held]

theorem mount (store : MemoryStore) (mount : String) :
    Continues store (store.mount mount) where
  refusedKeys := rfl
  refusedPaths := rfl
  listed name held := by
    simp [MemoryStore.mount, Std.ExtTreeSet.contains_insert, held]
  bundles _ := id

theorem answer (call : Call) (store : MemoryStore) :
    Continues store (store.answer call).2 := by
  have recorded := record store call.sighting
  cases call with
  | read mount path => exact recorded
  | mounts => exact recorded
  | close => exact recorded
  | patch mount path data =>
      simp only [MemoryStore.answer, patchBundle]
      split
      · exact recorded
      · split
        · exact recorded
        · exact trans _ _ _ recorded (insert _ _ _)
  | put mount path data =>
      simp only [MemoryStore.answer, putBundle]
      split
      · exact recorded
      · exact trans _ _ _ recorded (insert _ _ _)
  | enable mount description =>
      simp only [MemoryStore.answer, enableEngine]
      split
      · exact recorded
      · exact trans _ _ _ recorded (Continues.mount _ _)

theorem mem_listed {before after : MemoryStore}
    (continues : Continues before after) {name : String}
    (listed : name ∈ before.listed) : name ∈ after.listed :=
  Std.ExtTreeSet.contains_iff_mem.1
    (continues.listed name (Std.ExtTreeSet.contains_iff_mem.2 listed))

end Continues

theorem run_continues {α : Type} (dialogue : Dialogue α)
    (world : World MemoryStore) :
    Continues world.store (dialogue.run service world).2.store :=
  dialogue.assures_any.run_keeps Continues.refl Continues.trans
    (fun store _ => Continues.record store .connect)
    (fun _ call store _ => Continues.answer call store) world

/-- Why a write to a place is refused. -/
def refusal (place : Location) : StoreError :=
  .internal ("injected write failure at " ++ place.label)

theorem run_setEntry_refused {world : World MemoryStore} {key : String}
    (refused : key ∈ world.store.refusedKeys) (client : Handle)
    (mount path value : String) :
    ((setEntry client mount path key value).run service world).1 =
      .fault (refusal (Location.of mount path)) := by
  rw [run_setEntry]
  simp [service, answer, patchBundle, writeFault?, record,
    Bundle.keys_ofEntries_single, refused, refusal, Outcome.inBackground]

theorem run_setEntry_admitted {world : World MemoryStore} {mount key : String}
    (admitted : key ∉ world.store.refusedKeys)
    (mounted : world.store.listed.contains (listedName mount))
    (client : Handle) (path value : String) :
    ((setEntry client mount path key value).run service world).1 =
      .value () := by
  have listed : listedName mount ∈ world.store.listed := by simpa using mounted
  rw [run_setEntry]
  cases held : world.store.bundles[Location.of mount path]? with
  | none =>
      simp [service, answer, patchBundle, putBundle, writeFault?, record,
        get?, Bundle.keys_ofEntries_single, admitted, listed, held,
        StoreError.noSuchPath]
  | some bundle =>
      simp [service, answer, patchBundle, writeFault?, record, get?,
        Bundle.keys_ofEntries_single, admitted, listed, held]

end MemoryStore

end KeyCustody
