import KeyCustody.FaultPlan
import KeyCustody.Proofs.Secrecy.Lockstep
import KeyCustody.Proofs.Session.Standing

/-!
# Stores that differ in secrets

Some entries are secret.  Two stores in memory are alike if they differ in
nothing but the values of secret entries: they hold bundles at the same places
and with the same keys, list the same engines, refuse the same and remember the
same calls.

Calls that are alike are answered alike and leave the stores alike, also behind
a plan of faults.
-/

namespace KeyCustody

section Maps

variable {α β γ : Type} [Ord α] [Std.TransOrd α]

/-- Two maps with the same keys and with related values under each of them. -/
def Keywise (values : α → β → β → Prop) (first second : Std.ExtTreeMap α β) :
    Prop :=
  ∀ key, Option.Rel (values key) first[key]? second[key]?

namespace Keywise

variable {values : α → β → β → Prop} {first second : Std.ExtTreeMap α β}

theorem refl (same : ∀ key value, values key value value)
    (map : Std.ExtTreeMap α β) : Keywise values map map := by
  intro key
  cases map[key]? with
  | none => exact .none
  | some value => exact .some (same key value)

theorem cases_at (related : Keywise values first second) (key : α) :
    (first[key]? = none ∧ second[key]? = none) ∨
      ∃ one other, first[key]? = some one ∧ second[key]? = some other ∧
        values key one other := by
  have here := related key
  generalize first[key]? = one? at here ⊢
  generalize second[key]? = other? at here ⊢
  cases here with
  | none => exact Or.inl ⟨rfl, rfl⟩
  | some both => exact Or.inr ⟨_, _, rfl, rfl, both⟩

theorem contains_eq (related : Keywise values first second) (key : α) :
    first.contains key = second.contains key := by
  rw [Std.ExtTreeMap.contains_eq_isSome_getElem?,
    Std.ExtTreeMap.contains_eq_isSome_getElem?]
  rcases related.cases_at key with ⟨gone, goneToo⟩ | ⟨_, _, one, other, _⟩
  · rw [gone, goneToo]
  · rw [one, other]
    rfl

variable [Std.LawfulEqOrd α]

theorem map_eq (related : Keywise values first second) {f : α → β → γ}
    (same : ∀ key one other, values key one other → f key one = f key other) :
    first.map f = second.map f := by
  refine Std.ExtTreeMap.ext_getElem? fun key => ?_
  rw [Std.ExtTreeMap.getElem?_map, Std.ExtTreeMap.getElem?_map]
  rcases related.cases_at key with ⟨gone, goneToo⟩ | ⟨_, _, one, other, here⟩
  · rw [gone, goneToo]
  · rw [one, other]
    exact congrArg some (same key _ _ here)

theorem keys_eq (related : Keywise values first second) :
    first.keys = second.keys := by
  have blank : first.map (fun _ _ => ()) = second.map fun _ _ => () :=
    related.map_eq fun _ _ _ _ => rfl
  rw [← Std.ExtTreeMap.keys_map (t := first), blank,
    Std.ExtTreeMap.keys_map]

variable [DecidableEq α]

theorem insert (related : Keywise values first second) {key : α}
    {one other : β} (here : values key one other) :
    Keywise values (first.insert key one) (second.insert key other) := by
  intro name
  rw [getElem?_insert_eq_ite, getElem?_insert_eq_ite]
  split
  next same =>
    subst same
    exact .some here
  next => exact related name

theorem erase (related : Keywise values first second) (key : α) :
    Keywise values (first.erase key) (second.erase key) := by
  intro name
  rw [getElem?_erase_eq_ite, getElem?_erase_eq_ite]
  split
  · exact .none
  · exact related name

end Keywise

end Maps

section Alike

variable {secret : Location → String → Prop}

/-- Bundles at a place that differ only in secret values. -/
def Bundle.Alike (secret : Location → String → Prop) (place : Location) :
    Bundle → Bundle → Prop :=
  Keywise fun key one other => one = other ∨ secret place key

namespace Bundle

variable {place : Location} {first second : Bundle}

theorem alike_refl (bundle : Bundle) : Alike secret place bundle bundle := by
  refine Keywise.refl ?_ bundle
  exact fun _ _ => Or.inl rfl

theorem alike_ofEntries {key : String} {one other : Json}
    (same : one = other ∨ secret place key) :
    Alike secret place (ofEntries [(key, one)]) (ofEntries [(key, other)]) :=
  (alike_refl ∅).insert same

theorem getElem?_merged_of_mem {bundle data : Bundle} {key : String}
    {value : Json} (held : data[key]? = some value) :
    (MemoryStore.merged bundle data)[key]? = some value := by
  refine Std.ExtTreeMap.getElem?_insertMany_list_of_mem
    Std.ReflCmp.compare_self ?_ ?_
  · exact Std.ExtTreeMap.distinct_keys_toList
  · exact Std.ExtTreeMap.mem_toList_iff_getElem?_eq_some.2 held

theorem Alike.merged {more others : Bundle}
    (alike : Alike secret place first second)
    (data : Alike secret place more others) :
    Alike secret place (MemoryStore.merged first more)
      (MemoryStore.merged second others) := by
  intro key
  rcases data.cases_at key with ⟨gone, goneToo⟩ | ⟨_, _, one, other, here⟩
  · have absent : key ∉ more := by simpa using gone
    have absentToo : key ∉ others := by simpa using goneToo
    rw [MemoryStore.getElem?_merged absent,
      MemoryStore.getElem?_merged absentToo]
    exact alike key
  · rw [getElem?_merged_of_mem one, getElem?_merged_of_mem other]
    exact .some here

end Bundle

/-- Calls that differ only in the secret values among their data. -/
inductive Call.Alike (secret : Location → String → Prop) : Call → Call → Prop
  | same (call : Call) : Alike secret call call
  | patch (mount path : String) {first second : Bundle}
      (data : Bundle.Alike secret (Location.of mount path) first second) :
      Alike secret (.patch mount path first) (.patch mount path second)
  | put (mount path : String) {first second : Bundle}
      (data : Bundle.Alike secret (Location.of mount path) first second) :
      Alike secret (.put mount path first) (.put mount path second)

/-- Replies to calls that are alike: bundles may differ in secret values. -/
def Call.RepliesAlike (secret : Location → String → Prop) :
    (one other : Call) → one.Reply → other.Reply → Prop
  | .read mount path, .read _ _ =>
      Bundle.Alike secret (Location.of mount path)
  | .mounts, .mounts => Eq
  | _, _ => fun _ _ => True

namespace Call

variable {one other : Call}

theorem Alike.kind_eq (alike : Alike secret one other) :
    one.kind = other.kind := by
  cases alike <;> rfl

theorem Alike.sighting_eq (alike : Alike secret one other) :
    one.sighting = other.sighting := by
  cases alike with
  | same call => rfl
  | patch mount path data => exact congrArg (Sighting.patch _ _) data.keys_eq
  | put mount path data => exact congrArg (Sighting.put _ _) data.keys_eq

end Call

namespace MemoryStore

/-- Stores that differ only in the values of secret entries. -/
structure Alike (secret : Location → String → Prop)
    (first second : MemoryStore) : Prop where
  listed : first.listed = second.listed
  seen : first.seen = second.seen
  refusedKeys : first.refusedKeys = second.refusedKeys
  refusedPaths : first.refusedPaths = second.refusedPaths
  bundles : Keywise (Bundle.Alike secret) first.bundles second.bundles

theorem alike_refl (store : MemoryStore) : Alike secret store store :=
  ⟨rfl, rfl, rfl, rfl, Keywise.refl (fun _ => Bundle.alike_refl) _⟩

namespace Alike

variable {first second : MemoryStore} {mount path : String}
variable {one other : Bundle}

theorem record (alike : Alike secret first second) (sighting : Sighting) :
    Alike secret (first.record sighting) (second.record sighting) :=
  { alike with seen := congrArg (· ++ [sighting]) alike.seen }

theorem mount_alike (alike : Alike secret first second) (mount : String) :
    Alike secret (first.mount mount) (second.mount mount) :=
  { alike with
    listed := congrArg (Std.ExtTreeSet.insert · (listedName mount))
      alike.listed }

theorem put (alike : Alike secret first second) {place : Location}
    (data : Bundle.Alike secret place one other) :
    Alike secret { first with bundles := first.bundles.insert place one }
      { second with bundles := second.bundles.insert place other } :=
  { alike with bundles := alike.bundles.insert data }

theorem remove (alike : Alike secret first second) (mount path : String) :
    Alike secret (first.remove mount path) (second.remove mount path) :=
  { alike with bundles := alike.bundles.erase _ }

theorem writeFault?_eq (alike : Alike secret first second)
    (data : Bundle.Alike secret (Location.of mount path) one other) :
    first.writeFault? mount path one = second.writeFault? mount path other := by
  simp only [writeFault?, data.keys_eq, alike.refusedKeys, alike.listed]

theorem readBundle (alike : Alike secret first second)
    (mount path : String) :
    Outcome.Paired (Bundle.Alike secret (Location.of mount path))
      (first.readBundle mount path) (second.readBundle mount path) := by
  simp only [MemoryStore.readBundle, alike.refusedPaths, get?]
  split
  · exact .fault _
  · rcases alike.bundles.cases_at (Location.of mount path) with
      ⟨gone, goneToo⟩ | ⟨_, _, one, other, here⟩
    · rw [gone, goneToo]
      exact .fault _
    · rw [one, other]
      exact .value here

theorem patchBundle (alike : Alike secret first second)
    (data : Bundle.Alike secret (Location.of mount path) one other) :
    Outcome.Paired (fun _ _ => True) (first.patchBundle mount path one).1
        (second.patchBundle mount path other).1 ∧
      Alike secret (first.patchBundle mount path one).2
        (second.patchBundle mount path other).2 := by
  simp only [MemoryStore.patchBundle, alike.writeFault?_eq data, get?]
  cases second.writeFault? mount path other with
  | some error => exact ⟨.fault error, alike⟩
  | none =>
      rcases alike.bundles.cases_at (Location.of mount path) with
        ⟨gone, goneToo⟩ | ⟨_, _, one, other, here⟩
      · rw [gone, goneToo]
        exact ⟨.fault _, alike⟩
      · rw [one, other]
        exact ⟨.value trivial, alike.put (here.merged data)⟩

theorem putBundle (alike : Alike secret first second)
    (data : Bundle.Alike secret (Location.of mount path) one other) :
    Outcome.Paired (fun _ _ => True) (first.putBundle mount path one).1
        (second.putBundle mount path other).1 ∧
      Alike secret (first.putBundle mount path one).2
        (second.putBundle mount path other).2 := by
  simp only [MemoryStore.putBundle, alike.writeFault?_eq data]
  cases second.writeFault? mount path other with
  | some error => exact ⟨.fault error, alike⟩
  | none => exact ⟨.value trivial, alike.put data⟩

theorem enableEngine (alike : Alike secret first second) (mount : String) :
    Outcome.Paired (fun _ _ => True) (first.enableEngine mount).1
        (second.enableEngine mount).1 ∧
      Alike secret (first.enableEngine mount).2
        (second.enableEngine mount).2 := by
  simp only [MemoryStore.enableEngine, alike.listed]
  split
  · exact ⟨.fault _, alike⟩
  · exact ⟨.value trivial, alike.mount_alike mount⟩

theorem answer (alike : Alike secret first second) {call same : Call}
    (calls : Call.Alike secret call same) :
    Outcome.Paired (Call.RepliesAlike secret call same)
        (MemoryStore.answer call first).1 (MemoryStore.answer same second).1 ∧
      Alike secret (MemoryStore.answer call first).2
        (MemoryStore.answer same second).2 := by
  have recorded : Alike secret (first.record call.sighting)
      (second.record same.sighting) := by
    rw [calls.sighting_eq]
    exact alike.record same.sighting
  cases calls with
  | patch mount path data => exact recorded.patchBundle data
  | put mount path data => exact recorded.putBundle data
  | same call =>
      cases call with
      | read mount path => exact ⟨recorded.readBundle mount path, recorded⟩
      | patch mount path data =>
          exact recorded.patchBundle (Bundle.alike_refl data)
      | put mount path data =>
          exact recorded.putBundle (Bundle.alike_refl data)
      | mounts =>
          exact ⟨.value (congrArg Std.ExtTreeSet.toList alike.listed),
            recorded⟩
      | enable mount description => exact recorded.enableEngine mount
      | close => exact ⟨.value trivial, recorded⟩

end Alike

end MemoryStore

/-- Guarded stores that are alike and behind the same plan of faults. -/
structure Guarded.Alike (secret : Location → String → Prop)
    (first second : Guarded MemoryStore) : Prop where
  inner : MemoryStore.Alike secret first.inner second.inner
  plan : first.plan = second.plan

theorem Guarded.alike_refl (store : Guarded MemoryStore) :
    Alike secret store store :=
  ⟨MemoryStore.alike_refl store.inner, rfl⟩

namespace Guarded.Alike

variable {first second : Guarded MemoryStore}

theorem connect (alike : Alike secret first second) :
    (MemoryStore.service.guarded.connect first).1 =
        (MemoryStore.service.guarded.connect second).1 ∧
      Alike secret (MemoryStore.service.guarded.connect first).2
        (MemoryStore.service.guarded.connect second).2 := by
  simp only [Service.guarded, alike.plan]
  split
  · exact ⟨rfl, alike.inner, rfl⟩
  · exact ⟨rfl, alike.inner, rfl⟩
  · exact ⟨rfl, alike.inner.record .connect, rfl⟩

theorem answer (alike : Alike secret first second) {call same : Call}
    (calls : Call.Alike secret call same) (client : Handle) :
    Outcome.Paired (Call.RepliesAlike secret call same)
        (MemoryStore.service.guarded.answer client call first).1
        (MemoryStore.service.guarded.answer client same second).1 ∧
      Alike secret (MemoryStore.service.guarded.answer client call first).2
        (MemoryStore.service.guarded.answer client same second).2 := by
  simp only [Service.guarded, alike.plan, calls.kind_eq]
  split
  · exact ⟨.fault _, alike.inner, rfl⟩
  · exact ⟨.crash _, alike.inner, rfl⟩
  · obtain ⟨replies, stores⟩ := alike.inner.answer calls
    exact ⟨replies, stores, rfl⟩

end Guarded.Alike

/-- Worlds in which the same notes were taken and the stores are alike. -/
structure World.Alike (secret : Location → String → Prop)
    (first second : World (Guarded MemoryStore)) : Prop where
  store : Guarded.Alike secret first.store second.store
  notes : first.notes = second.notes

end Alike

end KeyCustody
