import KeyCustody.Proofs.Http.Mounting

/-!
# The store in memory and its reference

A vault is the reference for a store in memory.  It knows an engine by its mount
point without outer slashes, and a bundle by that and its path without outer
slashes.  An engine is listed under its name with a slash behind it, and a path
that is refused is refused in every spelling.

The store in memory keeps three kinds of names instead: it lists an engine under
its mount point without any slashes, keeps a bundle at its place, and refuses
the very spelling of a path.  It behaves like the reference exactly for mount
points without inner slashes and for paths of which no two spellings are used.
-/

namespace KeyCustody

open Text

/-- What a store can be asked to do, through a client or from outside. -/
inductive Demand
  | mount (mount : String)
  | insert (mount path : String) (data : Bundle)
  | get (mount path : String)
  | remove (mount path : String)
  | refuseKey (key : String)
  | refusePath (path : String)
  | ask (call : Call)

/-- What a demand is answered with. -/
@[reducible]
def Demand.Reply : Demand → Type
  | .get _ _ | .remove _ _ => Option Bundle
  | .ask call => Outcome call.Reply
  | .mount _ | .insert _ _ _ | .refuseKey _ | .refusePath _ => Unit

/-- Meets demands one after the other.  The result holds each of them with its
reply. -/
def meetAll {σ : Type} (meet : σ → (demand : Demand) → demand.Reply × σ) :
    List Demand → σ → List ((demand : Demand) × demand.Reply) × σ
  | [], state => ([], state)
  | demand :: later, state =>
      let met := meet state demand
      let rest := meetAll meet later met.2
      (⟨demand, met.1⟩ :: rest.1, rest.2)

def MemoryStore.meet (store : MemoryStore) :
    (demand : Demand) → demand.Reply × MemoryStore
  | .mount mount => ((), store.mount mount)
  | .insert mount path data => ((), store.insert mount path data)
  | .get mount path => (store.get? mount path, store)
  | .remove mount path => (store.get? mount path, store.remove mount path)
  | .refuseKey key => ((), store.refuseKey key)
  | .refusePath path => ((), store.refusePath path)
  | .ask call => store.answer call

/-- The reference for a store in memory. -/
structure Vault where
  /-- The mount points of the engines, without outer slashes. -/
  engines : Std.ExtTreeSet String := ∅
  bundles : Location → Option Bundle := fun _ => none
  refusedKeys : List String := []
  /-- The paths that cannot be read, without outer slashes. -/
  refusedPaths : List String := []

namespace Vault

def mount (vault : Vault) (mount : String) : Vault :=
  { vault with engines := vault.engines.insert (trimSlashes mount) }

/-- The vault with a bundle at a place, or with none there. -/
def keep (vault : Vault) (place : Location) (bundle? : Option Bundle) :
    Vault :=
  { vault with
    bundles := fun other =>
      if other = place then bundle? else vault.bundles other }

/-- The names of the engines, in order. -/
def listing (vault : Vault) : List String :=
  (Std.ExtTreeSet.ofList
    (vault.engines.toList.map fun engine => engine ++ "/")).toList

/-- Why a write is not admitted, if it is not. -/
def writeFault? (vault : Vault) (mount path : String) (data : Bundle) :
    Option StoreError :=
  if ∃ key ∈ data.keys, key ∈ vault.refusedKeys then
    some (.internal
      ("injected write failure at " ++ (Location.of mount path).label))
  else if trimSlashes mount ∈ vault.engines then none
  else some (.noSuchPath mount path)

def read (vault : Vault) (mount path : String) : Outcome Bundle :=
  if trimSlashes path ∈ vault.refusedPaths then
    .fault (.internal
      ("injected read failure at " ++ (Location.of mount path).label))
  else
    match vault.bundles (Location.of mount path) with
    | some bundle => .value bundle
    | none => .fault (.noSuchPath mount path)

def patch (vault : Vault) (mount path : String) (data : Bundle) :
    Outcome Unit × Vault :=
  match vault.writeFault? mount path data with
  | some error => (.fault error, vault)
  | none =>
      match vault.bundles (Location.of mount path) with
      | none => (.fault (.noSuchPath mount path), vault)
      | some bundle =>
          (.value (), vault.keep (Location.of mount path)
            (MemoryStore.merged bundle data))

def put (vault : Vault) (mount path : String) (data : Bundle) :
    Outcome Unit × Vault :=
  match vault.writeFault? mount path data with
  | some error => (.fault error, vault)
  | none => (.value (), vault.keep (Location.of mount path) data)

def enable (vault : Vault) (mount : String) : Outcome Unit × Vault :=
  if trimSlashes mount ∈ vault.engines then
    (.fault (.invalidRequest
      ("path is already in use at " ++ servedName mount)), vault)
  else (.value (), vault.mount mount)

def answer (vault : Vault) : (call : Call) → Outcome call.Reply × Vault
  | .read mount path => (vault.read mount path, vault)
  | .patch mount path data => vault.patch mount path data
  | .put mount path data => vault.put mount path data
  | .mounts => (.value vault.listing, vault)
  | .enable mount _ => vault.enable mount
  | .close => (.value (), vault)

def meet (vault : Vault) : (demand : Demand) → demand.Reply × Vault
  | .mount mount => ((), vault.mount mount)
  | .insert mount path data =>
      ((), (vault.mount mount).keep (Location.of mount path) data)
  | .get mount path => (vault.bundles (Location.of mount path), vault)
  | .remove mount path =>
      (vault.bundles (Location.of mount path),
        vault.keep (Location.of mount path) none)
  | .refuseKey key =>
      ((), { vault with refusedKeys := key :: vault.refusedKeys })
  | .refusePath path =>
      ((), { vault with
        refusedPaths := trimSlashes path :: vault.refusedPaths })
  | .ask call => vault.answer call

end Vault

/-- Whether a demand names only mount points and paths out of the given ones. -/
def Demand.Within (mounts paths : String → Prop) : Demand → Prop
  | .mount name => mounts name
  | .insert name path _ | .get name path | .remove name path =>
      mounts name ∧ paths path
  | .refuseKey _ => True
  | .refusePath path => paths path
  | .ask (.read name path) | .ask (.patch name path _)
  | .ask (.put name path _) => mounts name ∧ paths path
  | .ask (.enable name _) => mounts name
  | .ask .mounts | .ask .close => True

/-- A store in memory that holds what its reference holds, as far as the given
mount points and paths can tell. -/
structure Vault.Matches (mounts paths : String → Prop) (vault : Vault)
    (store : MemoryStore) : Prop where
  listed : ∀ name, name ∈ store.listed ↔
    ∃ engine ∈ vault.engines, engine ++ "/" = name
  bundles : ∀ place, store.bundles[place]? = vault.bundles place
  refusedKeys : store.refusedKeys = vault.refusedKeys
  refusedPaths : ∀ mount path, mounts mount → paths path →
    (path ∈ store.refusedPaths ↔ trimSlashes path ∈ vault.refusedPaths)

namespace Vault.Matches

variable {mounts paths : String → Prop} {vault : Vault} {store : MemoryStore}
variable {mount path : String}

theorem empty : Matches mounts paths {} {} where
  listed := by simp
  bundles := by simp
  refusedKeys := rfl
  refusedPaths := by simp

theorem record (matched : Matches mounts paths vault store)
    (sighting : Sighting) :
    Matches mounts paths vault (store.record sighting) :=
  ⟨matched.listed, matched.bundles, matched.refusedKeys,
    matched.refusedPaths⟩

theorem keep (matched : Matches mounts paths vault store) (place : Location)
    (bundle : Bundle) :
    Matches mounts paths (vault.keep place bundle)
      { store with bundles := store.bundles.insert place bundle } :=
  { matched with
    bundles := by
      intro other
      simp only [Vault.keep]
      rw [getElem?_insert_eq_ite]
      split
      · rfl
      · exact matched.bundles other }

theorem clear (matched : Matches mounts paths vault store)
    (place : Location) :
    Matches mounts paths (vault.keep place none)
      { store with bundles := store.bundles.erase place } :=
  { matched with
    bundles := by
      intro other
      simp only [Vault.keep]
      rw [getElem?_erase_eq_ite]
      split
      · rfl
      · exact matched.bundles other }

theorem mounted (matched : Matches mounts paths vault store)
    (plain : listedName mount = servedName mount) :
    Matches mounts paths (vault.mount mount) (store.mount mount) :=
  { matched with
    listed := by
      intro name
      simp only [MemoryStore.mount, Vault.mount, plain, servedName,
        Std.ExtTreeSet.mem_insert, Std.compare_eq_iff_eq, matched.listed]
      constructor
      · rintro (rfl | ⟨engine, held, rfl⟩)
        · exact ⟨_, Or.inl rfl, rfl⟩
        · exact ⟨engine, Or.inr held, rfl⟩
      · rintro ⟨engine, rfl | held, rfl⟩
        · exact Or.inl rfl
        · exact Or.inr ⟨engine, held, rfl⟩ }

theorem refusePath (matched : Matches mounts paths vault store)
    (single : ∀ mount other, mounts mount → paths other →
      (other = path ↔ trimSlashes other = trimSlashes path)) :
    Matches mounts paths
      { vault with refusedPaths := trimSlashes path :: vault.refusedPaths }
      (store.refusePath path) :=
  { matched with
    refusedPaths := by
      intro mount other known named
      simp only [MemoryStore.refusePath, List.mem_cons,
        single mount other known named,
        matched.refusedPaths mount other known named] }

theorem listed_iff (matched : Matches mounts paths vault store)
    (plain : listedName mount = servedName mount) :
    listedName mount ∈ store.listed ↔ trimSlashes mount ∈ vault.engines := by
  rw [matched.listed, plain, servedName]
  constructor
  · rintro ⟨engine, held, same⟩
    rwa [← (String.append_left_inj _).1 same]
  · intro held
    exact ⟨_, held, rfl⟩

theorem listing_eq (matched : Matches mounts paths vault store) :
    store.listed.toList = vault.listing := by
  refine congrArg Std.ExtTreeSet.toList (Std.ExtTreeSet.ext_mem fun name => ?_)
  rw [matched.listed, Std.ExtTreeSet.mem_ofList, List.contains_iff_mem,
    List.mem_map]
  simp only [Std.ExtTreeSet.mem_toList]

theorem writeFault?_eq (matched : Matches mounts paths vault store)
    (plain : listedName mount = servedName mount) (path : String)
    (data : Bundle) :
    store.writeFault? mount path data = vault.writeFault? mount path data := by
  have listed := matched.listed_iff plain
  simp only [MemoryStore.writeFault?, Vault.writeFault?, matched.refusedKeys,
    List.any_eq_true, List.contains_iff_mem, listed,
    Std.ExtTreeSet.contains_iff_mem]

theorem read_eq (matched : Matches mounts paths vault store)
    (known : mounts mount) (named : paths path) :
    store.readBundle mount path = vault.read mount path := by
  have refused := matched.refusedPaths mount path known named
  cases held : vault.bundles (Location.of mount path) with
  | none =>
      simp [MemoryStore.readBundle, Vault.read, MemoryStore.get?,
        matched.bundles, refused, held]
  | some bundle =>
      simp [MemoryStore.readBundle, Vault.read, MemoryStore.get?,
        matched.bundles, refused, held]

theorem patch (matched : Matches mounts paths vault store)
    (plain : listedName mount = servedName mount) (path : String)
    (data : Bundle) :
    (store.patchBundle mount path data).1 =
        (vault.patch mount path data).1 ∧
      Matches mounts paths (vault.patch mount path data).2
        (store.patchBundle mount path data).2 := by
  simp only [MemoryStore.patchBundle, Vault.patch, MemoryStore.get?,
    matched.writeFault?_eq plain, matched.bundles]
  cases vault.writeFault? mount path data with
  | some error => exact ⟨rfl, matched⟩
  | none =>
      cases vault.bundles (Location.of mount path) with
      | none => exact ⟨rfl, matched⟩
      | some bundle => exact ⟨rfl, matched.keep _ _⟩

theorem put (matched : Matches mounts paths vault store)
    (plain : listedName mount = servedName mount) (path : String)
    (data : Bundle) :
    (store.putBundle mount path data).1 = (vault.put mount path data).1 ∧
      Matches mounts paths (vault.put mount path data).2
        (store.putBundle mount path data).2 := by
  simp only [MemoryStore.putBundle, Vault.put, matched.writeFault?_eq plain]
  cases vault.writeFault? mount path data with
  | some error => exact ⟨rfl, matched⟩
  | none => exact ⟨rfl, matched.keep _ _⟩

theorem enable (matched : Matches mounts paths vault store)
    (plain : listedName mount = servedName mount) :
    (store.enableEngine mount).1 = (vault.enable mount).1 ∧
      Matches mounts paths (vault.enable mount).2
        (store.enableEngine mount).2 := by
  have listed := matched.listed_iff plain
  rw [plain] at listed
  by_cases held : trimSlashes mount ∈ vault.engines
  · simpa [MemoryStore.enableEngine, Vault.enable, plain, listed, held]
      using matched
  · simpa [MemoryStore.enableEngine, Vault.enable, plain, listed, held]
      using matched.mounted plain

/-- A demand is met alike if the mount point it names has no inner slash and no
path is known in two spellings. -/
theorem meet (matched : Matches mounts paths vault store)
    (plain : ∀ mount, mounts mount → listedName mount = servedName mount)
    (single : ∀ mount path other, mounts mount → paths path → paths other →
      trimSlashes path = trimSlashes other → path = other)
    {demand : Demand} (names : demand.Within mounts paths) :
    (store.meet demand).1 = (vault.meet demand).1 ∧
      Matches mounts paths (vault.meet demand).2 (store.meet demand).2 := by
  cases demand with
  | mount name => exact ⟨rfl, matched.mounted (plain name names)⟩
  | insert name path data =>
      exact ⟨rfl, (matched.mounted (plain name names.1)).keep _ _⟩
  | get name path => exact ⟨matched.bundles _, matched⟩
  | remove name path => exact ⟨matched.bundles _, matched.clear _⟩
  | refuseKey key =>
      exact ⟨rfl, { matched with
        refusedKeys := congrArg (key :: ·) matched.refusedKeys }⟩
  | refusePath path =>
      refine ⟨rfl, matched.refusePath fun mount other known named => ?_⟩
      exact ⟨congrArg trimSlashes, single mount other path known named names⟩
  | ask call =>
      have recorded := matched.record call.sighting
      cases call with
      | read name path =>
          exact ⟨recorded.read_eq names.1 names.2, recorded⟩
      | patch name path data =>
          exact recorded.patch (plain name names.1) path data
      | put name path data =>
          exact recorded.put (plain name names.1) path data
      | mounts =>
          exact ⟨congrArg Outcome.value recorded.listing_eq, recorded⟩
      | enable name description => exact recorded.enable (plain name names)
      | close => exact ⟨rfl, recorded⟩

theorem meetAll (plain : ∀ mount, mounts mount →
      listedName mount = servedName mount)
    (single : ∀ mount path other, mounts mount → paths path → paths other →
      trimSlashes path = trimSlashes other → path = other)
    {demands : List Demand}
    (names : ∀ demand ∈ demands, demand.Within mounts paths)
    (matched : Matches mounts paths vault store) :
    (KeyCustody.meetAll MemoryStore.meet demands store).1 =
        (KeyCustody.meetAll Vault.meet demands vault).1 ∧
      Matches mounts paths (KeyCustody.meetAll Vault.meet demands vault).2
        (KeyCustody.meetAll MemoryStore.meet demands store).2 := by
  induction demands generalizing vault store with
  | nil => exact ⟨rfl, matched⟩
  | cons demand later ih =>
      obtain ⟨reply, left⟩ := matched.meet plain single
        (names demand List.mem_cons_self)
      obtain ⟨replies, last⟩ := ih (fun other member =>
        names other (List.mem_cons_of_mem _ member)) left
      refine ⟨?_, last⟩
      simp only [KeyCustody.meetAll, reply, replies]

end Vault.Matches

theorem toList_insert_empty (name : String) :
    ((∅ : Std.ExtTreeSet String).insert name).toList = [name] := by
  have one : ((∅ : Std.ExtTreeSet String).insert name).toList.length = 1 := by
    rw [Std.ExtTreeSet.length_toList, Std.ExtTreeSet.size_insert]
    simp
  obtain ⟨only, alone⟩ := List.length_eq_one_iff.1 one
  have held : name ∈ ((∅ : Std.ExtTreeSet String).insert name).toList := by
    simp
  rw [alone] at held ⊢
  rw [List.mem_singleton.1 held]

/-- What a store in memory lists after it mounts an engine, where its reference
lists the engine by its name. -/
theorem listing_after_mount (mount : String) :
    (meetAll MemoryStore.meet [.mount mount, .ask .mounts] {}).1 =
        [⟨.mount mount, ()⟩, ⟨.ask .mounts, .value [listedName mount]⟩] ∧
      (meetAll Vault.meet [.mount mount, .ask .mounts] {}).1 =
        [⟨.mount mount, ()⟩, ⟨.ask .mounts, .value [servedName mount]⟩] := by
  have real := toList_insert_empty (listedName mount)
  have engines := toList_insert_empty (trimSlashes mount)
  have reference := toList_insert_empty (servedName mount)
  constructor
  · simp only [meetAll, MemoryStore.meet, MemoryStore.answer,
      MemoryStore.record, MemoryStore.mount, real]
  · simp only [meetAll, Vault.meet, Vault.answer, Vault.listing, Vault.mount,
      engines, List.map_cons, List.map_nil, Std.ExtTreeSet.ofList_singleton]
    exact congrArg (fun names => [_, (⟨.ask .mounts, .value names⟩ :
      (demand : Demand) × demand.Reply)]) reference

theorem read_after_refusal {path other : String} (mount : String)
    (same : trimSlashes path = trimSlashes other) (differ : path ≠ other) :
    (meetAll MemoryStore.meet
        [.refusePath path, .ask (.read mount other)] {}).1 =
        [⟨.refusePath path, ()⟩, ⟨.ask (.read mount other),
          .fault (.noSuchPath mount other)⟩] ∧
      (meetAll Vault.meet
        [.refusePath path, .ask (.read mount other)] {}).1 =
        [⟨.refusePath path, ()⟩, ⟨.ask (.read mount other),
          .fault (.internal ("injected read failure at " ++
            (Location.of mount other).label))⟩] := by
  constructor
  · simp [meetAll, MemoryStore.meet, MemoryStore.answer, MemoryStore.record,
      MemoryStore.refusePath, MemoryStore.readBundle, MemoryStore.get?,
      differ.symm]
  · simp [meetAll, Vault.meet, Vault.answer, Vault.read, same]

/-- A store in memory meets all demands as its reference does, with the same
bundles in the end, exactly for mount points without inner slashes and paths of
which no two spellings are used. -/
theorem meets_as_vault_iff (mounts paths : String → Prop) :
    (∀ demands : List Demand,
      (∀ demand ∈ demands, demand.Within mounts paths) →
      let real := meetAll MemoryStore.meet demands {}
      let reference := meetAll Vault.meet demands {}
      real.1 = reference.1 ∧
        ∀ place, real.2.bundles[place]? = reference.2.bundles place) ↔
    ∀ mount, mounts mount → '/' ∉ (trimSlashes mount).toList ∧
      ∀ path other, paths path → paths other →
        trimSlashes path = trimSlashes other → path = other := by
  constructor
  · intro alike mount known
    constructor
    · have same := (alike [.mount mount, .ask .mounts]
        (by simp [Demand.Within, known])).1
      obtain ⟨real, reference⟩ := listing_after_mount mount
      rw [real, reference] at same
      refine listedName_eq_servedName_iff.1 ?_
      simpa using same
    · intro path other named namedToo sameTrimmed
      by_contra differ
      have same := (alike [.refusePath path, .ask (.read mount other)]
        (by simp [Demand.Within, known, named, namedToo])).1
      obtain ⟨real, reference⟩ := read_after_refusal mount sameTrimmed differ
      rw [real, reference] at same
      simp [StoreError.noSuchPath] at same
  · intro proper demands names
    obtain ⟨replies, last⟩ := Vault.Matches.empty.meetAll
      (fun mount known => listedName_eq_servedName_iff.2 (proper mount known).1)
      (fun mount path other known named namedToo =>
        (proper mount known).2 path other named namedToo) names
    exact ⟨replies, last.bundles⟩

/-- An engine mounted and asked for in two spellings. -/
def usualDemands : List Demand :=
  [.mount "/kv/", .ask (.put "kv" "p" (Bundle.ofEntries [("k", .null)])),
    .refusePath "p", .ask (.read "/kv" "p"), .ask (.enable "kv" "more"),
    .ask .mounts]

/-- Outer slashes of a mount point make no difference. -/
theorem meets_as_vault_usual :
    (∀ mount, mount ∈ ["kv", "/kv", "/kv/"] →
      '/' ∉ (trimSlashes mount).toList) ∧
    (meetAll MemoryStore.meet usualDemands {}).1 =
      (meetAll Vault.meet usualDemands {}).1 := by
  have plain : ∀ mount, mount ∈ ["kv", "/kv", "/kv/"] →
      '/' ∉ (trimSlashes mount).toList := by
    decide
  have alike := (meets_as_vault_iff (· ∈ ["kv", "/kv", "/kv/"]) (· = "p")).2
    fun mount known => ⟨plain mount known, fun path other named namedToo _ =>
      named.trans namedToo.symm⟩
  refine ⟨plain, (alike usualDemands ?_).1⟩
  simp [usualDemands, Demand.Within]

/-- A nested mount point is mounted and another one is written to. -/
def nestedDemands : List Demand :=
  [.mount "a/b", .ask (.put "ab" "p" (Bundle.ofEntries [("k", .null)]))]

/-- A path is refused and read in another spelling. -/
def respelledDemands : List Demand :=
  [.insert "m" "p" (Bundle.ofEntries [("k", .null)]), .refusePath "p",
    .ask (.read "m" "/p")]

/-- The store in memory admits the write and the read, its reference neither. -/
theorem meets_unlike_vault :
    (meetAll MemoryStore.meet nestedDemands {}).1 ≠
      (meetAll Vault.meet nestedDemands {}).1 ∧
    (meetAll MemoryStore.meet respelledDemands {}).1 ≠
      (meetAll Vault.meet respelledDemands {}).1 := by
  let data := Bundle.ofEntries [("k", .null)]
  have admitted : (meetAll MemoryStore.meet nestedDemands {}).1 =
      [⟨.mount "a/b", ()⟩, ⟨.ask (.put "ab" "p" data), .value ()⟩] := by
    rfl
  have unmounted : (meetAll Vault.meet nestedDemands {}).1 =
      [⟨.mount "a/b", ()⟩,
        ⟨.ask (.put "ab" "p" data), .fault (.pathNotFound "ab/p")⟩] := by
    rfl
  have read : (meetAll MemoryStore.meet respelledDemands {}).1 =
      [⟨.insert "m" "p" data, ()⟩, ⟨.refusePath "p", ()⟩,
        ⟨.ask (.read "m" "/p"), .value data⟩] := by
    rfl
  have refused : (meetAll Vault.meet respelledDemands {}).1 =
      [⟨.insert "m" "p" data, ()⟩, ⟨.refusePath "p", ()⟩,
        ⟨.ask (.read "m" "/p"),
          .fault (.internal "injected read failure at m/p")⟩] := by
    rfl
  constructor
  · rw [admitted, unmounted]
    simp
  · rw [read, refused]
    simp

end KeyCustody
