import KeyCustody.Proofs.KeyRing.Issuing
import KeyCustody.Proofs.Session.Fulfilment

/-!
# Reading keys back

Keys are added for users, under ids of the callers' choice, and the session is
committed to a store in memory that refuses none of them.  Whoever then
resolves ids of a user gets for each id the key that was added last under it,
or the text of the value that was there before.  Keys of other users make no
difference.
-/

namespace KeyCustody

namespace Write

/-- The last one of writes to an entry. -/
def last? (writes : List Write) (place : Location) (key : String) :
    Option Write :=
  writes.reverse.find? fun write => write.Names place key

theorem last?_cons (write : Write) (later : List Write) (place : Location)
    (key : String) :
    last? (write :: later) place key =
      (last? later place key).or
        (if write.Names place key then some write else none) := by
  rw [last?, List.reverse_cons, List.find?_append, ← last?]
  by_cases names : write.Names place key <;> simp [names]

theorem value?_setAll_eq (writes : List Write) (bundles : Bundles)
    (place : Location) (key : String) :
    (setAll writes bundles).value? place key =
      ((last? writes place key).map fun write => .string write.value).or
        (bundles.value? place key) := by
  induction writes generalizing bundles with
  | nil => rfl
  | cons write later ih =>
      change (setAll later (write.setIn bundles)).value? place key = _
      rw [ih, value?_setIn, last?_cons]
      cases last? later place key with
      | some last => rfl
      | none => by_cases names : write.Names place key <;> simp [names]

theorem mem_setIn {write : Write} {bundles : Bundles} {place : Location} :
    place ∈ write.setIn bundles ↔ write.place = place ∨ place ∈ bundles := by
  simp [setIn, Bundles.withEntry]

theorem mem_setAll {writes : List Write} {bundles : Bundles}
    {place : Location} :
    place ∈ setAll writes bundles ↔
      place ∈ bundles ∨ ∃ write ∈ writes, write.place = place := by
  induction writes generalizing bundles with
  | nil => simp [setAll]
  | cons write later ih =>
      change place ∈ setAll later (write.setIn bundles) ↔ _
      rw [ih, mem_setIn]
      simp [or_assoc, or_left_comm]

end Write

namespace KeyRing

/-- A key that is added for a user, under an id of the caller's choice. -/
structure Addition where
  user : Uuid
  id : String
  key : Uuid
deriving DecidableEq, Repr

def addAll (ring : KeyRing) (session : Session) (additions : List Addition) :
    Session :=
  additions.foldl (fun session addition =>
    ring.add session addition.user addition.id addition.key) session

/-- The key that was added last for a user under an id. -/
def lastAdded? (additions : List Addition) (user : Uuid) (id : String) :
    Option Uuid :=
  (additions.reverse.find? fun addition =>
    addition.user = user ∧ addition.id = id).map Addition.key

/-- The text that an id of a user has once keys are added: that of the key that
was added last under it, or else that of the value that was there before. -/
def textAfter? (ring : KeyRing) (bundles : Bundles)
    (additions : List Addition) (user : Uuid) (id : String) : Option String :=
  ((lastAdded? additions user id).map Uuid.toString).or
    ((bundles.value? (ring.place user) id).map keyText)

section Additions

variable {ring : KeyRing}

def writeOf (ring : KeyRing) (addition : Addition) : Write where
  mount := ring.mount
  path := addition.user.toString
  key := addition.id
  value := addition.key.toString

theorem addAll_eq (session : Session) (additions : List Addition) :
    ring.addAll session additions =
      session.addWrites (additions.map ring.writeOf) := by
  rw [Session.addWrites, List.foldl_map]
  rfl

theorem place_writeOf {addition : Addition} {user : Uuid} :
    (ring.writeOf addition).place = ring.place user ↔
      addition.user = user :=
  (ring.place_injective).eq_iff

theorem last?_writeOf (additions : List Addition) (user : Uuid)
    (id : String) :
    (Write.last? (additions.map ring.writeOf) (ring.place user) id).map
        Write.value =
      (lastAdded? additions user id).map Uuid.toString := by
  have names (addition : Addition) :
      (ring.writeOf addition).Names (ring.place user) id ↔
        addition.user = user ∧ addition.id = id :=
    and_congr place_writeOf Iff.rfl
  rw [Write.last?, ← List.map_reverse, List.find?_map, lastAdded?,
    Option.map_map, Option.map_map]
  simp only [Function.comp_def, names]
  rfl

theorem keyText_value?_setAll (bundles : Bundles) (additions : List Addition)
    (user : Uuid) (id : String) :
    (Bundles.value? (Write.setAll (additions.map ring.writeOf) bundles)
        (ring.place user) id).map keyText =
      ring.textAfter? bundles additions user id := by
  rw [Write.value?_setAll_eq, textAfter?, ← last?_writeOf, Option.map_or]
  congr 1
  cases Write.last? (additions.map ring.writeOf) (ring.place user) id <;> rfl

theorem lastAdded?_eq_none {additions : List Addition} {user : Uuid}
    {id : String} :
    lastAdded? additions user id = none ↔
      ∀ addition ∈ additions, ¬ (addition.user = user ∧ addition.id = id) := by
  simp [lastAdded?]

theorem textAfter?_eq_none {bundles : Bundles} {additions : List Addition}
    {user : Uuid} {id : String} :
    ring.textAfter? bundles additions user id = none ↔
      (∀ addition ∈ additions,
        ¬ (addition.user = user ∧ addition.id = id)) ∧
      bundles.value? (ring.place user) id = none := by
  rw [textAfter?, Option.or_eq_none_iff, Option.map_eq_none_iff,
    Option.map_eq_none_iff, lastAdded?_eq_none]

end Additions

/-- Resolving ids of a user with a bundle pairs each id with the text of what is
stored under it. -/
theorem run_resolve {ring : KeyRing} {user : Uuid} {world : World MemoryStore}
    (readable : user.toString ∉ world.store.refusedPaths)
    (found : ring.place user ∈ world.store.bundles) (reader : Session)
    {ids : List String} (asked : ids ≠ []) :
    ((ring.resolve reader user ids).run MemoryStore.service world).1 =
      .value (ids.map fun id => ⟨id,
        (Bundles.value? world.store.bundles (ring.place user) id).map
          keyText⟩) := by
  obtain ⟨bundle, held⟩ :=
    Option.isSome_iff_exists.1 (Std.ExtTreeMap.isSome_getElem?_iff_mem.2 found)
  have answered : (MemoryStore.service.answer reader.client
      (.read ring.mount user.toString) world.store).1 = .value bundle := by
    have there : world.store.bundles[Location.of ring.mount user.toString]? =
        some bundle := held
    simp [MemoryStore.service, MemoryStore.answer, MemoryStore.readBundle,
      MemoryStore.record, MemoryStore.get?, readable, there]
  have some : ids.isEmpty = false := by simpa using asked
  have read : ((ring.keysOf reader user).run MemoryStore.service world).1 =
      .value bundle :=
    congrArg Outcome.inBackground answered
  rw [resolve, some, if_neg Bool.false_ne_true]
  simp [read, Outcome.map, Bundles.value?, held]

/-- Adding keys in a fresh session and committing it succeeds if the store
refuses none of the ids.  Then a user has a bundle if there was one or a key was
added for the user.  Ids of a user with a bundle that can be read resolve, in
the order in which they are asked for and each as often, to the keys that were
added last under them or the texts of what was there before; only ids with
neither resolve to nothing. -/
theorem resolve_reads_added {ring : KeyRing} {store : MemoryStore}
    {number : Nat} {client : Handle} {additions : List Addition} {user : Uuid}
    (admitted : ∀ addition ∈ additions, addition.id ∉ store.refusedKeys)
    (readable : user.toString ∉ store.refusedPaths) :
    let session := ring.addAll { id := number, client } additions
    let done := session.commit.run MemoryStore.service { store }
    done.1.1 = .value () ∧
    (ring.place user ∈ done.2.store.bundles ↔
      ring.place user ∈ store.bundles ∨
        ∃ addition ∈ additions, addition.user = user) ∧
    (ring.place user ∈ done.2.store.bundles →
      ∀ reader ids, ids ≠ [] →
        ((ring.resolve reader user ids).run MemoryStore.service done.2).1 =
          .value (ids.map fun id =>
            ⟨id, ring.textAfter? store.bundles additions user id⟩)) ∧
    ∀ id, ring.textAfter? store.bundles additions user id = none ↔
      (∀ addition ∈ additions,
        ¬ (addition.user = user ∧ addition.id = id)) ∧
      Bundles.value? store.bundles (ring.place user) id = none := by
  intro session done
  have isSession : session =
      Session.ofWrites number client (additions.map ring.writeOf) :=
    (addAll_eq _ additions).trans (Session.addWrites_pending _ _ [] _)
  have refusesNone : ∀ write ∈ additions.map ring.writeOf,
      write.key ∉ store.refusedKeys := by
    rw [List.forall_mem_map]
    exact admitted
  obtain ⟨reached, commits, bundles, _⟩ :=
    Session.run_commit_fulfilled number client store refusesNone
  have run : done = ((.value (), { id := number, client, committed := true }),
      reached) := by
    rw [← commits, ← isSession]
  have continues := MemoryStore.run_continues session.commit { store }
  change MemoryStore.Continues store done.2.store at continues
  rw [run] at continues ⊢
  refine ⟨rfl, ?_, ?_, fun id => textAfter?_eq_none⟩
  · rw [bundles, Write.mem_setAll]
    simp [place_writeOf]
  · intro found reader ids asked
    rw [run_resolve (by rw [continues.refusedPaths]; exact readable) found
      reader asked, bundles]
    simp only [keyText_value?_setAll]

/-- A store that holds a number among the keys of a user and refuses ids and
paths that are none of the user's. -/
def usedStore : MemoryStore :=
  ((MemoryStore.insert {} "keys" (Uuid.toString ⟨1⟩) (Bundle.ofEntries
    [("limit", .int 25), ("web", .string "old")])).refuseKey
      "closed").refusePath "closed"

/-- The first user gets a key twice under one id, and another user gets one
under an id of the first user's. -/
def usedAdditions : List Addition :=
  [⟨⟨1⟩, "web", ⟨2⟩⟩, ⟨⟨4⟩, "limit", ⟨5⟩⟩, ⟨⟨1⟩, "web", ⟨3⟩⟩]

set_option maxRecDepth 10000 in
theorem resolve_reads_added_used :
    let ring : KeyRing := ⟨"/keys/"⟩
    let session := ring.addAll { id := 1, client := 1 } usedAdditions
    let done := session.commit.run MemoryStore.service { store := usedStore }
    ((ring.resolve done.1.2 ⟨1⟩ ["limit", "web", "none", "web"]).run
        MemoryStore.service done.2).1 =
      .value [⟨"limit", some "25"⟩, ⟨"web", some (Uuid.toString ⟨3⟩)⟩,
        ⟨"none", none⟩, ⟨"web", some (Uuid.toString ⟨3⟩)⟩] := by
  have result := @resolve_reads_added ⟨"/keys/"⟩ usedStore 1 1
    usedAdditions ⟨1⟩ (by decide) (by decide)
  dsimp only at result ⊢
  generalize (Session.commit _).run MemoryStore.service _ = done at result ⊢
  obtain ⟨_, holds, resolves, _⟩ := result
  have there : place ⟨"/keys/"⟩ ⟨1⟩ ∈ done.2.store.bundles :=
    holds.2 (Or.inr ⟨⟨⟨1⟩, "web", ⟨2⟩⟩, by decide, rfl⟩)
  rw [resolves there _ _ (by decide)]
  decide

end KeyRing

end KeyCustody
