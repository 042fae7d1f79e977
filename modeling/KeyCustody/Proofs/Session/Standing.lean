import KeyCustody.Proofs.Dialogue.Duet
import KeyCustody.Proofs.Session.Conduct
import KeyCustody.Proofs.Store.Continuity
import KeyCustody.Proofs.Text.Slashes

/-!
# Writes that stand

A session has carried a write out, and goes on with other entries, while another
session goes about its own writes by the rules of a commit.  A call leaves the
entry alone, or it puts the whole bundle.  A bundle that is put by the rules
goes by the last probe of it: if the probe came after the write, it found the
entry, and the entry is put back; if it came before, the entry may be lost.
-/

namespace KeyCustody

/-- One place belongs to one engine, however its mount point is spelled. -/
theorem listedName_of_place {mount path another other : String}
    (same : Location.of mount path = Location.of another other) :
    listedName mount = listedName another := by
  have trimmed : Text.trimSlashes mount = Text.trimSlashes another :=
    congrArg Location.mount same
  have erased (name : String) :
      Text.eraseSlashes (Text.trimSlashes name) = Text.eraseSlashes name := by
    simp only [Text.eraseSlashes, Text.trimSlashes, String.toList_ofList]
    rw [Text.filter_trim]
  rw [listedName, listedName, ← erased mount, ← erased another, trimmed]

/-- A call that leaves an entry alone, whether it succeeds or not. -/
def Call.Spares (place : Location) (key : String) : Call → Prop
  | .patch mount path data => Location.of mount path = place → key ∉ data
  | .put mount path _ => Location.of mount path ≠ place
  | _ => True

theorem Write.mem_data {write : Write} {key : String} :
    key ∈ write.data ↔ key = write.key := by
  rw [Write.data, Bundle.ofEntries_single, Std.ExtTreeMap.mem_insert,
    Std.compare_eq_iff_eq]
  simp [eq_comm]

theorem Write.spares_patch {write : Write} {place : Location} {key : String}
    (apart : ¬ write.Names place key) :
    (Call.patch write.mount write.path write.data).Spares place key :=
  fun here held => apart ⟨here, (Write.mem_data.1 held).symm⟩

namespace MemoryStore

theorem getElem?_merged {bundle data : Bundle} {key : String}
    (absent : key ∉ data) : (merged bundle data)[key]? = bundle[key]? := by
  refine Std.ExtTreeMap.getElem?_insertMany_list_of_contains_eq_false ?_
  rw [Std.ExtTreeMap.map_fst_toList_eq_keys, Std.ExtTreeMap.contains_keys]
  exact Bool.eq_false_iff.2 absent

theorem value?_answer {call : Call} {place : Location} {key : String}
    (spares : call.Spares place key) (store : MemoryStore) :
    Bundles.value? (store.answer call).2.bundles place key =
      Bundles.value? store.bundles place key := by
  cases call with
  | read mount path => rfl
  | mounts => rfl
  | close => rfl
  | enable mount description =>
      simp only [answer, enableEngine]
      split <;> rfl
  | put mount path data =>
      rcases service_relays.put 0 mount path data store trivial with
        ⟨_, _, changed⟩ | ⟨_, same⟩
      · refine (congrArg (Bundles.value? · place key) changed).trans ?_
        rw [Bundles.value?_insert, if_neg (Ne.symm spares)]
        rfl
      · exact congrArg (Bundles.value? · place key) same
  | patch mount path data =>
      rcases service_relays.patch 0 mount path data store trivial with
        ⟨_, bundle, held, changed⟩ | ⟨_, same, _⟩
      · have heldHere : store.bundles[Location.of mount path]? =
            some bundle := held
        refine (congrArg (Bundles.value? · place key) changed).trans ?_
        rw [Bundles.value?_insert]
        split
        next here =>
          rw [getElem?_merged (spares here.symm), here, Bundles.value?,
            heldHere]
          rfl
        next => rfl
      · exact congrArg (Bundles.value? · place key) same

theorem listed_of_admitted {store : MemoryStore} {mount path : String}
    {data : Bundle} (admitted : store.writeFault? mount path data = none) :
    listedName mount ∈ store.listed := by
  unfold writeFault? at admitted
  split at admitted
  · cases admitted
  · split at admitted
    next listed => exact Std.ExtTreeSet.contains_iff_mem.1 listed
    next => cases admitted

theorem listed_of_patch {store : MemoryStore} {mount path : String}
    {data : Bundle}
    (succeeds : (store.answer (.patch mount path data)).1 = .value ()) :
    listedName mount ∈ store.listed := by
  simp only [answer, patchBundle] at succeeds
  split at succeeds
  · cases succeeds
  next admitted => exact listed_of_admitted admitted

theorem patch_present {store : MemoryStore} {mount path : String}
    (listed : listedName mount ∈ store.listed)
    (present : Location.of mount path ∈ store.bundles) (data : Bundle)
    (detail : String) :
    (store.answer (.patch mount path data)).1 ≠
      .fault (.pathNotFound detail) := by
  intro missing
  rcases service_relays.patch 0 mount path data store trivial with
    ⟨succeeds, _⟩ | ⟨_, _, absent⟩
  · exact absurd (missing.symm.trans succeeds) nofun
  · have still := (Continues.answer (.patch mount path data) store).listed _
      (Std.ExtTreeSet.contains_iff_mem.2 listed)
    have none : store.bundles[Location.of mount path]? = none :=
      absent detail missing still
    rw [Std.ExtTreeMap.mem_iff_isSome_getElem?, none] at present
    exact absurd present Bool.false_ne_true

end MemoryStore

namespace Exchange

/-- The exchange tells a party what it may go on to put at a place. -/
def Probes (place : Location) : Exchange → Prop
  | ⟨.patch mount path _, .fault (.pathNotFound _)⟩
  | ⟨.read mount path, .value _⟩ => Location.of mount path = place
  | _ => False

/-- The exchange puts a bundle at a place. -/
def Puts (place : Location) : Exchange → Prop
  | ⟨.put mount path _, .value _⟩ => Location.of mount path = place
  | _ => False

/-- The exchange sets the entry of a write. -/
def Carries (write : Write) (exchange : Exchange) : Prop :=
  exchange = ⟨.patch write.mount write.path write.data, .value ()⟩ ∨
    exchange = ⟨.put write.mount write.path write.data, .value ()⟩

/-- If the exchange is a probe of the bundle of a write, then it finds the entry
in it. -/
def Finds (write : Write) : Exchange → Prop
  | ⟨.patch mount path _, .fault (.pathNotFound _)⟩ =>
      Location.of mount path ≠ write.place
  | ⟨.read mount path, .value bundle⟩ =>
      Location.of mount path = write.place →
        bundle[write.key]? = some (.string write.value)
  | _ => True

end Exchange

/-- A party probed a bundle in the last of its earlier exchanges and put it in
the first of its later ones. -/
def Straddles (place : Location) (earlier later : List Exchange) : Prop :=
  ∃ probe put, earlier.getLast? = some probe ∧ probe.Probes place ∧
    later.head? = some put ∧ put.Puts place

theorem Straddles.append {place : Location} {earlier later : List Exchange}
    (straddles : Straddles place earlier later) (more : List Exchange) :
    Straddles place earlier (later ++ more) := by
  obtain ⟨probe, put, last, probes, first, puts⟩ := straddles
  refine ⟨probe, put, last, probes, ?_, puts⟩
  rw [List.head?_append, first]
  rfl

namespace Write

open MemoryStore

/-- The entry of a write is there and all probes after it was written have found
it, or the write came in between a probe and a put of the other side. -/
def Kept (write : Write) (store : MemoryStore) (earlier later : List Exchange) :
    Prop :=
  (Bundles.value? store.bundles write.place write.key =
      some (.string write.value) ∧
    ∀ exchange, later.getLast? = some exchange → exchange.Finds write) ∨
  Straddles write.place earlier later

/-- A side has carried a write out, and has not written the entry again. -/
structure Stands (write : Write) (side : Side) (shared : Shared MemoryStore) :
    Prop where
  listed : listedName write.mount ∈ shared.store.listed
  present : write.place ∈ shared.store.bundles
  kept : ∃ earlier line later,
    shared.lines = earlier ++ (side, line) :: later ∧ line.Carries write ∧
      (∀ exchange ∈ linesOf side later,
        exchange.call.Spares write.place write.key) ∧
      write.Kept shared.store (linesOf side.other earlier)
        (linesOf side.other later)

variable {write : Write} {side : Side} {shared : Shared MemoryStore}
  {writes : List Write}

theorem finds_answer {store : MemoryStore}
    (listed : listedName write.mount ∈ store.listed)
    (present : write.place ∈ store.bundles)
    (held : Bundles.value? store.bundles write.place write.key =
      some (.string write.value)) (call : Call) :
    Exchange.Finds write ⟨call, (store.answer call).1⟩ := by
  cases call with
  | patch mount path data =>
      generalize answered : (store.answer (.patch mount path data)).1 = reply
      cases reply with
      | value result => trivial
      | crash message => trivial
      | fault error =>
          cases error with
          | pathNotFound detail =>
              intro here
              refine patch_present ?_ ?_ data detail answered
              · rw [listedName_of_place here]
                exact listed
              · rw [here]
                exact present
          | _ => trivial
  | read mount path =>
      obtain ⟨_, found, _⟩ :=
        service_relays.read 0 mount path store trivial
      generalize answered : (store.answer (.read mount path)).1 = reply
      cases reply with
      | value bundle =>
          intro here
          have bundleThere : store.bundles[Location.of mount path]? =
              some bundle := found bundle answered
          rw [Bundles.value?, ← here, bundleThere] at held
          exact held
      | fault error => trivial
      | crash message => trivial
  | put mount path data => trivial
  | enable mount description => trivial
  | mounts => trivial
  | close => trivial

/-- A call of the side itself that leaves the entry alone. -/
theorem Stands.own (stands : write.Stands side shared) {call : Call}
    (spares : call.Spares write.place write.key) (client : Handle) :
    write.Stands side (shared.answer service side client call).2 := by
  obtain ⟨listed, present, earlier, line, later, lines, carries, settled,
    kept⟩ := stands
  have continues := Continues.answer call shared.store
  refine ⟨continues.mem_listed listed, continues.bundles _ present, earlier,
    line, later ++ [(side, ⟨call, (shared.store.answer call).1⟩)], ?_, carries,
    ?_, ?_⟩
  · simp [Shared.answer, service, lines]
  · rw [linesOf_append, linesOf_own]
    exact List.forall_mem_append.2
      ⟨settled, List.forall_mem_singleton.2 spares⟩
  · rw [linesOf_append, linesOf_other, List.append_nil]
    refine kept.imp_left ?_
    rintro ⟨held, found⟩
    exact ⟨(value?_answer spares shared.store).trans held, found⟩

/-- A call that the rules allow writes no entry but those of the writes, apart
from putting bundles. -/
theorem spares_or_puts {last : Option Exchange} {call : Call}
    (permitted : Conduct writes last call)
    (apart : ∀ other ∈ writes, ¬ other.Names write.place write.key) :
    call.Spares write.place write.key ∨
      ∃ mount path data, call = .put mount path data ∧
        Location.of mount path = write.place := by
  cases call with
  | put mount path data =>
      by_cases here : Location.of mount path = write.place
      · exact Or.inr ⟨mount, path, data, rfl, here⟩
      · exact Or.inl here
  | patch mount path data =>
      obtain ⟨other, queued, rfl, rfl, rfl⟩ := permitted
      exact Or.inl (spares_patch (apart other queued))
  | read mount path => exact Or.inl trivial
  | enable mount description => exact Or.inl trivial
  | mounts => exact Or.inl trivial
  | close => exact Or.inl trivial

/-- A bundle that is put by the rules after a probe that found the entry holds
the entry. -/
theorem getElem?_put {exchange : Exchange} {mount path : String}
    {data : Bundle}
    (permitted : Conduct writes (some exchange) (.put mount path data))
    (here : Location.of mount path = write.place)
    (apart : ∀ other ∈ writes, ¬ other.Names write.place write.key)
    (found : exchange.Finds write) :
    data[write.key]? = some (.string write.value) := by
  obtain ⟨other, queued, rfl, rfl, ⟨detail, ⟨⟩⟩ | ⟨bundle, ⟨⟩, rfl⟩⟩ := permitted
  · exact absurd here found
  · have differs : write.key ≠ other.key := fun same =>
      apart other queued ⟨here, same.symm⟩
    rw [getElem?_erase_eq_ite, if_neg differs]
    exact found here

theorem probes_of_put {last : Option Exchange} {mount path : String}
    {data : Bundle} (permitted : Conduct writes last (.put mount path data)) :
    ∃ probe, last = some probe ∧ probe.Probes (Location.of mount path) := by
  obtain ⟨other, _, rfl, rfl, ⟨detail, rfl⟩ | ⟨bundle, rfl, _⟩⟩ := permitted
  · exact ⟨_, rfl, rfl⟩
  · exact ⟨_, rfl, rfl⟩

/-- What a call of the other side makes of a kept entry. -/
theorem Kept.answer {store : MemoryStore} {earlier later : List Exchange}
    (kept : write.Kept store earlier later)
    (listed : listedName write.mount ∈ store.listed)
    (present : write.place ∈ store.bundles) {call : Call}
    (permitted : Conduct writes (later.getLast?.or earlier.getLast?) call)
    (apart : ∀ other ∈ writes, ¬ other.Names write.place write.key) :
    write.Kept (store.answer call).2 earlier
      (later ++ [⟨call, (store.answer call).1⟩]) := by
  rcases kept with ⟨held, found⟩ | straddles
  · have finds : ∀ exchange, (later ++
        [Exchange.mk call (store.answer call).1]).getLast? = some exchange →
          exchange.Finds write := by
      intro exchange isLast
      rw [List.getLast?_concat] at isLast
      cases isLast
      exact finds_answer listed present held call
    rcases spares_or_puts permitted apart with
      spares | ⟨mount, path, data, rfl, here⟩
    · exact Or.inl ⟨(value?_answer spares store).trans held, finds⟩
    · rcases service_relays.put 0 mount path data store trivial with
        ⟨succeeds, _, changed⟩ | ⟨_, same⟩
      · -- The last probe of the other side either came after the write and
        -- found the entry, or the write came in between.
        cases probed : later.getLast? with
        | some exchange =>
            rw [probed] at permitted
            have carried := getElem?_put permitted here apart
              (found exchange probed)
            refine Or.inl ⟨?_, finds⟩
            refine (congrArg
              (Bundles.value? · write.place write.key) changed).trans ?_
            rw [Bundles.value?_insert, if_pos here.symm, carried]
        | none =>
            rw [probed, Option.none_or] at permitted
            obtain ⟨probe, isLast, probes⟩ := probes_of_put permitted
            rw [here] at probes
            obtain rfl : later = [] := List.getLast?_eq_none_iff.1 probed
            have puts : Exchange.Puts write.place
                ⟨.put mount path data,
                  (store.answer (.put mount path data)).1⟩ := by
              have answered : (store.answer (.put mount path data)).1 =
                  .value () := succeeds
              rw [answered]
              exact here
            exact Or.inr ⟨probe, _, isLast, probes, rfl, puts⟩
      · refine Or.inl ⟨?_, finds⟩
        exact (congrArg
          (Bundles.value? · write.place write.key) same).trans held
  · exact Or.inr (straddles.append _)

theorem Stands.foreign (stands : write.Stands side shared) {call : Call}
    (permitted : Conduct writes (shared.last? side.other) call)
    (apart : ∀ other ∈ writes, ¬ other.Names write.place write.key)
    (client : Handle) :
    write.Stands side (shared.answer service side.other client call).2 := by
  obtain ⟨listed, present, earlier, line, later, lines, carries, settled,
    kept⟩ := stands
  have continues := Continues.answer call shared.store
  have lastIs : shared.last? side.other =
      (linesOf side.other later).getLast?.or
        (linesOf side.other earlier).getLast? := by
    have own : linesOf side.other ((side, line) :: later) =
        linesOf side.other later := by
      rw [← List.singleton_append, linesOf_append, linesOf_other,
        List.nil_append]
    rw [Shared.last?, lines, linesOf_append, own, List.getLast?_append]
  rw [lastIs] at permitted
  refine ⟨continues.mem_listed listed, continues.bundles _ present, earlier,
    line, later ++ [(side.other, ⟨call, (shared.store.answer call).1⟩)], ?_,
    carries, ?_, ?_⟩
  · simp [Shared.answer, service, lines]
  · rw [linesOf_append, linesOf_of_other, List.append_nil]
    exact settled
  · rw [linesOf_append, linesOf_own]
    exact kept.answer listed present permitted apart

theorem Stands.disturbed (stands : write.Stands side shared)
    (apart : ∀ other ∈ writes, ¬ other.Names write.place write.key)
    {reached : Shared MemoryStore}
    (disturbed : Shared.Disturbed service side.other (Conduct writes) shared
      reached) : write.Stands side reached := by
  refine disturbed.keeps (fun _ stands => ?_)
    (fun client call _ permitted stands =>
      stands.foreign permitted apart client) stands
  exact ⟨stands.listed, stands.present, stands.kept⟩

theorem stands_of_insert {call : Call}
    (carries :
      Exchange.Carries write ⟨call, (shared.store.answer call).1⟩)
    (listed : listedName write.mount ∈ shared.store.listed) {bundle : Bundle}
    (holds : bundle[write.key]? = some (.string write.value))
    (changed : (shared.store.answer call).2.bundles =
      shared.store.bundles.insert write.place bundle) (client : Handle) :
    write.Stands side (shared.answer service side client call).2 where
  listed := (Continues.answer call shared.store).mem_listed listed
  present := by
    change write.place ∈ (shared.store.answer call).2.bundles
    rw [changed]
    exact Std.ExtTreeMap.mem_insert_self
  kept := by
    refine ⟨shared.lines, _, [], rfl, carries,
      fun _ => (absurd · List.not_mem_nil), Or.inl ⟨?_, ?_⟩⟩
    · refine (congrArg (Bundles.value? · write.place write.key) changed).trans ?_
      rw [Bundles.value?_insert, if_pos rfl, holds]
    · rintro exchange ⟨⟩

theorem stands_of_patch
    (succeeds : (shared.store.answer
      (.patch write.mount write.path write.data)).1 = .value ())
    (client : Handle) :
    write.Stands side (shared.answer service side client
      (.patch write.mount write.path write.data)).2 := by
  have listed := listed_of_patch succeeds
  rcases service_relays.patch 0 write.mount write.path write.data
      shared.store trivial with ⟨_, bundle, _, changed⟩ | ⟨fails, _⟩
  · refine stands_of_insert (Or.inl (by rw [succeeds])) listed ?_ changed
      client
    rw [data, merged_ofEntries_single]
    simp
  · exact absurd succeeds fails

theorem stands_of_put
    (succeeds : (shared.store.answer
      (.put write.mount write.path write.data)).1 = .value ())
    (client : Handle) :
    write.Stands side (shared.answer service side client
      (.put write.mount write.path write.data)).2 := by
  rcases service_relays.put 0 write.mount write.path write.data
      shared.store trivial with ⟨_, listed, changed⟩ | ⟨fails, _⟩
  · refine stands_of_insert (Or.inr (by rw [succeeds]))
      (Std.ExtTreeSet.contains_iff_mem.1 listed) ?_ changed client
    rw [data, Bundle.ofEntries_single]
    simp
  · exact absurd succeeds fails

end Write

end KeyCustody
