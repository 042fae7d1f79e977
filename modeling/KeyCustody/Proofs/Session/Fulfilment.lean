import KeyCustody.Proofs.Session.Conduct
import KeyCustody.Proofs.Session.Reversal

/-!
# Commits that succeed

A fresh session of writes commits to a store in memory exactly if the store
refuses none of its keys.  Then every write has set its entry, in the order of
the queue, whether its bundle was there before, was created by an earlier write
or by itself.  Nothing else in the store has changed, apart from the engines
that were mounted for the writes.
-/

namespace KeyCustody

namespace Write

theorem getElem?_setAll {writes : List Write} {place : Location}
    (elsewhere : ∀ write ∈ writes, write.place ≠ place) (bundles : Bundles) :
    (setAll writes bundles)[place]? = bundles[place]? := by
  induction writes generalizing bundles with
  | nil => rfl
  | cons write later ih =>
      have rest := ih (fun other member =>
        elsewhere other (List.mem_cons_of_mem _ member)) (write.setIn bundles)
      have here : place ≠ write.place :=
        (elsewhere write List.mem_cons_self).symm
      rw [setIn, Bundles.withEntry, getElem?_insert_eq_ite, if_neg here]
        at rest
      exact rest

end Write

namespace MemoryStore

theorem listed_answer {call : Call} {store : MemoryStore} {name : String}
    (listed : name ∈ (store.answer call).2.listed) :
    name ∈ store.listed ∨
      ∃ mount description, call = .enable mount description ∧
        listedName mount = name := by
  cases call with
  | read mount path => exact Or.inl listed
  | mounts => exact Or.inl listed
  | close => exact Or.inl listed
  | patch mount path data =>
      left
      simp only [answer, patchBundle] at listed
      split at listed
      · exact listed
      · split at listed <;> exact listed
  | put mount path data =>
      left
      simp only [answer, putBundle] at listed
      split at listed <;> exact listed
  | enable mount description =>
      simp only [answer, enableEngine] at listed
      split at listed
      · exact Or.inl listed
      · rcases Std.ExtTreeSet.mem_insert.1 listed with same | before
        · exact Or.inr ⟨mount, description, rfl,
            Std.LawfulEqOrd.eq_of_compare same⟩
        · exact Or.inl before

/-- The engines that one store has and another one has not are engines of the
writes. -/
def GainsEngines (writes : List Write) (before after : MemoryStore) : Prop :=
  ∀ name ∈ after.listed,
    name ∈ before.listed ∨ ∃ write ∈ writes, listedName write.mount = name

/-- What is asked for writes mounts no engine but theirs. -/
theorem gainsEngines_run {α : Type} {writes : List Write} {kind : α → Prop}
    {dialogue : Dialogue α}
    (asks : dialogue.Assures (Event.Asks (Write.Needs writes)) kind)
    (world : World MemoryStore) :
    GainsEngines writes world.store
      (dialogue.run service world).2.store := by
  refine asks.run_keeps ?_ ?_ ?_ ?_ world
  · exact fun _ _ => Or.inl
  · intro first second third early late name member
    exact (late name member).elim (early name) Or.inr
  · exact fun _ _ _ => Or.inl
  · intro client call store permitted name member
    rcases listed_answer member with before | ⟨mount, _, rfl, rfl⟩
    · exact Or.inl before
    · obtain ⟨write, queued, same⟩ := Event.asks_asked.1 permitted
      exact Or.inr ⟨write, queued, congrArg listedName same⟩

end MemoryStore

namespace Session

open MemoryStore

theorem areWrites_ofWrites (id : Nat) (client : Handle)
    (writes : List Write) :
    Operation.AreWrites writes (ofWrites id client writes).operations := by
  intro operation member
  obtain ⟨write, queued, rfl⟩ := List.mem_map.1 member
  exact ⟨write, queued, rfl⟩

theorem run_flush_mounts (session : Session) (world : World MemoryStore) :
    ∀ mount ∈ session.mounts,
      listedName mount ∈
        (session.flush.run service world).2.store.listed := by
  intro mount needed
  obtain ⟨provided, _, _, mounted⟩ :=
    run_ensureMounts_mounts session.client session.mounts world
  rw [run_flush]
  dsimp only
  rw [provided]
  generalize ((ensureMounts session.client session.mounts).run service
    world).2 = reached at mounted ⊢
  have continues := run_continues
    (Operation.runAll session.client 0 session.operations) reached
  exact continues.mem_listed
    (Std.ExtTreeSet.contains_iff_mem.1 (mounted mount needed))

theorem run_commit_fulfilled (id : Nat) (client : Handle)
    (store : MemoryStore) {writes : List Write}
    (admitted : ∀ write ∈ writes, write.key ∉ store.refusedKeys) :
    ∃ reached,
      (ofWrites id client writes).commit.run service { store } =
        ((.value (), { id, client, committed := true }), reached) ∧
      reached.store.bundles = Write.setAll writes store.bundles ∧
      ∀ write ∈ writes, listedName write.mount ∈ reached.store.listed := by
  obtain ⟨reached, flushed, _, bundles, _⟩ :=
    run_flush_admitted id client store [] admitted
  have mounted := run_flush_mounts (ofWrites id client writes) { store }
  rw [List.append_nil] at flushed
  rw [flushed] at mounted
  refine ⟨reached, ?_, bundles, fun write queued => mounted _ ?_⟩
  · rw [run_commit, flushed]
    rfl
  · exact List.mem_eraseDups.2 (List.mem_map_of_mem
      (List.mem_map_of_mem queued))

theorem run_commit_fails (id : Nat) (client : Handle) (store : MemoryStore)
    {earlier : List Write} {failing : Write} (later : List Write)
    (admitted : ∀ write ∈ earlier, write.key ∉ store.refusedKeys)
    (refused : failing.key ∈ store.refusedKeys) :
    ((ofWrites id client (earlier ++ failing :: later)).commit.run service
      { store }).1.1 ≠ .value () := by
  obtain ⟨stopped, flushed, _⟩ :=
    run_flush_refused id client store later admitted refused
  rcases commit_cases service
      (ofWrites id client (earlier ++ failing :: later)) { store } with
    ⟨succeeds, _⟩ | ⟨_, fails, _⟩
  · rw [flushed] at succeeds
    simp at succeeds
  · exact fails

/-- A fresh session of writes commits exactly if the store refuses none of its
keys.  Then the entries are set in the order of the queue, all other entries
and places are as they were, the engines of the writes are mounted besides
those that were, what the store refuses is the same, and the session is
committed with an empty queue. -/
theorem commit_fulfils {id : Nat} {client : Handle} {store : MemoryStore}
    {writes : List Write} :
    let session := addWrites { id, client } writes
    let done := session.commit.run MemoryStore.service { store }
    (done.1.1 = .value () ↔
      ∀ write ∈ writes, write.key ∉ store.refusedKeys) ∧
    (done.1.1 = .value () →
      done.1.2 = { id, client, operations := [], committed := true } ∧
      done.2.store.bundles = Write.setAll writes store.bundles ∧
      (∀ place key, (∀ write ∈ writes, ¬ write.Names place key) →
        Bundles.value? done.2.store.bundles place key =
          Bundles.value? store.bundles place key) ∧
      (∀ place, (∀ write ∈ writes, write.place ≠ place) →
        done.2.store.bundles[place]? = store.bundles[place]?) ∧
      (∀ name, name ∈ done.2.store.listed ↔ name ∈ store.listed ∨
        ∃ write ∈ writes, listedName write.mount = name) ∧
      done.2.store.refusedKeys = store.refusedKeys ∧
      done.2.store.refusedPaths = store.refusedPaths) := by
  intro session done
  have isSession : session = ofWrites id client writes :=
    addWrites_pending id client [] writes
  have run : done = (ofWrites id client writes).commit.run service { store } :=
    congrArg (fun session : Session =>
      session.commit.run service { store }) isSession
  rcases first_refused store writes with
    admitted | ⟨earlier, failing, later, rfl, admitted, refused⟩
  · obtain ⟨reached, commits, bundles, mounted⟩ :=
      run_commit_fulfilled id client store admitted
    have continues := run_continues
      (ofWrites id client writes).commit { store }
    have asks := (abides_commit (areWrites_ofWrites id client writes)
      none).asks Write.needs_of_conduct
    have gains := gainsEngines_run asks { store }
    rw [commits] at continues gains
    rw [run, commits]
    refine ⟨iff_of_true rfl admitted, fun _ => ⟨rfl, bundles, ?_, ?_, ?_,
      continues.refusedKeys, continues.refusedPaths⟩⟩
    · intro place key elsewhere
      rw [bundles]
      exact Write.value?_setAll elsewhere store.bundles
    · intro place elsewhere
      rw [bundles]
      exact Write.getElem?_setAll elsewhere store.bundles
    · refine fun name => ⟨gains name, ?_⟩
      rintro (before | ⟨write, queued, rfl⟩)
      · exact continues.mem_listed before
      · exact mounted write queued
  · have fails := run_commit_fails id client store later admitted refused
    rw [run]
    refine ⟨iff_of_false fails fun none => ?_, fun succeeds =>
      absurd succeeds fails⟩
    exact none failing (List.mem_append_right _ List.mem_cons_self) refused

/-- Writes to a bundle that is there, and to one that the first of them creates
on an engine that is not mounted. -/
def freshWrites : List Write :=
  [⟨"m", "p", "a", "1"⟩, ⟨"/n/", "q", "c", "2"⟩, ⟨"n", "/q", "d", "3"⟩]

set_option maxRecDepth 10000 in
/-- The refused key is not among those written, so the commit succeeds. -/
theorem commit_fulfils_fresh :
    let done := (addWrites { id := 1, client := 1 } freshWrites).commit.run
      MemoryStore.service { store := refusingStore }
    done.1 = (.value (), { id := 1, client := 1, committed := true }) ∧
    done.2.store.bundles = Write.setAll freshWrites refusingStore.bundles ∧
    Bundles.value? done.2.store.bundles (Location.of "m" "p") "z" =
      some (.string "9") ∧
    "n/" ∈ done.2.store.listed := by
  obtain ⟨succeeds, result⟩ := @commit_fulfils 1 1 refusingStore freshWrites
  have admitted : ∀ write ∈ freshWrites,
      write.key ∉ refusingStore.refusedKeys := by
    decide
  obtain ⟨left, bundles, others, _, listed, _⟩ :=
    result (succeeds.2 admitted)
  refine ⟨Prod.ext (succeeds.2 admitted) left, bundles, ?_, ?_⟩
  · exact (others (Location.of "m" "p") "z" (by decide)).trans (by decide)
  · exact (listed "n/").2 (Or.inr (by decide))

end Session

end KeyCustody
