import KeyCustody.Proofs.Http.Confinement
import KeyCustody.Proofs.Session.Provisioning
import Mathlib

/-!
# Mounting engines through a server

A server names each engine by its mount point without outer slashes, followed by
a slash, and that is where an engine is mounted on request.  The name that is
looked up in the server's table of engines has no slash but the last.  The two
agree exactly for mount points without inner slashes.

So what a queue needs is mounted exactly if its table lacks the name looked up,
which for a nested mount point is not the name of its engine.
-/

namespace KeyCustody

open Text

/-- The name that a server gives the engine at a mount point. -/
def servedName (mount : String) : String :=
  trimSlashes mount ++ "/"

theorem listedName_eq_servedName_iff {mount : String} :
    listedName mount = servedName mount ↔
      '/' ∉ (trimSlashes mount).toList := by
  have erased : (eraseSlashes mount).toList =
      (trimSlashes mount).toList.filter fun c => !isSlash c := by
    rw [eraseSlashes, trimSlashes, String.toList_ofList, String.toList_ofList,
      filter_trim]
  rw [listedName, servedName, ← String.toList_inj, String.toList_append,
    String.toList_append, List.append_left_inj, erased, List.filter_eq_self]
  constructor
  · intro slashless inside
    exact absurd (slashless '/' inside) (by decide)
  · intro slashless c inside
    rw [isSlash, Bool.not_eq_true', beq_eq_false_iff_ne]
    rintro rfl
    exact slashless inside

theorem listedName_ends (mount : String) :
    (listedName mount).toList.getLast? = some '/' := by
  rw [listedName, String.toList_append]
  exact List.getLast?_concat

namespace Http

/-- The names in the table of engines in a body.  The table is the object under
`data`, or the whole body when there is none. -/
def tableNames (body : Json) : List String :=
  match body.get? "data" with
  | some (.object table) => table.map Prod.fst
  | _ => body.members.map Prod.fst

theorem mem_enginesOf {body : Json} {name : String}
    (ends : name.toList.getLast? = some '/') :
    name ∈ enginesOf body ↔ name ∈ tableNames body := by
  have table : (((body.get? "data").bind Json.object?).getD
      body.members).map Prod.fst = tableNames body := by
    unfold tableNames
    split
    next table found => rw [found]; rfl
    next absent =>
      cases found : body.get? "data" with
      | none => rfl
      | some value =>
          cases value with
          | object table => exact absurd found (absent table)
          | null | bool _ | int _ | float _ | string _ | array _ => rfl
  rw [enginesOf, table, List.mem_filter, ends]
  simp

variable {settings : Settings} {server : String} {home : Url}

theorem exists_enabling (leads : LeadsTo settings server home)
    (sendable : isSendable settings.token = true) {mount : String}
    (dotless : Dotless (trimSlashes mount)) (description : String) :
    ∃ request,
      requestFor? settings (.enable mount description) = some request ∧
      request.method = .post ∧
      request.url.target =
        "/v1/sys/mounts/" ++ encodeName (trimSlashes mount) := by
  obtain ⟨resource, about, requested⟩ := leads.requestFor?_of_plan sendable
    (rfl : plan settings (.enable mount description) = _)
  refine ⟨_, requested, rfl, ?_⟩
  cases about
  have whole : Dotless (versioned (engineName (trimSlashes mount))) :=
    dotless_versioned.2 (dotless_engineName.2 dotless)
  have plain : home.query = none := (leads.isHome.ofAuthority? []).2
  have marks : "/v1/sys/mounts/" = "/v1/" ++ "sys/mounts/" := by decide
  rw [target_of_dotless plain whole, encodeName_versioned,
    encodeName_engineName, marks, String.append_assoc, slash_engine,
    slash_versioned]

section Flushing

variable {session : Session} {world : World Link}

theorem asks_ensureMounts (client : Handle) (mounts : List String) :
    (ensureMounts client mounts).Assures (AsksThrough client)
      fun _ => True := by
  refine (assures_ensureMounts client mounts).mono ?_ fun _ => id
  rintro event (rfl | ⟨mount, _, rfl⟩)
  · exact ⟨_, Call.noConfusion, rfl⟩
  · exact ⟨_, Call.noConfusion, rfl⟩

/-- What happens in the turn of a mount point for which the server answers with
a table of engines. -/
structure Turn (settings : Settings) (session : Session) (world : World Link)
    (mount : String) (body : Json) : Prop where
  unreleased : session.client ∉ world.store.released
  listening : world.store.peer.listening = true
  comes : ∃ before later reached response,
    session.mounts = before ++ mount :: later ∧
    (ensureMounts session.client before).run (Link.service settings) world =
      (.value (), reached) ∧
    reached.store.peer.next? = some response ∧
    response.isSuccess = true ∧
    response.body.bind Json.ofBytes? = some body

theorem Turn.enables_iff {mount : String} {body : Json}
    (turn : Turn settings session world mount body)
    (leads : LeadsTo settings server home)
    (sendable : isSendable settings.token = true) :
    (∃ description, (session.client, .enable mount description) ∈
      (ensureMounts session.client session.mounts).requests
        (Link.service settings) world) ↔
      listedName mount ∉ tableNames body := by
  obtain ⟨before, later, reached, response, queued, comes, next, success,
    parsed⟩ := turn.comes
  obtain ⟨unreleased, listening, _⟩ := received_run
    (asks_ensureMounts session.client before) turn.unreleased turn.listening
  rw [comes] at unreleased listening
  obtain ⟨request, requested, _⟩ := leads.exists_request sendable
    (rfl : resource? .mounts = some "sys/mounts")
  have listing : ((Link.service settings).answer session.client .mounts
      reached.store).1 = .value (enginesOf body) := by
    change (Link.answer settings session.client .mounts reached.store).1 = _
    rw [answer_of_request (by simp) unreleased listening requested, next]
    simp only [replyOf, success, if_true, accept, readBody, parsed]
  have once := session.mounts_nodup
  rw [queued] at once ⊢
  rw [KeyCustody.enables_iff once comes listing,
    mem_enginesOf (listedName_ends mount)]

/-- Whenever the server answers for a mount point with a table of engines, a
flush mounts the engine there exactly if the table lacks the name looked up.
That is the engine's own name exactly for mount points without inner slashes. -/
theorem flush_enables_iff {mount : String} {body : Json}
    (turn : Turn settings session world mount body)
    (leads : LeadsTo settings server home)
    (sendable : isSendable settings.token = true) :
    let provisioning := ensureMounts session.client session.mounts
    let sent := provisioning.requests (Link.service settings) world
    (sent <+: session.flush.requests (Link.service settings) world ∧
      (provisioning.run (Link.service settings) world).2.store.peer.received =
        world.store.peer.received ++
          sent.filterMap fun asked => requestFor? settings asked.2) ∧
    ((∃ description, (session.client, .enable mount description) ∈ sent) ↔
      listedName mount ∉ tableNames body) ∧
    (listedName mount = servedName mount ↔
      '/' ∉ (trimSlashes mount).toList) ∧
    (Dotless (trimSlashes mount) → ∀ description, ∃ request,
      requestFor? settings (.enable mount description) = some request ∧
      request.method = .post ∧
      request.url.target =
        "/v1/sys/mounts/" ++ encodeName (trimSlashes mount)) := by
  obtain ⟨_, _, received⟩ := received_run
    (asks_ensureMounts session.client session.mounts) turn.unreleased
    turn.listening
  exact ⟨⟨session.requests_flush_prefix world, received⟩,
    turn.enables_iff leads sendable, listedName_eq_servedName_iff,
    fun dotless description =>
      exists_enabling leads sendable dotless description⟩

/-- A session that keeps one entry, at a mount point. -/
def keeping (mount : String) : Session :=
  ({ id := 1, client := 0 } : Session).addWrite "user" "id" "key" mount

/-- A server that answers once, with a text. -/
def answering (text : String) : World Link where
  store := { peer := { answers :=
    [.respond { status := 200, body := some (utf8Bytes text.toList) }] } }

theorem turn_keeping {mount text : String} {body : Json}
    (reads : (Json.read text.toList).toOption = some body) :
    Turn usual (keeping mount) (answering text) mount body where
  unreleased := List.not_mem_nil
  listening := rfl
  comes := by
    refine ⟨[], [], answering text, _, ?_, rfl, rfl, rfl, ?_⟩
    · simp [Session.mounts, keeping, Session.addWrite, Session.add,
        List.eraseDups_cons]
    · dsimp only [Option.bind]
      rw [Json.ofBytes?, utf8Chars?_utf8Bytes]
      exact reads

/-- An engine that only another one is listed beside is mounted. -/
theorem flush_enables_unlisted :
    (Json.read "\x7b\"sys/\":1\x7d".toList).toOption =
      some (.object [("sys/", .int 1)]) ∧
    (∃ description, (0, Call.enable "/api-keys" description) ∈
      (keeping "/api-keys").flush.requests (Link.service usual)
        (answering "\x7b\"sys/\":1\x7d")) ∧
    listedName "/api-keys" = servedName "/api-keys" ∧
    servedName "/api-keys" ∉ tableNames (.object [("sys/", .int 1)]) := by
  have reads : (Json.read "\x7b\"sys/\":1\x7d".toList).toOption =
      some (.object [("sys/", .int 1)]) := by
    cbv
  have turn : Turn usual (keeping "/api-keys")
      (answering "\x7b\"sys/\":1\x7d") "/api-keys"
      (.object [("sys/", .int 1)]) :=
    turn_keeping reads
  obtain ⟨⟨first, _⟩, enables, named, _⟩ :=
    flush_enables_iff turn usual_leadsTo (by decide)
  have same := named.2 (by decide)
  have absent : listedName "/api-keys" ∉
      tableNames (.object [("sys/", .int 1)]) := by
    decide
  obtain ⟨description, sent⟩ := enables.2 absent
  exact ⟨reads, ⟨description, first.subset sent⟩, same, same ▸ absent⟩

/-- An engine at a nested mount point is mounted although it is listed, and it
is not mounted when an engine with its name less the slashes is listed. -/
theorem flush_enables_listed :
    (Turn usual (keeping "teams/api-keys")
        (answering "\x7b\"teams/api-keys/\":1\x7d") "teams/api-keys"
        (.object [("teams/api-keys/", .int 1)]) ∧
      servedName "teams/api-keys" ∈
        tableNames (.object [("teams/api-keys/", .int 1)]) ∧
      ∃ description, (0, Call.enable "teams/api-keys" description) ∈
        (keeping "teams/api-keys").flush.requests (Link.service usual)
          (answering "\x7b\"teams/api-keys/\":1\x7d")) ∧
    (Turn usual (keeping "teams/api-keys")
        (answering "\x7b\"teamsapi-keys/\":1\x7d") "teams/api-keys"
        (.object [("teamsapi-keys/", .int 1)]) ∧
      servedName "teams/api-keys" ∉
        tableNames (.object [("teamsapi-keys/", .int 1)]) ∧
      ∀ description, (0, Call.enable "teams/api-keys" description) ∉
        (ensureMounts 0 (keeping "teams/api-keys").mounts).requests
          (Link.service usual)
          (answering "\x7b\"teamsapi-keys/\":1\x7d")) := by
  have turn : Turn usual (keeping "teams/api-keys")
      (answering "\x7b\"teams/api-keys/\":1\x7d") "teams/api-keys"
      (.object [("teams/api-keys/", .int 1)]) :=
    turn_keeping (by cbv)
  have other : Turn usual (keeping "teams/api-keys")
      (answering "\x7b\"teamsapi-keys/\":1\x7d") "teams/api-keys"
      (.object [("teamsapi-keys/", .int 1)]) :=
    turn_keeping (by cbv)
  refine ⟨⟨turn, by decide, ?_⟩, other, by decide, ?_⟩
  · obtain ⟨description, sent⟩ :=
      (turn.enables_iff usual_leadsTo (by decide)).2 (by decide)
    exact ⟨description, (Session.requests_flush_prefix _ _).subset sent⟩
  · intro description sent
    have enables := other.enables_iff usual_leadsTo (by decide)
    exact enables.1 ⟨description, sent⟩ (by decide)

end Flushing

end Http

end KeyCustody
