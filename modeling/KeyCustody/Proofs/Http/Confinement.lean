import KeyCustody.Proofs.Http.Sending

/-!
# What a request target stands for

A server takes a target apart at its slashes and decodes the segments.  The
target of a request stands for the name of what the call is about exactly if
no segment of that name is one or two dots: a url resolves such segments, and
encoding does not protect them.

So a call about a bundle stays beneath the data of its engine exactly if neither
its mount point nor its path has dots for a segment.
-/

namespace KeyCustody

namespace Http

open Text

section Targets

variable {home : Url} (plain : home.query = none) {name : String}

include plain in
theorem target_beneath :
    (home.beneath name).target.toList =
      '/' :: joinSegments '/' (home.beneath name).path := by
  rw [Url.target, Url.beneath, plain]
  simp

theorem path_beneath (dotless : Dotless name) :
    (home.beneath name).path =
      (segments (· == '/') name.toList).map encodeSegment := by
  refine Url.resolveDots_of_none ?_
  intro encoded member
  obtain ⟨segment, inside, rfl⟩ := List.mem_map.1 member
  exact Bool.eq_false_iff.2 fun resolved =>
    dotless segment inside (Url.resolves_encodeSegment.1 resolved)

/-- A segment of the path is empty or stands for a segment that is not dots. -/
theorem of_mem_path_beneath {encoded : List Char}
    (member : encoded ∈ (home.beneath name).path) :
    encoded = [] ∨ ∃ segment, ¬ Url.IsDots segment ∧
      encoded = encodeSegment segment := by
  rcases Url.of_mem_resolveDots member with kept | empty | ⟨given, stays⟩
  · exact absurd kept List.not_mem_nil
  · exact Or.inl empty
  · obtain ⟨segment, _, rfl⟩ := List.mem_map.1 given
    refine Or.inr ⟨segment, fun dots => ?_, rfl⟩
    rw [Url.resolves_encodeSegment.2 dots] at stays
    exact Bool.noConfusion stays

include plain in
theorem target_of_dotless (dotless : Dotless name) :
    (home.beneath name).target = "/" ++ encodeName name := by
  apply String.toList_injective
  rw [target_beneath plain, path_beneath dotless, encodeName,
    String.toList_append, String.toList_ofList]
  simp

include plain in
theorem dotless_of_target {encoded : String}
    (target : (home.beneath name).target = "/" ++ encoded)
    (stands : StandsFor encoded name) : Dotless name := by
  have path : segments (· == '/') encoded.toList =
      (home.beneath name).path := by
    have joined := congrArg String.toList target
    rw [target_beneath plain, String.toList_append] at joined
    have same : joinSegments '/' (home.beneath name).path =
        encoded.toList :=
      (List.cons.inj joined).2
    rw [← same, segments_joinSegments]
    · exact Url.resolveDots_ne_nil (by simp [segments_ne_nil])
    · intro piece member c inside
      rcases of_mem_path_beneath member with rfl | ⟨segment, _, rfl⟩
      · exact absurd inside List.not_mem_nil
      · exact isShown_ne_slash (isShown_of_mem_encodeSegment inside)
  intro segment member dots
  -- Dots in the name would have to come from a segment that is left of the path,
  -- but decoding such a segment gives nothing that was resolved.
  rw [StandsFor, path] at stands
  have decoded : some segment ∈
      (home.beneath name).path.map decodeSegment? := by
    rw [stands]
    exact List.mem_map_of_mem member
  obtain ⟨piece, inside, decodes⟩ := List.mem_map.1 decoded
  rcases of_mem_path_beneath inside with rfl | ⟨other, notDots, rfl⟩
  · rcases dots with rfl | rfl <;> exact absurd decodes (by decide)
  · rw [decodeSegment?_encodeSegment] at decodes
    exact notDots (Option.some.inj decodes ▸ dots)

end Targets

/-- A target beneath the data of the engine at a mount point that stands for a
path there. -/
def Confined (target mount path : String) : Prop :=
  ∃ encodedMount encodedPath,
    target = "/v1/" ++ encodedMount ++ "/data/" ++ encodedPath ∧
    StandsFor encodedMount (trimSlashes mount) ∧
    StandsFor encodedPath (trimSlashes path)

/-- A call that reads or writes the bundle at a place. -/
def Concerns (call : Call) (mount path : String) : Prop :=
  call = .read mount path ∨ (∃ data, call = .patch mount path data) ∨
    ∃ data, call = .put mount path data

/-- The name of the bundle at a place, with the version prefix. -/
def bundleName (mount path : String) : String :=
  versioned (dataName (trimSlashes mount) (trimSlashes path))

theorem dotless_bundleName {mount path : String} :
    Dotless (bundleName mount path) ↔
      Dotless (trimSlashes mount) ∧ Dotless (trimSlashes path) := by
  rw [bundleName, dotless_versioned, dotless_dataName]

theorem confined_beneath_iff {home : Url} (plain : home.query = none)
    {mount path : String} :
    Confined (home.beneath (bundleName mount path)).target mount path ↔
      Dotless (trimSlashes mount) ∧ Dotless (trimSlashes path) := by
  rw [← dotless_bundleName]
  constructor
  · rintro ⟨encodedMount, encodedPath, target, mountStands, pathStands⟩
    rw [slash_versioned_data] at target
    exact dotless_of_target plain target
      (standsFor_versioned_dataName mountStands pathStands)
  · intro dotless
    refine ⟨encodeName (trimSlashes mount), encodeName (trimSlashes path), ?_,
      encodeName_standsFor _, encodeName_standsFor _⟩
    rw [target_of_dotless plain dotless, bundleName, encodeName_versioned,
      encodeName_dataName, slash_versioned_data]

theorem resource?_of_concerns {call : Call} {mount path : String}
    (concerns : Concerns call mount path) :
    resource? call =
      some (dataName (trimSlashes mount) (trimSlashes path)) := by
  rcases concerns with rfl | ⟨data, rfl⟩ | ⟨data, rfl⟩ <;> rfl

/-- A call about a bundle is sent to the server as one request, and the target
of the request is confined to the bundle exactly if neither the mount point nor
the path has dots for a segment. -/
theorem request_confined_iff {settings : Settings} {server : String}
    {home : Url} (leads : LeadsTo settings server home)
    (sendable : isSendable settings.token = true) {link : Link}
    {client : Handle} (unreleased : client ∉ link.released)
    (listening : link.peer.listening = true) {call : Call}
    {mount path : String} (concerns : Concerns call mount path) :
    ∃ request,
      ((Link.service settings).answer client call link).2.peer.received =
        link.peer.received ++ [request] ∧
      request.url.host = home.host ∧ request.url.port = home.port ∧
      (Confined request.url.target mount path ↔
        Dotless (trimSlashes mount) ∧ Dotless (trimSlashes path)) := by
  have about := resource?_of_concerns concerns
  have sent : call ≠ .close := by
    rintro rfl
    cases about
  obtain ⟨request, requested, address⟩ := leads.exists_request sendable about
  have plain : home.query = none := (leads.isHome.ofAuthority? []).2
  refine ⟨request, ?_, ?_, ?_, ?_⟩
  · change (Link.answer settings client call link).2.peer.received = _
    rw [answer_of_request sent unreleased listening requested]
    exact Peer.received_after link.peer request
  · rw [address, Url.host_beneath]
  · rw [address, Url.port_beneath]
  · rw [address]
    exact confined_beneath_iff plain

/-- The usual settings with some token. -/
def usual : Settings := { token := "vault-token" }

/-- The url of the server in the usual settings. -/
def usualHome : Url where
  encrypted := false
  host := "localhost"
  port := 8200
  path := [[]]
  query := none

theorem usual_leadsTo : LeadsTo usual "localhost:8200" usualHome where
  isHome := ⟨List.all_eq_true.1 (by decide), by decide⟩
  named := ⟨0, by decide⟩

/-- Slashes, blanks and letters beyond ASCII do not lead out of the data. -/
theorem request_confined_blank :
    ∃ request,
      ((Link.service usual).answer 0 (.read "/teams/a b/" "ü?/#")
        {}).2.peer.received = [request] ∧
      request.url.host = "localhost" ∧ request.url.port = 8200 ∧
      Confined request.url.target "/teams/a b/" "ü?/#" := by
  obtain ⟨request, received, host, port, confined⟩ :=
    request_confined_iff usual_leadsTo (by decide)
      (List.not_mem_nil : (0 : Handle) ∉ ({} : Link).released)
      (rfl : ({} : Link).peer.listening = true) (Or.inl rfl)
  exact ⟨request, received, host, port, confined.2 (by decide)⟩

/-- A path that climbs leads out of the data of its engine: reading it lists the
engines. -/
theorem request_climbs_out :
    ∃ request,
      ((Link.service usual).answer 0 (.read "api-keys" "../../sys/mounts")
        {}).2.peer.received = [request] ∧
      request.url.target = "/v1/sys/mounts" ∧
      ¬ Confined request.url.target "api-keys" "../../sys/mounts" := by
  have about : resource? (.read "api-keys" "../../sys/mounts") =
      some (dataName (trimSlashes "api-keys")
        (trimSlashes "../../sys/mounts")) :=
    rfl
  obtain ⟨request, requested, address⟩ :=
    usual_leadsTo.exists_request (by decide) about
  refine ⟨request, ?_, ?_, ?_⟩
  · change (Link.answer usual 0 _ {}).2.peer.received = _
    rw [answer_of_request (by simp) (by simp) rfl requested]
    exact Peer.received_after {} request
  · rw [address]
    decide
  · rw [address]
    refine fun confined => ?_
    have dotless := (confined_beneath_iff rfl).1 confined
    exact absurd dotless (by decide)

end Http

end KeyCustody
