import KeyCustody.Http.Exchange
import KeyCustody.Proofs.Http.Address

/-!
# Names of resources

What a call is about has a name beneath the version prefix.  A bundle is named
by its place, with the data of its engine between mount point and path, and an
engine by its mount point, beneath the table of engines.

Urls are written with encoded names.  Encoding a name, having no dots in it and
what an encoded name stands for all go through the parts of the name.
-/

namespace KeyCustody

namespace Http

open Text

/-- The name of a resource with the version prefix. -/
def versioned (resource : String) : String :=
  "v1" ++ "/" ++ resource

/-- The name beneath which an engine keeps a bundle. -/
def dataName (mount path : String) : String :=
  mount ++ "/" ++ ("data" ++ "/" ++ path)

/-- The name of an engine in the table of engines. -/
def engineName (mount : String) : String :=
  "sys/mounts" ++ "/" ++ mount

/-- The name of what a call is about. -/
def resource? : Call → Option String
  | .read mount path | .patch mount path _ | .put mount path _ =>
      some (dataName (trimSlashes mount) (trimSlashes path))
  | .mounts => some "sys/mounts"
  | .enable mount _ => some (engineName (trimSlashes mount))
  | .close => none

theorem slash_versioned (resource : String) :
    "/v1/" ++ resource = "/" ++ versioned resource := by
  have marks : "/v1/" = "/" ++ ("v1" ++ "/") := by decide
  rw [marks, versioned, String.append_assoc]

theorem slash_data (mount path : String) :
    mount ++ "/data/" ++ path = dataName mount path := by
  have marks : "/data/" = "/" ++ ("data" ++ "/") := by decide
  rw [marks, dataName]
  simp only [String.append_assoc]

theorem slash_versioned_data (mount path : String) :
    "/v1/" ++ mount ++ "/data/" ++ path =
      "/" ++ versioned (dataName mount path) := by
  rw [String.append_assoc, String.append_assoc, slash_versioned,
    ← String.append_assoc, slash_data]

theorem slash_engine (mount : String) :
    "sys/mounts/" ++ mount = engineName mount := by
  have marks : "sys/mounts/" = "sys/mounts" ++ "/" := by decide
  rw [marks, engineName]

theorem encodeName_versioned (resource : String) :
    encodeName (versioned resource) = versioned (encodeName resource) := by
  have own : encodeName "v1" = "v1" := by decide
  rw [versioned, encodeName_append, own, versioned]

theorem encodeName_dataName (mount path : String) :
    encodeName (dataName mount path) =
      dataName (encodeName mount) (encodeName path) := by
  have own : encodeName "data" = "data" := by decide
  rw [dataName, encodeName_append, encodeName_append, own, dataName]

theorem encodeName_engineName (mount : String) :
    encodeName (engineName mount) = engineName (encodeName mount) := by
  have own : encodeName "sys/mounts" = "sys/mounts" := by decide
  rw [engineName, encodeName_append, own, engineName]

theorem text_of_plan {settings : Settings} {call : Call} {method : Method}
    {text : String} {content : Option (String × Json)}
    (planned : plan settings call = some (method, text, content)) :
    ∃ resource, resource? call = some resource ∧
      text = urlText settings (encodeName resource) := by
  cases call with
  | close => cases planned
  | mounts =>
      have own : encodeName "sys/mounts" = "sys/mounts" := by decide
      cases planned
      exact ⟨_, rfl, by rw [own]⟩
  | enable mount description =>
      cases planned
      refine ⟨_, rfl, ?_⟩
      rw [mountUrl, encodeName_engineName, slash_engine]
  | read mount path | patch mount path data | put mount path data =>
      cases planned
      refine ⟨_, rfl, ?_⟩
      rw [dataUrl, encodeName_dataName, slash_data]

/-- A name none of whose segments is dots. -/
def Dotless (name : String) : Prop :=
  ∀ segment ∈ segments (· == '/') name.toList, ¬ Url.IsDots segment

instance (name : String) : Decidable (Dotless name) :=
  inferInstanceAs (Decidable (∀ _ ∈ _, _))

theorem dotless_append {front back : String} :
    Dotless (front ++ "/" ++ back) ↔ Dotless front ∧ Dotless back := by
  rw [Dotless, segments_append_slash, List.forall_mem_append]
  rfl

theorem dotless_versioned {resource : String} :
    Dotless (versioned resource) ↔ Dotless resource := by
  have own : Dotless "v1" := by decide
  rw [versioned, dotless_append, and_iff_right own]

theorem dotless_dataName {mount path : String} :
    Dotless (dataName mount path) ↔ Dotless mount ∧ Dotless path := by
  have own : Dotless "data" := by decide
  rw [dataName, dotless_append, dotless_append, and_iff_right own]

theorem dotless_engineName {mount : String} :
    Dotless (engineName mount) ↔ Dotless mount := by
  have own : Dotless "sys/mounts" := by decide
  rw [engineName, dotless_append, and_iff_right own]

theorem standsFor_versioned_dataName {encodedMount encodedPath : String}
    {mount path : String} (mountStands : StandsFor encodedMount mount)
    (pathStands : StandsFor encodedPath path) :
    StandsFor (versioned (dataName encodedMount encodedPath))
      (versioned (dataName mount path)) := by
  have version : StandsFor "v1" "v1" := by
    unfold StandsFor
    decide
  have data : StandsFor "data" "data" := by
    unfold StandsFor
    decide
  exact standsFor_append version
    (standsFor_append mountStands (standsFor_append data pathStands))

end Http

end KeyCustody
