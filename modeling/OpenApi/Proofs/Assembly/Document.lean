import OpenApi.Assembly.Basic
import OpenApi.Proofs.Json
import OpenApi.Proofs.Registry.Growth

/-!
# Proofs/Assembly/Document — how an assembly ends

An assembly comes to a document exactly if its paths are rendered, the references hold and the
document can be written (`assemble_of_ok`, `Build.finish_eq_ok`).  Its paths and the names of its
schemas are those of the build.
-/

namespace OpenApi

namespace Build

variable {b : Build} {api : Api} {options : AssemblyOptions} {paths : Json}

/-! ## The document of a build -/

/-- A document is written once the tags are in order. -/
theorem document_eq_ok {doc : Document} (h : b.document api paths = .ok doc) :
    ∃ tags, renderTags api.tags = .ok tags ∧ doc.toJson = .ofOptions
      [("openapi", some (.str Document.formatVersion)), ("info", some api.info.render),
        ("tags", Schema.unlessEmpty .arr tags),
        ("servers", Schema.unlessEmpty .arr (api.servers.map (·.render))),
        ("paths", some paths), ("components", some b.components)] := by
  rw [document] at h
  cases ht : renderTags api.tags with
  | error e =>
    rw [ht] at h
    cases h
  | ok tags =>
    rw [ht] at h
    obtain rfl := Except.ok.inj h
    exact ⟨tags, rfl, rfl⟩

/-- The components of a document are those of the build. -/
theorem components_document {doc : Document} (h : b.document api paths = .ok doc) :
    doc.toJson.get? "components" = some b.components := by
  obtain ⟨tags, -, hdoc⟩ := document_eq_ok h
  simp [hdoc, Json.get?_ofOptions_cons]

/-- The schemas among the components are the stored ones, in ascending order of their names. -/
theorem schemas_components (b : Build) : b.components.get? "schemas" = Schema.unlessEmpty
    (fun es => .obj (es.map fun e => (e.1, e.2.toJson))) b.registry.all := by
  simp [components, Json.get?_ofOptions_cons]

/-- The names of the schemas of a document are those of the stored ones. -/
theorem schemaNames_document {doc : Document} (h : b.document api paths = .ok doc) :
    doc.schemaNames = b.registry.all.map (·.1) := by
  rw [Document.schemaNames, components_document h, Option.bind_some, schemas_components]
  cases b.registry.all <;> simp [Schema.unlessEmpty, Json.keys]

/-- The paths of a document are the rendered ones. -/
theorem paths_document {doc : Document} (h : b.document api paths = .ok doc) :
    doc.toJson.get? "paths" = some paths := by
  obtain ⟨tags, -, hdoc⟩ := document_eq_ok h
  simp [hdoc, Json.get?_ofOptions_cons]

/-! ## The end of a build -/

/-- A build whose references have been checked comes to its document or not. -/
theorem finish_eq_ok {doc : Document} (h : (b.finish api options paths).outcome = .ok doc) :
    b.registry.freeze.check b.emitted = .ok () ∧
      (b.on b.registry.freeze).document api paths = .ok doc := by
  rw [finish] at h
  dsimp only at h
  split at h
  · cases h
  · next hcheck =>
    refine ⟨hcheck, ?_⟩
    split at h
    · cases h
    · split at h
      · cases h
      · next hdoc =>
        obtain rfl := Except.ok.inj h
        exact hdoc

/-- A build ends in a refusal of the registry exactly if the check of references does. -/
theorem finish_eq_error_registry {e : RegistryError} :
    (b.finish api options paths).outcome = .error (.registry e) ↔
      b.registry.freeze.check b.emitted = .error e := by
  rw [finish]
  dsimp only
  split
  · next hcheck => simp [hcheck]
  · next hcheck =>
    rw [hcheck]
    split
    · simp
    · split <;> simp

end Build

/-! ## The end of an assembly -/

variable {api : Api} {options : AssemblyOptions} {r : Registry} {b : Build}

/-- An assembly whose paths are not rendered ends there. -/
theorem assemble_of_error {e : AssemblyError} (h : (Build.ofApi api r).carryOut
    (renderPaths options.defaultResponseDescription api.paths) = (b, .error e)) :
    (assemble api options r).outcome = .error e ∧
      (assemble api options r).registry = b.registry := by
  simp [assemble, h]

/-- An assembly whose paths are rendered ends as the build does. -/
theorem assemble_of_ok {paths : Json} (h : (Build.ofApi api r).carryOut
    (renderPaths options.defaultResponseDescription api.paths) = (b, .ok paths)) :
    (assemble api options r).outcome = (b.finish api options paths).outcome ∧
      (assemble api options r).registry = b.registry.freeze := by
  simp [assemble, h]

/-- An assembly that comes to a document has rendered its paths, and the document has them. -/
theorem renderPaths_of_assemble {doc : Document}
    (h : (assemble api options r).outcome = .ok doc) : ∃ rendered,
      (renderPaths options.defaultResponseDescription api.paths).outcome = .ok rendered ∧
        doc.toJson.get? "paths" = some rendered := by
  rcases hb : (Build.ofApi api r).carryOut
      (renderPaths options.defaultResponseDescription api.paths) with ⟨b, e | rendered⟩
  · rw [(assemble_of_error hb).1] at h
    cases h
  · rw [(assemble_of_ok hb).1] at h
    obtain ⟨-, hdoc⟩ := Build.finish_eq_ok h
    exact ⟨rendered, (Build.carryOut_eq_ok_iff.mp hb).2, Build.paths_document hdoc⟩

/-- The schemas of an assembled document are all that are stored, in ascending order of their
names. -/
theorem schemaNames_assemble {doc : Document} (h : (assemble api options r).outcome = .ok doc) :
    doc.schemaNames = (assemble api options r).registry.all.map (·.1) := by
  rcases hb : (Build.ofApi api r).carryOut
      (renderPaths options.defaultResponseDescription api.paths) with ⟨b, e | rendered⟩
  · rw [(assemble_of_error hb).1] at h
    cases h
  · rw [(assemble_of_ok hb).1] at h
    rw [(assemble_of_ok hb).2]
    exact Build.schemaNames_document (Build.finish_eq_ok h).2

end OpenApi
