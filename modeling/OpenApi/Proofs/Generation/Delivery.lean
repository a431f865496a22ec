import OpenApi.Proofs.Assembly.Determinism
import OpenApi.Proofs.Assembly.Pointers
import OpenApi.Proofs.Configuration.Grammar
import OpenApi.Proofs.Workspace

/-!
# Proofs/Generation/Delivery — what a run leaves in the files

    configuration ──▸ declaration ──▸ document ──▸ path ─┬─▸ file        a run
                                                         ╰─▸ nothing     a dry run

Up to the path there is nothing to tell a dry run from another one: both are ready with the same
document, or both end in the same failure, and no file has changed (`Generation.ready_or_failed`).
From there on a dry run reports the path as it is, and the other one makes directories, writes one
file and reports where it stands (`Generation.deliver_of_not_dry`).

The two reports agree if the path has been resolved before.  A path that is asked for has been, and
so has a relative one of the configuration; an absolute one of the configuration has not.
-/

namespace OpenApi

/-! ## Documents -/

/-- **A registry that a document was assembled on holds its schemas and no others**, and each path
of the document has a key of its own. -/
theorem counts_assemble {api : Api} {options : AssemblyOptions} {d : Document}
    (h : (assemble api options {}).outcome = .ok d) :
    (assemble api options {}).registry.size = d.schemaNames.length ∧
      d.schemaNames.Nodup ∧ d.pathKeys.Nodup := by
  have names := (Registry.Reachable.empty.assemble api options).nodup_names
  have sorted := sortOn_perm (·.1) (assemble api options {}).registry.entries
  rw [schemaNames_assemble h, pathKeys_assemble h, List.length_map]
  exact ⟨sorted.length_eq.symm, (sorted.map _).nodup_iff.mpr names, nodup_distinct _⟩

/-- **A document that is written stands in one file**, at the path that is reported. -/
theorem Document.write_eq_ok {d : Document} {w w' : Workspace} {path written : FilePath}
    {format : OutputFormat} (absolute : path.isAbsolute = true)
    (h : d.write w path format = .ok (w', written)) :
    written = w.resolve path ∧
      w'.files = Table.insert (w.resolve path).names (d.render format) w.files ∧
      w'.read (w.resolve path) = .ok (d.render format) := by
  -- an absolute path is resolved the same from everywhere
  have anywhere (v : Workspace) : v.resolve path = w.resolve path := by
    rw [Workspace.resolve, Workspace.resolve, FilePath.resolve_of_isAbsolute absolute,
      FilePath.resolve_of_isAbsolute absolute]
  rw [write] at h
  obtain ⟨made, hmade, h⟩ := bind_eq_ok_iff.mp h
  obtain ⟨filled, hfilled, h⟩ := bind_eq_ok_iff.mp h
  obtain ⟨rfl, rfl⟩ := Prod.mk.inj (Except.ok.inj h)
  obtain ⟨files, read⟩ := Workspace.write_of_isAbsolute absolute
    (Journal.mapError_eq_ok_iff.mp hfilled)
  rw [Workspace.files_makeDirectories (Journal.mapError_eq_ok_iff.mp hmade), anywhere made] at files
  rw [anywhere made] at read
  exact ⟨anywhere filled, files, read⟩

namespace Generation

variable {m : Modules} {w : Workspace} {request : GenerationRequest} {c : Configuration} {api : Api}
  {d : Document} {path : FilePath}

/-! ## Up to the path -/

/-- **A run is ready to write a document to a path** — nothing before the writing has failed. -/
structure Ready (m : Modules) (w : Workspace) (request : GenerationRequest) (c : Configuration)
    (api : Api) (d : Document) (path : FilePath) : Prop where
  loaded : Configuration.load w (FilePath.ofText request.config) = .ok c
  declared : m.load w c.target c.basePath = .ok api
  assembled : (assemble api c.options {}).outcome = .ok d
  located : destination? w c request = some path

theorem loadInputs_eq_ok {config : FilePath} :
    loadInputs m w config = .ok (c, api) ↔
      Configuration.load w config = .ok c ∧ m.load w c.target c.basePath = .ok api := by
  rw [loadInputs]
  simp only [bind_eq_ok_iff, Journal.mapError_eq_ok_iff, pure, Except.pure, Except.ok.injEq,
    Prod.mk.injEq]
  constructor
  · rintro ⟨_, loaded, _, declared, rfl, rfl⟩
    exact ⟨loaded, declared⟩
  · rintro ⟨loaded, declared⟩
    exact ⟨c, loaded, api, declared, rfl, rfl⟩

/-- A path that is asked for is resolved. -/
theorem destination?_eq_some (h : destination? w c request = some path) :
    (∃ p : FilePath, path = w.resolve p) ∨
      (nonEmptyOr request.outputPath none = none ∧ path = c.outputPath) := by
  rw [destination?] at h
  split at h
  · rw [Workspace.resolve?] at h
    split at h
    · cases h
    · exact .inl ⟨_, (Option.some.inj h).symm⟩
  · next own => exact .inr ⟨own, (Option.some.inj h).symm⟩

namespace Ready

/-- Whether a run is dry makes no difference to what it gets ready. -/
theorem withDryRun (h : Ready m w request c api d path) (dryRun : Bool) :
    Ready m w { request with dryRun } c api d path :=
  ⟨h.loaded, h.declared, h.assembled, h.located⟩

theorem isAbsolute (h : Ready m w request c api d path) : path.isAbsolute = true := by
  obtain ⟨p, rfl⟩ | ⟨-, rfl⟩ := destination?_eq_some h.located
  · exact FilePath.isAbsolute_resolve p _
  · exact Configuration.isAbsolute_outputPath h.loaded

end Ready

/-- **A run is ready, dry or not, or it fails, dry or not** — in the same way and with nothing
changed. -/
theorem ready_or_failed (m : Modules) (w : Workspace) (request : GenerationRequest) :
    (∃ c api d path, Ready m w request c api d path) ∨
      ∃ e, ∀ dryRun, (run m w { request with dryRun }).outcome = .error e ∧
        (run m w { request with dryRun }).workspace = w := by
  cases inputs : loadInputs m w (FilePath.ofText request.config) with
  | error e =>
    refine .inr ⟨e, fun dryRun => ?_⟩
    simp only [run, inputs, and_self]
  | ok both =>
    obtain ⟨c, api⟩ := both
    obtain ⟨loaded, declared⟩ := loadInputs_eq_ok.mp inputs
    cases assembled : (assemble api c.options {}).outcome with
    | error e =>
      refine .inr ⟨.ofAssembly e, fun dryRun => ?_⟩
      simp only [run, inputs, assembled, and_self]
    | ok d =>
      cases located : destination? w c request with
      | none =>
        refine .inr ⟨.broken .nullInPath, fun dryRun => ?_⟩
        have same : destination? w c { request with dryRun } = none := located
        simp only [run, inputs, assembled, deliver, same, and_self]
      | some path => exact .inl ⟨c, api, d, path, loaded, declared, assembled, located⟩

/-! ## From the path on -/

section Deliver

variable {count : Nat} (located : destination? w c request = some path)

include located

/-- A dry run keeps its document back. -/
theorem deliver_of_dry (dry : request.dryRun = true) :
    deliver w c request d count =
      ⟨w, .ok ⟨path, count, d.pathKeys.length, true⟩, [.skippedWrite path.text]⟩ := by
  simp [deliver, located, dry]

/-- **What becomes of a document** — it is refused and no file changes, or it is in the file at the
resolved path and no other file changes. -/
theorem deliver_of_not_dry (absolute : path.isAbsolute = true) (dry : request.dryRun = false) :
    let delivered := deliver w c request d count
    (delivered.workspace.files = w.files ∧ ∃ e, delivered.outcome = .error e) ∨
    (delivered.workspace.files =
        Table.insert (w.resolve path).names (d.render c.format) w.files ∧
      delivered.workspace.read (w.resolve path) = .ok (d.render c.format) ∧
      delivered.outcome = .ok ⟨w.resolve path, count, d.pathKeys.length, false⟩) := by
  intro delivered
  cases written : d.write w path c.format with
  | error e =>
    have refused : ∃ e, delivered = ⟨w.withDirectories path.parent, .error e, []⟩ := by
      cases e <;> simp [delivered, deliver, located, dry, written]
    obtain ⟨e, refused⟩ := refused
    rw [refused]
    exact .inl ⟨Workspace.files_withDirectories w _, e, rfl⟩
  | ok both =>
    obtain ⟨w', _⟩ := both
    obtain ⟨rfl, files, read⟩ := Document.write_eq_ok absolute written
    have filled : delivered = ⟨w', .ok ⟨w.resolve path, count, d.pathKeys.length, false⟩,
        [.wrote (w.resolve path).text]⟩ := by simp [delivered, deliver, located, dry, written]
    rw [filled]
    exact .inr ⟨files, read, rfl⟩

end Deliver

namespace Ready

/-- A run that is ready delivers its document. -/
theorem run_eq (h : Ready m w request c api d path) :
    ∃ notices, run m w request =
      { deliver w c request d d.schemaNames.length with notices } := by
  rw [run, loadInputs_eq_ok.mpr ⟨h.loaded, h.declared⟩]
  dsimp only
  rw [h.assembled, (counts_assemble h.assembled).1]
  exact ⟨_, rfl⟩

theorem run_of_dry (h : Ready m w request c api d path) (dry : request.dryRun = true) :
    (run m w request).workspace = w ∧
      (run m w request).outcome =
        .ok ⟨path, d.schemaNames.length, d.pathKeys.length, true⟩ := by
  obtain ⟨notices, run⟩ := h.run_eq
  rw [run, deliver_of_dry h.located dry]
  exact ⟨rfl, rfl⟩

theorem run_of_not_dry (h : Ready m w request c api d path) (dry : request.dryRun = false) :
    let left := run m w request
    (left.workspace.files = w.files ∧ ∃ e, left.outcome = .error e) ∨
    (left.workspace.files = Table.insert (w.resolve path).names (d.render c.format) w.files ∧
      left.workspace.read (w.resolve path) = .ok (d.render c.format) ∧
      left.outcome =
        .ok ⟨w.resolve path, d.schemaNames.length, d.pathKeys.length, false⟩) := by
  obtain ⟨notices, run⟩ := h.run_eq
  rw [run]
  exact deliver_of_not_dry h.located h.isAbsolute dry

end Ready

/-! ## The files -/

/-- **A run touches its own output only.**  If it fails, the files are what they were, and a dry run
changes nothing at all.  If there is an outcome, it counts the schemas and the paths of the document
that the configured declaration comes to; and if the run is not dry, the file at the reported path
holds this document, and every other file is as before. -/
theorem run_frame (m : Modules) (w : Workspace) (request : GenerationRequest) :
    let left := run m w request
    (∀ e, left.outcome = .error e → left.workspace.files = w.files) ∧
    (request.dryRun = true → left.workspace = w) ∧
    ∀ o, left.outcome = .ok o → ∃ c api d path, Ready m w request c api d path ∧
      o.schemaCount = d.schemaNames.length ∧ d.schemaNames.Nodup ∧
      o.pathCount = d.pathKeys.length ∧ d.pathKeys.Nodup ∧
      (request.dryRun = false →
        left.workspace.read o.outputPath = .ok (d.render c.format) ∧
        ∀ names, names ≠ o.outputPath.names →
          Table.get? names left.workspace.files = Table.get? names w.files) := by
  intro left
  obtain ⟨c, api, d, path, ready⟩ | ⟨e, failed⟩ := ready_or_failed m w request
  · obtain ⟨-, schemas, paths⟩ := counts_assemble ready.assembled
    cases dry : request.dryRun with
    | true =>
      obtain ⟨workspace, outcome⟩ := ready.run_of_dry dry
      refine ⟨fun e h => congrArg Workspace.files workspace, fun _ => workspace, fun o h => ?_⟩
      obtain rfl := Except.ok.inj (outcome.symm.trans h)
      exact ⟨c, api, d, path, ready, rfl, schemas, rfl, paths, fun h => by cases h⟩
    | false =>
      obtain ⟨files, e, outcome⟩ | ⟨files, read, outcome⟩ := ready.run_of_not_dry dry
      · refine ⟨fun e h => files, fun h => (by cases h), fun o h => ?_⟩
        cases outcome.symm.trans h
      · refine ⟨fun e h => ?_, fun h => (by cases h), fun o h => ?_⟩
        · cases outcome.symm.trans h
        · obtain rfl := Except.ok.inj (outcome.symm.trans h)
          refine ⟨c, api, d, path, ready, rfl, schemas, rfl, paths, fun _ => ⟨read, ?_⟩⟩
          intro names other
          rw [files, Table.get?_insert_of_ne other]
  · obtain ⟨outcome, workspace⟩ := failed request.dryRun
    refine ⟨fun e h => congrArg Workspace.files workspace, fun _ => workspace, fun o h => ?_⟩
    cases outcome.symm.trans h

/-- An API that returns a pet. -/
def servedApi : Api := .returning (.named "Pet" .any none none none false)

/-- The module with this API. -/
def servingModules : Modules where
  files := [(["b", "m.py"], .members [("API", .ok (.api servedApi))])]

/-- A working directory with a configuration that says where the document goes, and the module. -/
def servingWorkspace (path : String) : Workspace where
  directory := ["b"]
  directories := [["b"]]
  files :=
    [(["b", "c"], "declaration: \x7btarget: 'm:API'\x7d\noutput: \x7bpath: " ++ path ++ "\x7d"),
      (["b", "m.py"], "")]

/-- A run that writes its document to a new directory. -/
theorem run_serving (dryRun : Bool) :
    (run servingModules (servingWorkspace "new/o.yaml") ⟨"c", none, dryRun⟩).outcome =
      .ok ⟨⟨.slash, ["b", "new", "o.yaml"]⟩, 1, 1, dryRun⟩ := by
  cases dryRun <;> decide +kernel

/-- The document of a pet is written, and the configuration is as before. -/
theorem run_frame_pets :
    let left := run servingModules (servingWorkspace "new/o.yaml") ⟨"c", none, false⟩
    left.outcome = .ok ⟨⟨.slash, ["b", "new", "o.yaml"]⟩, 1, 1, false⟩ ∧
      left.workspace.read ⟨.slash, ["b", "new", "o.yaml"]⟩ = .ok (Document.pets.render .yaml) ∧
      Table.get? ["b", "c"] left.workspace.files =
        Table.get? ["b", "c"] (servingWorkspace "new/o.yaml").files := by
  obtain ⟨c, api, d, path, ready, -, -, -, -, written⟩ :=
    (run_frame servingModules (servingWorkspace "new/o.yaml") ⟨"c", none, false⟩).2.2 _
      (run_serving false)
  have loaded : Configuration.load (servingWorkspace "new/o.yaml") (FilePath.ofText "c") = .ok
      { path := ⟨.relative, ["c"]⟩, target := "m:API", basePath := ⟨.slash, ["b"]⟩
        outputPath := ⟨.slash, ["b", "new", "o.yaml"]⟩, format := .yaml
        unknownSchemes := .passThrough, defaultResponseDescription := "OK" } := by decide +kernel
  obtain rfl := Except.ok.inj (loaded.symm.trans ready.loaded)
  have declared : servingModules.load (servingWorkspace "new/o.yaml") "m:API" ⟨.slash, ["b"]⟩ =
      .ok servedApi := by
    have target : Modules.splitTarget? "m:API" = some ("m", "API") := by decide +kernel
    have dotted : "m".endsWith ".py" = false := by decide +kernel
    simp only [Modules.load, target, Modules.importNamed, dotted]
    rfl
  obtain rfl := Except.ok.inj (declared.symm.trans ready.declared)
  have assembled : (assemble servedApi {} {}).outcome = .ok Document.pets := rfl
  obtain rfl := Except.ok.inj (assembled.symm.trans ready.assembled)
  obtain ⟨read, others⟩ := written rfl
  exact ⟨run_serving false, read, others ["b", "c"] (by decide)⟩

/-! ## Dry runs -/

/-- **The path of a document has been resolved**, unless no other one is asked for and it stands in
the configuration as an absolute one. -/
theorem Ready.resolved_or_written (h : Ready m w request c api d path) :
    (∃ p base : FilePath, path = p.resolve base) ∨
      (nonEmptyOr request.outputPath none = none ∧
        ∃ content v s, w.read (FilePath.ofText request.config) = .ok content ∧
          Yaml.read Configuration.depth content = .ok v ∧
          Configuration.Key.path.value? v = some (.str s) ∧
          path = FilePath.ofText (Text.trim s)) := by
  obtain ⟨p, rfl⟩ | ⟨own, rfl⟩ := destination?_eq_some h.located
  · exact .inl ⟨p, _, rfl⟩
  · exact (Configuration.outputPath_resolved_or_written h.loaded).imp id fun written =>
      ⟨own, written⟩

/-- **A dry run fails exactly if the run fails before it writes**, in the same way; and it foresees
the outcome of a run, but for one thing: its path need not be resolved.  The paths agree exactly if
that of the dry run goes up nowhere and begins with one slash; and where they do not, no other path
is asked for and this one stands in the configuration as it is. -/
theorem dry_run_foresees (m : Modules) (w : Workspace) (request : GenerationRequest) :
    let dry := (run m w { request with dryRun := true }).outcome
    let real := (run m w { request with dryRun := false }).outcome
    (∀ e, dry = .error e ↔
      real = .error e ∧ ¬ ∃ c api d path, Ready m w request c api d path) ∧
    ∀ o, real = .ok o → ∃ path,
      dry = .ok { o with outputPath := path, dryRun := true } ∧ o.outputPath = w.resolve path ∧
      (path = o.outputPath ↔ path.root = .slash ∧ ".." ∉ path.names) ∧
      (path ≠ o.outputPath → nonEmptyOr request.outputPath none = none ∧
        ∃ content v s, w.read (FilePath.ofText request.config) = .ok content ∧
          Yaml.read Configuration.depth content = .ok v ∧
          Configuration.Key.path.value? v = some (.str s) ∧
          path = FilePath.ofText (Text.trim s)) := by
  intro dry real
  by_cases ready : ∃ c api d path, Ready m w request c api d path
  · obtain ⟨c, api, d, path, ready⟩ := ready
    have foreseen := ((ready.withDryRun true).run_of_dry rfl).2
    constructor
    · intro e
      refine iff_of_false (fun h => ?_) fun h => h.2 ⟨c, api, d, path, ready⟩
      cases foreseen.symm.trans h
    · intro o h
      obtain ⟨-, e, refused⟩ | ⟨-, -, written⟩ := (ready.withDryRun false).run_of_not_dry rfl
      · cases refused.symm.trans h
      obtain rfl := Except.ok.inj (written.symm.trans h)
      have agree := FilePath.resolve_eq_self_iff ready.isAbsolute w.directoryPath
      refine ⟨path, foreseen, rfl, eq_comm.trans agree, fun differ => ?_⟩
      refine ready.resolved_or_written.resolve_left ?_
      rintro ⟨p, base, rfl⟩
      exact differ (agree.mpr ⟨rfl, FilePath.not_mem_names_resolve p base⟩).symm
  · obtain ⟨e, failed⟩ := (ready_or_failed m w request).resolve_left ready
    have dry_eq : dry = .error e := (failed true).1
    have real_eq : real = .error e := (failed false).1
    rw [dry_eq, real_eq]
    exact ⟨fun e => (and_iff_left ready).symm, fun o h => by cases h⟩

/-- A path that goes up nowhere is foreseen. -/
theorem dry_run_foresees_relative :
    let outcome (dryRun : Bool) :=
      (run servingModules (servingWorkspace "new/o.yaml") ⟨"c", none, dryRun⟩).outcome
    outcome false = .ok ⟨⟨.slash, ["b", "new", "o.yaml"]⟩, 1, 1, false⟩ ∧
      ∃ path, outcome true = .ok ⟨path, 1, 1, true⟩ ∧
        (path = ⟨.slash, ["b", "new", "o.yaml"]⟩ ↔ path.root = .slash ∧ ".." ∉ path.names) := by
  obtain ⟨path, dry, -, agree, -⟩ :=
    (dry_run_foresees servingModules (servingWorkspace "new/o.yaml") ⟨"c", none, true⟩).2 _
      (run_serving false)
  exact ⟨run_serving false, path, dry, agree⟩

/-- **An absolute path of the configuration that goes up is not foreseen** — the dry run reports it
as it stands there, and the run reports where the document is. -/
theorem dry_run_unresolved :
    let outcome (dryRun : Bool) :=
      (run servingModules (servingWorkspace "/b/new/../o.yaml") ⟨"c", none, dryRun⟩).outcome
    outcome false = .ok ⟨⟨.slash, ["b", "o.yaml"]⟩, 1, 1, false⟩ ∧
      outcome true = .ok ⟨⟨.slash, ["b", "new", "..", "o.yaml"]⟩, 1, 1, true⟩ :=
  ⟨by decide +kernel, by decide +kernel⟩

end Generation

end OpenApi
