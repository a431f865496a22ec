import OpenApi.Configuration.Basic
import OpenApi.Loading

/-!
# Generation — one run from a configuration to a document

A run loads its configuration and its declaration, assembles the document on an empty registry and
writes it.  Nothing is written before the assembly has succeeded, and a dry run writes nothing at
all.
-/

namespace OpenApi

/-! ## Writing a document -/

/-- Why a document is not written. -/
structure OutputError where
  path : FilePath
  error : FileError
deriving DecidableEq, Repr

/-- The text of the failure. -/
def OutputError.message (e : OutputError) : String :=
  "Failed to write document to " ++ e.path.text ++ ": " ++ e.error.message

/-- Why writing ends: it is refused, or the path cannot be used at all. -/
inductive OutputFailure where
  | refused (error : OutputError)
  | nullInPath
deriving DecidableEq, Repr

/-- The text of the failure. -/
def OutputFailure.message : OutputFailure → String
  | .refused e => e.message
  | .nullInPath => nullInPathText

/-- The failure to use the path of a document. -/
def OutputFailure.ofAccess (path : FilePath) : AccessError → OutputFailure
  | .nullInPath => .nullInPath
  | .refused e => .refused ⟨path, e⟩

/-- Writes a document in a format, with the directories above it; the result is the path seen from
the root. -/
def Document.write (d : Document) (w : Workspace) (path : FilePath) (format : OutputFormat) :
    Except OutputFailure (Workspace × FilePath) := do
  let w ← (w.makeDirectories path.parent).mapError (.ofAccess path)
  let w ← (w.write path (d.render format)).mapError (.ofAccess path)
  pure (w, w.resolve path)

/-! ## Runs -/

/-- What is asked of a run: the configuration, perhaps another place for the document, and whether
to write it at all. -/
structure GenerationRequest where
  config : String
  outputPath : Option String := none
  dryRun : Bool := false
deriving DecidableEq, Repr

/-- What a run reports. -/
structure GenerationOutcome where
  outputPath : FilePath
  schemaCount : Nat
  pathCount : Nat
  dryRun : Bool
deriving DecidableEq, Repr

/-- Why a run is refused. -/
inductive GenerationError where
  | configuration (error : ConfigurationError)
  | file (error : FileError)
  | declaration (error : LoadError)
  | code (failure : CodeFailure)
  | assembly (error : AssemblyError)
  | output (error : OutputError)
deriving DecidableEq, Repr

/-- The text of a refusal. -/
def GenerationError.message : GenerationError → String
  | .configuration e => e.message
  | .file e => e.message
  | .declaration e => e.message
  | .code f => f.message
  | .assembly e => e.message
  | .output e => e.message

/-- What a run does not account for: a scalar of the configuration that has no value, a fault of a
module, an item that a variant lacks, or a path that cannot be used at all. -/
inductive Breakdown where
  | scalar (fault : Yaml.ScalarFault)
  | declaration (fault : ModuleFault)
  | noItem
  | nullInPath
deriving DecidableEq, Repr

/-- The text of a breakdown. -/
def Breakdown.message : Breakdown → String
  | .scalar fault => fault.message
  | .declaration fault => fault.message
  | .noItem => ShapeFault.message .noItem
  | .nullInPath => nullInPathText

/-- The exit code of a breakdown and what it shows, if it ends every command line in a way of its
own. -/
def Breakdown.ending? : Breakdown → Option (Nat × String)
  | .declaration (.failed f) => f.ending
  | _ => none

/-- Why a run ends without an outcome: it is refused, or it breaks down; or its configuration holds
half of a surrogate pair, and what comes of it is left open. -/
inductive GenerationFailure where
  | refused (error : GenerationError)
  | broken (cause : Breakdown)
  | unpaired
deriving DecidableEq, Repr

/-- The text of the failure. -/
def GenerationFailure.message : GenerationFailure → String
  | .refused e => e.message
  | .broken cause => cause.message
  | .unpaired => Yaml.unpairedText

/-- The failure of a run whose configuration yields no settings. -/
def GenerationFailure.ofConfiguration : Configuration.Failure → GenerationFailure
  | .refused e => .refused (.configuration e)
  | .unreadable e => .refused (.file e)
  | .scalar fault => .broken (.scalar fault)
  | .nullInPath => .broken .nullInPath
  | .unpaired => .unpaired

/-- The failure of a run whose declaration cannot be loaded.  A failure of code is refused if the run
accounts for it. -/
def GenerationFailure.ofLoading : LoadFailure → GenerationFailure
  | .refused e => .refused (.declaration e)
  | .unreadable e => .refused (.file e)
  | .fault (.failed f) =>
    if f.isA .accounted then .refused (.code f) else .broken (.declaration (.failed f))
  | .fault fault => .broken (.declaration fault)

/-- The failure of a run whose document cannot be assembled. -/
def GenerationFailure.ofAssembly : AssemblyError → GenerationFailure
  | .shape ⟨_, .noItem⟩ => .broken .noItem
  | e => .refused (.assembly e)

/-- What a run leaves behind: the files, the outcome or the failure, and reports. -/
structure GenerationRun where
  workspace : Workspace
  outcome : Except GenerationFailure GenerationOutcome
  notices : List Notice

namespace Generation

/-- The settings and the declaration of a run. -/
def loadInputs (m : Modules) (w : Workspace) (config : FilePath) :
    Except GenerationFailure (Configuration × Api) := do
  let c ← (Configuration.load w config).mapError .ofConfiguration
  let api ← (m.load w c.target c.basePath).mapError .ofLoading
  pure (c, api)

/-- Where the document of a run goes, if the path that is asked for can be used. -/
def destination? (w : Workspace) (c : Configuration) (request : GenerationRequest) :
    Option FilePath :=
  match nonEmptyOr request.outputPath none with
  | some path => w.resolve? (FilePath.ofText path)
  | none => some c.outputPath

/-- Writes the document of a run to its destination, unless the run is dry.  If it is refused, the
directories that were made for it stay. -/
def deliver (w : Workspace) (c : Configuration) (request : GenerationRequest) (d : Document)
    (schemaCount : Nat) : GenerationRun :=
  let outcome (outputPath : FilePath) : GenerationOutcome :=
    ⟨outputPath, schemaCount, d.pathKeys.length, request.dryRun⟩
  match destination? w c request with
  | none => ⟨w, .error (.broken .nullInPath), []⟩
  | some path =>
    if request.dryRun then ⟨w, .ok (outcome path), [.skippedWrite path.text]⟩
    else match d.write w path c.format with
      | .error .nullInPath =>
        ⟨w.withDirectories path.parent, .error (.broken .nullInPath), []⟩
      | .error (.refused e) =>
        ⟨w.withDirectories path.parent, .error (.refused (.output e)), []⟩
      | .ok (w', written) => ⟨w', .ok (outcome written), [.wrote written.text]⟩

/-- **One run** — on the files of a workspace, with the modules it can load. -/
def run (m : Modules) (w : Workspace) (request : GenerationRequest) : GenerationRun :=
  match loadInputs m w (FilePath.ofText request.config) with
  | .error e => ⟨w, .error e, []⟩
  | .ok (c, api) =>
    let assembled := assemble api c.options {}
    let before := .loaded c.target :: assembled.notices
    match assembled.outcome with
    | .error e => ⟨w, .error (.ofAssembly e), before⟩
    | .ok d =>
      let delivered := deliver w c request d assembled.registry.size
      { delivered with notices := before ++ delivered.notices }

end Generation

end OpenApi
