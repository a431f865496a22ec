import OpenApi.Command.Task
import OpenApi.Text.ControlSequence

/-!
# Command/Run — carrying a command line out

A command line becomes an exit code, what is printed, and the files it leaves behind.  The code is 0
when the task is done, 1 when it fails, and 2 when the command line is refused; a failure is printed
beside the output, not in it.  A breakdown has no exit code, unless it is one that ends every
command line in a way of its own.
-/

namespace OpenApi.Command

/-- What a command line comes to. -/
structure Report where
  exit : Nat
  stdout : String := ""
  stderr : String := ""
deriving DecidableEq, Repr

/-- A line of output, without terminal control. -/
def printed (s : String) : String := Text.plain s ++ "\n"

/-- A task that is done, with what it says. -/
def Report.done (s : String) : Report := { exit := 0, stdout := printed s }

/-- A task that fails, with the reason. -/
def Report.failed (s : String) : Report := { exit := 1, stderr := printed s }

/-- A command line that is refused. -/
def Report.refused (e : UsageError) : Report := { exit := 2, stderr := printed e.message }

/-- Why there is no report: the program breaks down, or what comes of a configuration with half of a
surrogate pair is left open. -/
inductive Stop where
  | broken (cause : Breakdown)
  | unpaired
deriving DecidableEq, Repr

/-- The text of the reason. -/
def Stop.message : Stop → String
  | .broken cause => cause.message
  | .unpaired => Yaml.unpairedText

/-- What a run of the program leaves behind: the files, and a report unless there is none. -/
structure Ending where
  workspace : Workspace
  report : Except Stop Report

/-- What a finished generation says. -/
def summary (o : GenerationOutcome) : String :=
  if o.dryRun then
    "dry run: " ++ toString o.pathCount ++ " paths and " ++ toString o.schemaCount ++
      " schemas validated, nothing written to " ++ o.outputPath.text
  else o.outputPath.text

/-- The report on a generation; its notices come first if they are asked for.  A breakdown is
reported if every command line ends with it in a way of its own. -/
def reportOn (verbose : Bool) (run : GenerationRun) : Except Stop Report :=
  let journal := if verbose then String.join (run.notices.map (·.line ++ "\n")) else ""
  let after (r : Report) : Report := { r with stderr := journal ++ r.stderr }
  match run.outcome with
  | .ok o => .ok (after (.done (summary o)))
  | .error (.refused e) => .ok (after (.failed e.message))
  | .error (.broken cause) =>
    match cause.ending? with
    | some (exit, shown) => .ok (after { exit, stderr := shown })
    | none => .error (.broken cause)
  | .error .unpaired => .error .unpaired

/-- Carries a task out. -/
def perform (m : Modules) (w : Workspace) : Task → Ending
  | .help l => ⟨w, .ok (.done l.page)⟩
  | .version => ⟨w, .ok (.done versionLine)⟩
  | .scaffold output =>
    match Scaffold.write w (FilePath.ofText output) with
    | .ok (w', path) => ⟨w', .ok (.done path.text)⟩
    | .error .nullInPath => ⟨w, .error (.broken .nullInPath)⟩
    | .error e => ⟨w, .ok (.failed e.message)⟩
  | .render request verbose =>
    let run := Generation.run m w request
    ⟨run.workspace, reportOn verbose run⟩

/-- **Carries a command line out** — on the files of a workspace, with the modules it can load. -/
def run (m : Modules) (w : Workspace) (args : List String) : Ending :=
  match Task.ofArguments args with
  | .ok task => perform m w task
  | .error .nullInPath => ⟨w, .error (.broken .nullInPath)⟩
  | .error e => ⟨w, .ok (.refused e)⟩

end OpenApi.Command
