import OpenApi.Command.Task

/-!
# Command/Reach — the files a task looks at

A task is carried out on a workspace, so whatever it looks at has to be in there.  What a task names
itself is known at once; what the configuration names is known once the configuration is in the
workspace.
-/

namespace OpenApi.Command

/-- The files that a task names. -/
def Task.named : Task → List FilePath
  | .help _ | .version => []
  | .scaffold output => [FilePath.ofText output]
  | .render request _ => [FilePath.ofText request.config]

/-- The file of the module that a target names, if it names one. -/
def moduleFile? (w : Workspace) (c : Configuration) : Option FilePath := do
  let (moduleName, _) ← Modules.splitTarget? c.target
  Modules.locate? w c.basePath (FilePath.ofText moduleName)

/-- The files that the configuration of a task names: its module and its document. -/
def Task.configured (w : Workspace) : Task → List FilePath
  | .render request _ =>
    match Configuration.load w (FilePath.ofText request.config) with
    | .ok c => (moduleFile? w c).toList ++ (Generation.destination? w c request).toList
    | .error _ => []
  | _ => []

end OpenApi.Command
