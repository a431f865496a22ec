import OpenApi.Command.Reach
import OpenApi.Command.Run

/-!
# Main — the program

The outer layer: it brings the files that a command line looks at into a workspace, carries the
command line out there, and brings what has changed back to the disk.
-/

namespace OpenApi.Console

/-- Brings in what stands at the names from the root on: a directory, a file or nothing. -/
def look (w : Workspace) (names : List String) : IO Workspace := do
  if w.isDirectory names then return w
  try
    let text ← IO.FS.readFile (FilePath.text ⟨.slash, names⟩)
    return { w with files := Table.insert names text w.files }
  catch
    | .inappropriateType .. => return { w with directories := w.directories ++ [names] }
    | .noFileOrDirectory .. => return w
    | e => throw e

/-- Brings in a file with the directories above it, as far as they are there and can be asked for. -/
def lookAlong (w : Workspace) (p : FilePath) : IO Workspace := do
  if p.hasNull then return w
  let names := (w.resolve p).names.takeWhile (!isTooLong ·)
  let mut seen := w
  for n in List.range names.length do
    if seen.isDirectory (names.take n) then
      seen ← look seen (names.take (n + 1))
  return seen

/-- Brings in all of some files. -/
def lookAll (w : Workspace) (paths : List FilePath) : IO Workspace := paths.foldlM lookAlong w

/-- Brings in everything that a command line looks at. -/
def survey (args : List String) : IO Workspace := do
  let here := (FilePath.ofText (← IO.currentDir).toString).names
  let w : Workspace := ⟨here, (List.range here.length).map fun n => here.take (n + 1), []⟩
  match Command.Task.ofArguments args with
  | .error _ => return w
  | .ok task =>
    let w ← lookAll w task.named
    lookAll w (task.configured w)

/-- Brings what has changed back to the disk. -/
def settle (before after : Workspace) : IO Unit := do
  for names in after.directories do
    if !before.isDirectory names then
      IO.FS.createDirAll (FilePath.text ⟨.slash, names⟩)
  for (names, text) in after.files do
    if Table.get? names before.files != some text then
      IO.FS.writeFile (FilePath.text ⟨.slash, names⟩) text

/-- Runs a command line with the modules that declarations can come from. -/
def runWith (m : Modules) (args : List String) : IO UInt32 := do
  let before ← survey args
  let ending := Command.run m before args
  settle before ending.workspace
  match ending.report with
  | .error reason => throw (IO.userError reason.message)
  | .ok r =>
    IO.eprint r.stderr
    IO.print r.stdout
    return r.exit.toUInt32

end OpenApi.Console

/-- The program, with no modules but those in files. -/
def main (args : List String) : IO UInt32 := OpenApi.Console.runWith {} args
