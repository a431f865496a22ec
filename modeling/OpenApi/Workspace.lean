import OpenApi.FilePath
import OpenApi.Order
import OpenApi.Text.Quoted

/-!
# Workspace — a file tree with a working directory

The files a run can see and what it may do to them, as a value: look a path up, read a file, write
a file, make directories.  A double dot goes up from a directory that exists, so a path through a
missing directory names nothing.  Names and paths have a length they must not exceed, and no path
with a null character can be asked for.  Writing replaces the whole text of a file or changes
nothing.

The tree holds directories and texts and no symbolic links, so its names alone say where a path
leads.  Nothing but a run changes it: a module that is imported leaves no trace there, such as its
compiled code kept beside it.
-/

namespace OpenApi

/-! ## Failures -/

/-- Why the file system refuses. -/
inductive FileFault where
  | notFound
  | exists
  | notADirectory
  | isADirectory
  | nameTooLong
deriving DecidableEq, Repr

/-- A refusal of the file system, with the path as it was given. -/
structure FileError where
  fault : FileFault
  path : String
deriving DecidableEq, Repr

/-- The number and the words for a refusal. -/
def FileFault.text : FileFault → String
  | .notFound => "[Errno 2] No such file or directory"
  | .exists => "[Errno 17] File exists"
  | .notADirectory => "[Errno 20] Not a directory"
  | .isADirectory => "[Errno 21] Is a directory"
  | .nameTooLong => "[Errno 36] File name too long"

/-- The text of a refusal. -/
def FileError.message (e : FileError) : String := e.fault.text ++ ": " ++ Text.quoted e.path

/-- Why a path cannot be used: it holds a null character, or the file system refuses it. -/
inductive AccessError where
  | nullInPath
  | refused (error : FileError)
deriving DecidableEq, Repr

/-- What is said about a path with a null character. -/
def nullInPathText : String := "embedded null byte"

/-- The text of the failure. -/
def AccessError.message : AccessError → String
  | .nullInPath => nullInPathText
  | .refused e => e.message

/-! ## The tree -/

/-- The largest number of bytes in a name. -/
def maxNameBytes : Nat := 255

/-- The number of bytes that no path reaches. -/
def pathBytesLimit : Nat := 4096

/-- Whether a name has too many bytes. -/
def isTooLong (name : String) : Bool := maxNameBytes < name.utf8ByteSize

/-- A file tree, its directories and files by the names that lead to them from the root, and the
directory that relative paths start from. -/
structure Workspace where
  directory : List String
  directories : List (List String)
  files : List (List String × String)
deriving DecidableEq, Repr

/-- What a path leads to. -/
inductive Entry where
  | directory (names : List String)
  | file (names : List String) (text : String)
  | missing (names : List String)
deriving DecidableEq, Repr

namespace Workspace

/-- The working directory as a path. -/
def directoryPath (w : Workspace) : FilePath := ⟨.slash, w.directory⟩

/-- Whether the names lead to a directory; the root is one. -/
def isDirectory (w : Workspace) (names : List String) : Bool :=
  names.isEmpty || w.directories.contains names

/-- What stands at the given names, whose directory exists. -/
def entry (w : Workspace) (names : List String) : Entry :=
  if w.isDirectory names then .directory names
  else match Table.get? names w.files with
    | some text => .file names text
    | none => .missing names

/-- Follows names from a directory: only the last one may be missing or a file. -/
def follow (w : Workspace) (here : List String) : List String → Except FileFault Entry
  | [] => .ok (.directory here)
  | ".." :: names => w.follow here.dropLast names
  | name :: names =>
    if isTooLong name then .error .nameTooLong
    else match w.entry (here ++ [name]), names with
      | entry, [] => .ok entry
      | .directory here, names => w.follow here names
      | .file _ _, _ => .error .notADirectory
      | .missing _, _ => .error .notFound

/-- Where a path starts. -/
def start (w : Workspace) (p : FilePath) : List String :=
  if p.isAbsolute then [] else w.directory

/-- Whether the file system can be asked about a path: without a null character, and short
enough. -/
def askable (p : FilePath) : Except AccessError Unit :=
  if p.hasNull then .error .nullInPath
  else if pathBytesLimit ≤ p.text.utf8ByteSize then .error (.refused ⟨.nameTooLong, p.text⟩)
  else .ok ()

/-- What a path leads to. -/
def lookup (w : Workspace) (p : FilePath) : Except AccessError Entry :=
  match askable p with
  | .error e => .error e
  | .ok () => (w.follow (w.start p) p.names).mapError fun fault => .refused ⟨fault, p.text⟩

/-- Whether a path leads to a file or a directory; a path that is too long is refused. -/
def has (w : Workspace) (p : FilePath) : Except FileError Bool :=
  match w.lookup p with
  | .ok (.directory _) | .ok (.file _ _) => .ok true
  | .error (.refused ⟨.nameTooLong, path⟩) => .error ⟨.nameTooLong, path⟩
  | _ => .ok false

/-- The text of a file. -/
def read (w : Workspace) (p : FilePath) : Except AccessError String :=
  match w.lookup p with
  | .ok (.file _ text) => .ok text
  | .ok (.directory _) => .error (.refused ⟨.isADirectory, p.text⟩)
  | .ok (.missing _) => .error (.refused ⟨.notFound, p.text⟩)
  | .error e => .error e

/-- The path seen from the root. -/
def resolve (w : Workspace) (p : FilePath) : FilePath := p.resolve w.directoryPath

/-- The path seen from the root, if the file system can be asked about it. -/
def resolve? (w : Workspace) (p : FilePath) : Option FilePath :=
  if p.hasNull then none else some (w.resolve p)

/-! ## Changes -/

/-- Replaces the text of a file, or makes it in a directory that exists. -/
def write (w : Workspace) (p : FilePath) (text : String) : Except AccessError Workspace :=
  match w.lookup p with
  | .ok (.file names _) | .ok (.missing names) =>
    .ok { w with files := Table.insert names text w.files }
  | .ok (.directory _) => .error (.refused ⟨.isADirectory, p.text⟩)
  | .error e => .error e

/-- Follows the rest of the names of a path from a directory and makes the directories that are
missing; a file in the way is refused, and what was made before stays.  `passed` are the names
before.  Once a directory has been made, those after it are made one at a time, so a refusal names
the path up to where it happens; before that it names the whole path. -/
def makeAlong (p : FilePath) (w : Workspace) (here passed : List String) (made : Bool) :
    List String → Workspace × Except FileError Unit
  | [] => (w, .ok ())
  | name :: names =>
    let passed := passed ++ [name]
    let refusal (fault : FileFault) : Workspace × Except FileError Unit :=
      (w, .error ⟨fault, (if made then { p with names := passed } else p).text⟩)
    if name = ".." then makeAlong p w here.dropLast passed made names
    else if isTooLong name then refusal .nameTooLong
    else match w.entry (here ++ [name]) with
      | .directory here => makeAlong p w here passed made names
      | .missing here =>
        makeAlong p { w with directories := w.directories ++ [here] } here passed true names
      | .file _ _ => refusal (if made || names.isEmpty then .exists else .notADirectory)

/-- Makes the directory of a path and those above it that are missing. -/
def makeDirectories (w : Workspace) (p : FilePath) : Except AccessError Workspace :=
  match askable p with
  | .error e => .error e
  | .ok () =>
    match makeAlong p w (w.start p) [] false p.names with
    | (w', .ok ()) => .ok w'
    | (_, .error e) => .error (.refused e)

/-- What is there once the directories of a path have been asked for, even if they are refused. -/
def withDirectories (w : Workspace) (p : FilePath) : Workspace :=
  match askable p with
  | .error _ => w
  | .ok () => (makeAlong p w (w.start p) [] false p.names).1

end Workspace

end OpenApi
