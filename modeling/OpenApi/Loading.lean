import OpenApi.Api
import OpenApi.Json.Basic
import OpenApi.Workspace

/-!
# Loading — finding the declaration of a run

A target names a module and one of its members.  The module is a file, as seen from a directory, or
has a dotted name, which is looked up part by part in the working directory; the member is an API or
a factory that makes one.  What the modules in the files hold is given as a table, so that loading is
a function of the target, the files and the table.
-/

namespace OpenApi

/-! ## Modules -/

/-- The classes of failures that are waited for somewhere: something cannot be imported, a member is
absent, or a run accounts for it, as it does for failures of the file system, of a configuration, of
loading and of another run. -/
inductive FailureClass where
  | notImportable
  | noMember
  | accounted
deriving DecidableEq, Repr

/-- What a failure counts as: an ordinary one, perhaps of some of the classes, or one that is none of
the ordinary ones, such as the wish to end the program. -/
inductive FailureKind where
  | ordinary (classes : List FailureClass)
  | fatal
deriving DecidableEq, Repr

/-- A failure that the code of a module ends in.  If every command line ends in a way of its own when
it meets such a failure, `ending` holds its exit code and what it shows then. -/
structure CodeFailure where
  message : String
  kind : FailureKind := .ordinary []
  ending : Option (Nat × String) := none
deriving DecidableEq, Repr

/-- Whether a failure is an ordinary one. -/
def CodeFailure.isOrdinary (f : CodeFailure) : Bool :=
  match f.kind with
  | .ordinary _ => true
  | .fatal => false

/-- Whether a failure is of a class. -/
def CodeFailure.isA (f : CodeFailure) (c : FailureClass) : Bool :=
  match f.kind with
  | .ordinary classes => classes.contains c
  | .fatal => false

/-- What a member of a module is.  A factory has the result of the call, which may fail. -/
inductive Export where
  | api (api : Api)
  | value (value : Json)
  | factory (result : Except CodeFailure Export)

/-- The members of a module by their names.  A module may have code that answers for a member when it
is asked for, and that may fail. -/
abbrev Members := List (String × Except CodeFailure Export)

/-- A module: its members, or the failure it ends in when it is executed. -/
inductive Module where
  | members (members : Members)
  | failing (failure : CodeFailure)

/-- The modules a run can load, by the names that lead to their files from the root. -/
structure Modules where
  files : List (List String × Module) := []

/-- The name of the type of what a member is. -/
def Export.typeName : Export → String
  | .api _ => "ApiDeclaration"
  | .value v => v.typeName
  | .factory _ => "function"

/-! ## Failures -/

/-- Why a declaration cannot be loaded. -/
inductive LoadError where
  | targetForm (target : String)
  | fileNotFound (path : String)
  | fileFailed (path message : String)
  | notImportable (name reason : String)
  | noMember (moduleName member : String)
  | factoryFailed (target message : String)
  | wrongType (target typeName : String)
deriving DecidableEq, Repr

/-- The text of the failure. -/
def LoadError.message : LoadError → String
  | .targetForm target =>
    "Declaration target '" ++ target ++ "' must have the form 'module:attribute'."
  | .fileNotFound path => "Declaration file not found: " ++ path
  | .fileFailed path message => "Failed to execute declaration file " ++ path ++ ": " ++ message
  | .notImportable name reason => "Cannot import module '" ++ name ++ "': " ++ reason
  | .noMember moduleName member =>
    "Module '" ++ moduleName ++ "' has no attribute '" ++ member ++ "'."
  | .factoryFailed target message => "Declaration factory '" ++ target ++ "' failed: " ++ message
  | .wrongType target typeName =>
    "Declaration target '" ++ target ++ "' resolved to " ++ typeName ++
      ", expected ApiDeclaration."

/-- What loading passes on: a failure of code that is not waited for, a dotted name that begins with a
dot and so is relative to nothing, or the name of a file that cannot be resolved. -/
inductive ModuleFault where
  | failed (failure : CodeFailure)
  | relativeName (name : String)
  | nullInPath
deriving DecidableEq, Repr

/-- The text of the fault. -/
def ModuleFault.message : ModuleFault → String
  | .failed failure => failure.message
  | .relativeName name =>
    "the 'package' argument is required to perform a relative import for " ++ Text.quoted name
  | .nullInPath => nullInPathText

/-- Why loading ends: it is refused, the file system refuses, or it meets a fault, which is passed on
as it is. -/
inductive LoadFailure where
  | refused (error : LoadError)
  | unreadable (error : FileError)
  | fault (fault : ModuleFault)
deriving DecidableEq, Repr

/-- The text of the failure. -/
def LoadFailure.message : LoadFailure → String
  | .refused e => e.message
  | .unreadable e => e.message
  | .fault f => f.message

/-- What becomes of a failure of code where some failures are waited for: it is refused if it is one
of them, and passed on otherwise. -/
def CodeFailure.handled (f : CodeFailure) (awaited : Bool) (refusal : LoadError) : LoadFailure :=
  if awaited then .refused refusal else .fault (.failed f)

/-! ## Members -/

/-- The API that a member is or makes, for a target. -/
def Export.declaration (target : String) : Export → Except LoadFailure Api
  | .api a | .factory (.ok (.api a)) => .ok a
  | .factory (.error f) => .error (f.handled f.isOrdinary (.factoryFailed target f.message))
  | .factory (.ok other) => .error (.refused (.wrongType target other.typeName))
  | other => .error (.refused (.wrongType target other.typeName))

/-- A member of a module with a name, which must be there. -/
def Members.member (members : Members) (moduleName name : String) : Except LoadFailure Export :=
  let absent := LoadError.noMember moduleName name
  match Table.get? name members with
  | none => .error (.refused absent)
  | some (.error f) => .error (f.handled (f.isA .noMember) absent)
  | some (.ok e) => .ok e

namespace Modules

/-! ## Modules by name -/

/-- The first parts of a dotted name, each a dotted name of its own, shortest first. -/
def heads (name : String) : List String :=
  let parts := (Text.splitBy (· = '.') name.toList).map String.ofList
  (List.range parts.length).map fun n => ".".intercalate (parts.take (n + 1))

/-- The module in a file, and that of a file the table does not know, which has no members. -/
def inFile (m : Modules) (names : List String) : Module :=
  (Table.get? names m.files).getD (.members [])

/-- What a dotted name leads to below the working directory: a directory with a file for itself, a
file, or a bare directory; with whether there can be modules below it. -/
def named? (m : Modules) (w : Workspace) (name : String) : Option (Module × Bool) :=
  let names := w.directory ++ (Text.splitBy (· = '.') name.toList).map String.ofList
  let itself := names ++ ["__init__.py"]
  let file := names.dropLast ++ [(names.getLast?.getD "") ++ ".py"]
  if (Table.get? itself w.files).isSome then some (m.inFile itself, true)
  else if (Table.get? file w.files).isSome then some (m.inFile file, false)
  else if w.directories.contains names then some (.members [], true)
  else none

/-- The members of the last of some dotted names, each of which stands below the one before and is
executed before the next is looked up.  `members` are those of the name before, and `leaf` is that
name if nothing can stand below it. -/
def importAll (m : Modules) (w : Workspace) (target : String) (members : Members)
    (leaf : Option String) : List String → Except LoadFailure Members
  | [] => .ok members
  | name :: names =>
    match leaf, m.named? w name with
    | some parent, _ =>
      .error (.refused (.notImportable target
        ("No module named " ++ Text.quoted name ++ "; " ++ Text.quoted parent ++
          " is not a package")))
    | none, none =>
      .error (.refused (.notImportable target ("No module named " ++ Text.quoted name)))
    | none, some (.failing f, _) =>
      .error (f.handled (f.isA .notImportable) (.notImportable target f.message))
    | none, some (.members members, holds) =>
      m.importAll w target members (if holds then none else some name) names

/-- The members of a module with a dotted name. -/
def importDotted (m : Modules) (w : Workspace) (name : String) : Except LoadFailure Members :=
  if name.toList.head? = some '.' then .error (.fault (.relativeName name))
  else m.importAll w name [] none (heads name)

/-! ## Modules in files -/

/-- The members of a module in a file. -/
def importFile (m : Modules) (w : Workspace) (path : FilePath) : Except LoadFailure Members :=
  match w.has path, w.lookup path with
  | .error e, _ => .error (.unreadable e)
  | .ok true, .ok (.file names _) =>
    match m.inFile names with
    | .members members => .ok members
    | .failing f => .error (f.handled f.isOrdinary (.fileFailed path.text f.message))
  | .ok true, _ =>
    .error (.refused (.fileFailed path.text (FileError.message ⟨.isADirectory, path.text⟩)))
  | .ok false, _ => .error (.refused (.fileNotFound path.text))

/-! ## Targets -/

/-- The module and the member of a target, which the last colon divides. -/
def splitTarget? (target : String) : Option (String × String) :=
  match Text.cut? (· = ':') target.toList.reverse with
  | some (member, moduleName) =>
    if member.isEmpty || moduleName.isEmpty then none
    else some (String.ofList moduleName.reverse, String.ofList member.reverse)
  | none => none

/-- The file of a module as seen from a directory: an absolute path as it is, a relative one
resolved, if it can be. -/
def locate? (w : Workspace) (base path : FilePath) : Option FilePath :=
  if path.isAbsolute then some path else w.resolve? (base.join path)

/-- The members of the module with a name, which is that of a file or a dotted one. -/
def importNamed (m : Modules) (w : Workspace) (base : FilePath) (name : String) :
    Except LoadFailure Members :=
  if name.endsWith ".py" then
    match locate? w base (FilePath.ofText name) with
    | some path => m.importFile w path
    | none => .error (.fault .nullInPath)
  else m.importDotted w name

/-- **The API that a target names** — seen from a directory. -/
def load (m : Modules) (w : Workspace) (target : String) (base : FilePath) :
    Except LoadFailure Api :=
  match splitTarget? target with
  | none => .error (.refused (.targetForm target))
  | some (moduleName, member) => do
    let members ← m.importNamed w base moduleName
    let e ← members.member moduleName member
    e.declaration target

end Modules

end OpenApi
