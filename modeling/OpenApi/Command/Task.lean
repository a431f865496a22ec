import OpenApi.Command.Help
import OpenApi.Configuration.Scaffold
import OpenApi.Generation

/-!
# Command/Task — what a command line asks for

A command line is read level by level into a task.  A request for help or for the release wins over
everything else at its level, except over arguments that cannot be read at all.
-/

namespace OpenApi.Command

/-- What the program is asked to do. -/
inductive Task where
  | help (level : Level)
  | version
  | scaffold (output : String)
  | render (request : GenerationRequest) (verbose : Bool)
deriving DecidableEq, Repr

/-! ## Refusals -/

/-- What is wrong with a command line. -/
def UsageError.complaint : UsageError → String
  | .noArguments => ""
  | .noSuchOption _ name => "No such option: " ++ name
  | .valueMissing name => "Option '" ++ name ++ "' requires an argument."
  | .valueUnexpected name => "Option '" ++ name ++ "' does not take a value."
  | .optionMissing _ option => "Missing option '" ++ option.text ++ "'."
  | .commandMissing => "Missing command."
  | .noSuchCommand name => "No such command " ++ Text.quoted name ++ "."
  | .extraOperands _ [operand] => "Got unexpected extra argument (" ++ operand ++ ")"
  | .extraOperands _ operands =>
    "Got unexpected extra arguments (" ++ " ".intercalate operands ++ ")"
  | .nullInPath => nullInPathText

/-- The text of a refusal: the page of the program if nothing is asked, and otherwise the complaint,
after a hint where to look. -/
def UsageError.message (e : UsageError) : String :=
  let complaint := "Error: " ++ e.complaint
  match e with
  | .noArguments => Level.page .program
  | .valueMissing _ | .valueUnexpected _ | .nullInPath => complaint
  | .noSuchOption l _ | .optionMissing l _ | .extraOperands l _ => l.hint ++ complaint
  | .commandMissing | .noSuchCommand _ => Level.hint .program ++ complaint

/-! ## Reading -/

namespace Task

/-- The help or the release that is asked for first at a level. -/
def early? (l : Level) (a : Arguments) : Option Task :=
  (a.options.find? fun p => p.1 = .help || p.1 = .version).map fun p =>
    if p.1 = .version then .version else .help l

/-- Whether the value of an option names a path that cannot be used at all. -/
def hasNull (a : Arguments) : Bool :=
  [OptionName.config, .output].any fun o =>
    (a.value? o).any fun value => (FilePath.ofText value).hasNull

/-- The task of a command with its options. -/
def ofOptions (a : Arguments) : Verb → Except UsageError Task
  | .generateConfig => .ok (.scaffold ((a.value? .output).getD Scaffold.defaultName))
  | .render =>
    match a.value? .config with
    | none => .error (.optionMissing (.command .render) .config)
    | some config =>
      .ok (.render
        { config, outputPath := a.value? .output, dryRun := a.has .dryRun } (a.has .verbose))

/-- The task of a command with its arguments. -/
def ofCommand (verb : Verb) (args : List String) : Except UsageError Task := do
  let a ← Arguments.read (.command verb) args
  match early? (.command verb) a with
  | some task => .ok task
  | none =>
    if hasNull a then .error .nullInPath
    let task ← ofOptions a verb
    if a.operands.isEmpty then .ok task else .error (.extraOperands (.command verb) a.operands)

/-- Refuses the name of a command; options that it may hide behind the separator come first. -/
def refuse (name : String) (args : List String) : Except UsageError Task := do
  let a ← Arguments.read .program (name :: args)
  match early? .program a with
  | some task => .ok task
  | none => .error (.noSuchCommand name)

/-- **The task that a command line asks for.** -/
def ofArguments (args : List String) : Except UsageError Task := do
  if args.isEmpty then .error .noArguments
  let a ← Arguments.read .program args
  match early? .program a, a.operands with
  | some task, _ => .ok task
  | none, [] => .error .commandMissing
  | none, name :: rest =>
    match Verb.all.find? (·.text = name) with
    | some verb => ofCommand verb rest
    | none => refuse name rest

end Task

end OpenApi.Command
