/-!
# Command/Arguments — options and operands of a command line

A command line is read against the options that its command knows.  An option stands by its long
name, with its value after an equals sign or as the next argument; one dash may be followed by
several short names.  Two dashes alone end the options.  The program itself stops at its first
operand, which is the command; a command takes operands between its options.
-/

namespace OpenApi.Command

/-- The commands of the program. -/
inductive Verb where
  | generateConfig
  | render
deriving DecidableEq, Repr

/-- What reads a part of the command line: the program itself or one of its commands. -/
inductive Level where
  | program
  | command (verb : Verb)
deriving DecidableEq, Repr

/-- The options of the program and its commands. -/
inductive OptionName where
  | help
  | version
  | config
  | output
  | dryRun
  | verbose
deriving DecidableEq, Repr

/-- The option as it is written. -/
def OptionName.text : OptionName → String
  | .help => "--help"
  | .version => "--version"
  | .config => "--config"
  | .output => "--output"
  | .dryRun => "--dry-run"
  | .verbose => "--verbose"

/-- Whether an option has a value. -/
def OptionName.takesValue : OptionName → Bool
  | .config | .output => true
  | _ => false

/-- The options that are known at a level. -/
def Level.options : Level → List OptionName
  | .program => [.version, .help]
  | .command .generateConfig => [.output, .help]
  | .command .render => [.config, .output, .dryRun, .verbose, .help]

/-! ## Refusals -/

/-- Why a command line cannot be read. -/
inductive UsageError where
  | noArguments
  | noSuchOption (level : Level) (name : String)
  | valueMissing (name : String)
  | valueUnexpected (name : String)
  | optionMissing (level : Level) (option : OptionName)
  | commandMissing
  | noSuchCommand (name : String)
  | extraOperands (level : Level) (operands : List String)
  | nullInPath
deriving DecidableEq, Repr

/-! ## Reading -/

/-- The arguments of a level: options with their values in the order they stand, then operands. -/
structure Arguments where
  options : List (OptionName × String)
  operands : List String
deriving DecidableEq, Repr

/-- What one argument is. -/
inductive Argument where
  | flags (options : List OptionName)
  | valued (option : OptionName) (value : String)
  | awaiting (option : OptionName)
  | operand
  | separator
deriving DecidableEq, Repr

/-- The options that short names stand for. -/
def shortOptions (l : Level) : List Char → Except UsageError (List OptionName)
  | [] => .ok []
  | 'h' :: cs => (shortOptions l cs).map (.help :: ·)
  | c :: _ => .error (.noSuchOption l (String.ofList ['-', c]))

/-- A name and the text after the first equals sign, if there is one. -/
def splitValue (cs : List Char) : String × Option String :=
  let name := cs.takeWhile (· ≠ '=')
  (String.ofList name,
    match cs.drop name.length with
    | [] => none
    | _ :: value => some (String.ofList value))

/-- The option that an argument stands for. -/
def readOption (l : Level) (arg : List Char) : Except UsageError Argument :=
  let (name, value) := splitValue arg
  match l.options.find? (·.text = name), value with
  | some option, some value =>
    if option.takesValue then .ok (.valued option value) else .error (.valueUnexpected name)
  | some option, none => .ok (if option.takesValue then .awaiting option else .flags [option])
  | none, _ =>
    if arg.take 2 = ['-', '-'] then .error (.noSuchOption l name)
    else (shortOptions l arg.tail).map .flags

/-- What an argument is: a dash alone is an operand. -/
def classify (l : Level) (arg : String) : Except UsageError Argument :=
  match arg.toList with
  | ['-', '-'] => .ok .separator
  | '-' :: c :: cs => readOption l ('-' :: c :: cs)
  | _ => .ok .operand

namespace Arguments

/-- The arguments with further options in front. -/
def prepend (options : List (OptionName × String)) (a : Arguments) : Arguments :=
  { a with options := options ++ a.options }

/-- **Reads the arguments of a level** — until the separator, and at the level of the program until
the first operand. -/
def read (l : Level) : List String → Except UsageError Arguments
  | [] => .ok ⟨[], []⟩
  | arg :: args =>
    match classify l arg, args with
    | .error e, _ => .error e
    | .ok .separator, args => .ok ⟨[], args⟩
    | .ok .operand, args =>
      if l = .program then .ok ⟨[], arg :: args⟩
      else (read l args).map fun a => { a with operands := arg :: a.operands }
    | .ok (.flags options), args => (read l args).map (prepend (options.map (·, "")))
    | .ok (.valued option value), args => (read l args).map (prepend [(option, value)])
    | .ok (.awaiting option), [] => .error (.valueMissing option.text)
    | .ok (.awaiting option), value :: args => (read l args).map (prepend [(option, value)])

/-- Whether an option is there. -/
def has (a : Arguments) (option : OptionName) : Bool := a.options.any (·.1 = option)

/-- The value of an option, the last one if it is there more than once. -/
def value? (a : Arguments) (option : OptionName) : Option String :=
  (a.options.reverse.find? (·.1 = option)).map (·.2)

end Arguments

end OpenApi.Command
