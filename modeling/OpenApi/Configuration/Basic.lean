import OpenApi.Assembly.Basic
import OpenApi.Document.Format
import OpenApi.Text.Blank
import OpenApi.Text.LowerCase
import OpenApi.Workspace
import OpenApi.Yaml.Value

/-!
# Configuration/Basic — the settings of a run

A configuration file is a YAML mapping of three sections: where the declaration is, where the
document goes and in which format, and the choices of the assembly.  The settings are checked in
this order, and the first that is not as it should be is refused.  Texts are read without the blanks
around them, words in any case; relative paths start at the directory of the file.
-/

namespace OpenApi

/-- The settings of a run. -/
structure Configuration where
  path : FilePath
  target : String
  basePath : FilePath
  outputPath : FilePath
  format : OutputFormat
  unknownSchemes : SchemePolicy
  defaultResponseDescription : String
deriving DecidableEq, Repr

/-- The choices of the assembly. -/
def Configuration.options (c : Configuration) : AssemblyOptions where
  unknownSchemes := c.unknownSchemes
  defaultResponseDescription := c.defaultResponseDescription

/-! ## Failures -/

/-- Why a configuration is refused. -/
inductive ConfigurationError where
  | notFound (path : String)
  | malformed
  | rootNotMapping
  | missingSection (name : String)
  | sectionNotMapping (name : String)
  | notAString (setting : String)
  | blank (setting : String)
  | notOneOf (setting : String) (words : List String)
  | targetForm
deriving DecidableEq, Repr

/-- The text of a refusal. -/
def ConfigurationError.message : ConfigurationError → String
  | .notFound path => "Configuration file not found: " ++ path
  | .malformed => "Failed to parse configuration file"
  | .rootNotMapping => "Configuration root must be a mapping."
  | .missingSection name => "Configuration section '" ++ name ++ "' is required."
  | .sectionNotMapping name => "Configuration section '" ++ name ++ "' must be a mapping."
  | .notAString setting => setting ++ " must be a string."
  | .blank setting => setting ++ " must not be empty."
  | .notOneOf setting words =>
    setting ++ " must be one of: " ++ ", ".intercalate words ++ "."
  | .targetForm =>
    "declaration.target must have the form 'module:attribute' or 'file.py:attribute'."

namespace Configuration

/-! ## Reading settings -/

/-- A text that is there and not blank, without the blanks around it. -/
def text (setting : String) : Option Yaml.Value → Except ConfigurationError String
  | some (.str s) => if Text.trim s = "" then .error (.blank setting) else .ok (Text.trim s)
  | _ => .error (.notAString setting)

/-- A text that may be absent, null or blank, which all mean that there is none. -/
def text? (setting : String) : Option Yaml.Value → Except ConfigurationError (Option String)
  | none | some .null => .ok none
  | some (.str s) => .ok (if Text.trim s = "" then none else some (Text.trim s))
  | _ => .error (.notAString setting)

/-- One of some values by its word in any case; the first one if the setting is absent. -/
def choice {α : Type} (setting : String) (default : α) (others : List α) (word : α → String) :
    Option Yaml.Value → Except ConfigurationError α
  | none => .ok default
  | some v => do
    let s ← text setting (some v)
    match (default :: others).find? (word · = Text.lower s) with
    | some a => .ok a
    | none => .error (.notOneOf setting ((default :: others).map word))

/-- A section that may be absent or null, which both mean that it is empty. -/
def optionalSection (name : String) : Option Yaml.Value → Except ConfigurationError Yaml.Value
  | none | some .null => .ok (.mapping [])
  | some (.mapping members) => .ok (.mapping members)
  | _ => .error (.sectionNotMapping name)

/-- A section that must be there. -/
def requiredSection (name : String) : Option Yaml.Value → Except ConfigurationError Yaml.Value
  | some (.mapping members) => .ok (.mapping members)
  | _ => .error (.missingSection name)

/-- The file a format is written to unless the configuration names one. -/
def defaultOutput : OutputFormat → String
  | .yaml => "openapi.yaml"
  | .json => "openapi.json"

/-- Why a configuration file yields no settings: they are refused, the file cannot be read, one of
its scalars has no value, it names a path that cannot be resolved, or it has no value here because
of half of a surrogate pair. -/
inductive Failure where
  | refused (error : ConfigurationError)
  | unreadable (error : FileError)
  | scalar (fault : Yaml.ScalarFault)
  | nullInPath
  | unpaired
deriving DecidableEq, Repr

/-- The text of the failure. -/
def Failure.message : Failure → String
  | .refused e => e.message
  | .unreadable e => e.message
  | .scalar fault => fault.message
  | .nullInPath => nullInPathText
  | .unpaired => Yaml.unpairedText

/-- The failure of a configuration whose text has no value. -/
def Failure.ofRead : Yaml.ReadError → Failure
  | .malformed => .refused .malformed
  | .scalar fault => .scalar fault
  | .unpaired => .unpaired

/-- A setting, or the refusal of the configuration. -/
def checked {α : Type} (setting : Except ConfigurationError α) : Except Failure α :=
  setting.mapError .refused

/-- A path as seen from a directory: an absolute one as it is, a relative one resolved. -/
def located (base p : FilePath) : Except Failure FilePath :=
  if p.isAbsolute then .ok p
  else if p.hasNull then .error .nullInPath
  else .ok (p.resolve base)

/-- **The settings that a value stands for** — checked section by section. -/
def ofValue (path base : FilePath) (v : Yaml.Value) : Except Failure Configuration := do
  let root ← match v with
    | .null => .ok (Yaml.Value.mapping [])
    | .mapping members => .ok (.mapping members)
    | _ => .error (.refused .rootNotMapping)
  let declaration ← checked (requiredSection "declaration" (root.get? "declaration"))
  let target ← checked (text "declaration.target" (declaration.get? "target"))
  if !target.toList.contains ':' then .error (.refused .targetForm)
  let output ← checked (optionalSection "output" (root.get? "output"))
  let format ← checked (choice "output.format" OutputFormat.yaml [.json] OutputFormat.word
    (output.get? "format"))
  let outputName ← checked (text? "output.path" (output.get? "path"))
  let outputPath ← located base (FilePath.ofText (outputName.getD (defaultOutput format)))
  let assembly ← checked (optionalSection "assembly" (root.get? "assembly"))
  let unknownSchemes ← checked (choice "assembly.unknown_security_schemes"
    SchemePolicy.passThrough [.error] SchemePolicy.word (assembly.get? "unknown_security_schemes"))
  let description ← match assembly.get? "default_response_description" with
    | none => .ok "OK"
    | some v => checked (text "assembly.default_response_description" (some v))
  pure
    { path, target, basePath := base, outputPath, format, unknownSchemes
      defaultResponseDescription := description }

/-- The depth of a configuration: the settings stand in sections. -/
def depth : Nat := 2

/-- The settings in a file of a workspace. -/
def load (w : Workspace) (path : FilePath) : Except Failure Configuration := do
  if !(← (w.has path).mapError .unreadable) then .error (.refused (.notFound path.text))
  let text ← (w.read path).mapError fun
    | .nullInPath => .nullInPath
    | .refused e => .unreadable e
  match Yaml.read depth text with
  | .error e => .error (.ofRead e)
  | .ok v => ofValue path (w.resolve path).parent v

end Configuration

end OpenApi
