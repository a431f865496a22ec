import OpenApi.Workspace

/-!
# Configuration/Scaffold — a configuration to fill in

A configuration with a placeholder for every setting, which says what each one is for.  It is never
written over a file that exists.
-/

namespace OpenApi.Scaffold

/-- The name a scaffold is written under unless another one is given. -/
def defaultName : String := "typed-openapi.yaml"

/-- The lines of the scaffold. -/
def lines : List String :=
  ["# Generator configuration template for typed-openapi.",
    "# Replace every <REQUIRED> placeholder before running render.",
    "# Remove <OPTIONAL> entries you do not need; their defaults are shown in comments.",
    "",
    "declaration:",
    "  # Importable module or a .py file relative to this config, then ':' and the attribute.",
    "  # The attribute is an ApiDeclaration or a zero-argument callable returning one.",
    "  target: \"<REQUIRED>\"",
    "",
    "output:",
    "  # Relative paths resolve against this config file (default: openapi.yaml).",
    "  # path: \"<OPTIONAL>\"",
    "  # yaml or json (default: yaml).",
    "  # format: \"<OPTIONAL>\"",
    "",
    "assembly:",
    "  # pass-through or error (default: pass-through).",
    "  # unknown_security_schemes: \"<OPTIONAL>\"",
    "  # Used for responses declared without a description (default: OK).",
    "  # default_response_description: \"<OPTIONAL>\""]

/-- The text of the scaffold. -/
def text : String := String.join (lines.map (· ++ "\n"))

/-- Why no scaffold is written. -/
inductive Failure where
  | exists (path : FilePath)
  | file (error : FileError)
  | nullInPath
deriving DecidableEq, Repr

/-- The text of the failure. -/
def Failure.message : Failure → String
  | .exists path => "Configuration file already exists: " ++ path.text
  | .file e => e.message
  | .nullInPath => nullInPathText

/-- Writes the scaffold to a path where nothing is yet; the result is the path seen from the
root. -/
def write (w : Workspace) (path : FilePath) : Except Failure (Workspace × FilePath) :=
  match w.has path with
  | .error e => .error (.file e)
  | .ok true => .error (.exists (w.resolve path))
  | .ok false =>
    match w.write path text with
    | .ok w' => .ok (w', w.resolve path)
    | .error .nullInPath => .error .nullInPath
    | .error (.refused e) => .error (.file e)

end OpenApi.Scaffold
