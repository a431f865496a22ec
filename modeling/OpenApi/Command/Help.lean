import OpenApi.Command.Arguments

/-!
# Command/Help — what the program says about itself

For the program and each of its commands: how it is called, and a page that says what it does and
what each option means.
-/

namespace OpenApi.Command

/-- The name the program goes by. -/
def programName : String := "typed-openapi"

/-- The release of the program. -/
def release : String := "0.3.0"

/-- The command as it is written. -/
def Verb.text : Verb → String
  | .generateConfig => "generate-config"
  | .render => "render"

/-- The commands of the program. -/
def Verb.all : List Verb := [.generateConfig, .render]

/-- The words that lead to a level. -/
def Level.words : Level → String
  | .program => programName
  | .command verb => programName ++ " " ++ verb.text

/-- How a level is called. -/
def Level.usage (l : Level) : String :=
  "Usage: " ++ l.words ++
    match l with
    | .program => " [OPTIONS] COMMAND [ARGS]..."
    | .command _ => " [OPTIONS]"

/-- What a level does and what its options mean. -/
def Level.description : Level → List String
  | .program =>
    ["  OpenAPI 3.0 document generator for typed API declarations.",
      "",
      "Options:",
      "  --version   Show the version and exit.",
      "  -h, --help  Show this message and exit.",
      "",
      "Commands:",
      "  generate-config  Generate a placeholder YAML generator configuration...",
      "  render           Assemble the configured API declaration into an..."]
  | .command .generateConfig =>
    ["  Generate a placeholder YAML generator configuration with guidance comments.",
      "",
      "Options:",
      "  --output PATH  Path to the YAML generator configuration template to write",
      "                 [default: typed-openapi.yaml]",
      "  -h, --help     Show this message and exit."]
  | .command .render =>
    ["  Assemble the configured API declaration into an OpenAPI document.",
      "",
      "Options:",
      "  --config PATH  Path to YAML/JSON generator configuration file  [required]",
      "  --output PATH  Override the document path from the configuration",
      "  --dry-run      Assemble and validate the document without writing it.",
      "  --verbose      Log registry and assembly details to stderr.",
      "  -h, --help     Show this message and exit."]

/-- The page about a level. -/
def Level.page (l : Level) : String := "\n".intercalate ([l.usage, ""] ++ l.description)

/-- Where to look when a command line is not understood. -/
def Level.hint (l : Level) : String :=
  l.usage ++ "\nTry '" ++ l.words ++ " -h' for help.\n\n"

/-- The line about the release. -/
def versionLine : String := programName ++ ", version " ++ release

end OpenApi.Command
