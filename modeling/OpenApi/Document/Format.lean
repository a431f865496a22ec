import OpenApi.Document.Basic
import OpenApi.Json.Text
import OpenApi.Yaml.Printer

/-!
# Document/Format — documents as text

A document is written as YAML or as JSON, in both with its keys in order.
-/

namespace OpenApi

/-- The formats a document is written in. -/
inductive OutputFormat where
  | yaml
  | json
deriving DecidableEq, Repr

namespace OutputFormat

/-- All formats. -/
def all : List OutputFormat := [.yaml, .json]

/-- The word for a format. -/
def word : OutputFormat → String
  | .yaml => "yaml"
  | .json => "json"

/-- The format that a word names. -/
def ofWord? (s : String) : Option OutputFormat := all.find? (·.word = s)

/-- The refusal of a word that names no format. -/
structure Unsupported where
  word : String
deriving DecidableEq, Repr

/-- The text of the refusal. -/
def Unsupported.message (e : Unsupported) : String := "Unsupported output format: " ++ e.word

/-- The format that a word names, or the refusal of the word. -/
def ofWord (s : String) : Except Unsupported OutputFormat :=
  match ofWord? s with
  | some format => .ok format
  | none => .error ⟨s⟩

end OutputFormat

/-- The text of a document in a format. -/
def Document.render (d : Document) : OutputFormat → String
  | .yaml => Yaml.print d.toJson
  | .json => d.toJson.indented ++ "\n"

end OpenApi
