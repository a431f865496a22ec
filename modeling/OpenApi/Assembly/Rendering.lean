import OpenApi.Api
import OpenApi.Notice

/-!
# Assembly/Rendering — the steps of a rendering

Rendering an operation yields a JSON value and asks for changes outside of it: schemas to store,
schemas that the document contains and whose references must hold, security schemes defined in
place, and security schemes referred to.  A *rendering* is the journal of these steps; a *build* is
the state that carries them out.
-/

namespace OpenApi

/-! ## Failures -/

/-- Why declarations cannot be put together. -/
inductive ApiFault where
  | noResponses
  | repeatedOperation (method : Method) (template : String)
  | anonymousParameter
  | conflictingScheme (name : String)
  | unknownScheme (name : String)
  | conflictingTag (name : String)
deriving DecidableEq, Repr

/-- The text of a fault. -/
def ApiFault.message : ApiFault → String
  | .noResponses => "Every operation needs at least one response."
  | .repeatedOperation method template =>
    "Operation " ++ method.word.toUpper ++ " " ++ template ++ " is declared more than once."
  | .anonymousParameter => "Path parameters of anonymous types need an explicit name."
  | .conflictingScheme name =>
    "Security scheme '" ++ name ++ "' is defined twice with different settings."
  | .unknownScheme name => "Security scheme '" ++ name ++ "' is referenced but never defined."
  | .conflictingTag name => "Tag '" ++ name ++ "' is declared twice with different descriptions."

/-- Why no document comes out: a shape, the registry or the declarations themselves. -/
inductive AssemblyError where
  | shape (error : UnsupportedShape)
  | registry (error : RegistryError)
  | api (fault : ApiFault)
deriving DecidableEq, Repr

/-- The text of the failure. -/
def AssemblyError.message : AssemblyError → String
  | .shape e => e.message
  | .registry e => e.message
  | .api fault => fault.message

/-! ## Steps -/

/-- A change that a rendering asks for. -/
inductive Step where
  /-- Stores a schema. -/
  | define (definition : Definition)
  /-- Notes a schema that the document contains. -/
  | emit (schema : Schema)
  /-- Defines a security scheme in place. -/
  | declare (name : String) (scheme : SecurityScheme)
  /-- Notes a security scheme that an operation refers to. -/
  | refer (name : String)
deriving DecidableEq, Repr

/-- The steps a rendering asks for and the value or failure it ends in. -/
abbrev Rendering (α : Type) : Type := Journal Step AssemblyError α

/-! ## Builds -/

/-- The state that a document is built in. -/
structure Build where
  registry : Registry
  schemes : List (String × SecurityScheme)
  emitted : List Schema := []
  referred : List String := []
deriving DecidableEq, Repr

namespace Build

/-- Carries out one step; a security scheme may be defined twice only with equal settings. -/
def step (b : Build) : Step → Except AssemblyError Build
  | .define d =>
    match b.registry.register d.name d.schema with
    | .ok registry => .ok { b with registry }
    | .error e => .error (.registry e)
  | .emit schema => .ok { b with emitted := b.emitted ++ [schema] }
  | .declare name scheme =>
    match Table.get? name b.schemes with
    | none => .ok { b with schemes := b.schemes ++ [(name, scheme)] }
    | some existing =>
      if existing = scheme then .ok b else .error (.api (.conflictingScheme name))
  | .refer name => .ok { b with referred := b.referred ++ [name] }

/-- Carries out steps up to the first that fails. -/
def steps (b : Build) : List Step → Build × Except AssemblyError Unit
  | [] => (b, .ok ())
  | s :: ss =>
    match b.step s with
    | .ok b => b.steps ss
    | .error e => (b, .error e)

/-- Carries out a rendering: the first step that fails ends it, and without one it ends in its own
outcome. -/
def carryOut {α : Type} (b : Build) (r : Rendering α) : Build × Except AssemblyError α :=
  match b.steps r.steps with
  | (b, .error e) => (b, .error e)
  | (b, .ok ()) => (b, r.outcome)

/-- The names, in ascending order, of the security schemes that are referred to without a
definition anywhere. -/
def unknownSchemes (b : Build) : List String :=
  sortOn id (distinct (b.referred.filter fun name => (Table.get? name b.schemes).isNone))

end Build

end OpenApi
