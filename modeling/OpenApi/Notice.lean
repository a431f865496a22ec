import OpenApi.Registry

/-!
# Notice — what a run reports while it works

Notices follow the work of a run: schemas stored, references that dangle, security schemes that
nobody defines, the document put together, the declaration loaded, the file written or spared.
-/

namespace OpenApi

/-- One report. -/
inductive Notice where
  | registered (name : String) (kind : SchemaKind)
  | dangling (names : List String)
  | unknownSchemes (names : List String)
  | assembled (paths schemas : Nat)
  | loaded (target : String)
  | skippedWrite (path : String)
  | wrote (path : String)
deriving DecidableEq, Repr

namespace Notice

/-- The line of a report: its level, the part of the program it is about, and what happened. -/
def line : Notice → String
  | .registered name kind =>
    "DEBUG typed_openapi.registry: registered schema " ++ name ++ " (" ++ kind.word ++ ")"
  | .dangling names =>
    "DEBUG typed_openapi.registry: dangling schema references: " ++ ", ".intercalate names
  | .unknownSchemes names =>
    "WARNING typed_openapi.assembly: security schemes referenced but not defined: " ++
      ", ".intercalate names
  | .assembled paths schemas =>
    "DEBUG typed_openapi.assembly: assembled document with " ++ toString paths ++ " paths and " ++
      toString schemas ++ " schemas"
  | .loaded target => "DEBUG typed_openapi.generation: loaded declaration " ++ target
  | .skippedWrite path => "INFO typed_openapi.generation: dry run: skipping write of " ++ path
  | .wrote path => "INFO typed_openapi.generation: wrote " ++ path

/-- The reports of the schemas that came in between two states of a registry. -/
def ofRegistry (earlier later : Registry) : List Notice :=
  (later.since earlier).map fun p => .registered p.1 p.2.kind

/-- The report of a check for dangling references, none if there are none. -/
def ofCheck (r : Registry) (schemas : List Schema) : List Notice :=
  match r.danglingNames schemas with
  | [] => []
  | names => [.dangling names]

end Notice

end OpenApi
