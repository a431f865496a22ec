import OpenApi.Json.Basic

/-!
# Document/Basic — an assembled OpenAPI document

A document is a JSON object with its keys in writing order.  Its paths and its named schemas can be
listed without knowing the rest.  A document that was not assembled may hold anything in their
place; then what stands there is gone through, if it can be.
-/

namespace OpenApi

/-- A document: the members of its root object in order. -/
structure Document where
  members : List (String × Json)
deriving DecidableEq, Repr

namespace Document

/-- The version of the OpenAPI format that documents declare. -/
def formatVersion : String := "3.0.3"

/-- The document as one value. -/
def toJson (d : Document) : Json := .obj d.members

/-- The keys of the document's paths in order. -/
def pathKeys (d : Document) : List String := ((d.toJson.get? "paths").map Json.keys).getD []

/-- The names of the document's schemas in order. -/
def schemaNames (d : Document) : List String :=
  (((d.toJson.get? "components").bind (Json.get? "schemas")).map Json.keys).getD []

/-- Why the contents of a document cannot be listed: something that consists of nothing stands where
they should be, or something without keys around them. -/
inductive ListingFault where
  | noParts (value : Json)
  | noKeys (value : Json)
deriving DecidableEq, Repr

/-- The text of the fault. -/
def ListingFault.message : ListingFault → String
  | .noParts v => "'" ++ v.typeName ++ "' object is not iterable"
  | .noKeys v => "'" ++ v.typeName ++ "' object has no attribute 'get'"

/-- What stands under a key of a value that has keys. -/
def under? (key : String) : Json → Except ListingFault (Option Json)
  | .obj members => .ok (Table.get? key members)
  | v => .error (.noKeys v)

/-- What something consists of; nothing has no parts. -/
def listed : Option Json → Except ListingFault (List Json)
  | none => .ok []
  | some v =>
    match v.parts? with
    | some parts => .ok parts
    | none => .error (.noParts v)

/-- What stands in the place of the paths, one by one. -/
def listPaths (d : Document) : Except ListingFault (List Json) := listed (d.toJson.get? "paths")

/-- What stands in the place of the schemas, one by one. -/
def listSchemas (d : Document) : Except ListingFault (List Json) := do
  listed (← under? "schemas" ((d.toJson.get? "components").getD (.obj [])))

end Document

end OpenApi
