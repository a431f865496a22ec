import OpenApi.Json.Basic
import OpenApi.Schema.Basic

/-!
# Schema/Render — schemas as OpenAPI Schema Objects

The keys of a rendered schema stand in one fixed order and only those with something to say are
written.  A reference is a `$ref` and nothing else.
-/

namespace OpenApi.Schema

/-- Where a document keeps its named schemas. -/
def referencePrefix : String := "#/components/schemas/"

/-- The `$ref` text for a name; a reference that lacks one says so. -/
def referenceText (name : Option String) : String := referencePrefix ++ name.getD "None"

/-- The array of some strings. -/
def strings (values : List String) : Json := .arr (values.map .str)

/-- A list as a value, absent if it is empty. -/
def unlessEmpty {α : Type} (f : List α → Json) : List α → Option Json
  | [] => none
  | xs => some (f xs)

mutual

/-- The rendering of a schema. -/
def toJson : Schema → Json
  | ⟨k, t, ps, rq, ad, it, ms, rn, md, ev⟩ =>
    if k = .ref then .obj [("$ref", .str (referenceText rn))]
    else
      .ofOptions <|
        [("description", md.description.map .str),
          ("nullable", if md.nullable then some (.bool true) else none),
          ("type", t.map .str),
          ("enum", ev.map strings),
          ("format", md.format.map .str),
          ("example", md.sample.map .str),
          ("items", optionJson it),
          ("properties",
            unlessEmpty (fun ps => .obj (Table.ofList (sortOn (·.1) ps))) (propertiesJson ps)),
          ("additionalProperties", optionJson ad),
          ("required", unlessEmpty strings rq)] ++
        match k with
        | .composite mode => [(mode.word, some (.arr (membersJson ms)))]
        | _ => []

/-- The rendering of a schema that may be absent. -/
def optionJson : Option Schema → Option Json
  | none => none
  | some s => some s.toJson

/-- The renderings of the properties, in their order. -/
def propertiesJson : List (String × Schema) → List (String × Json)
  | [] => []
  | (n, s) :: ps => (n, s.toJson) :: propertiesJson ps

/-- The renderings of the members, in their order. -/
def membersJson : List Schema → List Json
  | [] => []
  | s :: ms => s.toJson :: membersJson ms

end

end OpenApi.Schema
