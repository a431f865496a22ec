import OpenApi.Assembly.Rendering
import OpenApi.Text.Blank
import OpenApi.Text.LowerCase

/-!
# Assembly/Paths — path items and their operations

Paths with the same template are merged into one path item: their operations must have different
methods, the first of the parameters with one key counts, and so do the first summary and the first
description.  The rendering of every operation is written first, on its own; the merge then decides
in which order the renderings are carried out.
-/

namespace OpenApi

/-- The media type of every body. -/
def jsonMediaType : String := "application/json"

/-! ## Parts of an operation -/

/-- The rendering of a descriptor at a place of the document. -/
def renderDescriptor (d : Descriptor) : Rendering Json := do
  let schema ← (d.lower false []).embed .define .shape
  Journal.tell (.emit schema)
  pure schema.toJson

/-- The content of a body: one schema under the media type. -/
def contentOf (schema : Json) : Json := .obj [(jsonMediaType, .obj [("schema", schema)])]

/-- One name of a requirement with its scopes. -/
def SecurityReference.render (r : SecurityReference) : Rendering (String × Json) := do
  match r.scheme with
  | some scheme => Journal.tell (.declare r.name scheme)
  | none => pure ()
  Journal.tell (.refer r.name)
  pure (r.name, Schema.strings r.scopes)

/-- A requirement: its names in ascending order, a repeated name with the scopes of its last
reference. -/
def SecurityRequirement.render (r : SecurityRequirement) : Rendering Json := do
  let scopes ← Journal.sequence ((sortOn (·.name) r.references).map (·.render))
  pure (.obj (Table.ofList scopes))

/-- A request body. -/
def RequestBody.render (b : RequestBody) : Rendering Json := do
  let schema ← renderDescriptor b.schema
  pure <| .ofOptions
    [("required", if b.required then some (.bool true) else none),
      ("description", b.description.map .str),
      ("content", some (contentOf schema))]

/-- A response; one without a description has the default one. -/
def Response.render (default : String) (r : Response) : Rendering Json := do
  let schema ← Journal.sequenceOption (r.schema.map renderDescriptor)
  pure <| .ofOptions
    [("description", some (.str ((nonEmptyOr r.description none).getD default))),
      ("content", schema.map contentOf)]

/-- A parameter; those in the path are always required. -/
def Parameter.render (p : Parameter) : Rendering Json := do
  let schema ← Journal.sequenceOption (p.schema.map renderDescriptor)
  pure <| .ofOptions
    [("name", some (.str p.name)),
      ("description", p.description.map .str),
      ("in", some (.str p.location.word)),
      ("required", if p.required || decide (p.location = .path) then some (.bool true) else none),
      ("deprecated", if p.deprecated then some (.bool true) else none),
      ("schema", schema)]

/-- A parameter list in writing order. -/
def renderParameters (ps : List Parameter) : Rendering (List Json) :=
  Journal.sequence ((sortBy Parameter.below ps).map (·.render))

/-! ## Templates -/

/-- The name of the parameter at a path segment: its own, or its type's with the first letter in
lower case. -/
def parameterName (type : Descriptor) (name : Option String) : Except ApiFault String :=
  match nonEmptyOr name none, nonEmptyOr type.displayName? none with
  | some name, _ => .ok name
  | none, some typeName => .ok (Text.lowerFirst typeName)
  | none, none => .error .anonymousParameter

/-- A segment as it stands in the template, with the parameter it implies. -/
def PathSegment.render : PathSegment → Except ApiFault (String × List Parameter)
  | .literal text => .ok (String.ofList (Text.trimEnds (· = '/') text.toList), [])
  | .parameter type name => do
    let name ← parameterName type name
    pure ("\x7b" ++ name ++ "\x7d",
      [{ name, location := .path, schema := some type, required := true }])

/-- The segments as they stand in the template, with the parameters they imply. -/
def renderSegments : List PathSegment → Except ApiFault (List String × List Parameter)
  | [] => .ok ([], [])
  | s :: ss => do
    let (text, parameters) ← s.render
    let (texts, rest) ← renderSegments ss
    pure (text :: texts, parameters ++ rest)

/-- The template of some segments, empty ones left out, with the parameters they imply. -/
def templateOf (segments : List PathSegment) : Except ApiFault (String × List Parameter) := do
  let (texts, parameters) ← renderSegments segments
  pure ("/" ++ "/".intercalate (texts.filter (· ≠ "")), parameters)

/-! ## Merging -/

/-- What one path contributes: its template with the implied parameters, and the renderings of its
operations. -/
structure PathPart where
  template : Except ApiFault (String × List Parameter)
  operations : List (Method × Rendering Json)
  parameters : List Parameter
  summary : Option String
  description : Option String

/-- What the paths with one template contribute together. -/
structure PathItem where
  operations : List (Method × Rendering Json) := []
  parameters : List ((ParameterLocation × String) × Parameter) := []
  summary : Option String := none
  description : Option String := none

/-- Adds operations whose methods must be new. -/
def addOperations (template : String) (known : List (Method × Rendering Json)) :
    List (Method × Rendering Json) → Except ApiFault (List (Method × Rendering Json))
  | [] => .ok known
  | (m, r) :: rest =>
    if (Table.get? m known).isSome then .error (.repeatedOperation m template)
    else addOperations template (known ++ [(m, r)]) rest

/-- The item with one more path: implied parameters come before explicit ones. -/
def PathItem.add (item : PathItem) (template : String) (implied : List Parameter)
    (part : PathPart) : Except ApiFault PathItem := do
  let operations ← addOperations template item.operations part.operations
  pure
    { operations
      parameters := (implied ++ part.parameters).foldl
        (fun table p => Table.insertNew p.key p table) item.parameters
      summary := item.summary <|> part.summary
      description := item.description <|> part.description }

/-- The path items of some paths, each at the place of the first path with its template. -/
def mergeParts (items : List (String × PathItem)) :
    List PathPart → Except ApiFault (List (String × PathItem))
  | [] => .ok items
  | part :: parts => do
    let (template, implied) ← part.template
    let item ← ((Table.get? template items).getD {}).add template implied part
    mergeParts (Table.insert template item items) parts

/-- A path item: its operations in writing order, then its parameters. -/
def PathItem.render (item : PathItem) : Rendering Json := do
  let operations ← Journal.sequenceTable (sortOn (·.1.position) item.operations)
  let parameters ← renderParameters (item.parameters.map (·.2))
  pure <| .ofOptions <|
    [("summary", item.summary.map .str), ("description", item.description.map .str)] ++
      operations.map (fun p => (p.1.word, some p.2)) ++
      [("parameters", Schema.unlessEmpty .arr parameters)]

/-- The path items of some paths under their templates. -/
def renderParts (parts : List PathPart) : Rendering Json := do
  let items ← Journal.ofExcept ((mergeParts [] parts).mapError .api)
  let rendered ← Journal.sequenceTable (items.map fun p => (p.1, p.2.render))
  pure (.obj rendered)

/-! ## Operations -/

/-- An operation, given the renderings of its callbacks. -/
def renderOperation {π : Type} (default : String) (op : Operation π)
    (callbacks : List (String × Rendering Json)) : Rendering Json := do
  if op.responses.isEmpty then Journal.fail (.api .noResponses)
  let security ← Journal.sequence (op.security.map (·.render))
  let body ← Journal.sequenceOption (op.body.map (·.render))
  let responses ← Journal.sequenceTable
    ((sortOn (·.1) op.responses).map fun p => (toString p.1, p.2.render default))
  let parameters ← renderParameters (Parameter.distinctByKey op.parameters)
  let callbacks ← Journal.sequenceTable (sortOn (·.1) callbacks)
  pure <| .ofOptions
    [("tags", Schema.unlessEmpty Schema.strings op.tags),
      ("summary", op.summary.map .str),
      ("operationId", op.operationId.map .str),
      ("description", op.description.map .str),
      ("deprecated", if op.deprecated then some (.bool true) else none),
      ("security", Schema.unlessEmpty .arr security),
      ("requestBody", body),
      ("responses", some (.obj responses)),
      ("parameters", Schema.unlessEmpty .arr parameters),
      ("callbacks", Schema.unlessEmpty .obj callbacks)]

mutual

/-- What a path contributes. -/
def Path.part (default : String) : Path → PathPart
  | ⟨segments, operations, parameters, summary, description⟩ =>
    { template := templateOf segments
      operations := operationParts default operations
      parameters, summary, description }

/-- What some paths contribute. -/
def pathParts (default : String) : List Path → List PathPart
  | [] => []
  | p :: ps => p.part default :: pathParts default ps

/-- The renderings of a path's operations. -/
def operationParts (default : String) :
    List (Method × Operation Path) → List (Method × Rendering Json)
  | [] => []
  | (m, ⟨rs, tg, su, de, id, dp, ps, bd, sc, callbacks⟩) :: rest =>
    (m, renderOperation default (⟨rs, tg, su, de, id, dp, ps, bd, sc, []⟩ : Operation Path)
      (callbackParts default callbacks)) :: operationParts default rest

/-- The renderings of an operation's callbacks. -/
def callbackParts (default : String) : List (String × List Path) → List (String × Rendering Json)
  | [] => []
  | (name, paths) :: rest =>
    (name, renderParts (pathParts default paths)) :: callbackParts default rest

end

/-- The path items of some paths under their templates. -/
def renderPaths (default : String) (paths : List Path) : Rendering Json :=
  renderParts (pathParts default paths)

end OpenApi
