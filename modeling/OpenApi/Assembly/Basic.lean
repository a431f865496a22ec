import OpenApi.Assembly.Paths
import OpenApi.Document.Basic

/-!
# Assembly/Basic — from an API to a document

All paths are rendered first, which stores every named schema.  Then the registry is frozen, the
references in it and in the document are checked, and after them the security schemes that
operations refer to.  Only then is the document written.
-/

namespace OpenApi

/-- What to do about a security scheme that is referred to and not defined. -/
inductive SchemePolicy where
  | passThrough
  | error
deriving DecidableEq, Repr

/-- The word for a policy. -/
def SchemePolicy.word : SchemePolicy → String
  | .passThrough => "pass-through"
  | .error => "error"

/-- The choices of an assembly. -/
structure AssemblyOptions where
  unknownSchemes : SchemePolicy := .passThrough
  defaultResponseDescription : String := "OK"
deriving DecidableEq, Repr

/-! ## The parts of a document -/

/-- An object of a name or a link with its description. -/
def described (key value : String) (description : Option String) : Json :=
  .ofOptions [(key, some (.str value)), ("description", description.map .str)]

/-- The information about an API. -/
def ApiInfo.render (i : ApiInfo) : Json :=
  .ofOptions
    [("title", some (.str i.title)), ("version", some (.str i.version)),
      ("description", i.description.map .str)]

/-- The tags by name; a name that is repeated must have the same description. -/
def tagTable (known : List (String × Tag)) : List Tag → Except ApiFault (List (String × Tag))
  | [] => .ok known
  | t :: ts =>
    match Table.get? t.name known with
    | none => tagTable (known ++ [(t.name, t)]) ts
    | some existing =>
      if existing = t then tagTable known ts else .error (.conflictingTag t.name)

/-- The tags in ascending order of their names. -/
def renderTags (tags : List Tag) : Except ApiFault (List Json) := do
  let table ← tagTable [] tags
  pure ((sortOn (·.1) table).map fun p => described "name" p.2.name p.2.description)

/-- A server. -/
def Server.render (s : Server) : Json := described "url" s.url s.description

/-- A security scheme. -/
def SecurityScheme.render : SecurityScheme → Json
  | .apiKey location name description =>
    .ofOptions
      [("type", some (.str "apiKey")), ("in", some (.str location.word)),
        ("name", some (.str name)), ("description", description.map .str)]
  | .http scheme bearerFormat description =>
    .ofOptions
      [("type", some (.str "http")), ("scheme", some (.str scheme.word)),
        ("bearerFormat", bearerFormat.map .str), ("description", description.map .str)]

/-- The shared parts of a document: the schemas and the security schemes, each in ascending order
of their names. -/
def Build.components (b : Build) : Json :=
  .ofOptions
    [("schemas", Schema.unlessEmpty (fun es => .obj (es.map fun e => (e.1, e.2.toJson)))
        b.registry.all),
      ("securitySchemes", Schema.unlessEmpty (fun es => .obj (es.map fun e => (e.1, e.2.render)))
        (sortOn (·.1) b.schemes))]

/-- The document of an API whose paths are rendered. -/
def Build.document (b : Build) (api : Api) (paths : Json) : Except ApiFault Document := do
  let tags ← renderTags api.tags
  pure ⟨Json.present
    [("openapi", some (.str Document.formatVersion)),
      ("info", some api.info.render),
      ("tags", Schema.unlessEmpty .arr tags),
      ("servers", Schema.unlessEmpty .arr (api.servers.map (·.render))),
      ("paths", some paths),
      ("components", some b.components)]⟩

/-! ## Assembly -/

/-- What an assembly leaves behind: the registry, the document or the failure, and reports. -/
structure Assembled where
  registry : Registry
  outcome : Except AssemblyError Document
  notices : List Notice

/-- The build that an API's paths are rendered in. -/
def Build.ofApi (api : Api) (registry : Registry) : Build :=
  { registry, schemes := Table.ofList api.securitySchemes }

/-- Freezes the registry once all paths are rendered, checks references and security schemes, and
writes the document. -/
def Build.finish (b : Build) (api : Api) (options : AssemblyOptions) (paths : Json) : Assembled :=
  let registry := b.registry.freeze
  let checked := Notice.ofCheck registry b.emitted
  match registry.check b.emitted with
  | .error e => ⟨registry, .error (.registry e), checked⟩
  | .ok () =>
    match b.unknownSchemes, options.unknownSchemes with
    | name :: _, .error => ⟨registry, .error (.api (.unknownScheme name)), checked⟩
    | unknown, _ =>
      let warned := checked ++ if unknown.isEmpty then [] else [.unknownSchemes unknown]
      match { b with registry }.document api paths with
      | .error fault => ⟨registry, .error (.api fault), warned⟩
      | .ok document =>
        ⟨registry, .ok document, warned ++ [.assembled paths.keys.length registry.size]⟩

/-- **The document of an API** — put together on a registry, which keeps what was stored even when
the assembly fails and is frozen once all paths are rendered. -/
def assemble (api : Api) (options : AssemblyOptions) (registry : Registry) : Assembled :=
  let rendering := renderPaths options.defaultResponseDescription api.paths
  match (Build.ofApi api registry).carryOut rendering with
  | (b, .error e) => ⟨b.registry, .error e, Notice.ofRegistry registry b.registry⟩
  | (b, .ok paths) =>
    let finished := b.finish api options paths
    { finished with notices := Notice.ofRegistry registry b.registry ++ finished.notices }

end OpenApi
