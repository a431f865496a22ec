import OpenApi.Descriptor.Builtin
import OpenApi.Order

/-!
# Api — declarations of an HTTP API

What an API declares about itself: its paths with the operations on them, the parameters, bodies
and responses of those with their shapes, security schemes, tags and servers.  Lists of pairs are
maps whose keys differ.
-/

namespace OpenApi

/-! ## Words -/

/-- The methods an operation may have, in the order a path item writes them. -/
inductive Method where
  | get
  | put
  | post
  | delete
  | options
  | head
  | patch
  | trace
deriving DecidableEq, Repr

namespace Method

/-- All methods in writing order. -/
def all : List Method := [.get, .put, .post, .delete, .options, .head, .patch, .trace]

/-- The key of a method in a path item. -/
def word : Method → String
  | .get => "get"
  | .put => "put"
  | .post => "post"
  | .delete => "delete"
  | .options => "options"
  | .head => "head"
  | .patch => "patch"
  | .trace => "trace"

/-- The place of a method in the writing order. -/
def position (m : Method) : Nat := all.idxOf m

end Method

/-- Where a request carries a parameter or a key. -/
inductive ParameterLocation where
  | query
  | header
  | path
  | cookie
deriving DecidableEq, Repr

/-- The word for a location. -/
def ParameterLocation.word : ParameterLocation → String
  | .query => "query"
  | .header => "header"
  | .path => "path"
  | .cookie => "cookie"

/-- The HTTP authentication schemes. -/
inductive HttpAuth where
  | basic
  | bearer
deriving DecidableEq, Repr

/-- The word for an authentication scheme. -/
def HttpAuth.word : HttpAuth → String
  | .basic => "basic"
  | .bearer => "bearer"

/-! ## The parts of a declaration -/

/-- Title, version and description of an API. -/
structure ApiInfo where
  title : String
  version : String
  description : Option String := none
deriving DecidableEq, Repr

/-- A tag of operations. -/
structure Tag where
  name : String
  description : Option String := none
deriving DecidableEq, Repr

/-- A place where the API is served. -/
structure Server where
  url : String
  description : Option String := none
deriving DecidableEq, Repr

/-- How a client proves who it is. -/
inductive SecurityScheme where
  | http (scheme : HttpAuth) (bearerFormat description : Option String)
  | apiKey (location : ParameterLocation) (name : String) (description : Option String)
deriving DecidableEq, Repr

/-- A security scheme by its name; with a scheme it also defines that name. -/
structure SecurityReference where
  name : String
  scopes : List String := []
  scheme : Option SecurityScheme := none
deriving DecidableEq, Repr

/-- Security schemes that must all be satisfied together. -/
structure SecurityRequirement where
  references : List SecurityReference
deriving DecidableEq, Repr

/-- The requirement of some schemes without scopes. -/
def SecurityRequirement.ofNames (names : List String) : SecurityRequirement :=
  ⟨names.map fun name => { name }⟩

/-- A parameter of a request. -/
structure Parameter where
  name : String
  location : ParameterLocation
  schema : Option Descriptor := none
  description : Option String := none
  required : Bool := false
  deprecated : Bool := false
deriving Repr

namespace Parameter

/-- What tells the parameters of one list apart. -/
def key (p : Parameter) : ParameterLocation × String := (p.location, p.name)

/-- The parameters of a list without those whose key an earlier one has. -/
def distinctByKey (ps : List Parameter) : List Parameter :=
  (Table.firsts (ps.map fun p => (p.key, p))).map (·.2)

/-- The writing order of parameters: by name, then by location. -/
def below (p q : Parameter) : Bool :=
  decide (p.name < q.name) ||
    (decide (p.name = q.name) && decide (p.location.word < q.location.word))

/-- A header, which is a required string unless said otherwise. -/
def header (name : String) : Parameter :=
  { name, location := .header, schema := some (Descriptor.string none), required := true }

/-- A query parameter, which is not required unless said otherwise. -/
def query (name : String) (schema : Option Descriptor) : Parameter :=
  { name, location := .query, schema }

end Parameter

/-- A piece of a path: text, or the place of a parameter. -/
inductive PathSegment where
  | literal (text : String)
  | parameter (type : Descriptor) (name : Option String)
deriving Repr

/-- The body of a request. -/
structure RequestBody where
  schema : Descriptor
  description : Option String := none
  required : Bool := true
deriving Repr

/-- What is sent back under one status code. -/
structure Response where
  description : Option String := none
  schema : Option Descriptor := none
deriving Repr

/-- One operation, over a type `π` of paths for its callbacks. -/
structure Operation (π : Type) where
  responses : List (Int × Response)
  tags : List String := []
  summary : Option String := none
  description : Option String := none
  operationId : Option String := none
  deprecated : Bool := false
  parameters : List Parameter := []
  body : Option RequestBody := none
  security : List SecurityRequirement := []
  callbacks : List (String × List π) := []
deriving Repr

/-- A path with its operations. -/
structure Path where
  segments : List PathSegment
  operations : List (Method × Operation Path)
  parameters : List Parameter := []
  summary : Option String := none
  description : Option String := none

instance : Inhabited Path := ⟨⟨[], [], [], none, none⟩⟩

/-- Everything that goes into one document. -/
structure Api where
  info : ApiInfo
  paths : List Path := []
  tags : List Tag := []
  servers : List Server := []
  securitySchemes : List (String × SecurityScheme) := []

end OpenApi
