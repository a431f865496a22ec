import OpenApi.Json.Text
import OpenApi.Lowering.Basic
import OpenApi.Schema.Render

/-!
# Registry — the named schemas of one document

A registry keeps named schemas in the order they came in.  It only grows: storing the same schema
again changes nothing, storing another one under a known name is refused, and so is every new name
once the registry is frozen.  `check` looks for references to names that are not stored.
-/

namespace OpenApi

/-- Named schemas in the order they came in, and whether more may come. -/
structure Registry where
  entries : List (String × Schema) := []
  frozen : Bool := false
deriving DecidableEq, Repr

/-- Why a registry refuses. -/
inductive RegistryError where
  | collision (name : String) (existing incoming : Schema)
  | frozen (name : String)
  | selfReference (name : String)
  | dangling (name : String)
  | notFound (name : String)
deriving DecidableEq, Repr

/-- The text of a refusal. -/
def RegistryError.message : RegistryError → String
  | .collision name existing incoming =>
    "Schema '" ++ name ++ "' is already registered with a different shape: existing=" ++
      existing.toJson.canonical ++ " incoming=" ++ incoming.toJson.canonical
  | .frozen name => "Cannot register schema '" ++ name ++ "' on a frozen registry."
  | .selfReference name => "Schema '" ++ name ++ "' cannot be defined as a reference to itself."
  | .dangling name => "Schema reference '" ++ name ++ "' has no registered definition."
  | .notFound name => "Schema '" ++ name ++ "' is not registered."

namespace Registry

/-! ## Reading -/

/-- The schema stored under a name. -/
def get? (r : Registry) (name : String) : Option Schema := Table.get? name r.entries

/-- Whether a name is stored. -/
def contains (r : Registry) (name : String) : Bool := (r.get? name).isSome

/-- The stored names in the order they came in. -/
def names (r : Registry) : List String := r.entries.map (·.1)

/-- The entries in ascending order of their names. -/
def all (r : Registry) : List (String × Schema) := sortOn (·.1) r.entries

/-- The number of entries. -/
def size (r : Registry) : Nat := r.entries.length

/-- The schema stored under a name, which must be there. -/
def resolve (r : Registry) (name : String) : Except RegistryError Schema :=
  match r.get? name with
  | some schema => .ok schema
  | none => .error (.notFound name)

/-- The entries that came in since an earlier state. -/
def since (r earlier : Registry) : List (String × Schema) := r.entries.drop earlier.size

/-! ## Growing -/

/-- Stores a schema under a name: the same schema again changes nothing, and a new name is refused
when the registry is frozen or the schema is nothing but a reference to that name. -/
def register (r : Registry) (name : String) (schema : Schema) : Except RegistryError Registry :=
  match r.get? name with
  | some existing => if existing = schema then .ok r else .error (.collision name existing schema)
  | none =>
    if r.frozen then .error (.frozen name)
    else if schema.isRef && decide (schema.refName = some name) then .error (.selfReference name)
    else .ok { r with entries := r.entries ++ [(name, schema)] }

/-- Refuses new names from here on. -/
def freeze (r : Registry) : Registry := { r with frozen := true }

/-- Stores definitions up to the first that is refused. -/
def registerAll (r : Registry) : List Definition → Registry × Except RegistryError Unit
  | [] => (r, .ok ())
  | d :: ds =>
    match r.register d.name d.schema with
    | .ok r => r.registerAll ds
    | .error e => (r, .error e)

/-! ## References -/

/-- The names, in ascending order, that the entries or the given schemas refer to and that are not
stored. -/
def danglingNames (r : Registry) (schemas : List Schema) : List String :=
  let referenced := Schema.memberReferences (r.entries.map (·.2) ++ schemas)
  sortOn id (distinct (referenced.filter fun name => !r.contains name))

/-- Refuses the least name that an entry or a given schema refers to and that is not stored. -/
def check (r : Registry) (schemas : List Schema) : Except RegistryError Unit :=
  match r.danglingNames schemas with
  | [] => .ok ()
  | name :: _ => .error (.dangling name)

end Registry

/-! ## Synthesis -/

/-- Why a descriptor cannot be turned into a schema of a registry. -/
inductive SynthesisError where
  | shape (error : UnsupportedShape)
  | registry (error : RegistryError)
deriving DecidableEq, Repr

/-- The text of the failure. -/
def SynthesisError.message : SynthesisError → String
  | .shape e => e.message
  | .registry e => e.message

/-- Stores the definitions of a lowering in order; the first refusal ends it, and without one it
ends in its own outcome. -/
def Registry.carryOut {α : Type} (r : Registry) (l : Lowering α) :
    Registry × Except SynthesisError α :=
  match r.registerAll l.steps with
  | (r, .error e) => (r, .error (.registry e))
  | (r, .ok ()) => (r, l.outcome.mapError .shape)

/-- **The schema of a descriptor** — with its named types stored in the registry. -/
def Registry.synthesize (r : Registry) (d : Descriptor) : Registry × Except SynthesisError Schema :=
  r.carryOut (d.lower false [])

end OpenApi
