import OpenApi.Descriptor.Basic

/-!
# Lowering/Shape — unsupported shapes

Some descriptors have no schema.  The failure names the place, as the path of names and positions
that leads to it, and the cause.
-/

namespace OpenApi

/-- Why a shape has no schema.  All causes are looked for but `noItem`, which is met: a variant that
is made by hand may lack the item that its style promises. -/
inductive ShapeFault where
  | repeatedField (name : String)
  | emptyTuple
  | emptyComposition (mode : Composition)
  | noVariants (enum : String)
  | repeatedVariant (name : String)
  | emptyPayload
  | equalKeys
  | untaggedUnit
  | tagClash (tagKey : String)
  | nonObjectPayload
  | tuplePayload
  | noItem
deriving DecidableEq, Repr

/-- The text of a cause. -/
def ShapeFault.message : ShapeFault → String
  | .repeatedField name => "field '" ++ name ++ "' is declared more than once"
  | .emptyTuple => "tuples need at least one item"
  | .emptyComposition mode => mode.word ++ " needs at least one member"
  | .noVariants enum => "enum '" ++ enum ++ "' has no serializable variants"
  | .repeatedVariant name => "variant name '" ++ name ++ "' is used more than once"
  | .emptyPayload => "payload variants need at least one item"
  | .equalKeys => "adjacent tagging needs distinct tag and content keys"
  | .untaggedUnit => "untagged enums cannot mix unit variants with payload variants"
  | .tagClash tagKey => "payload already defines the tag property '" ++ tagKey ++ "'"
  | .nonObjectPayload => "internally tagged variants need an object payload"
  | .tuplePayload => "internally tagged enums cannot encode tuple variants"
  | .noItem => "tuple index out of range"

/-- The place of a descriptor inside another one: names and positions, outermost first. -/
abbrev DescriptorPath := List String

namespace DescriptorPath

/-- The path one segment further in. -/
def enter (path : DescriptorPath) (segment : String) : DescriptorPath := path ++ [segment]

/-- The text of a path, its segments joined by dots. -/
def text : DescriptorPath → String
  | [] => "<root>"
  | path => ".".intercalate path

end DescriptorPath

/-- A shape without a schema: where it stands and why. -/
structure UnsupportedShape where
  path : DescriptorPath
  fault : ShapeFault
deriving DecidableEq, Repr

/-- The text of the failure, which names the place unless an item is missing. -/
def UnsupportedShape.message (e : UnsupportedShape) : String :=
  match e.fault with
  | .noItem => e.fault.message
  | _ => "Unsupported shape at " ++ e.path.text ++ ": " ++ e.fault.message

end OpenApi
