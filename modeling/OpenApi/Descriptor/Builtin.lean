import OpenApi.Descriptor.Basic

/-!
# Descriptor/Builtin — the common scalar shapes

Ready-made descriptors: the four scalar types, the sized integers and floats, dates, and two named
types that are always embedded, the UUID and the unit value.
-/

namespace OpenApi.Descriptor

/-- An integer with a format of the caller's choice. -/
def integer (format : Option String) : Descriptor := .primitive .integer format

/-- A number with a format of the caller's choice. -/
def number (format : Option String) : Descriptor := .primitive .number format

/-- A string with a format of the caller's choice. -/
def string (format : Option String) : Descriptor := .primitive .string format

/-- A UUID, written as a string. -/
def uuid : Descriptor :=
  .named "Uuid" (string none) (some "UUID ver. 4 [rfc](https://tools.ietf.org/html/rfc4122)")
    (some "uuid") (some "00000000-0000-0000-0000-000000000000") true

/-- The value that is always null. -/
def unit : Descriptor :=
  .named "Unit" (.optional (string (some "null"))) (some "Always `null`") none none true

/-- The built-in shapes by name. -/
def builtins : List (String × Descriptor) :=
  [("BOOLEAN", .primitive .boolean none),
    ("DATE", string (some "date")),
    ("DATE_TIME", string (some "date-time")),
    ("DOUBLE", number (some "double")),
    ("FLOAT", number (some "float")),
    ("INT8", integer (some "int8")),
    ("INT16", integer (some "int16")),
    ("INT32", integer (some "int32")),
    ("INT64", integer (some "int64")),
    ("INTEGER", integer none),
    ("NUMBER", number none),
    ("STRING", string none),
    ("UINT8", integer (some "uint8")),
    ("UINT16", integer (some "uint16")),
    ("UINT32", integer (some "uint32")),
    ("UINT64", integer (some "uint64")),
    ("UNIT", unit),
    ("UUID", uuid)]

end OpenApi.Descriptor
