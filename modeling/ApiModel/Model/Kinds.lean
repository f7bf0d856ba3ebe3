/-!
# Kinds of fields

The types that a field can have on the wire, the annotations of its behaviour, their numbers in
descriptors and their names in written models.
-/

namespace ApiModel

/-- The type of a field. -/
inductive FieldType where
  /-- A 64-bit floating point number. -/
  | double
  /-- A 32-bit floating point number. -/
  | float
  /-- A signed 64-bit integer. -/
  | int64
  /-- An unsigned 64-bit integer. -/
  | uint64
  /-- A signed 32-bit integer. -/
  | int32
  /-- An unsigned integer in eight bytes. -/
  | fixed64
  /-- An unsigned integer in four bytes. -/
  | fixed32
  /-- A truth value. -/
  | bool
  /-- A text. -/
  | string
  /-- A delimited message. -/
  | group
  /-- A message. -/
  | message
  /-- A sequence of bytes. -/
  | bytes
  /-- An unsigned 32-bit integer. -/
  | uint32
  /-- A value of an enumeration. -/
  | enumeration
  /-- A signed integer in four bytes. -/
  | sfixed32
  /-- A signed integer in eight bytes. -/
  | sfixed64
  /-- A signed 32-bit integer, small in both directions. -/
  | sint32
  /-- A signed 64-bit integer, small in both directions. -/
  | sint64
deriving DecidableEq, Repr

namespace FieldType

instance : Inhabited FieldType := ⟨.string⟩

/-- All field types in the order of their numbers, which begin at one. -/
def all : List FieldType :=
  [.double, .float, .int64, .uint64, .int32, .fixed64, .fixed32, .bool, .string, .group, .message,
    .bytes, .uint32, .enumeration, .sfixed32, .sfixed64, .sint32, .sint64]

/-- The field type with a descriptor number. -/
def ofNumber? (number : Int) : Option FieldType :=
  if number < 1 then none else all[number.toNat - 1]?

/-- The name of a field type in a written model. -/
def name : FieldType → String
  | .double => "DOUBLE"
  | .float => "FLOAT"
  | .int64 => "INT64"
  | .uint64 => "UINT64"
  | .int32 => "INT32"
  | .fixed64 => "FIXED64"
  | .fixed32 => "FIXED32"
  | .bool => "BOOL"
  | .string => "STRING"
  | .group => "GROUP"
  | .message => "MESSAGE"
  | .bytes => "BYTES"
  | .uint32 => "UINT32"
  | .enumeration => "ENUM"
  | .sfixed32 => "SFIXED32"
  | .sfixed64 => "SFIXED64"
  | .sint32 => "SINT32"
  | .sint64 => "SINT64"

end FieldType

/-- An annotation of how a field behaves. -/
inductive FieldBehavior where
  /-- May be left out. -/
  | optional
  /-- Must be given. -/
  | required
  /-- Set by the server only. -/
  | outputOnly
  /-- Set by the client only. -/
  | inputOnly
  /-- Fixed once it is set. -/
  | immutable
  /-- A list whose order has no meaning. -/
  | unorderedList
  /-- Has a default that is not empty. -/
  | nonEmptyDefault
  /-- Names the resource. -/
  | identifier
deriving DecidableEq, Repr, Inhabited

namespace FieldBehavior

/-- All behaviours in the order of their numbers, which begin at one. -/
def all : List FieldBehavior :=
  [.optional, .required, .outputOnly, .inputOnly, .immutable, .unorderedList, .nonEmptyDefault,
    .identifier]

/-- The behaviour with an annotation number; zero says nothing. -/
def ofNumber? (number : Int) : Option FieldBehavior :=
  if number < 1 then none else all[number.toNat - 1]?

/-- The name of a behaviour in a written model. -/
def name : FieldBehavior → String
  | .optional => "OPTIONAL"
  | .required => "REQUIRED"
  | .outputOnly => "OUTPUT_ONLY"
  | .inputOnly => "INPUT_ONLY"
  | .immutable => "IMMUTABLE"
  | .unorderedList => "UNORDERED_LIST"
  | .nonEmptyDefault => "NON_EMPTY_DEFAULT"
  | .identifier => "IDENTIFIER"

end FieldBehavior

end ApiModel
