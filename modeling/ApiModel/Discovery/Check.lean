import ApiModel.Discovery.Document
import ApiModel.Error

/-!
# Shapes of schemas

What a schema of a discovery document maps to, and the check of a whole document: every schema has
one shape, every array has items, and every reference names a schema of the document.
-/

namespace ApiModel.Discovery

/-- What a schema maps to. -/
inductive Shape where
  /-- A scalar of a type and format. -/
  | simple
  /-- An object with properties. -/
  | struct
  /-- A map. -/
  | map
  /-- An object of any content. -/
  | anyStruct
  /-- An array. -/
  | array
  /-- A reference to a schema of the document. -/
  | reference
deriving DecidableEq, Repr

/-- The word for a shape. -/
def Shape.word : Shape → String
  | .simple => "Simple"
  | .struct => "Struct"
  | .map => "Map"
  | .anyStruct => "AnyStruct"
  | .array => "Array"
  | .reference => "Reference"

/-- The shape of a schema, if it has exactly one. -/
def Schema.shape (s : Schema) (id : String) : Except Error Shape :=
  if !s.reference.isEmpty then
    if !s.kind.isEmpty || !s.properties.isEmpty || s.items.isSome then
      .error (.schema id "schema has both `$ref` and a concrete type")
    else .ok .reference
  else if s.kind != "array" && s.items.isSome then
    .error (.schema id (Text.quoted s.kind ++ " schema declares `items`"))
  else if s.kind == "array" then
    if s.items.isNone then .error (.schema id "array schema without `items`") else .ok .array
  else if s.kind == "object" then
    if s.additionalProperties.isSome then .ok .map
    else if s.properties.isEmpty then .ok .anyStruct
    else .ok .struct
  else if s.kind.isEmpty then .error (.schema id "schema has neither `type` nor `$ref`")
  else .ok .simple

mutual

/-- Checks a schema and everything inside it. -/
def Schema.check (known : String → Bool) (id : String) : Schema → Except Error Unit
  | ⟨kind, format, description, reference, properties, items, additionalProperties,
      deprecated⟩ => do
    let s : Schema :=
      ⟨kind, format, description, reference, properties, items,
        additionalProperties, deprecated⟩
    match ← s.shape id with
    | .reference => if known reference then pure () else throw (.unresolved id reference)
    | .array => Schema.checkInner known (id ++ "[]") items
    | .map => Schema.checkInner known (id ++ "\x7b\x7d") additionalProperties
    | .simple | .struct | .anyStruct => pure ()
    Schema.checkProperties known id properties

/-- Checks the schema inside another, if there is one. -/
def Schema.checkInner (known : String → Bool) (id : String) : Option Schema → Except Error Unit
  | none => .ok ()
  | some inner => inner.check known id

/-- Checks the properties of a schema in order. -/
def Schema.checkProperties (known : String → Bool) (id : String) :
    List (String × Schema) → Except Error Unit
  | [] => .ok ()
  | (name, property) :: rest => do
    property.check known (id ++ "." ++ name)
    Schema.checkProperties known id rest

end

/-- Checks the request and the response of a method. -/
def Method.check (known : String → Bool) (name : String) (m : Method) : Except Error Unit := do
  let id := if m.id.isEmpty then name else m.id
  Schema.checkInner known (id ++ ".request") m.request
  Schema.checkInner known (id ++ ".response") m.response

/-- Checks methods in order. -/
def checkMethods (known : String → Bool) : List (String × Method) → Except Error Unit
  | [] => .ok ()
  | (name, method) :: rest => do
    method.check known name
    checkMethods known rest

mutual

/-- Checks the methods of a resource and of those below it. -/
def Resource.check (known : String → Bool) : Resource → Except Error Unit
  | ⟨methods, resources⟩ => do
    checkMethods known methods
    Resource.checkAll known resources

/-- Checks resources in order. -/
def Resource.checkAll (known : String → Bool) : List (String × Resource) → Except Error Unit
  | [] => .ok ()
  | (_, resource) :: rest => do
    resource.check known
    Resource.checkAll known rest

end

/-- Whether a document has a schema of a name. -/
def Document.knows (d : Document) (name : String) : Bool :=
  (d.schemas.lookup name).isSome

/-- Checks the schemas of a document in order, each under its own name. -/
def checkSchemas (known : String → Bool) : List (String × Schema) → Except Error Unit
  | [] => .ok ()
  | (name, schema) :: rest => do
    schema.check known name
    checkSchemas known rest

/-- Checks a document. -/
def Document.check (d : Document) : Except Error Unit := do
  checkSchemas d.knows d.schemas
  checkMethods d.knows d.methods
  Resource.checkAll d.knows d.resources

end ApiModel.Discovery
