import ApiModel.Json.Decode

/-!
# Discovery documents

The part of a discovery document that a model is built from. All maps are in the order of their
keys.
-/

namespace ApiModel.Discovery

/-- A schema. -/
structure Schema where
  /-- The type. -/
  kind : String
  /-- The format of the type. -/
  format : String
  /-- The description. -/
  description : String
  /-- The name of the schema that it refers to. -/
  reference : String
  /-- The properties by name. -/
  properties : List (String × Schema)
  /-- The schema of array items. -/
  items : Option Schema
  /-- The schema of map values. -/
  additionalProperties : Option Schema
  /-- Whether it is deprecated. -/
  deprecated : Bool
deriving Inhabited

/-- A schema that says nothing. -/
def Schema.blank : Schema := ⟨"", "", "", "", [], none, none, false⟩

/-- A parameter of a method. -/
structure Parameter where
  /-- Where it stands in a request. -/
  location : String := ""
deriving DecidableEq, Repr, Inhabited

/-- A method. -/
structure Method where
  /-- The name that the document gives it. -/
  id : String := ""
  /-- The path, relative to that of the service. -/
  path : String := ""
  /-- The verb. -/
  httpMethod : String := ""
  /-- The description. -/
  description : String := ""
  /-- Whether it is deprecated. -/
  deprecated : Bool := false
  /-- The parameters by name. -/
  parameters : List (String × Parameter) := []
  /-- The request. -/
  request : Option Schema := none
  /-- The response. -/
  response : Option Schema := none
  /-- Whether it takes uploads. -/
  supportsMediaUpload : Bool := false
  /-- Whether it says how uploads are taken. -/
  mediaUpload : Bool := false
deriving Inhabited

/-- A resource: methods, and resources below it. -/
structure Resource where
  /-- The methods by name. -/
  methods : List (String × Method)
  /-- The resources below it by name. -/
  resources : List (String × Resource)
deriving Inhabited

/-- A discovery document. -/
structure Document where
  /-- The name. -/
  name : String := ""
  /-- The title. -/
  title : String := ""
  /-- The description. -/
  description : String := ""
  /-- The address of the host. -/
  rootUrl : String := ""
  /-- The beginning of all paths. -/
  servicePath : String := ""
  /-- The schemas by name. -/
  schemas : List (String × Schema) := []
  /-- The resources by name. -/
  resources : List (String × Resource) := []
  /-- The methods outside every resource by name. -/
  methods : List (String × Method) := []
deriving Inhabited

/-! ## Reading -/

open Json Decoder

/-- Reads a schema; the fuel bounds the nesting of schemas. -/
def Schema.readWithin : Nat → Decoder Schema
  | 0 => fun _ _ => none
  | fuel + 1 =>
    record ["type", "format", "description", "$ref", "properties", "items",
        "additionalProperties", "deprecated"]
      fun given levels => do
        return {
          kind := ← memberOr given levels "type" "" text
          format := ← memberOr given levels "format" "" text
          description := ← memberOr given levels "description" "" text
          reference := ← memberOr given levels "$ref" "" text
          properties := ← memberOr given levels "properties" [] (map (Schema.readWithin fuel))
          items := ← memberOr given levels "items" none (optional (Schema.readWithin fuel))
          additionalProperties :=
            ← memberOr given levels "additionalProperties" none
              (optional (Schema.readWithin fuel))
          deprecated := ← memberOr given levels "deprecated" false bool }

/-- Reads a schema. -/
def Schema.read : Decoder Schema :=
  fun levels => Schema.readWithin (levels + 1) levels

/-- Reads a parameter. -/
def Parameter.read : Decoder Parameter :=
  record ["location"] fun given levels => do
    return { location := ← memberOr given levels "location" "" text }

/-- Reads a method. -/
def Method.read : Decoder Method :=
  record ["id", "path", "httpMethod", "description", "deprecated", "parameters", "request",
      "response", "supportsMediaUpload", "mediaUpload"]
    fun given levels => do
      return {
        id := ← memberOr given levels "id" "" text
        path := ← memberOr given levels "path" "" text
        httpMethod := ← memberOr given levels "httpMethod" "" text
        description := ← memberOr given levels "description" "" text
        deprecated := ← memberOr given levels "deprecated" false bool
        parameters := ← memberOr given levels "parameters" [] (map Parameter.read)
        request := ← memberOr given levels "request" none (optional Schema.read)
        response := ← memberOr given levels "response" none (optional Schema.read)
        supportsMediaUpload := ← memberOr given levels "supportsMediaUpload" false bool
        mediaUpload := ← memberOr given levels "mediaUpload" false isGiven }

/-- Reads a resource; the fuel bounds the nesting of resources. -/
def Resource.readWithin : Nat → Decoder Resource
  | 0 => fun _ _ => none
  | fuel + 1 =>
    record ["methods", "resources"] fun given levels => do
      return {
        methods := ← memberOr given levels "methods" [] (map Method.read)
        resources := ← memberOr given levels "resources" [] (map (Resource.readWithin fuel)) }

/-- Reads a resource. -/
def Resource.read : Decoder Resource :=
  fun levels => Resource.readWithin (levels + 1) levels

/-- Reads a document. -/
def Document.read : Decoder Document :=
  record ["name", "title", "description", "rootUrl", "servicePath", "schemas", "resources",
      "methods"]
    fun given levels => do
      return {
        name := ← memberOr given levels "name" "" text
        title := ← memberOr given levels "title" "" text
        description := ← memberOr given levels "description" "" text
        rootUrl := ← memberOr given levels "rootUrl" "" text
        servicePath := ← memberOr given levels "servicePath" "" text
        schemas := ← memberOr given levels "schemas" [] (map Schema.read)
        resources := ← memberOr given levels "resources" [] (map Resource.read)
        methods := ← memberOr given levels "methods" [] (map Method.read) }

end ApiModel.Discovery
