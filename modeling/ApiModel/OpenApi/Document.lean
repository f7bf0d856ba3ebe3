import ApiModel.Json.Decode

/-!
# Interface descriptions

The part of an interface description that a model is built from: components, paths and servers. All
maps are in the order of their keys.
-/

namespace ApiModel.OpenApi

/-- What an object says about members beyond its properties. -/
inductive Additional (schema : Type) where
  /-- Whether there may be any. -/
  | allowed (value : Bool)
  /-- The schema that they follow. -/
  | values (schema : schema)

/-- A schema. -/
structure Schema where
  /-- The type. -/
  kind : String
  /-- The format of the type. -/
  format : String
  /-- The description. -/
  description : String
  /-- The address of the component that it refers to. -/
  reference : String
  /-- The properties by name. -/
  properties : List (String × Schema)
  /-- The names of the properties that have to be given. -/
  required : List String
  /-- The schema of array items. -/
  items : Option Schema
  /-- Members beyond the properties. -/
  additional : Option (Additional Schema)
  /-- Whether it is deprecated. -/
  deprecated : Bool

/-- A schema that says nothing. -/
def Schema.blank : Schema := ⟨"", "", "", "", [], [], none, none, false⟩

instance : Inhabited Schema := ⟨Schema.blank⟩

/-- A parameter of an operation. -/
structure Parameter where
  /-- The name. -/
  name : String := ""
  /-- Where it stands in a request. -/
  location : String := ""
  /-- Whether it has to be given. -/
  required : Bool := false
  /-- The description. -/
  description : String := ""
  /-- The schema. -/
  schema : Schema := .blank
deriving Inhabited

/-- A body of one media type. -/
structure MediaType where
  /-- The schema. -/
  schema : Schema := .blank
deriving Inhabited

/-- The body of a request. -/
structure RequestBody where
  /-- The description. -/
  description : String := ""
  /-- Whether it has to be given. -/
  required : Bool := false
  /-- The forms of the body by media type. -/
  content : List (String × MediaType) := []
deriving Inhabited

/-- A response. -/
structure Response where
  /-- The forms of the body by media type. -/
  content : List (String × MediaType) := []
deriving Inhabited

/-- What a verb does on a path. -/
structure Operation where
  /-- The name that the document gives it. -/
  operationId : String := ""
  /-- The short description. -/
  summary : String := ""
  /-- The description. -/
  description : String := ""
  /-- Whether it is deprecated. -/
  deprecated : Bool := false
  /-- The parameters. -/
  parameters : List Parameter := []
  /-- The body of the request. -/
  requestBody : Option RequestBody := none
  /-- The responses by status. -/
  responses : List (String × Response) := []
deriving Inhabited

/-- The operations on a path. -/
structure PathItem where
  /-- Reading. -/
  get : Option Operation := none
  /-- Writing as a whole. -/
  put : Option Operation := none
  /-- Adding. -/
  post : Option Operation := none
  /-- Deleting. -/
  delete : Option Operation := none
  /-- Changing in part. -/
  patch : Option Operation := none
  /-- The parameters of all operations. -/
  parameters : List Parameter := []
deriving Inhabited

/-- The identity of an interface. -/
structure Info where
  /-- The title. -/
  title : String := ""
  /-- The description. -/
  description : String := ""
deriving DecidableEq, Repr, Inhabited

/-- An interface description. -/
structure Document where
  /-- The identity. -/
  info : Info := {}
  /-- The addresses of the servers. -/
  servers : List String := []
  /-- The operations by path. -/
  paths : List (String × PathItem) := []
  /-- The component schemas by name. -/
  schemas : List (String × Schema) := []
deriving Inhabited

/-! ## Reading -/

open Json Decoder

/-- Reads what an object says about further members: a truth value or a schema. -/
def Additional.read (schema : Decoder Schema) : Decoder (Additional Schema) :=
  fun levels value =>
    if value.isSound levels then
      (bool levels value).map Additional.allowed <|> (schema levels value).map Additional.values
    else none

/-- Reads a schema; the fuel bounds the nesting of schemas. -/
def Schema.readWithin : Nat → Decoder Schema
  | 0 => fun _ _ => none
  | fuel + 1 =>
    record ["type", "format", "description", "$ref", "properties", "required", "items",
        "additionalProperties", "deprecated"]
      fun given levels => do
        return {
          kind := ← memberOr given levels "type" "" text
          format := ← memberOr given levels "format" "" text
          description := ← memberOr given levels "description" "" text
          reference := ← memberOr given levels "$ref" "" text
          properties := ← memberOr given levels "properties" [] (map (Schema.readWithin fuel))
          required := ← memberOr given levels "required" [] (list text)
          items := ← memberOr given levels "items" none (optional (Schema.readWithin fuel))
          additional :=
            ← memberOr given levels "additionalProperties" none
              (optional (Additional.read (Schema.readWithin fuel)))
          deprecated := ← memberOr given levels "deprecated" false bool }

/-- Reads a schema. -/
def Schema.read : Decoder Schema :=
  fun levels => Schema.readWithin (levels + 1) levels

/-- Reads a parameter. -/
def Parameter.read : Decoder Parameter :=
  record ["name", "in", "required", "description", "schema"] fun given levels => do
    return {
      name := ← memberOr given levels "name" "" text
      location := ← memberOr given levels "in" "" text
      required := ← memberOr given levels "required" false bool
      description := ← memberOr given levels "description" "" text
      schema := ← memberOr given levels "schema" Schema.blank Schema.read }

/-- Reads a body of one media type. -/
def MediaType.read : Decoder MediaType :=
  record ["schema"] fun given levels => do
    return { schema := ← memberOr given levels "schema" Schema.blank Schema.read }

/-- Reads the body of a request. -/
def RequestBody.read : Decoder RequestBody :=
  record ["description", "required", "content"] fun given levels => do
    return {
      description := ← memberOr given levels "description" "" text
      required := ← memberOr given levels "required" false bool
      content := ← memberOr given levels "content" [] (map MediaType.read) }

/-- Reads a response. -/
def Response.read : Decoder Response :=
  record ["content"] fun given levels => do
    return { content := ← memberOr given levels "content" [] (map MediaType.read) }

/-- Reads an operation. -/
def Operation.read : Decoder Operation :=
  record ["operationId", "summary", "description", "deprecated", "parameters", "requestBody",
      "responses"]
    fun given levels => do
      return {
        operationId := ← memberOr given levels "operationId" "" text
        summary := ← memberOr given levels "summary" "" text
        description := ← memberOr given levels "description" "" text
        deprecated := ← memberOr given levels "deprecated" false bool
        parameters := ← memberOr given levels "parameters" [] (list Parameter.read)
        requestBody := ← memberOr given levels "requestBody" none (optional RequestBody.read)
        responses := ← memberOr given levels "responses" [] (map Response.read) }

/-- Reads the operations on a path. -/
def PathItem.read : Decoder PathItem :=
  record ["get", "put", "post", "delete", "patch", "parameters"] fun given levels => do
    return {
      get := ← memberOr given levels "get" none (optional Operation.read)
      put := ← memberOr given levels "put" none (optional Operation.read)
      post := ← memberOr given levels "post" none (optional Operation.read)
      delete := ← memberOr given levels "delete" none (optional Operation.read)
      patch := ← memberOr given levels "patch" none (optional Operation.read)
      parameters := ← memberOr given levels "parameters" [] (list Parameter.read) }

/-- Reads an identity. -/
def Info.read : Decoder Info :=
  record ["title", "description"] fun given levels => do
    return {
      title := ← memberOr given levels "title" "" text
      description := ← memberOr given levels "description" "" text }

/-- Reads the address of a server. -/
def serverAddress : Decoder String :=
  record ["url"] fun given levels => memberOr given levels "url" "" text

/-- Reads the component schemas. -/
def componentSchemas : Decoder (List (String × Schema)) :=
  record ["schemas"] fun given levels => memberOr given levels "schemas" [] (map Schema.read)

/-- Reads a document. -/
def Document.read : Decoder Document :=
  record ["info", "servers", "paths", "components"] fun given levels => do
    return {
      info := ← memberOr given levels "info" {} Info.read
      servers := ← memberOr given levels "servers" [] (list serverAddress)
      paths := ← memberOr given levels "paths" [] (map PathItem.read)
      schemas := ← memberOr given levels "components" [] componentSchemas }

end ApiModel.OpenApi
