import ApiModel.Error
import ApiModel.Model.Naming
import ApiModel.OpenApi.Document
import ApiModel.Path.Parse
import ApiModel.ServiceConfig.Basic
import ApiModel.WellKnown

/-!
# Models of interface descriptions

Component schemas become messages. Every operation becomes a method of one service, and its path and
query parameters become the fields of a request message of its own.
-/

namespace ApiModel.OpenApi

/-- How the address of a component schema begins. -/
def componentStart : String := "#/components/schemas/"

/-- The media type of bodies. -/
def bodyMediaType : String := "application/json"

/-- The name of the request field that holds the body. -/
def bodyFieldName : String := "requestBody"

/-- The full name of the message for objects of any content. -/
def freeFormId : String := WellKnown.idOf "Struct"

/-- A field type, and the full name of the message for those that hold one. -/
structure ValueType where
  /-- The type. -/
  type : FieldType
  /-- The full name of the message. -/
  id : String := ""
deriving DecidableEq, Repr

/-- The field type of a scalar. -/
def scalarType? (kind format : String) : Option ValueType :=
  match kind, format with
  | "boolean", _ => some ⟨.bool, ""⟩
  | "integer", "" => some ⟨.int32, ""⟩
  | "integer", "int32" => some ⟨.int32, ""⟩
  | "integer", "int64" => some ⟨.int64, ""⟩
  | "string", "int64" => some ⟨.int64, ""⟩
  | "integer", "uint32" => some ⟨.uint32, ""⟩
  | "integer", "uint64" => some ⟨.uint64, ""⟩
  | "string", "uint64" => some ⟨.uint64, ""⟩
  | "number", "float" => some ⟨.float, ""⟩
  | "number", "" => some ⟨.double, ""⟩
  | "number", "double" => some ⟨.double, ""⟩
  | "string", "" => some ⟨.string, ""⟩
  | "string", "date" => some ⟨.string, ""⟩
  | "string", "uuid" => some ⟨.string, ""⟩
  | "string", "byte" => some ⟨.bytes, ""⟩
  | "string", "binary" => some ⟨.bytes, ""⟩
  | "string", "date-time" => some ⟨.message, WellKnown.timestampId⟩
  | "string", "google-datetime" => some ⟨.message, WellKnown.timestampId⟩
  | "string", "google-duration" => some ⟨.message, WellKnown.durationId⟩
  | "string", "google-fieldmask" => some ⟨.message, WellKnown.fieldMaskId⟩
  | _, _ => none

/-- The full name of the message that a reference names. -/
def referencedId (package id reference : String) : Except Error String :=
  match Text.stripPrefix? componentStart reference with
  | some name => .ok (qualify package name)
  | none => .error (.schema id ("unsupported $ref " ++ Text.quoted reference))

/-- The type of a value that is neither a list nor a map. -/
def elementType (package id : String) (schema : Schema) : Except Error ValueType :=
  if !schema.reference.isEmpty then
    (referencedId package id schema.reference).map fun target => ⟨.message, target⟩
  else if schema.kind == "object" then
    if schema.properties.isEmpty then .ok ⟨.message, freeFormId⟩
    else .error (.schema id "inline object schemas are not supported")
  else if schema.kind == "array" then
    .error (.schema id "nested arrays are not supported")
  else
    match scalarType? schema.kind schema.format with
    | some type => .ok type
    | none =>
      .error (.schema id ("unknown type/format pair " ++ Text.quoted schema.kind ++ "/" ++
        Text.quoted schema.format))

/-- What a field of a schema is. -/
inductive FieldShape where
  /-- One value of a type. -/
  | single (type : ValueType)
  /-- A list of values of a type. -/
  | list (type : ValueType)
  /-- A map with values of a schema. -/
  | map (values : Schema)

/-- What the field of a schema is; the full name of the field is given. -/
def fieldShape (package id : String) (schema : Schema) : Except Error FieldShape :=
  match schema.kind, schema.items, schema.additional with
  | "array", some items, _ => (elementType package id items).map FieldShape.list
  | "array", none, _ => .error (.schema id "array schema without `items`")
  | "object", _, some (.values values) => .ok (.map values)
  | "object", _, some (.allowed _) =>
    if schema.properties.isEmpty then .ok (.single ⟨.message, freeFormId⟩)
    else (elementType package id schema).map FieldShape.single
  | _, _, _ => (elementType package id schema).map FieldShape.single

/-- The field of a schema before its type. -/
def plainField (id name : String) (schema : Schema) : Field :=
  { name := name
    id := id
    documentation := schema.description
    jsonName := name
    deprecated := schema.deprecated }

/-- A field whose presence is explicit unless it has to be given. -/
def withPresence (required : Bool) (f : Field) : Field :=
  if required then { f with behavior := f.behavior ++ [.required] }
  else { f with optional := !f.repeated && !f.map }

/-! ## Map entries -/

/-- The name of the entry message of a map. -/
def entryName (name : String) : String := pascalCase name ++ "Entry"

/-- The entry message of a full name, given the schema of its values. A map inside a map is a fault,
and of several the innermost counts. -/
def mapEntry (package id name : String) : Schema → Except Error Message
  | ⟨"object", _, _, _, _, _, _, some (.values inner), _⟩ => do
    let _ ← mapEntry package (id ++ "." ++ entryName "value") (entryName "value") inner
    throw (.schema id "map values must be scalars or messages")
  | values => do
    match ← fieldShape package (id ++ ".value") values with
    | .single type =>
      return {
        name := name
        id := id
        package := package
        isMap := true
        fields :=
          [{ name := "key", id := id ++ ".key", jsonName := "key", type := .string },
            { plainField (id ++ ".value") "value" values with
              type := type.type
              typeId := type.id }] }
    | _ => throw (.schema id "map values must be scalars or messages")

/-- A field, and the entry message that it needs if it is a map. -/
structure MadeField where
  /-- The field. -/
  field : Field
  /-- The entry message. -/
  entry : Option Message := none

/-- The field of a schema in a message. -/
def makeField (package messageId name : String) (schema : Schema) : Except Error MadeField := do
  let id := messageId ++ "." ++ name
  let plain := plainField id name schema
  match ← fieldShape package id schema with
  | .single type => return { field := { plain with type := type.type, typeId := type.id } }
  | .list type =>
    return { field := { plain with type := type.type, typeId := type.id, repeated := true } }
  | .map values =>
    let entryId := messageId ++ "." ++ entryName name
    let entry ← mapEntry package entryId (entryName name) values
    return {
      field := { plain with type := .message, typeId := entryId, map := true }
      entry := some entry }

/-! ## Messages -/

/-- Adds messages to the store in order. -/
def addMessages (m : Model) (elements : List Message) : List MessageRef × Model :=
  elements.foldl
    (fun state element =>
      let added := state.2.addMessage element
      (state.1 ++ [added.ref], added.model))
    ([], m)

/-- Adds a message behind the entries of its maps, makes it their owner, and lists it. -/
def addListed (m : Model) (element : Message) (entries : List Message) : Model :=
  let (nested, m) := addMessages m entries
  let added := m.addMessage { element with messages := nested }
  let owned := nested.foldl
    (fun m child => m.modifyMessage child fun x => { x with parent := some added.ref }) added.model
  { owned with messages := owned.messages ++ [added.ref] }

/-- Adds the message of a component schema. -/
def addSchema (m : Model) (component : String × Schema) : Except Error Model := do
  let (name, schema) := component
  let package := m.packageName
  let id := qualify package name
  if !(schema.kind == "object" || schema.kind.isEmpty) || !schema.reference.isEmpty then
    throw (.schema id "component schemas must be objects")
  let made ← schema.properties.mapM fun property => makeField package id property.1 property.2
  let fields := made.map fun x => withPresence (schema.required.contains x.field.name) x.field
  return addListed m
    { name := name
      package := package
      documentation := schema.description
      deprecated := schema.deprecated
      fields := fields
      id := id }
    (made.filterMap MadeField.entry)

/-! ## Methods -/

/-- A verb with what it does on a path. -/
structure Call where
  /-- The path. -/
  path : String
  /-- The verb. -/
  verb : String
  /-- What it does. -/
  operation : Operation
  /-- The parameters of the path. -/
  shared : List Parameter

/-- The parameters of a call, those of the path first. -/
def Call.parameters (c : Call) : List Parameter := c.shared ++ c.operation.parameters

/-- The calls on a path, in the fixed order of the verbs. -/
def PathItem.calls (path : String) (item : PathItem) : List Call :=
  [("GET", item.get), ("PUT", item.put), ("POST", item.post), ("DELETE", item.delete),
    ("PATCH", item.patch)].filterMap fun (verb, operation?) =>
      operation?.map fun operation => ⟨path, verb, operation, item.parameters⟩

/-- The request field of a parameter. -/
def parameterField (package messageId : String) (p : Parameter) : Except Error Field := do
  let made ← makeField package messageId p.name p.schema
  if made.field.map then
    throw (.schema made.field.id "map-valued parameters are not supported")
  let documented :=
    if made.field.documentation.isEmpty then { made.field with documentation := p.description }
    else made.field
  return withPresence (p.required || p.location == "path") { documented with synthetic := true }

/-- The request field of a body. -/
def bodyField (package methodId messageId : String) (body : RequestBody) : Except Error Field := do
  match body.content.lookup bodyMediaType with
  | none => throw (.schema methodId "request body must be application/json")
  | some media =>
    if media.schema.reference.isEmpty then
      throw (.schema methodId "request body must be a `$ref`")
    let target ← referencedId package methodId media.schema.reference
    return withPresence body.required
      { name := bodyFieldName
        jsonName := bodyFieldName
        id := messageId ++ "." ++ bodyFieldName
        documentation := body.description
        type := .message
        typeId := target }

/-- The request message of a method: its path and query parameters, then its body. -/
def requestMessage (package methodId methodName : String) (c : Call) : Except Error Message := do
  let name := methodName ++ "Request"
  let id := qualify package name
  let taken := c.parameters.filter fun p => p.location == "path" || p.location == "query"
  let parameters ← taken.mapM (parameterField package id)
  let body ← c.operation.requestBody.toList.mapM (bodyField package methodId id)
  return {
    name := name
    package := package
    documentation := "The request message for " ++ methodName ++ "."
    fields := parameters ++ body
    id := id }

/-- The full name of the message that a successful call answers. -/
def responseId (package methodId : String) (o : Operation) : Except Error String :=
  match (o.responses.lookup "200").bind fun response => response.content.lookup bodyMediaType with
  | none => .ok WellKnown.emptyId
  | some media =>
    if media.schema.reference.isEmpty then .error (.schema methodId "response must be a `$ref`")
    else referencedId package methodId media.schema.reference

/-- The method of a call, and its request message. -/
structure MadeMethod where
  /-- The method. -/
  method : Method
  /-- The request message. -/
  request : Message

/-- The method of a call. -/
def makeMethod (package serviceId : String) (c : Call) : Except Error MadeMethod := do
  let operation := c.operation
  if operation.operationId.isEmpty then
    throw (.schema (c.verb ++ " " ++ c.path) "operation has no operationId")
  let name := pascalCase operation.operationId
  let id := serviceId ++ "." ++ name
  let request ← requestMessage package id name c
  let outputTypeId ← responseId package id operation
  let template ← Path.Template.parse c.path
  let query := c.parameters.filter fun p => p.location == "query"
  let hasBody := request.fields.any fun f => f.name == bodyFieldName
  let method : Method :=
    { name := name
      documentation :=
        if operation.description.isEmpty then operation.summary else operation.description
      deprecated := operation.deprecated
      inputTypeId := request.id
      outputTypeId := outputTypeId
      returnsEmpty := outputTypeId == WellKnown.emptyId
      pathInfo := some
        { bindings :=
            [{ verb := c.verb
               pathTemplate := template
               queryParameters := sortedTexts (query.map Parameter.name) }]
          bodyFieldPath := if hasBody then bodyFieldName else "" }
      id := id }
  return ⟨method, request⟩

/-! ## The service -/

/-- The host of the first server. -/
def Document.host (d : Document) : String :=
  match d.servers with
  | [] => ""
  | address :: _ =>
    hostOf ((behindFirst? "://".toList address.toList).getD address.toList)

/-- Adds a method behind its request message. -/
def addMethod (state : List MethodRef × Model) (made : MadeMethod) : List MethodRef × Model :=
  let added := (addListed state.2 made.request []).addMethod made.method
  (state.1 ++ [added.ref], added.model)

/-- Adds the service with a method for every call; without calls there is no service. -/
def addService (d : Document) (name : String) (m : Model) : Except Error Model := do
  let package := m.packageName
  let id := qualify package name
  let made ← (d.paths.flatMap fun (path, item) => item.calls path).mapM (makeMethod package id)
  if made.isEmpty then return m
  let (methods, m) := made.foldl addMethod ([], m)
  let added := m.addService
    { name := name
      id := id
      package := package
      documentation := d.info.description
      methods := methods
      defaultHost := d.host }
  return { added.model with services := added.model.services ++ [added.ref] }

/-- The name of the service: that of the service configuration, or the letters and digits of the
title. -/
def Document.serviceName (d : Document) (config : Option ServiceConfig) : String :=
  match config.bind ServiceConfig.packageAndService? with
  | some qualified => qualified.service
  | none => String.ofList (d.info.title.toList.filter Char.isAlphanum)

/-- The model before its elements: its identity from the document and the service configuration. -/
def Document.identity (d : Document) (config : Option ServiceConfig) : Model :=
  let config := config.getD {}
  { name :=
      if config.apiName.isEmpty then Text.lower (d.serviceName config) else config.apiName
    title := if config.title.isEmpty then d.info.title else config.title
    description :=
      if config.documentation.summary.isEmpty then d.info.description
      else config.documentation.summary
    packageName :=
      match config.packageAndService? with
      | some qualified => qualified.package
      | none => "" }

/-- The model of a decoded document. -/
def Document.model (d : Document) (config : Option ServiceConfig) : Except Error Model := do
  let m ← d.schemas.foldlM addSchema (d.identity config)
  let m ← addService d (d.serviceName config) m
  return WellKnown.register m

/-- The model of an interface description. -/
def readModel (config : Option ServiceConfig) (contents : Bytes) : Except Error Model :=
  match Json.decode Document.read contents with
  | none => .error .json
  | some document => document.model config

end ApiModel.OpenApi
