import ApiModel.Discovery.Check
import ApiModel.Model.Naming
import ApiModel.Path.Parse
import ApiModel.ServiceConfig.Basic
import ApiModel.WellKnown

/-!
# Models of discovery documents

The schemas of a document become messages, the resources with methods become services. Scalar
properties and references become fields; arrays and objects do not.
-/

namespace ApiModel.Discovery

/-- A field type, and the full name of the message for those that hold one. -/
structure NamedType where
  /-- The type. -/
  type : FieldType
  /-- The full name of the message. -/
  id : String := ""
deriving DecidableEq, Repr

/-- The field type of a scalar. -/
def scalarType? (kind format : String) : Option NamedType :=
  match kind, format with
  | "boolean", _ => some ⟨.bool, ""⟩
  | "integer", "int32" => some ⟨.int32, ""⟩
  | "integer", "uint32" => some ⟨.uint32, ""⟩
  | "integer", "int64" => some ⟨.int64, ""⟩
  | "string", "int64" => some ⟨.int64, ""⟩
  | "integer", "uint64" => some ⟨.uint64, ""⟩
  | "string", "uint64" => some ⟨.uint64, ""⟩
  | "number", "float" => some ⟨.float, ""⟩
  | "number", "double" => some ⟨.double, ""⟩
  | "string", "" => some ⟨.string, ""⟩
  | "string", "date" => some ⟨.string, ""⟩
  | "string", "byte" => some ⟨.bytes, ""⟩
  | "string", "date-time" => some ⟨.message, WellKnown.timestampId⟩
  | "string", "google-datetime" => some ⟨.message, WellKnown.timestampId⟩
  | "string", "google-duration" => some ⟨.message, WellKnown.durationId⟩
  | "string", "google-fieldmask" => some ⟨.message, WellKnown.fieldMaskId⟩
  | _, _ => none

/-- The field type of a property, or none for one that makes no field. -/
def propertyType? (package fieldId : String) (property : Schema) :
    Except Error (Option NamedType) := do
  match ← property.shape fieldId with
  | .reference => return some ⟨.message, qualify package property.reference⟩
  | .simple =>
    match scalarType? property.kind property.format with
    | some type => return some type
    | none =>
      throw (.schema fieldId ("unknown type/format pair " ++ Text.quoted property.kind ++ "/" ++
        Text.quoted property.format))
  | _ => return none

/-- The field of a property, unless it makes none. -/
def makeField? (package messageId : String) (property : String × Schema) :
    Except Error (Option Field) := do
  let (name, schema) := property
  let id := messageId ++ "." ++ name
  let type? ← propertyType? package id schema
  return type?.map fun type =>
    { name := name
      jsonName := name
      documentation := schema.description
      deprecated := schema.deprecated
      optional := true
      type := type.type
      typeId := type.id
      id := id }

/-- The message of a schema, which has to be an object. -/
def makeMessage (package name : String) (schema : Schema) : Except Error Message := do
  let id := qualify package name
  let shape ← schema.shape name
  if shape == .struct || shape == .anyStruct || shape == .map then
    let fields ← schema.properties.mapM (makeField? package id)
    return {
      name := name
      package := package
      documentation := schema.description
      deprecated := schema.deprecated
      fields := fields.filterMap fun field? => field?
      id := id }
  else
    throw (.schema name ("top-level schema must be an object, found " ++ shape.word))

/-- The full name of the message that a request or response names; a missing one is empty. -/
def messageId (package methodId kind : String) : Option Schema → Except Error String
  | none => .ok WellKnown.emptyId
  | some schema =>
    if schema.reference.isEmpty then
      .error (.schema methodId (kind ++ " must be a `$ref` to a top-level schema"))
    else .ok (qualify package schema.reference)

/-- The method of a service. -/
def makeMethod (package serviceId servicePath : String) (entry : String × Method) :
    Except Error ApiModel.Method := do
  let (name, source) := entry
  let id := serviceId ++ "." ++ name
  if source.supportsMediaUpload || source.mediaUpload then
    throw (.schema id "media upload methods are not supported")
  let inputTypeId ← messageId package id "request" source.request
  let outputTypeId ← messageId package id "response" source.response
  let template ← Path.Template.parseResource (servicePath ++ source.path)
  let query := source.parameters.filter fun parameter => parameter.2.location == "query"
  return {
    name := name
    documentation := source.description
    deprecated := source.deprecated
    returnsEmpty := outputTypeId == WellKnown.emptyId
    pathInfo := some
      { bindings :=
          [{ verb := Text.upper source.httpMethod
             pathTemplate := template
             queryParameters := query.map Prod.fst }]
        bodyFieldPath := if source.request.isSome then "*" else "" }
    inputTypeId := inputTypeId
    outputTypeId := outputTypeId
    id := id }

/-- The host of the service. -/
def Document.host (d : Document) : String :=
  hostOf (((Text.stripPrefix? "https://" d.rootUrl <|> Text.stripPrefix? "http://" d.rootUrl).getD
    d.rootUrl).toList)

/-- A resource that has methods. -/
structure NamedResource where
  /-- The name of the resource. -/
  name : String
  /-- Its methods by name. -/
  methods : List (String × Method)

mutual

/-- A resource and those below it, parents first. -/
def Resource.walk (name : String) : Resource → List NamedResource
  | ⟨methods, resources⟩ => ⟨name, methods⟩ :: Resource.walkAll resources

/-- Resources and those below them, parents first. -/
def Resource.walkAll : List (String × Resource) → List NamedResource
  | [] => []
  | (name, resource) :: rest => resource.walk name ++ Resource.walkAll rest

end

/-- The resources with methods in the order of the document. -/
def Document.servingResources (d : Document) : List NamedResource :=
  (Resource.walkAll d.resources).filter fun resource => !resource.methods.isEmpty

/-- The first resource of each name. -/
def firstOfEachName (seen : List String) : List NamedResource → List NamedResource
  | [] => []
  | resource :: rest =>
    if seen.contains resource.name then firstOfEachName seen rest
    else resource :: firstOfEachName (resource.name :: seen) rest

/-- Adds the service of a resource behind its methods, and lists it. -/
def addService (d : Document) (m : Model) (resource : NamedResource) : Except Error Model := do
  let package := m.packageName
  let id := qualify package resource.name
  let methods ← resource.methods.mapM (makeMethod package id d.servicePath)
  let (refs, m) := methods.foldl
    (fun (found : List MethodRef × Model) method =>
      let added := found.2.addMethod method
      (found.1 ++ [added.ref], added.model))
    ([], m)
  let added := m.addService
    { name := resource.name
      id := id
      package := package
      methods := refs
      defaultHost := d.host }
  return { added.model with services := added.model.services ++ [added.ref] }

/-- Adds the message of a schema, and lists it. -/
def addSchema (m : Model) (entry : String × Schema) : Except Error Model := do
  let added := m.addMessage (← makeMessage m.packageName entry.1 entry.2)
  return { added.model with messages := added.model.messages ++ [added.ref] }

/-- The model before its elements: its identity from the document and the service configuration. -/
def Document.identity (d : Document) (config : Option ServiceConfig) : Model :=
  let plain : Model := { name := d.name, title := d.title, description := d.description }
  match config with
  | none => plain
  | some config =>
    { plain with
      name := if config.name.isEmpty then d.name else config.apiName
      title := if config.title.isEmpty then d.title else config.title
      description :=
        if config.documentation.summary.isEmpty then d.description
        else config.documentation.summary
      packageName :=
        match config.packageAndService? with
        | some qualified => qualified.package
        | none => "" }

/-- The model of a decoded document. -/
def Document.model (d : Document) (config : Option ServiceConfig) : Except Error Model := do
  d.check
  let m ← d.schemas.foldlM addSchema (d.identity config)
  let m ← (firstOfEachName [] d.servingResources).foldlM (addService d) m
  return WellKnown.register m

/-- The model of a discovery document. -/
def readModel (config : Option ServiceConfig) (contents : Bytes) : Except Error Model :=
  match Json.decode Document.read contents with
  | none => .error .json
  | some document => document.model config

end ApiModel.Discovery
