import ApiModel.Descriptor.Comment
import ApiModel.Descriptor.Read
import ApiModel.Model.Naming
import ApiModel.Model.Query
import ApiModel.Path.Parse
import ApiModel.ServiceConfig.Basic
import ApiModel.WellKnown

/-!
# Models of descriptor sets

The messages, enumerations and services of the selected files are listed in the model. The types of
all other files are external, so that what the selected files import resolves.
-/

namespace ApiModel.Descriptor

/-! ## Files -/

/-- The package of a file. -/
def File.packageName (file : File) : String := file.package.getD ""

/-- Whether an entry of a list of files to include names a file: by its whole path, or by the end of
it behind a slash. -/
def File.isNamedBy (file : File) (entry : String) : Bool :=
  let path := file.name.getD ""
  path == entry || Text.endsWith ("/" ++ entry) path

/-- Whether a file is selected: by a list of files, or without one by the package of the last
file. -/
def FileSet.selects (set : FileSet) (included : List String) (file : File) : Bool :=
  if included.isEmpty then
    set.files.getLast?.any fun last => last.packageName == file.packageName
  else included.any file.isNamedBy

/-- Whether a part of a package is a version. -/
def isVersion (part : String) : Bool :=
  match part.toList with
  | 'v' :: c :: _ => c.isDigit
  | _ => false

/-- The short name for a package: its last part that is no version. -/
def shortName (package : String) : String :=
  ((Text.splitAt '.' package).reverse.find? fun part => !isVersion part).getD ""

/-- The beginning of the full names of what a package declares, before the dot. -/
def scopeOf (package : String) : String :=
  if package.isEmpty then "" else "." ++ package

/-! ## Messages by full name -/

mutual

/-- Notes a message under its full name, behind those nested in it. -/
def Message.note (scope : String) (found : Index Message) : Message → Index Message
  | .mk name fields messages enums options oneofs =>
    let id := scope ++ "." ++ name.getD ""
    (Message.noteAll id found messages).insert id (.mk name fields messages enums options oneofs)

/-- Notes messages in order. -/
def Message.noteAll (scope : String) (found : Index Message) : List Message → Index Message
  | [] => found
  | message :: rest => Message.noteAll scope (message.note scope found) rest

end

/-- The messages of all files by full name; the last one of a name counts. -/
def FileSet.messagesById (set : FileSet) : Index Message :=
  set.files.foldl
    (fun found file => Message.noteAll (scopeOf file.packageName) found file.messages) Index.empty

/-! ## Types -/

/-- A file whose types are being added. -/
structure FileContext where
  /-- The package. -/
  package : String
  /-- The comments. -/
  comments : Comments
  /-- Whether fields have presence by default. -/
  presenceByDefault : Bool

/-- What the types of a file need to know about it. -/
def File.context (file : File) : FileContext :=
  { package := file.packageName
    comments := Comments.ofFile file
    presenceByDefault := file.syntaxName.isNone || file.syntaxName == some "proto2" }

/-- The types whose fields name a message or an enumeration. -/
def namesType (type : FieldType) : Bool :=
  type == .message || type == .enumeration || type == .group

/-- The label of fields that hold at most one value. -/
def Field.optionalLabel : Int32 := 1

/-- A field of the message of a full name. -/
def Field.convert (context : FileContext) (messageId documentation : String) (f : Field) :
    Except Error ApiModel.Field := do
  let name := f.name.getD ""
  let id := messageId ++ "." ++ name
  let some type := f.type.bind fun number => FieldType.ofNumber? number.toInt
    | throw (.schema id "missing or unknown field type")
  let options := f.options.getD {}
  let label := f.label.getD optionalLabel
  return {
    name := name
    id := id
    documentation := documentation
    jsonName := f.jsonName.getD name
    type := type
    typeId := if namesType type then f.typeName.getD "" else ""
    repeated := label == repeatedLabel
    optional :=
      f.proto3Optional == some true || (context.presenceByDefault && label == optionalLabel)
    deprecated := options.deprecated.getD false
    behavior := options.fieldBehavior.filterMap fun number =>
      FieldBehavior.ofNumber? number.toInt }

/-- The positions of the groups that only mark a field as optional. -/
def markingGroups (fields : List Field) : List Int32 :=
  (fields.filter fun f => f.proto3Optional == some true).filterMap Field.oneofIndex

/-- The positions of the groups that stay. -/
def keptGroups (fields : List Field) (oneofs : List Oneof) : List Nat :=
  (List.range oneofs.length).filter fun position =>
    !(markingGroups fields).contains (positionNumber position)

/-- The new position of the group of a field, if the field belongs to a group that stays. Where
several positions are one number, the last counts. -/
def Field.groupAmong? (kept : List Nat) (f : Field) : Option Nat :=
  f.oneofIndex.bind fun index =>
    (kept.zipIdx.filter fun entry => positionNumber entry.1 == index).getLast?.map Prod.snd

/-- The group that stays of a declared one, before a field is added to it. -/
def emptyGroup (context : FileContext) (messageId : String) (place : Place) (oneofs : List Oneof)
    (position : Nat) : OneOf :=
  let groupName := ((oneofs.getD position {}).name).getD ""
  { name := groupName
    id := messageId ++ "." ++ groupName
    documentation := context.comments.before (place.oneof position) }

/-- The fields of a message that are converted already, and the groups with the positions of
those that belong to them. -/
structure Body where
  /-- The fields. -/
  fields : List ApiModel.Field := []
  /-- The groups. -/
  oneOfs : List OneOf

/-- Adds a field. A field that belongs to a group is an alternative there, and the group notes its
position. -/
def Body.push (body : Body) (group? : Option Nat) (field : ApiModel.Field) : Body :=
  match group? with
  | some group =>
    { fields := body.fields ++ [{ field with isOneOf := true, group := some group }]
      oneOfs := body.oneOfs.modify group fun o =>
        { o with fields := o.fields ++ [body.fields.length] } }
  | none => { body with fields := body.fields ++ [field] }

/-- Converts the field at a position of the message of a full name, and adds it. -/
def Body.convertNext (context : FileContext) (messageId : String) (place : Place)
    (kept : List Nat) (body : Body) (entry : Field × Nat) : Except Error Body := do
  let field ← entry.1.convert context messageId (context.comments.before (place.field entry.2))
  return body.push (entry.1.groupAmong? kept) field

/-- A message without what is nested in it, with the fields and groups that it declares. -/
def convertMessage (context : FileContext) (scope : String) (parent : Option MessageRef)
    (place : Place) (message : Message) : Except Error ApiModel.Message := do
  let name := message.name.getD ""
  let id := scope ++ "." ++ name
  let kept := keptGroups message.fields message.oneofs
  let groups := kept.map (emptyGroup context id place message.oneofs)
  let body ← message.fields.zipIdx.foldlM (Body.convertNext context id place kept)
    { oneOfs := groups }
  let options := message.options.getD {}
  return {
    name := name
    id := id
    package := context.package
    documentation := context.comments.before place
    deprecated := options.deprecated.getD false
    isMap := options.mapEntry.getD false
    fields := body.fields
    oneOfs := body.oneOfs
    parent := parent }

/-- An enumeration. -/
def convertEnum (context : FileContext) (scope : String) (parent : Option MessageRef)
    (place : Place) (e : Enumeration) : ApiModel.Enumeration :=
  let name := e.name.getD ""
  let id := scope ++ "." ++ name
  { name := name
    id := id
    package := context.package
    documentation := context.comments.before place
    deprecated := (e.options.bind EnumOptions.deprecated).getD false
    values := e.values.zipIdx.map fun (v, position) =>
      let valueName := v.name.getD ""
      { name := valueName
        id := id ++ "." ++ valueName
        documentation := context.comments.before (place.value position)
        number := (v.number.getD 0).toInt
        deprecated := (v.options.bind EnumValueOptions.deprecated).getD false }
    parent := parent }

/-- Elements that were added, and the model that holds them. -/
structure AddedAll (ref : Type) where
  /-- The places of the elements. -/
  refs : List ref
  /-- The model. -/
  model : Model

/-- Adds enumerations in order; the place of each is given by its position. -/
def addEnums (context : FileContext) (scope : String) (parent : Option MessageRef)
    (placeOf : Nat → Place) (m : Model) (enums : List Enumeration) : AddedAll EnumRef :=
  enums.zipIdx.foldl
    (fun state entry =>
      let added :=
        state.model.addEnum (convertEnum context scope parent (placeOf entry.2) entry.1)
      ⟨state.refs ++ [added.ref], added.model⟩)
    ⟨[], m⟩

mutual

/-- Adds a message, then those nested in it, then the enumerations nested in it. -/
def addMessageTree (context : FileContext) (scope : String) (parent : Option MessageRef)
    (place : Place) (m : Model) : Message → Except Error (Added MessageRef)
  | .mk name fields messages enums options oneofs => do
    let element ← convertMessage context scope parent place
      (.mk name fields messages enums options oneofs)
    let added := m.addMessage element
    let nested ← addMessageTrees context element.id (some added.ref) place.nestedMessage 0
      added.model messages
    let nestedEnums := addEnums context element.id (some added.ref) place.nestedEnum nested.model
      enums
    return ⟨added.ref, nestedEnums.model.modifyMessage added.ref fun x =>
      { x with messages := nested.refs, enums := nestedEnums.refs }⟩

/-- Adds messages in order, each with what is nested in it; the place of each is given by its
position. -/
def addMessageTrees (context : FileContext) (scope : String) (parent : Option MessageRef)
    (placeOf : Nat → Place) (position : Nat) (m : Model) :
    List Message → Except Error (AddedAll MessageRef)
  | [] => .ok ⟨[], m⟩
  | message :: rest => do
    let added ← addMessageTree context scope parent (placeOf position) m message
    let others ← addMessageTrees context scope parent placeOf (position + 1) added.model rest
    return ⟨added.ref :: others.refs, others.model⟩

end

/-- Adds the types of a file, and lists them as the model's own or as external. -/
def addTypes (selected : File → Bool) (m : Model) (file : File) : Except Error Model := do
  let context := file.context
  let scope := scopeOf file.packageName
  let messages ← addMessageTrees context scope none Place.fileMessage 0 m file.messages
  let enums := addEnums context scope none Place.fileEnum messages.model file.enums
  let m := enums.model
  if selected file then
    return { m with messages := m.messages ++ messages.refs, enums := m.enums ++ enums.refs }
  else
    return {
      m with
      externalMessages := m.externalMessages ++ messages.refs
      externalEnums := m.externalEnums ++ enums.refs }

/-! ## Services -/

/-- What the services of a set need to know. -/
structure ServiceContext where
  /-- The service configuration. -/
  config : Option ServiceConfig
  /-- The messages of the set by full name. -/
  messagesById : Index Message

/-- The names of the fields of a request. -/
def ServiceContext.requestFields (context : ServiceContext) (inputTypeId : String) :
    List String :=
  match context.messagesById.get? inputTypeId with
  | some message => message.fields.map fun f => f.name.getD ""
  | none => []

/-- A binding. Request fields that are neither in the path nor the body go into the query. -/
def Binding.convert (requestFields : List String) (b : Binding) : Except Error PathBinding := do
  let template ← Path.Template.parse b.path
  let bound := template.variableList.filterMap fun v => v.fieldPath.head?
  let query :=
    if b.body == "*" then []
    else requestFields.filter fun name => name != b.body && !bound.contains name
  return { verb := b.verb, pathTemplate := template, queryParameters := sortedTexts query }

/-- The HTTP bindings of a rule. -/
def HttpRule.pathInfo (requestFields : List String) (rule : HttpRule) : Except Error PathInfo := do
  let bindings ← rule.bindings.mapM (Binding.convert requestFields)
  return { bindings := bindings, bodyFieldPath := rule.body }

/-- The full name of a type that may be named without the package of the method. -/
def qualifyType (package name : String) : String :=
  if name.isEmpty then ""
  else if name.toList.contains '.' then "." ++ Text.dropDots name
  else qualify package name

/-- The last message in the store with a full name. -/
def lastMessageRef? (m : Model) (id : String) : Option MessageRef :=
  let found := (List.range m.store.messages.size).filter fun index =>
    (m.message ⟨index⟩).id == id
  found.getLast?.map MessageRef.mk

/-- Whether clients may fill in a field: a text that is a unique identifier and not required. -/
def mayFillIn (source : Field) (f : ApiModel.Field) : Bool :=
  let info := (source.options.getD {}).fieldInfo
  f.type == .string && info.any (fun info => info.format == FieldInfo.uuid4) && !f.isRequired

/-- The configured request fields that clients fill in when they are empty. -/
def ServiceContext.autoPopulated (context : ServiceContext) (m : Model)
    (methodId inputTypeId : String) : List FieldRef :=
  let names := (context.config.getD {}).autoPopulatedFields methodId
  match lastMessageRef? m inputTypeId, context.messagesById.get? inputTypeId with
  | some ref, some source =>
    let fields := (m.message ref).fields
    let indices := names.filterMap fun name => fields.findIdx? fun f => f.name == name
    let eligible := indices.filter fun index =>
      mayFillIn (source.fields.getD index {}) (fields.getD index {})
    eligible.map fun index => ⟨ref, index⟩
  | _, _ => []

/-- A method of the service of a full name. -/
def Method.convert (context : ServiceContext) (m : Model) (package serviceId documentation : String)
    (method : Method) : Except Error ApiModel.Method := do
  let name := method.name.getD ""
  let id := serviceId ++ "." ++ name
  let inputTypeId := method.inputType.getD ""
  let outputTypeId := method.outputType.getD ""
  let options := method.options.getD {}
  let pathInfo ← options.http.mapM (HttpRule.pathInfo (context.requestFields inputTypeId))
  let routing ← options.routing.mapM fun rule => Routing.readRule rule.parameters
  return {
    name := name
    id := id
    documentation := documentation
    deprecated := options.deprecated.getD false
    inputTypeId := inputTypeId
    outputTypeId := outputTypeId
    returnsEmpty := outputTypeId == WellKnown.emptyId
    pathInfo := pathInfo
    clientStreaming := method.clientStreaming.getD false
    serverStreaming := method.serverStreaming.getD false
    operationInfo := options.operationInfo.map fun info =>
      { metadataTypeId := qualifyType package info.metadataType
        responseTypeId := qualifyType package info.responseType }
    routing := routing.getD []
    autoPopulated := context.autoPopulated m id inputTypeId }

/-- Marks a field as one that clients fill in. -/
def markAutoPopulated (m : Model) (ref : FieldRef) : Model :=
  m.modifyMessage ref.message fun x =>
    { x with fields := x.fields.modify ref.index fun f => { f with autoPopulated := true } }

/-- Adds methods in order, and marks the fields that they fill in. -/
def addMethods (context : ServiceContext) (package serviceId : String) (comments : Comments)
    (placeOf : Nat → Place) (position : Nat) (m : Model) :
    List Method → Except Error (AddedAll MethodRef)
  | [] => .ok ⟨[], m⟩
  | method :: rest => do
    let element ← method.convert context m package serviceId (comments.before (placeOf position))
    let added := (element.autoPopulated.foldl markAutoPopulated m).addMethod element
    let others ← addMethods context package serviceId comments placeOf (position + 1) added.model
      rest
    return ⟨added.ref :: others.refs, others.model⟩

/-- Adds a service behind its methods, and lists it. -/
def addService (context : ServiceContext) (package : String) (comments : Comments) (m : Model)
    (entry : Service × Nat) : Except Error Model := do
  let (service, position) := entry
  let name := service.name.getD ""
  let id := qualify package name
  let place := Place.fileService position
  let methods ← addMethods context package id comments place.method 0 m service.methods
  let options := service.options.getD {}
  let added := methods.model.addService
    { name := name
      id := id
      package := package
      documentation := comments.before place
      deprecated := options.deprecated.getD false
      methods := methods.refs
      defaultHost := options.defaultHost.getD "" }
  return { added.model with services := added.model.services ++ [added.ref] }

/-- Adds the services of a file. -/
def addServices (context : ServiceContext) (m : Model) (file : File) : Except Error Model :=
  file.services.zipIdx.foldlM (addService context file.packageName (Comments.ofFile file)) m

/-! ## The model -/

/-- The model before its elements: its identity from the package and the service configuration. -/
def identity (package : String) (config : Option ServiceConfig) : Model :=
  let config := config.getD {}
  { name := if config.name.isEmpty then shortName package else config.apiName
    packageName := package
    title := config.title
    description := config.documentation.summary }

/-- The model of a set of files, of which some may be named. -/
def FileSet.model (set : FileSet) (config : Option ServiceConfig) (included : List String) :
    Except Error Model := do
  let selected := set.selects included
  let generated := set.files.filter selected
  let package := (generated.head?.map File.packageName).getD ""
  let m ← set.files.foldlM (addTypes selected) (identity package config)
  let context : ServiceContext := ⟨config, set.messagesById⟩
  let m ← generated.foldlM (addServices context) m
  return WellKnown.register m

/-- The model of a descriptor set, of whose files some may be named. -/
def readModel (config : Option ServiceConfig) (included : List String) (contents : Bytes) :
    Except Error Model :=
  match FileSet.read contents with
  | none => .error .descriptor
  | some set => set.model config included

end ApiModel.Descriptor
