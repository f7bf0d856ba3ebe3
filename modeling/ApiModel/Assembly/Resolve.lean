import ApiModel.Assembly.Indexing
import ApiModel.Outcome
import ApiModel.WellKnown

/-!
# Resolving names

Every text that names a type is looked up in the indices: the types of fields, the requests and
responses of methods, the types of long-running operations. A message or method is changed only if
all of its names resolve.
-/

namespace ApiModel.Model

/-- What the type of a field resolves to; only messages, groups and enumerations have names. -/
def resolveTarget (m : Model) (f : Field) : Except Error (Option TypeRef) :=
  match f.type with
  | .message | .group =>
    match m.messageRef? f.typeId with
    | some ref => .ok (some (.message ref))
    | none => .error (.unresolved f.id f.typeId)
  | .enumeration =>
    match m.enumRef? f.typeId with
    | some ref => .ok (some (.enumeration ref))
    | none => .error (.unresolved f.id f.typeId)
  | _ => .ok none

/-- The field with its type resolved. -/
def resolveField (m : Model) (f : Field) : Except Error Field :=
  (m.resolveTarget f).map fun target => { f with target := target }

/-- Resolves the fields of a message. -/
def resolveMessage (m : Model) (ref : MessageRef) : Except Error Model :=
  ((m.message ref).fields.mapM m.resolveField).map fun fields =>
    m.modifyMessage ref fun element => { element with fields := fields }

/-- Resolves the fields of all indexed messages. -/
def resolveFields (m : Model) : Outcome :=
  Outcome.forEach resolveMessage m.indexedMessages m

/-- What a message name resolves to, on behalf of a method. -/
def resolveMessageId (m : Model) (owner id : String) : Except Error MessageRef :=
  match m.messageRef? id with
  | some ref => .ok ref
  | none => .error (.unresolved owner id)

/-- What a message name resolves to, unless it is empty. -/
def resolveOptionalId (m : Model) (owner id : String) : Except Error (Option MessageRef) :=
  if id.isEmpty then .ok none else (m.resolveMessageId owner id).map some

/-- The operation types of a method, resolved; the response comes before the metadata. -/
def resolveOperation (m : Model) (owner : String) (info : OperationInfo) :
    Except Error OperationInfo := do
  let responseType ← m.resolveOptionalId owner info.responseTypeId
  let metadataType ← m.resolveOptionalId owner info.metadataTypeId
  return { info with responseType := responseType, metadataType := metadataType }

/-- The method with all of its names resolved. -/
def resolveMethodNames (m : Model) (method : Method) : Except Error Method := do
  let input ← m.resolveMessageId method.id method.inputTypeId
  let output ← m.resolveMessageId method.id method.outputTypeId
  let operation ← method.operationInfo.mapM (m.resolveOperation method.id)
  return {
    method with
    inputType := some input
    outputType := some output
    returnsEmpty := method.outputTypeId == WellKnown.emptyId
    operationInfo := operation }

/-- Resolves the names of a method. -/
def resolveMethod (m : Model) (ref : MethodRef) : Except Error Model :=
  (m.resolveMethodNames (m.method ref)).map fun resolved => m.modifyMethod ref fun _ => resolved

/-- Resolves the names of all indexed methods. -/
def resolveMethods (m : Model) : Outcome :=
  Outcome.forEach resolveMethod m.indexedMethods m

/-! ## Map entries -/

/-- Whether the fields of a message are a key and a value. -/
def isEntryShaped (element : Message) : Bool :=
  let names := element.fields.map Field.name
  names == ["key", "value"] || names == ["value", "key"]

/-- Checks that every indexed map entry has a key and a value. -/
def checkMapEntries (m : Model) : Except Error Model :=
  match m.indexedMessages.find? fun ref =>
      (m.message ref).isMap && !isEntryShaped (m.message ref) with
  | some ref => .error (.mapEntryShape (m.message ref).id)
  | none => .ok m

/-- Whether a field holds a map entry. -/
def holdsMapEntry (m : Model) (f : Field) : Bool :=
  match f.target with
  | some (.message ref) => (m.message ref).isMap
  | _ => false

/-- Makes the fields of a message that hold map entries into maps. -/
def markMaps (m : Model) (ref : MessageRef) : Model :=
  m.modifyMessage ref fun element =>
    { element with
      fields := element.fields.map fun f =>
        if m.holdsMapEntry f then { f with map := true, repeated := false } else f }

/-- Makes the fields of all indexed messages that hold map entries into maps. -/
def markAllMaps (m : Model) : Model :=
  m.indexedMessages.foldl markMaps m

end ApiModel.Model
