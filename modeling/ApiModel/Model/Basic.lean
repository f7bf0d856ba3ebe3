import ApiModel.Index
import ApiModel.Model.Kinds
import ApiModel.Path.Template

/-!
# The model of an API

All messages, enumerations, services and methods of a model lie in a store, in the order in which
they were added. Elements refer to each other by their places in the store, so that the graph may
have cycles. A fresh model has only the texts that name types; the places that they resolve to are
filled in by assembly.
-/

namespace ApiModel

/-- The place of a message in the store. -/
structure MessageRef where
  /-- The position among the messages. -/
  index : Nat
deriving DecidableEq, Repr, Inhabited

/-- The place of an enumeration in the store. -/
structure EnumRef where
  /-- The position among the enumerations. -/
  index : Nat
deriving DecidableEq, Repr, Inhabited

/-- The place of a service in the store. -/
structure ServiceRef where
  /-- The position among the services. -/
  index : Nat
deriving DecidableEq, Repr, Inhabited

/-- The place of a method in the store. -/
structure MethodRef where
  /-- The position among the methods. -/
  index : Nat
deriving DecidableEq, Repr, Inhabited

/-- The place of a field: its message and its position there. -/
structure FieldRef where
  /-- The message that owns the field. -/
  message : MessageRef
  /-- The position among its fields. -/
  index : Nat
deriving DecidableEq, Repr, Inhabited

/-- What the type of a field resolves to. -/
inductive TypeRef where
  /-- The field holds a message. -/
  | message (ref : MessageRef)
  /-- The field holds a value of an enumeration. -/
  | enumeration (ref : EnumRef)
deriving DecidableEq, Repr

/-- The message that a type resolves to, if it is one. -/
def TypeRef.message? : TypeRef → Option MessageRef
  | .message ref => some ref
  | .enumeration _ => none

/-- A field of a message. -/
structure Field where
  /-- The name in the source. -/
  name : String := ""
  /-- The full name. -/
  id : String := ""
  /-- The documentation. -/
  documentation : String := ""
  /-- The name in JSON. -/
  jsonName : String := ""
  /-- The type. -/
  type : FieldType := .string
  /-- The full name of the message or enumeration that it holds, empty for other types. -/
  typeId : String := ""
  /-- What the full name resolves to. -/
  target : Option TypeRef := none
  /-- Whether presence is explicit. -/
  optional : Bool := false
  /-- Whether it is a list. -/
  repeated : Bool := false
  /-- Whether it is a map, whose type names an entry message. -/
  map : Bool := false
  /-- Whether it is marked as deprecated. -/
  deprecated : Bool := false
  /-- Whether it belongs to a group of alternatives. -/
  isOneOf : Bool := false
  /-- Whether it is added by a reader and not on the wire. -/
  synthetic : Bool := false
  /-- Whether its type leads back to its owner. -/
  recursive : Bool := false
  /-- Whether clients fill it in when it is empty. -/
  autoPopulated : Bool := false
  /-- The annotations of its behaviour. -/
  behavior : List FieldBehavior := []
  /-- The position of its group of alternatives. -/
  group : Option Nat := none
  /-- The owning message. -/
  parent : Option MessageRef := none
deriving DecidableEq, Repr, Inhabited

/-- A group of alternative fields. -/
structure OneOf where
  /-- The name. -/
  name : String := ""
  /-- The full name. -/
  id : String := ""
  /-- The documentation. -/
  documentation : String := ""
  /-- The positions of the alternatives among the owner's fields. -/
  fields : List Nat := []
deriving DecidableEq, Repr, Inhabited

/-- The fields of a list response that drive its pages. -/
structure Pagination where
  /-- The token of the next page. -/
  nextPageToken : FieldRef
  /-- The items of the page. -/
  pageableItem : FieldRef
deriving DecidableEq, Repr

/-- A structured type. -/
structure Message where
  /-- The name. -/
  name : String := ""
  /-- The full name, with a leading dot. -/
  id : String := ""
  /-- The package of its declaration. -/
  package : String := ""
  /-- The documentation. -/
  documentation : String := ""
  /-- Whether it is marked as deprecated. -/
  deprecated : Bool := false
  /-- The fields in order of declaration. -/
  fields : List Field := []
  /-- The nested messages. -/
  messages : List MessageRef := []
  /-- The nested enumerations. -/
  enums : List EnumRef := []
  /-- The groups of alternatives. -/
  oneOfs : List OneOf := []
  /-- The enclosing message. -/
  parent : Option MessageRef := none
  /-- Whether it is an entry of a map. -/
  isMap : Bool := false
  /-- The fields that drive its pages, on list responses. -/
  pagination : Option Pagination := none
deriving DecidableEq, Repr, Inhabited

/-- A value of an enumeration. -/
structure EnumValue where
  /-- The name. -/
  name : String := ""
  /-- The full name. -/
  id : String := ""
  /-- The documentation. -/
  documentation : String := ""
  /-- The number on the wire. -/
  number : Int := 0
  /-- Whether it is marked as deprecated. -/
  deprecated : Bool := false
  /-- The owning enumeration. -/
  parent : Option EnumRef := none
deriving DecidableEq, Repr, Inhabited

/-- An enumeration. -/
structure Enumeration where
  /-- The name. -/
  name : String := ""
  /-- The full name. -/
  id : String := ""
  /-- The package of its declaration. -/
  package : String := ""
  /-- The documentation. -/
  documentation : String := ""
  /-- Whether it is marked as deprecated. -/
  deprecated : Bool := false
  /-- The values in order of declaration. -/
  values : List EnumValue := []
  /-- The positions of the first values of each number. -/
  uniqueNumberValues : List Nat := []
  /-- The enclosing message. -/
  parent : Option MessageRef := none
deriving DecidableEq, Repr, Inhabited

/-- A named group of methods. -/
structure Service where
  /-- The name. -/
  name : String := ""
  /-- The full name. -/
  id : String := ""
  /-- The package of its declaration. -/
  package : String := ""
  /-- The documentation. -/
  documentation : String := ""
  /-- Whether it is marked as deprecated. -/
  deprecated : Bool := false
  /-- The methods in order of declaration. -/
  methods : List MethodRef := []
  /-- The host that serves it. -/
  defaultHost : String := ""
deriving DecidableEq, Repr, Inhabited

/-- One verb and path of a method. -/
structure PathBinding where
  /-- The verb in upper case, or the custom verb as it stands. -/
  verb : String := ""
  /-- The path. -/
  pathTemplate : Path.Template := {}
  /-- The request fields that go into the query, sorted. -/
  queryParameters : List String := []
deriving DecidableEq, Repr, Inhabited

/-- The HTTP bindings of a method. -/
structure PathInfo where
  /-- The primary binding first, then the additional ones. -/
  bindings : List PathBinding := []
  /-- The request field that is the body: a star for all, empty for none. -/
  bodyFieldPath : String := ""
deriving DecidableEq, Repr, Inhabited

/-- The types of a long-running operation. -/
structure OperationInfo where
  /-- The full name of the metadata message. -/
  metadataTypeId : String := ""
  /-- The full name of the final response message. -/
  responseTypeId : String := ""
  /-- What the metadata name resolves to. -/
  metadataType : Option MessageRef := none
  /-- What the response name resolves to. -/
  responseType : Option MessageRef := none
deriving DecidableEq, Repr, Inhabited

/-- One way to take a routing value from a request field. -/
structure RoutingVariant where
  /-- The names of the field path. -/
  fieldPath : List String := []
  /-- The segments before the value. -/
  before : List String := []
  /-- The segments of the value. -/
  matching : List String := []
  /-- The segments after the value. -/
  after : List String := []
deriving DecidableEq, Repr, Inhabited

/-- All variants of one routing key, the most important first. -/
structure RoutingInfo where
  /-- The key. -/
  name : String := ""
  /-- The variants, later declarations first. -/
  variants : List RoutingVariant := []
deriving DecidableEq, Repr, Inhabited

/-- A remote call. -/
structure Method where
  /-- The name. -/
  name : String := ""
  /-- The full name. -/
  id : String := ""
  /-- The documentation. -/
  documentation : String := ""
  /-- Whether it is marked as deprecated. -/
  deprecated : Bool := false
  /-- The full name of the request message. -/
  inputTypeId : String := ""
  /-- What the request name resolves to. -/
  inputType : Option MessageRef := none
  /-- The full name of the response message. -/
  outputTypeId : String := ""
  /-- What the response name resolves to. -/
  outputType : Option MessageRef := none
  /-- Whether the response is the empty message. -/
  returnsEmpty : Bool := false
  /-- The HTTP bindings. -/
  pathInfo : Option PathInfo := none
  /-- The request field that takes the page token. -/
  pagination : Option FieldRef := none
  /-- Whether the client sends a stream. -/
  clientStreaming : Bool := false
  /-- Whether the server sends a stream. -/
  serverStreaming : Bool := false
  /-- The types of the long-running operation. -/
  operationInfo : Option OperationInfo := none
  /-- The routing keys. -/
  routing : List RoutingInfo := []
  /-- The request fields that clients fill in when they are empty. -/
  autoPopulated : List FieldRef := []
  /-- The owning service. -/
  service : Option ServiceRef := none
deriving DecidableEq, Repr, Inhabited

/-- The elements of a model and the indices of their full names. -/
structure Store where
  /-- The messages. -/
  messages : Array Message := #[]
  /-- The enumerations. -/
  enums : Array Enumeration := #[]
  /-- The services. -/
  services : Array Service := #[]
  /-- The methods. -/
  methods : Array Method := #[]
  /-- The messages by full name. -/
  messageById : Index MessageRef := Index.empty
  /-- The enumerations by full name. -/
  enumById : Index EnumRef := Index.empty
  /-- The services by full name. -/
  serviceById : Index ServiceRef := Index.empty
  /-- The methods by full name. -/
  methodById : Index MethodRef := Index.empty
deriving Inhabited

/-- An API: its identity, its top-level elements and the store that holds all elements. -/
structure Model where
  /-- The short name. -/
  name : String := ""
  /-- The package of all generated elements. -/
  packageName : String := ""
  /-- The title. -/
  title : String := ""
  /-- The overview. -/
  description : String := ""
  /-- The services to generate. -/
  services : List ServiceRef := []
  /-- The top-level messages to generate. -/
  messages : List MessageRef := []
  /-- The top-level enumerations to generate. -/
  enums : List EnumRef := []
  /-- The messages that are referred to but not generated. -/
  externalMessages : List MessageRef := []
  /-- The enumerations that are referred to but not generated. -/
  externalEnums : List EnumRef := []
  /-- The elements. -/
  store : Store := {}
deriving Inhabited

/-- A store with an element added to it, and the place of the element. -/
structure Added (ref : Type) where
  /-- The place of the element. -/
  ref : ref
  /-- The model that holds it. -/
  model : Model

namespace Model

/-- The message at a place. -/
def message (m : Model) (ref : MessageRef) : Message :=
  m.store.messages.getD ref.index default

/-- The enumeration at a place. -/
def enumeration (m : Model) (ref : EnumRef) : Enumeration :=
  m.store.enums.getD ref.index default

/-- The service at a place. -/
def service (m : Model) (ref : ServiceRef) : Service :=
  m.store.services.getD ref.index default

/-- The method at a place. -/
def method (m : Model) (ref : MethodRef) : Method :=
  m.store.methods.getD ref.index default

/-- The field at a place. -/
def field (m : Model) (ref : FieldRef) : Field :=
  (m.message ref.message).fields.getD ref.index default

/-- Changes the message at a place. -/
def modifyMessage (m : Model) (ref : MessageRef) (change : Message → Message) : Model :=
  { m with store := { m.store with messages := m.store.messages.modify ref.index change } }

/-- Changes the enumeration at a place. -/
def modifyEnum (m : Model) (ref : EnumRef) (change : Enumeration → Enumeration) : Model :=
  { m with store := { m.store with enums := m.store.enums.modify ref.index change } }

/-- Changes the service at a place. -/
def modifyService (m : Model) (ref : ServiceRef) (change : Service → Service) : Model :=
  { m with store := { m.store with services := m.store.services.modify ref.index change } }

/-- Changes the method at a place. -/
def modifyMethod (m : Model) (ref : MethodRef) (change : Method → Method) : Model :=
  { m with store := { m.store with methods := m.store.methods.modify ref.index change } }

/-- Puts a message into the store, without listing it, and makes it the owner of its fields. -/
def addMessage (m : Model) (element : Message) : Added MessageRef :=
  let ref : MessageRef := ⟨m.store.messages.size⟩
  let owned :=
    { element with fields := element.fields.map fun f => { f with parent := some ref } }
  ⟨ref, { m with store := { m.store with messages := m.store.messages.push owned } }⟩

/-- Puts an enumeration into the store, without listing it, and makes it the owner of its values. -/
def addEnum (m : Model) (element : Enumeration) : Added EnumRef :=
  let ref : EnumRef := ⟨m.store.enums.size⟩
  let owned :=
    { element with values := element.values.map fun v => { v with parent := some ref } }
  ⟨ref, { m with store := { m.store with enums := m.store.enums.push owned } }⟩

/-- Puts a service into the store, without listing it. -/
def addService (m : Model) (element : Service) : Added ServiceRef :=
  ⟨⟨m.store.services.size⟩,
    { m with store := { m.store with services := m.store.services.push element } }⟩

/-- Puts a method into the store, without listing it. -/
def addMethod (m : Model) (element : Method) : Added MethodRef :=
  ⟨⟨m.store.methods.size⟩,
    { m with store := { m.store with methods := m.store.methods.push element } }⟩

/-- The place of the indexed message with a full name. -/
def messageRef? (m : Model) (id : String) : Option MessageRef :=
  m.store.messageById.get? id

/-- The place of the indexed enumeration with a full name. -/
def enumRef? (m : Model) (id : String) : Option EnumRef :=
  m.store.enumById.get? id

/-- The place of the indexed service with a full name. -/
def serviceRef? (m : Model) (id : String) : Option ServiceRef :=
  m.store.serviceById.get? id

/-- The place of the indexed method with a full name. -/
def methodRef? (m : Model) (id : String) : Option MethodRef :=
  m.store.methodById.get? id

/-- The indexed message with a full name. -/
def findMessage? (m : Model) (id : String) : Option Message :=
  (m.messageRef? id).map m.message

/-- The indexed enumeration with a full name. -/
def findEnum? (m : Model) (id : String) : Option Enumeration :=
  (m.enumRef? id).map m.enumeration

/-- The indexed service with a full name. -/
def findService? (m : Model) (id : String) : Option Service :=
  (m.serviceRef? id).map m.service

/-- The indexed method with a full name. -/
def findMethod? (m : Model) (id : String) : Option Method :=
  (m.methodRef? id).map m.method

end Model

end ApiModel
