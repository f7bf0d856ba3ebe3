import ApiModel.Routing

/-!
# Descriptors

What a compiled set of schema files says about its messages, enumerations and services, with the
annotations for HTTP, routing, field behaviour and long-running operations. Members that a schema
may leave out are optional; the others have defaults.
-/

namespace ApiModel.Descriptor

/-- The options of a message. -/
structure MessageOptions where
  /-- Whether it is deprecated. -/
  deprecated : Option Bool := none
  /-- Whether it is an entry of a map. -/
  mapEntry : Option Bool := none
deriving DecidableEq, Repr, Inhabited

/-- Hints on the form of a text field. -/
structure FieldInfo where
  /-- The number of the form. -/
  format : Int32 := 0
deriving DecidableEq, Repr, Inhabited

/-- The form of random unique identifiers. -/
def FieldInfo.uuid4 : Int32 := 1

/-- The options of a field. -/
structure FieldOptions where
  /-- Whether it is deprecated. -/
  deprecated : Option Bool := none
  /-- The numbers of the annotations of its behaviour. -/
  fieldBehavior : List Int32 := []
  /-- Hints on its form. -/
  fieldInfo : Option FieldInfo := none
deriving DecidableEq, Repr, Inhabited

/-- A field of a message. -/
structure Field where
  /-- The name. -/
  name : Option String := none
  /-- The number. -/
  number : Option Int32 := none
  /-- The number of its label. -/
  label : Option Int32 := none
  /-- The number of its type. -/
  type : Option Int32 := none
  /-- The full name of its message or enumeration. -/
  typeName : Option String := none
  /-- The options. -/
  options : Option FieldOptions := none
  /-- The position of its group of alternatives. -/
  oneofIndex : Option Int32 := none
  /-- The name in JSON. -/
  jsonName : Option String := none
  /-- Whether it is marked as optional, in a group of its own. -/
  proto3Optional : Option Bool := none
deriving DecidableEq, Repr, Inhabited

/-- The label of lists. -/
def Field.repeatedLabel : Int32 := 3

/-- A group of alternative fields. -/
structure Oneof where
  /-- The name. -/
  name : Option String := none
deriving DecidableEq, Repr, Inhabited

/-- The options of an enumeration. -/
structure EnumOptions where
  /-- Whether it is deprecated. -/
  deprecated : Option Bool := none
deriving DecidableEq, Repr, Inhabited

/-- The options of a value of an enumeration. -/
structure EnumValueOptions where
  /-- Whether it is deprecated. -/
  deprecated : Option Bool := none
deriving DecidableEq, Repr, Inhabited

/-- A value of an enumeration. -/
structure EnumValue where
  /-- The name. -/
  name : Option String := none
  /-- The number. -/
  number : Option Int32 := none
  /-- The options. -/
  options : Option EnumValueOptions := none
deriving DecidableEq, Repr, Inhabited

/-- An enumeration. -/
structure Enumeration where
  /-- The name. -/
  name : Option String := none
  /-- The values. -/
  values : List EnumValue := []
  /-- The options. -/
  options : Option EnumOptions := none
deriving DecidableEq, Repr, Inhabited

/-- A message, with what is declared inside it. -/
inductive Message where
  /-- A message with its name, fields, nested messages and enumerations, options and groups. -/
  | mk (name : Option String) (fields : List Field) (messages : List Message)
    (enums : List Enumeration) (options : Option MessageOptions) (oneofs : List Oneof)
deriving Repr

namespace Message

instance : Inhabited Message := ⟨.mk none [] [] [] none []⟩

/-- The name. -/
def name : Message → Option String
  | .mk name _ _ _ _ _ => name

/-- The fields. -/
def fields : Message → List Field
  | .mk _ fields _ _ _ _ => fields

/-- The nested messages. -/
def messages : Message → List Message
  | .mk _ _ messages _ _ _ => messages

/-- The nested enumerations. -/
def enums : Message → List Enumeration
  | .mk _ _ _ enums _ _ => enums

/-- The options. -/
def options : Message → Option MessageOptions
  | .mk _ _ _ _ options _ => options

/-- The groups of alternatives. -/
def oneofs : Message → List Oneof
  | .mk _ _ _ _ _ oneofs => oneofs

end Message

/-- A verb and a path that the schema chose itself. -/
structure CustomPattern where
  /-- The verb. -/
  kind : String := ""
  /-- The path. -/
  path : String := ""
deriving DecidableEq, Repr, Inhabited

/-- A verb with its path. -/
inductive HttpPattern where
  /-- Reads. -/
  | get (path : String)
  /-- Replaces. -/
  | put (path : String)
  /-- Creates. -/
  | post (path : String)
  /-- Deletes. -/
  | delete (path : String)
  /-- Changes in part. -/
  | patch (path : String)
  /-- Another verb. -/
  | custom (pattern : CustomPattern)
deriving DecidableEq, Repr, Inhabited

/-- How a method is called over HTTP. -/
inductive HttpRule where
  /-- A rule with its selector, pattern, body field, further bindings and response body field. -/
  | mk (selector : String) (pattern : Option HttpPattern) (body : String)
    (additionalBindings : List HttpRule) (responseBody : String)
deriving Repr

namespace HttpRule

instance : Inhabited HttpRule := ⟨.mk "" none "" [] ""⟩

/-- The method that the rule is for. -/
def selector : HttpRule → String
  | .mk selector _ _ _ _ => selector

/-- The verb and the path. -/
def pattern : HttpRule → Option HttpPattern
  | .mk _ pattern _ _ _ => pattern

/-- The request field that is the body. -/
def body : HttpRule → String
  | .mk _ _ body _ _ => body

/-- The further bindings. -/
def additionalBindings : HttpRule → List HttpRule
  | .mk _ _ _ additionalBindings _ => additionalBindings

/-- The response field that is the body. -/
def responseBody : HttpRule → String
  | .mk _ _ _ _ responseBody => responseBody

end HttpRule

/-- The types of a long-running operation. -/
structure OperationInfo where
  /-- The name of the final response message. -/
  responseType : String := ""
  /-- The name of the metadata message. -/
  metadataType : String := ""
deriving DecidableEq, Repr, Inhabited

/-- The routing parameters of a method. -/
structure RoutingRule where
  /-- The parameters. -/
  parameters : List Routing.Parameter := []
deriving DecidableEq, Repr, Inhabited

/-- The options of a method. -/
structure MethodOptions where
  /-- Whether it is deprecated. -/
  deprecated : Option Bool := none
  /-- The types of its long-running operation. -/
  operationInfo : Option OperationInfo := none
  /-- How it is called over HTTP. -/
  http : Option HttpRule := none
  /-- Its routing parameters. -/
  routing : Option RoutingRule := none
deriving Repr, Inhabited

/-- A method of a service. -/
structure Method where
  /-- The name. -/
  name : Option String := none
  /-- The full name of the request message. -/
  inputType : Option String := none
  /-- The full name of the response message. -/
  outputType : Option String := none
  /-- The options. -/
  options : Option MethodOptions := none
  /-- Whether the client sends a stream. -/
  clientStreaming : Option Bool := none
  /-- Whether the server sends a stream. -/
  serverStreaming : Option Bool := none
deriving Repr, Inhabited

/-- The options of a service. -/
structure ServiceOptions where
  /-- Whether it is deprecated. -/
  deprecated : Option Bool := none
  /-- The host that serves it. -/
  defaultHost : Option String := none
deriving DecidableEq, Repr, Inhabited

/-- A service. -/
structure Service where
  /-- The name. -/
  name : Option String := none
  /-- The methods. -/
  methods : List Method := []
  /-- The options. -/
  options : Option ServiceOptions := none
deriving Repr, Inhabited

/-- A place in a schema file and the comments around it. -/
structure Location where
  /-- The way to the element: field numbers and positions in turn. -/
  path : List Int32 := []
  /-- The lines and columns. -/
  span : List Int32 := []
  /-- The comment before the element. -/
  leadingComments : Option String := none
  /-- The comment behind the element. -/
  trailingComments : Option String := none
deriving DecidableEq, Repr, Inhabited

/-- The places of a schema file. -/
structure SourceInfo where
  /-- The places, in order. -/
  locations : List Location := []
deriving DecidableEq, Repr, Inhabited

/-- A schema file. -/
structure File where
  /-- The path. -/
  name : Option String := none
  /-- The package. -/
  package : Option String := none
  /-- The paths of the files that it imports. -/
  dependencies : List String := []
  /-- The messages. -/
  messages : List Message := []
  /-- The enumerations. -/
  enums : List Enumeration := []
  /-- The services. -/
  services : List Service := []
  /-- Comments and places. -/
  sourceInfo : Option SourceInfo := none
  /-- The version of the schema language. -/
  syntaxName : Option String := none
deriving Repr, Inhabited

/-- A set of schema files. -/
structure FileSet where
  /-- The files, in order. -/
  files : List File := []
deriving Repr, Inhabited

/-- A verb, a path and the request field that is the body. -/
structure Binding where
  /-- The verb. -/
  verb : String
  /-- The path. -/
  path : String
  /-- The request field that is the body. -/
  body : String
deriving DecidableEq, Repr

/-- A verb and a path. -/
structure VerbPath where
  /-- The verb. -/
  verb : String
  /-- The path. -/
  path : String
deriving DecidableEq, Repr

/-- The verb and the path of a pattern. -/
def HttpPattern.verbPath : HttpPattern → VerbPath
  | .get path => ⟨"GET", path⟩
  | .put path => ⟨"PUT", path⟩
  | .post path => ⟨"POST", path⟩
  | .delete path => ⟨"DELETE", path⟩
  | .patch path => ⟨"PATCH", path⟩
  | .custom pattern => ⟨pattern.kind, pattern.path⟩

/-- The binding that a rule itself makes. -/
def HttpRule.binding? (rule : HttpRule) : Option Binding :=
  rule.pattern.map fun pattern => ⟨pattern.verbPath.verb, pattern.verbPath.path, rule.body⟩

/-- The bindings of a rule: its own, then those of its further bindings. -/
def HttpRule.bindings (rule : HttpRule) : List Binding :=
  (rule :: rule.additionalBindings).filterMap HttpRule.binding?

end ApiModel.Descriptor
