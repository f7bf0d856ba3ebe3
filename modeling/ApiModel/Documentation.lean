import ApiModel.Assembly.Indexing
import ApiModel.Options
import ApiModel.Outcome
import ApiModel.ServiceConfig.Basic

/-!
# Documentation

A service configuration replaces the documentation of the elements that its rules name. Overrides
replace the first occurrence of a text in the documentation of one element.
-/

namespace ApiModel

/-! ## Rules -/

namespace ServiceConfig

/-- The documentation of an element: that of its rule, or what it had. -/
def documented (config : ServiceConfig) (id documentation : String) : String :=
  (config.documentationFor? id).getD documentation

/-- The message with the documentation of its rules, and its fields with theirs. -/
def documentMessage (config : ServiceConfig) (element : Message) : Message :=
  { element with
    documentation := config.documented element.id element.documentation
    fields := element.fields.map fun f =>
      { f with documentation := config.documented f.id f.documentation } }

/-- The enumeration with the documentation of its rules, and its values with theirs. -/
def documentEnum (config : ServiceConfig) (element : Enumeration) : Enumeration :=
  { element with
    documentation := config.documented element.id element.documentation
    values := element.values.map fun v =>
      { v with documentation := config.documented v.id v.documentation } }

/-- The service with the documentation of its rule. -/
def documentService (config : ServiceConfig) (element : Service) : Service :=
  { element with documentation := config.documented element.id element.documentation }

/-- The method with the documentation of its rule. -/
def documentMethod (config : ServiceConfig) (element : Method) : Method :=
  { element with documentation := config.documented element.id element.documentation }

end ServiceConfig

namespace Model

/-- Replaces the documentation of the indexed elements that the rules of a configuration name. -/
def applyRules (m : Model) (config : ServiceConfig) : Model :=
  if config.documentation.rules.isEmpty then m
  else
    let m := m.indexedMessages.foldl (fun m ref => m.modifyMessage ref config.documentMessage) m
    let m := m.indexedEnums.foldl (fun m ref => m.modifyEnum ref config.documentEnum) m
    let m := m.indexedServices.foldl (fun m ref => m.modifyService ref config.documentService) m
    m.indexedMethods.foldl (fun m ref => m.modifyMethod ref config.documentMethod) m

end Model

/-! ## Overrides -/

/-- An element that has documentation. -/
inductive Documented where
  /-- A message. -/
  | message (ref : MessageRef)
  /-- An enumeration. -/
  | enumeration (ref : EnumRef)
  /-- A service. -/
  | service (ref : ServiceRef)
  /-- A method. -/
  | method (ref : MethodRef)
  /-- A field of a message. -/
  | field (ref : MessageRef) (position : Nat)
  /-- A group of alternatives of a message. -/
  | oneOf (ref : MessageRef) (position : Nat)
  /-- A value of an enumeration. -/
  | enumValue (ref : EnumRef) (position : Nat)
deriving DecidableEq, Repr

namespace Model

/-- The field or group of a name in a message. -/
def memberOf? (m : Model) (ref : MessageRef) (name : String) : Option Documented :=
  match (m.message ref).fields.findIdx? fun f => f.name == name with
  | some position => some (.field ref position)
  | none =>
    ((m.message ref).oneOfs.findIdx? fun o => o.name == name).map fun position =>
      .oneOf ref position

/-- The value of a name in an enumeration. -/
def valueOf? (m : Model) (ref : EnumRef) (name : String) : Option Documented :=
  ((m.enumeration ref).values.findIdx? fun v => v.name == name).map fun position =>
    .enumValue ref position

/-- The field, group or value with a full name, below the indexed element before its last dot. -/
def memberById? (m : Model) (id : String) : Option Documented :=
  match Text.splitLast? '.' id.toList with
  | none => none
  | some (owner, name) =>
    match m.messageRef? (String.ofList owner) with
    | some ref => m.memberOf? ref (String.ofList name)
    | none => (m.enumRef? (String.ofList owner)).bind fun ref => m.valueOf? ref (String.ofList name)

/-- The element with a full name: an indexed one, or a member of an indexed one. -/
def documentedById? (m : Model) (id : String) : Option Documented :=
  (m.messageRef? id).map .message
    <|> (m.enumRef? id).map .enumeration
    <|> (m.serviceRef? id).map .service
    <|> (m.methodRef? id).map .method
    <|> m.memberById? id

/-- The documentation of an element. -/
def documentation (m : Model) : Documented → String
  | .message ref => (m.message ref).documentation
  | .enumeration ref => (m.enumeration ref).documentation
  | .service ref => (m.service ref).documentation
  | .method ref => (m.method ref).documentation
  | .field ref position => ((m.message ref).fields.getD position default).documentation
  | .oneOf ref position => ((m.message ref).oneOfs.getD position default).documentation
  | .enumValue ref position => ((m.enumeration ref).values.getD position default).documentation

/-- Replaces the documentation of an element. -/
def setDocumentation (m : Model) (text : String) : Documented → Model
  | .message ref => m.modifyMessage ref fun x => { x with documentation := text }
  | .enumeration ref => m.modifyEnum ref fun x => { x with documentation := text }
  | .service ref => m.modifyService ref fun x => { x with documentation := text }
  | .method ref => m.modifyMethod ref fun x => { x with documentation := text }
  | .field ref position =>
    m.modifyMessage ref fun x =>
      { x with fields := x.fields.modify position fun f => { f with documentation := text } }
  | .oneOf ref position =>
    m.modifyMessage ref fun x =>
      { x with oneOfs := x.oneOfs.modify position fun o => { o with documentation := text } }
  | .enumValue ref position =>
    m.modifyEnum ref fun x =>
      { x with values := x.values.modify position fun v => { v with documentation := text } }

/-- Applies one override. -/
def patch (m : Model) (item : DocumentationOverride) : Except Error Model :=
  match m.documentedById? item.id with
  | none => .error (.documentationOverride item.id "no element has this ID")
  | some element =>
    match Text.replaceFirst? item.pattern.toList item.replacement.toList
        (m.documentation element).toList with
    | none =>
      .error (.documentationOverride item.id
        ("documentation does not contain " ++ Text.quoted item.pattern))
    | some text => .ok (m.setDocumentation (String.ofList text) element)

/-- Applies overrides in order until one fails. -/
def patchAll (m : Model) (overrides : List DocumentationOverride) : Outcome :=
  Outcome.forEach patch overrides m

end Model

end ApiModel
