import ApiModel.Model.Basic

/-!
# Questions about a model

What a generator asks of a finished model: all elements in order, naming scopes, deprecation, map
fields, required fields and the combinations of routing variants.
-/

namespace ApiModel

/-- Whether the field is annotated as required. -/
def Field.isRequired (f : Field) : Bool :=
  f.behavior.contains .required

/-- The fields outside every group of alternatives. -/
def Message.basicFields (message : Message) : List Field :=
  message.fields.filter fun f => !f.isOneOf

/-- Whether the enumeration or one of its values is deprecated. -/
def Enumeration.hasDeprecated (e : Enumeration) : Bool :=
  e.deprecated || e.values.any EnumValue.deprecated

/-- The first value of each number. -/
def Enumeration.uniqueValues (e : Enumeration) : List EnumValue :=
  e.uniqueNumberValues.filterMap fun i => e.values[i]?

namespace RoutingVariant

/-- The dotted field path. -/
def fieldName (v : RoutingVariant) : String :=
  String.intercalate "." v.fieldPath

/-- All segments of the template between slashes. -/
def template (v : RoutingVariant) : String :=
  String.intercalate "/" (v.before ++ v.matching ++ v.after)

end RoutingVariant

/-- A routing key and the variant chosen for it. -/
structure RoutingChoice where
  /-- The key. -/
  name : String
  /-- The variant. -/
  variant : RoutingVariant
deriving DecidableEq, Repr

/-- Every choice so far, gone on with every variant of one more key. -/
def extendCombos (combos : List (List RoutingChoice)) (info : RoutingInfo) :
    List (List RoutingChoice) :=
  combos.flatMap fun combo => info.variants.map fun variant => combo ++ [⟨info.name, variant⟩]

/-- Every choice of one variant per key; the last key varies fastest. -/
def routingCombos (infos : List RoutingInfo) : List (List RoutingChoice) :=
  infos.foldl extendCombos [[]]

/-- Every choice of one variant per routing key of the method. -/
def Method.routingCombos (method : Method) : List (List RoutingChoice) :=
  ApiModel.routingCombos method.routing

namespace Model

/-- A message and everything nested in it, parents first; the depth bounds the descent. -/
def subtree (m : Model) : Nat → MessageRef → List MessageRef
  | 0, _ => []
  | depth + 1, ref => ref :: (m.message ref).messages.flatMap (m.subtree depth)

/-- A bound on the depth of nesting: no chain of distinct messages is longer than the store. -/
def depthBound (m : Model) : Nat :=
  m.store.messages.size

/-- Every message to generate, nested ones included, parents before children. -/
def allMessages (m : Model) : List MessageRef :=
  m.messages.flatMap (m.subtree m.depthBound)

/-- Every enumeration to generate, the top-level ones first. -/
def allEnums (m : Model) : List EnumRef :=
  m.enums ++ m.allMessages.flatMap fun ref => (m.message ref).enums

/-- A full name without its leading dots. -/
def relativeName (id : String) : String :=
  Text.dropDots id

/-- The messages around a place, innermost first; the depth bounds the ascent. -/
def enclosing (m : Model) : Nat → Option MessageRef → List MessageRef
  | 0, _ => []
  | _ + 1, none => []
  | depth + 1, some ref => ref :: m.enclosing depth (m.message ref).parent

/-- The package as a scope, unless it is empty. -/
def packageScope (package : String) : List String :=
  if package.isEmpty then [] else [package]

/-- The naming scopes of a message, innermost first: itself, those around it, the package. -/
def messageScopes (m : Model) (message : Message) : List String :=
  relativeName message.id ::
    (m.enclosing m.depthBound message.parent).map (fun ref => relativeName (m.message ref).id) ++
    packageScope message.package

/-- The naming scopes inside an enumeration: those of the message around it, or the package. -/
def enumScopes (m : Model) (e : Enumeration) : List String :=
  match e.parent with
  | some ref => m.messageScopes (m.message ref)
  | none => packageScope e.package

/-- Whether a message, a field of it or anything nested in it is deprecated. -/
def messageDeprecated (m : Model) : Nat → Message → Bool
  | 0, _ => false
  | depth + 1, message =>
    message.deprecated || message.fields.any Field.deprecated
      || message.enums.any (fun ref => (m.enumeration ref).hasDeprecated)
      || message.messages.any fun ref => m.messageDeprecated depth (m.message ref)

/-- Whether a message, a field of it or anything nested in it is deprecated. -/
def messageHasDeprecated (m : Model) (message : Message) : Bool :=
  m.messageDeprecated (m.depthBound + 1) message

/-- Whether a service or one of its methods is deprecated. -/
def serviceHasDeprecated (m : Model) (service : Service) : Bool :=
  service.deprecated || service.methods.any fun ref => (m.method ref).deprecated

/-- Whether anything to generate is deprecated. -/
def hasDeprecated (m : Model) : Bool :=
  m.messages.any (fun ref => m.messageHasDeprecated (m.message ref))
    || m.enums.any (fun ref => (m.enumeration ref).hasDeprecated)
    || m.services.any fun ref => m.serviceHasDeprecated (m.service ref)

/-- Whether a field is a map: one message whose type is a map entry. -/
def fieldIsMap (m : Model) (f : Field) : Bool :=
  if f.repeated || f.type != .message then false
  else match f.target with
    | some (.message ref) => (m.message ref).isMap
    | _ => ((m.findMessage? f.typeId).map Message.isMap).getD false

end Model

end ApiModel
