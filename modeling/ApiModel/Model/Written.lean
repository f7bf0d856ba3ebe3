import ApiModel.Model.Basic
import ApiModel.Tree

/-!
# Written models

The data tree of a model, with every member of every element in a fixed order. Places in the store
are written as their positions.
-/

namespace ApiModel

/-- The data tree of a variable. -/
def Path.Variable.tree (v : Path.Variable) : Tree :=
  .record
    [("field_path", .texts v.fieldPath),
     ("segments", .texts v.captures),
     ("allow_reserved", .bool v.allowReserved)]

/-- The data tree of a path segment. -/
def Path.Segment.tree : Path.Segment → Tree
  | .literal text => .tagged "literal" (.text text)
  | .variable v => .tagged "variable" v.tree

/-- The data tree of a path template. -/
def Path.Template.tree (t : Path.Template) : Tree :=
  .record
    [("segments", .listOf Path.Segment.tree t.segments),
     ("verb", .optional .text t.verb)]

/-- The position of a message. -/
def MessageRef.tree (r : MessageRef) : Tree := .count r.index

/-- The position of an enumeration. -/
def EnumRef.tree (r : EnumRef) : Tree := .count r.index

/-- The position of a service. -/
def ServiceRef.tree (r : ServiceRef) : Tree := .count r.index

/-- The position of a method. -/
def MethodRef.tree (r : MethodRef) : Tree := .count r.index

/-- The message and the position of a field. -/
def FieldRef.tree (r : FieldRef) : Tree :=
  .record [("message", r.message.tree), ("index", .count r.index)]

/-- The data tree of a resolved type. -/
def TypeRef.tree : TypeRef → Tree
  | .message r => .tagged "message" r.tree
  | .enumeration r => .tagged "enum" r.tree

/-- The data tree of a field. -/
def Field.tree (f : Field) : Tree :=
  .record
    [("name", .text f.name),
     ("id", .text f.id),
     ("documentation", .text f.documentation),
     ("json_name", .text f.jsonName),
     ("typez", .text f.type.name),
     ("typez_id", .text f.typeId),
     ("target", .optional TypeRef.tree f.target),
     ("optional", .bool f.optional),
     ("repeated", .bool f.repeated),
     ("map", .bool f.map),
     ("deprecated", .bool f.deprecated),
     ("is_oneof", .bool f.isOneOf),
     ("synthetic", .bool f.synthetic),
     ("recursive", .bool f.recursive),
     ("auto_populated", .bool f.autoPopulated),
     ("behavior", .listOf (fun b => .text b.name) f.behavior),
     ("group", .optional .count f.group),
     ("parent", .optional MessageRef.tree f.parent),
     ("codec", .null)]

/-- The data tree of a group of alternatives. -/
def OneOf.tree (o : OneOf) : Tree :=
  .record
    [("name", .text o.name),
     ("id", .text o.id),
     ("documentation", .text o.documentation),
     ("fields", .listOf .count o.fields),
     ("codec", .null)]

/-- The data tree of the fields that drive pages. -/
def Pagination.tree (p : Pagination) : Tree :=
  .record
    [("next_page_token", p.nextPageToken.tree),
     ("pageable_item", p.pageableItem.tree)]

/-- The data tree of a message. -/
def Message.tree (m : Message) : Tree :=
  .record
    [("name", .text m.name),
     ("id", .text m.id),
     ("package", .text m.package),
     ("documentation", .text m.documentation),
     ("deprecated", .bool m.deprecated),
     ("fields", .listOf Field.tree m.fields),
     ("messages", .listOf MessageRef.tree m.messages),
     ("enums", .listOf EnumRef.tree m.enums),
     ("one_ofs", .listOf OneOf.tree m.oneOfs),
     ("parent", .optional MessageRef.tree m.parent),
     ("is_map", .bool m.isMap),
     ("pagination", .optional Pagination.tree m.pagination),
     ("codec", .null)]

/-- The data tree of a value of an enumeration. -/
def EnumValue.tree (v : EnumValue) : Tree :=
  .record
    [("name", .text v.name),
     ("id", .text v.id),
     ("documentation", .text v.documentation),
     ("number", .number v.number),
     ("deprecated", .bool v.deprecated),
     ("parent", .optional EnumRef.tree v.parent),
     ("codec", .null)]

/-- The data tree of an enumeration. -/
def Enumeration.tree (e : Enumeration) : Tree :=
  .record
    [("name", .text e.name),
     ("id", .text e.id),
     ("package", .text e.package),
     ("documentation", .text e.documentation),
     ("deprecated", .bool e.deprecated),
     ("values", .listOf EnumValue.tree e.values),
     ("unique_number_values", .listOf .count e.uniqueNumberValues),
     ("parent", .optional MessageRef.tree e.parent),
     ("codec", .null)]

/-- The data tree of a service. -/
def Service.tree (s : Service) : Tree :=
  .record
    [("name", .text s.name),
     ("id", .text s.id),
     ("package", .text s.package),
     ("documentation", .text s.documentation),
     ("deprecated", .bool s.deprecated),
     ("methods", .listOf MethodRef.tree s.methods),
     ("default_host", .text s.defaultHost),
     ("codec", .null)]

/-- The data tree of a binding. -/
def PathBinding.tree (b : PathBinding) : Tree :=
  .record
    [("verb", .text b.verb),
     ("path_template", b.pathTemplate.tree),
     ("query_parameters", .texts b.queryParameters),
     ("codec", .null)]

/-- The data tree of HTTP bindings. -/
def PathInfo.tree (p : PathInfo) : Tree :=
  .record
    [("bindings", .listOf PathBinding.tree p.bindings),
     ("body_field_path", .text p.bodyFieldPath),
     ("codec", .null)]

/-- The data tree of operation types. -/
def OperationInfo.tree (o : OperationInfo) : Tree :=
  .record
    [("metadata_type_id", .text o.metadataTypeId),
     ("response_type_id", .text o.responseTypeId),
     ("metadata_type", .optional MessageRef.tree o.metadataType),
     ("response_type", .optional MessageRef.tree o.responseType),
     ("codec", .null)]

/-- The data tree of a routing variant. -/
def RoutingVariant.tree (v : RoutingVariant) : Tree :=
  .record
    [("field_path", .texts v.fieldPath),
     ("prefix", .record [("segments", .texts v.before)]),
     ("matching", .record [("segments", .texts v.matching)]),
     ("suffix", .record [("segments", .texts v.after)]),
     ("codec", .null)]

/-- The data tree of a routing key. -/
def RoutingInfo.tree (r : RoutingInfo) : Tree :=
  .record
    [("name", .text r.name),
     ("variants", .listOf RoutingVariant.tree r.variants)]

/-- The data tree of a method. -/
def Method.tree (m : Method) : Tree :=
  .record
    [("name", .text m.name),
     ("id", .text m.id),
     ("documentation", .text m.documentation),
     ("deprecated", .bool m.deprecated),
     ("input_type_id", .text m.inputTypeId),
     ("input_type", .optional MessageRef.tree m.inputType),
     ("output_type_id", .text m.outputTypeId),
     ("output_type", .optional MessageRef.tree m.outputType),
     ("returns_empty", .bool m.returnsEmpty),
     ("path_info", .optional PathInfo.tree m.pathInfo),
     ("pagination", .optional FieldRef.tree m.pagination),
     ("client_streaming", .bool m.clientStreaming),
     ("server_streaming", .bool m.serverStreaming),
     ("operation_info", .optional OperationInfo.tree m.operationInfo),
     ("routing", .listOf RoutingInfo.tree m.routing),
     ("auto_populated", .listOf FieldRef.tree m.autoPopulated),
     ("service", .optional ServiceRef.tree m.service),
     ("codec", .null)]

/-- The data tree of an index. -/
def Index.tree {α : Type} (write : α → Tree) (index : Index α) : Tree :=
  .record (index.entries.map fun (key, value) => (key, write value))

/-- The data tree of a store. -/
def Store.tree (s : Store) : Tree :=
  .record
    [("messages", .listOf Message.tree s.messages.toList),
     ("enums", .listOf Enumeration.tree s.enums.toList),
     ("services", .listOf Service.tree s.services.toList),
     ("methods", .listOf Method.tree s.methods.toList),
     ("message_by_id", s.messageById.tree MessageRef.tree),
     ("enum_by_id", s.enumById.tree EnumRef.tree),
     ("service_by_id", s.serviceById.tree ServiceRef.tree),
     ("method_by_id", s.methodById.tree MethodRef.tree)]

/-- The data tree of a model. -/
def Model.tree (m : Model) : Tree :=
  .record
    [("name", .text m.name),
     ("package_name", .text m.packageName),
     ("title", .text m.title),
     ("description", .text m.description),
     ("services", .listOf ServiceRef.tree m.services),
     ("messages", .listOf MessageRef.tree m.messages),
     ("enums", .listOf EnumRef.tree m.enums),
     ("external_messages", .listOf MessageRef.tree m.externalMessages),
     ("external_enums", .listOf EnumRef.tree m.externalEnums),
     ("state", m.store.tree),
     ("codec", .null)]

end ApiModel
