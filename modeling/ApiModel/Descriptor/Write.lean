import ApiModel.Descriptor.Basic
import ApiModel.Wire.Field

/-!
# Writing descriptors

The wire form of every descriptor: fields in ascending order of their numbers, an optional member
whenever it is set, any other member unless it has its default. Integers take the 64-bit form of
their value, so negative ones have ten bytes.
-/

namespace ApiModel.Descriptor

open Wire

/-- The 64-bit form of a 32-bit integer. -/
def wireInteger (n : Int32) : Nat :=
  (n.toInt % (Nat.pow 2 64 : Nat)).toNat

/-- Writes an optional text. -/
def writeText? (number : Nat) : Option String → Bytes
  | none => []
  | some text => writeDelimited number (Text.toBytes text)

/-- Writes a text unless it is empty. -/
def writeText (number : Nat) (text : String) : Bytes :=
  if text.isEmpty then [] else writeDelimited number (Text.toBytes text)

/-- Writes an optional truth value. -/
def writeBool? (number : Nat) : Option Bool → Bytes
  | none => []
  | some value => writeInteger number (if value then 1 else 0)

/-- Writes an optional integer. -/
def writeInt32? (number : Nat) : Option Int32 → Bytes
  | none => []
  | some n => writeInteger number (wireInteger n)

/-- Writes an integer unless it is zero. -/
def writeInt32 (number : Nat) (n : Int32) : Bytes :=
  if n = 0 then [] else writeInteger number (wireInteger n)

/-- Writes integers behind one length, unless there are none. -/
def writePacked (number : Nat) (ns : List Int32) : Bytes :=
  if ns.isEmpty then []
  else writeDelimited number (ns.flatMap fun n => writeVarint (wireInteger n))

/-- Writes integers one field each. -/
def writeInt32s (number : Nat) (ns : List Int32) : Bytes :=
  ns.flatMap fun n => writeInteger number (wireInteger n)

/-- Writes an optional message. -/
def writeMessage? {α : Type} (number : Nat) (write : α → Bytes) : Option α → Bytes
  | none => []
  | some value => writeDelimited number (write value)

/-- Writes messages one field each. -/
def writeMessages {α : Type} (number : Nat) (write : α → Bytes) (values : List α) : Bytes :=
  values.flatMap fun value => writeDelimited number (write value)

/-- Writes message options. -/
def MessageOptions.write (m : MessageOptions) : Bytes :=
  writeBool? 3 m.deprecated ++ writeBool? 7 m.mapEntry

/-- Writes form hints. -/
def FieldInfo.write (m : FieldInfo) : Bytes :=
  writeInt32 1 m.format

/-- Writes field options. -/
def FieldOptions.write (m : FieldOptions) : Bytes :=
  writeBool? 3 m.deprecated ++ writeInt32s 1052 m.fieldBehavior
    ++ writeMessage? 291403980 FieldInfo.write m.fieldInfo

/-- Writes a field. -/
def Field.write (m : Field) : Bytes :=
  writeText? 1 m.name ++ writeInt32? 3 m.number ++ writeInt32? 4 m.label ++ writeInt32? 5 m.type
    ++ writeText? 6 m.typeName ++ writeMessage? 8 FieldOptions.write m.options
    ++ writeInt32? 9 m.oneofIndex ++ writeText? 10 m.jsonName ++ writeBool? 17 m.proto3Optional

/-- Writes a group of alternatives. -/
def Oneof.write (m : Oneof) : Bytes :=
  writeText? 1 m.name

/-- Writes enumeration options. -/
def EnumOptions.write (m : EnumOptions) : Bytes :=
  writeBool? 3 m.deprecated

/-- Writes value options. -/
def EnumValueOptions.write (m : EnumValueOptions) : Bytes :=
  writeBool? 1 m.deprecated

/-- Writes a value of an enumeration. -/
def EnumValue.write (m : EnumValue) : Bytes :=
  writeText? 1 m.name ++ writeInt32? 2 m.number ++ writeMessage? 3 EnumValueOptions.write m.options

/-- Writes an enumeration. -/
def Enumeration.write (m : Enumeration) : Bytes :=
  writeText? 1 m.name ++ writeMessages 2 EnumValue.write m.values
    ++ writeMessage? 3 EnumOptions.write m.options

mutual

/-- Writes a message. -/
def Message.write : Message → Bytes
  | .mk name fields messages enums options oneofs =>
    writeText? 1 name ++ writeMessages 2 Field.write fields ++ Message.writeAll messages
      ++ writeMessages 4 Enumeration.write enums ++ writeMessage? 7 MessageOptions.write options
      ++ writeMessages 8 Oneof.write oneofs

/-- Writes nested messages. -/
def Message.writeAll : List Message → Bytes
  | [] => []
  | message :: rest => writeDelimited 3 message.write ++ Message.writeAll rest

end

/-- Writes a custom pattern. -/
def CustomPattern.write (m : CustomPattern) : Bytes :=
  writeText 1 m.kind ++ writeText 2 m.path

/-- Writes a pattern, which is set even if its path is empty. -/
def HttpPattern.write : HttpPattern → Bytes
  | .get path => writeDelimited 2 (Text.toBytes path)
  | .put path => writeDelimited 3 (Text.toBytes path)
  | .post path => writeDelimited 4 (Text.toBytes path)
  | .delete path => writeDelimited 5 (Text.toBytes path)
  | .patch path => writeDelimited 6 (Text.toBytes path)
  | .custom pattern => writeDelimited 8 pattern.write

/-- Writes an optional pattern. -/
def writePattern? : Option HttpPattern → Bytes
  | none => []
  | some pattern => pattern.write

mutual

/-- Writes an HTTP rule; the pattern stands before the body, whatever its number. -/
def HttpRule.write : HttpRule → Bytes
  | .mk selector pattern body additional response =>
    writeText 1 selector ++ writePattern? pattern ++ writeText 7 body
      ++ HttpRule.writeAll additional ++ writeText 12 response

/-- Writes further bindings. -/
def HttpRule.writeAll : List HttpRule → Bytes
  | [] => []
  | rule :: rest => writeDelimited 11 rule.write ++ HttpRule.writeAll rest

end

/-- Writes operation types. -/
def OperationInfo.write (m : OperationInfo) : Bytes :=
  writeText 1 m.responseType ++ writeText 2 m.metadataType

/-- Writes a routing parameter. -/
def writeRoutingParameter (m : Routing.Parameter) : Bytes :=
  writeText 1 m.field ++ writeText 2 m.pathTemplate

/-- Writes a routing rule. -/
def RoutingRule.write (m : RoutingRule) : Bytes :=
  writeMessages 2 writeRoutingParameter m.parameters

/-- Writes method options. -/
def MethodOptions.write (m : MethodOptions) : Bytes :=
  writeBool? 33 m.deprecated ++ writeMessage? 1049 OperationInfo.write m.operationInfo
    ++ writeMessage? 72295728 HttpRule.write m.http
    ++ writeMessage? 72295729 RoutingRule.write m.routing

/-- Writes a method. -/
def Method.write (m : Method) : Bytes :=
  writeText? 1 m.name ++ writeText? 2 m.inputType ++ writeText? 3 m.outputType
    ++ writeMessage? 4 MethodOptions.write m.options ++ writeBool? 5 m.clientStreaming
    ++ writeBool? 6 m.serverStreaming

/-- Writes service options. -/
def ServiceOptions.write (m : ServiceOptions) : Bytes :=
  writeBool? 33 m.deprecated ++ writeText? 1049 m.defaultHost

/-- Writes a service. -/
def Service.write (m : Service) : Bytes :=
  writeText? 1 m.name ++ writeMessages 2 Method.write m.methods
    ++ writeMessage? 3 ServiceOptions.write m.options

/-- Writes a place. -/
def Location.write (m : Location) : Bytes :=
  writePacked 1 m.path ++ writePacked 2 m.span ++ writeText? 3 m.leadingComments
    ++ writeText? 4 m.trailingComments

/-- Writes the places of a file. -/
def SourceInfo.write (m : SourceInfo) : Bytes :=
  writeMessages 1 Location.write m.locations

/-- Writes a file. -/
def File.write (m : File) : Bytes :=
  writeText? 1 m.name ++ writeText? 2 m.package
    ++ m.dependencies.flatMap (fun path => writeDelimited 3 (Text.toBytes path))
    ++ writeMessages 4 Message.write m.messages ++ writeMessages 5 Enumeration.write m.enums
    ++ writeMessages 6 Service.write m.services ++ writeMessage? 9 SourceInfo.write m.sourceInfo
    ++ writeText? 12 m.syntaxName

/-- Writes a set of files. -/
def FileSet.write (m : FileSet) : Bytes :=
  writeMessages 1 File.write m.files

end ApiModel.Descriptor
