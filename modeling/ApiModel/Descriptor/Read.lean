import ApiModel.Descriptor.Basic
import ApiModel.Wire.Merge

/-!
# Reading descriptors

For every descriptor the numbers of its fields on the wire and how each value goes into it. Numbers
that are not listed are skipped.
-/

namespace ApiModel.Descriptor

open Wire

/-- Puts the fields of message options. -/
def MessageOptions.known (_levels : Nat) : Nat → Option (Put MessageOptions)
  | 3 => some (putScalar Value.bool? fun m v => { m with deprecated := some v })
  | 7 => some (putScalar Value.bool? fun m v => { m with mapEntry := some v })
  | _ => none

/-- Puts the fields of form hints. -/
def FieldInfo.known (_levels : Nat) : Nat → Option (Put FieldInfo)
  | 1 => some (putScalar Value.int32? fun m v => { m with format := v })
  | _ => none

/-- Puts the fields of field options. -/
def FieldOptions.known (levels : Nat) : Nat → Option (Put FieldOptions)
  | 3 => some (putScalar Value.bool? fun m v => { m with deprecated := some v })
  | 1052 =>
    some (putScalar Value.int32s? fun m v => { m with fieldBehavior := m.fieldBehavior ++ v })
  | 291403980 =>
    some (putMessage levels FieldInfo.known (·.fieldInfo) fun m v => { m with fieldInfo := v })
  | _ => none

/-- Puts the fields of a field descriptor. -/
def Field.known (levels : Nat) : Nat → Option (Put Field)
  | 1 => some (putScalar Value.text? fun m v => { m with name := some v })
  | 3 => some (putScalar Value.int32? fun m v => { m with number := some v })
  | 4 => some (putScalar Value.int32? fun m v => { m with label := some v })
  | 5 => some (putScalar Value.int32? fun m v => { m with type := some v })
  | 6 => some (putScalar Value.text? fun m v => { m with typeName := some v })
  | 8 => some (putMessage levels FieldOptions.known (·.options) fun m v => { m with options := v })
  | 9 => some (putScalar Value.int32? fun m v => { m with oneofIndex := some v })
  | 10 => some (putScalar Value.text? fun m v => { m with jsonName := some v })
  | 17 => some (putScalar Value.bool? fun m v => { m with proto3Optional := some v })
  | _ => none

/-- Puts the fields of a group of alternatives. -/
def Oneof.known (_levels : Nat) : Nat → Option (Put Oneof)
  | 1 => some (putScalar Value.text? fun m v => { m with name := some v })
  | _ => none

/-- Puts the fields of enumeration options. -/
def EnumOptions.known (_levels : Nat) : Nat → Option (Put EnumOptions)
  | 3 => some (putScalar Value.bool? fun m v => { m with deprecated := some v })
  | _ => none

/-- Puts the fields of value options. -/
def EnumValueOptions.known (_levels : Nat) : Nat → Option (Put EnumValueOptions)
  | 1 => some (putScalar Value.bool? fun m v => { m with deprecated := some v })
  | _ => none

/-- Puts the fields of a value of an enumeration. -/
def EnumValue.known (levels : Nat) : Nat → Option (Put EnumValue)
  | 1 => some (putScalar Value.text? fun m v => { m with name := some v })
  | 2 => some (putScalar Value.int32? fun m v => { m with number := some v })
  | 3 =>
    some (putMessage levels EnumValueOptions.known (·.options) fun m v => { m with options := v })
  | _ => none

/-- Puts the fields of an enumeration. -/
def Enumeration.known (levels : Nat) : Nat → Option (Put Enumeration)
  | 1 => some (putScalar Value.text? fun m v => { m with name := some v })
  | 2 => some (addMessage levels EnumValue.known fun m v => { m with values := m.values ++ [v] })
  | 3 => some (putMessage levels EnumOptions.known (·.options) fun m v => { m with options := v })
  | _ => none

/-- Puts the fields of a message, given how a nested message is read. -/
def Message.knownWith (levels : Nat) (nested : Bytes → Option Message) :
    Nat → Option (Put Message)
  | 1 => some (putScalar Value.text? fun
      | .mk _ fields messages enums options oneofs, v =>
        .mk (some v) fields messages enums options oneofs)
  | 2 => some (addMessage levels Field.known fun
      | .mk name fields messages enums options oneofs, v =>
        .mk name (fields ++ [v]) messages enums options oneofs)
  | 3 => some fun
      | .mk name fields messages enums options oneofs, value => do
        return .mk name fields (messages ++ [← nested (← value.message?)]) enums options oneofs
  | 4 => some (addMessage levels Enumeration.known fun
      | .mk name fields messages enums options oneofs, v =>
        .mk name fields messages (enums ++ [v]) options oneofs)
  | 7 => some (putMessage levels MessageOptions.known Message.options fun
      | .mk name fields messages enums _ oneofs, v => .mk name fields messages enums v oneofs)
  | 8 => some (addMessage levels Oneof.known fun
      | .mk name fields messages enums options oneofs, v =>
        .mk name fields messages enums options (oneofs ++ [v]))
  | _ => none

/-- Reads a nested message while levels remain. -/
def Message.readBelow : Nat → Bytes → Option Message
  | 0, _ => none
  | levels + 1, bytes =>
    mergeAt levels (Message.knownWith levels (Message.readBelow levels)) default bytes

/-- Puts the fields of a message. -/
def Message.known (levels : Nat) : Nat → Option (Put Message) :=
  Message.knownWith levels (Message.readBelow levels)

/-- Puts the fields of a custom pattern. -/
def CustomPattern.known (_levels : Nat) : Nat → Option (Put CustomPattern)
  | 1 => some (putScalar Value.text? fun m v => { m with kind := v })
  | 2 => some (putScalar Value.text? fun m v => { m with path := v })
  | _ => none

/-- Sets the pattern of a rule. -/
def HttpRule.withPattern (rule : HttpRule) (pattern : HttpPattern) : HttpRule :=
  match rule with
  | .mk selector _ body additional response => .mk selector (some pattern) body additional response

/-- The custom pattern of a rule, as far as it is read. -/
def HttpRule.customPattern (rule : HttpRule) : CustomPattern :=
  match rule.pattern with
  | some (.custom pattern) => pattern
  | _ => {}

/-- Puts the fields of an HTTP rule, given how a further binding is read. -/
def HttpRule.knownWith (levels : Nat) (nested : Bytes → Option HttpRule) :
    Nat → Option (Put HttpRule)
  | 1 => some (putScalar Value.text? fun
      | .mk _ pattern body additional response, v => .mk v pattern body additional response)
  | 2 => some (putScalar Value.text? fun rule path => rule.withPattern (.get path))
  | 3 => some (putScalar Value.text? fun rule path => rule.withPattern (.put path))
  | 4 => some (putScalar Value.text? fun rule path => rule.withPattern (.post path))
  | 5 => some (putScalar Value.text? fun rule path => rule.withPattern (.delete path))
  | 6 => some (putScalar Value.text? fun rule path => rule.withPattern (.patch path))
  | 8 => some fun rule value => do
      let custom ← mergeBelow levels CustomPattern.known rule.customPattern (← value.message?)
      return rule.withPattern (.custom custom)
  | 7 => some (putScalar Value.text? fun
      | .mk selector pattern _ additional response, v =>
        .mk selector pattern v additional response)
  | 11 => some fun
      | .mk selector pattern body additional response, value => do
        return .mk selector pattern body (additional ++ [← nested (← value.message?)]) response
  | 12 => some (putScalar Value.text? fun
      | .mk selector pattern body additional _, v => .mk selector pattern body additional v)
  | _ => none

/-- Reads a further binding while levels remain. -/
def HttpRule.readBelow : Nat → Bytes → Option HttpRule
  | 0, _ => none
  | levels + 1, bytes =>
    mergeAt levels (HttpRule.knownWith levels (HttpRule.readBelow levels)) default bytes

/-- Puts the fields of an HTTP rule. -/
def HttpRule.known (levels : Nat) : Nat → Option (Put HttpRule) :=
  HttpRule.knownWith levels (HttpRule.readBelow levels)

/-- Puts the fields of operation types. -/
def OperationInfo.known (_levels : Nat) : Nat → Option (Put OperationInfo)
  | 1 => some (putScalar Value.text? fun m v => { m with responseType := v })
  | 2 => some (putScalar Value.text? fun m v => { m with metadataType := v })
  | _ => none

/-- Puts the fields of a routing parameter. -/
def routingParameterKnown (_levels : Nat) : Nat → Option (Put Routing.Parameter)
  | 1 => some (putScalar Value.text? fun m v => { m with field := v })
  | 2 => some (putScalar Value.text? fun m v => { m with pathTemplate := v })
  | _ => none

/-- Puts the fields of a routing rule. -/
def RoutingRule.known (levels : Nat) : Nat → Option (Put RoutingRule)
  | 2 =>
    some (addMessage levels routingParameterKnown fun m v =>
      { m with parameters := m.parameters ++ [v] })
  | _ => none

/-- Puts the fields of method options. -/
def MethodOptions.known (levels : Nat) : Nat → Option (Put MethodOptions)
  | 33 => some (putScalar Value.bool? fun m v => { m with deprecated := some v })
  | 1049 =>
    some (putMessage levels OperationInfo.known (·.operationInfo) fun m v =>
      { m with operationInfo := v })
  | 72295728 => some (putMessage levels HttpRule.known (·.http) fun m v => { m with http := v })
  | 72295729 =>
    some (putMessage levels RoutingRule.known (·.routing) fun m v => { m with routing := v })
  | _ => none

/-- Puts the fields of a method. -/
def Method.known (levels : Nat) : Nat → Option (Put Method)
  | 1 => some (putScalar Value.text? fun m v => { m with name := some v })
  | 2 => some (putScalar Value.text? fun m v => { m with inputType := some v })
  | 3 => some (putScalar Value.text? fun m v => { m with outputType := some v })
  | 4 =>
      some (putMessage levels MethodOptions.known (·.options) fun m v => { m with options := v })
  | 5 => some (putScalar Value.bool? fun m v => { m with clientStreaming := some v })
  | 6 => some (putScalar Value.bool? fun m v => { m with serverStreaming := some v })
  | _ => none

/-- Puts the fields of service options. -/
def ServiceOptions.known (_levels : Nat) : Nat → Option (Put ServiceOptions)
  | 33 => some (putScalar Value.bool? fun m v => { m with deprecated := some v })
  | 1049 => some (putScalar Value.text? fun m v => { m with defaultHost := some v })
  | _ => none

/-- Puts the fields of a service. -/
def Service.known (levels : Nat) : Nat → Option (Put Service)
  | 1 => some (putScalar Value.text? fun m v => { m with name := some v })
  | 2 => some (addMessage levels Method.known fun m v => { m with methods := m.methods ++ [v] })
  | 3 =>
    some (putMessage levels ServiceOptions.known (·.options) fun m v => { m with options := v })
  | _ => none

/-- Puts the fields of a place. -/
def Location.known (_levels : Nat) : Nat → Option (Put Location)
  | 1 => some (putScalar Value.int32s? fun m v => { m with path := m.path ++ v })
  | 2 => some (putScalar Value.int32s? fun m v => { m with span := m.span ++ v })
  | 3 => some (putScalar Value.text? fun m v => { m with leadingComments := some v })
  | 4 => some (putScalar Value.text? fun m v => { m with trailingComments := some v })
  | _ => none

/-- Puts the fields of the places of a file. -/
def SourceInfo.known (levels : Nat) : Nat → Option (Put SourceInfo)
  | 1 =>
      some (addMessage levels Location.known fun m v => { m with locations := m.locations ++ [v] })
  | _ => none

/-- Puts the fields of a file. -/
def File.known (levels : Nat) : Nat → Option (Put File)
  | 1 => some (putScalar Value.text? fun m v => { m with name := some v })
  | 2 => some (putScalar Value.text? fun m v => { m with package := some v })
  | 3 => some (putScalar Value.text? fun m v => { m with dependencies := m.dependencies ++ [v] })
  | 4 => some (addMessage levels Message.known fun m v => { m with messages := m.messages ++ [v] })
  | 5 => some (addMessage levels Enumeration.known fun m v => { m with enums := m.enums ++ [v] })
  | 6 => some (addMessage levels Service.known fun m v => { m with services := m.services ++ [v] })
  | 9 =>
    some (putMessage levels SourceInfo.known (·.sourceInfo) fun m v => { m with sourceInfo := v })
  | 12 => some (putScalar Value.text? fun m v => { m with syntaxName := some v })
  | _ => none

/-- Puts the fields of a set of files. -/
def FileSet.known (levels : Nat) : Nat → Option (Put FileSet)
  | 1 => some (addMessage levels File.known fun m v => { m with files := m.files ++ [v] })
  | _ => none

/-- Reads a set of files. -/
def FileSet.read (bytes : Bytes) : Option FileSet :=
  mergeAt maxLevels (FileSet.known maxLevels) default bytes

/-- Reads an HTTP rule. -/
def HttpRule.read (bytes : Bytes) : Option HttpRule :=
  mergeAt maxLevels (HttpRule.known maxLevels) default bytes

end ApiModel.Descriptor
