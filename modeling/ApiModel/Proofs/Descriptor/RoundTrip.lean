import ApiModel.Descriptor.Read
import ApiModel.Proofs.Descriptor.Members

/-!
# Descriptors are read back

Every kind of descriptor is read back from its wire form, given a level for every level of messages
inside it. The numbers of levels follow the members that are messages, and the proofs list the
members in the order in which they are written.
-/

namespace ApiModel.Descriptor

open Wire

/-! ## Messages without messages inside them -/

/-- No levels are below a message without messages inside it. -/
def flat {α : Type} (_value : α) : Nat := 0

/-- Message options are read back. -/
theorem MessageOptions.readsBack (m : MessageOptions) :
    ReadsBack MessageOptions.known MessageOptions.write flat m := by
  intro levels _
  exact .append
    (.bool? (fun (m : MessageOptions) v => { m with deprecated := v }) rfl (fun _ => rfl) rfl
      (by decide))
    (.bool? (fun (m : MessageOptions) v => { m with mapEntry := v }) rfl (fun _ => rfl) rfl
      (by decide))

/-- Form hints are read back. -/
theorem FieldInfo.readsBack (m : FieldInfo) : ReadsBack FieldInfo.known FieldInfo.write flat m := by
  intro levels _
  exact .int32 (fun (m : FieldInfo) v => { m with format := v }) rfl (fun _ => rfl) rfl (by decide)

/-- Groups of alternatives are read back. -/
theorem Oneof.readsBack (m : Oneof) : ReadsBack Oneof.known Oneof.write flat m := by
  intro levels _
  exact .text? (fun (m : Oneof) v => { m with name := v }) rfl (fun _ => rfl) rfl (by decide)

/-- Enumeration options are read back. -/
theorem EnumOptions.readsBack (m : EnumOptions) :
    ReadsBack EnumOptions.known EnumOptions.write flat m := by
  intro levels _
  exact .bool? (fun (m : EnumOptions) v => { m with deprecated := v }) rfl
    (fun _ => rfl) rfl (by decide)

/-- Value options are read back. -/
theorem EnumValueOptions.readsBack (m : EnumValueOptions) :
    ReadsBack EnumValueOptions.known EnumValueOptions.write flat m := by
  intro levels _
  exact .bool? (fun (m : EnumValueOptions) v => { m with deprecated := v })
    rfl (fun _ => rfl) rfl (by decide)

/-- Custom patterns are read back. -/
theorem CustomPattern.readsBack (m : CustomPattern) :
    ReadsBack CustomPattern.known CustomPattern.write flat m := by
  intro levels _
  exact .append
    (.text (fun (m : CustomPattern) v => { m with kind := v }) rfl (fun _ => rfl) rfl (by decide))
    (.text (fun (m : CustomPattern) v => { m with path := v }) rfl (fun _ => rfl) rfl (by decide))

/-- Operation types are read back. -/
theorem OperationInfo.readsBack (m : OperationInfo) :
    ReadsBack OperationInfo.known OperationInfo.write flat m := by
  intro levels _
  exact .append
    (.text (fun (m : OperationInfo) v => { m with responseType := v }) rfl (fun _ => rfl) rfl
      (by decide))
    (.text (fun (m : OperationInfo) v => { m with metadataType := v }) rfl (fun _ => rfl) rfl
      (by decide))

/-- Routing parameters are read back. -/
theorem readsBack_routingParameter (m : Routing.Parameter) :
    ReadsBack routingParameterKnown writeRoutingParameter flat m := by
  intro levels _
  exact .append
    (.text (fun (m : Routing.Parameter) v => { m with field := v }) rfl (fun _ => rfl) rfl
      (by decide))
    (.text (fun (m : Routing.Parameter) v => { m with pathTemplate := v })
      rfl (fun _ => rfl) rfl (by decide))

/-- Service options are read back. -/
theorem ServiceOptions.readsBack (m : ServiceOptions) :
    ReadsBack ServiceOptions.known ServiceOptions.write flat m := by
  intro levels _
  exact .append
    (.bool? (fun (m : ServiceOptions) v => { m with deprecated := v }) rfl (fun _ => rfl) rfl
      (by decide))
    (.text? (fun (m : ServiceOptions) v => { m with defaultHost := v }) rfl (fun _ => rfl) rfl
      (by decide))

/-- Places are read back. -/
theorem Location.readsBack (m : Location) : ReadsBack Location.known Location.write flat m := by
  intro levels _
  exact .append (.append (.append
    (.packed (fun (m : Location) v => { m with path := v }) rfl (fun _ => rfl) rfl (by decide))
    (.packed (fun (m : Location) v => { m with span := v }) rfl (fun _ => rfl) rfl (by decide)))
    (.text? (fun (m : Location) v => { m with leadingComments := v }) rfl (fun _ => rfl) rfl
      (by decide)))
    (.text? (fun (m : Location) v => { m with trailingComments := v }) rfl (fun _ => rfl) rfl
      (by decide))

/-! ## Messages with messages inside them -/

/-- How many levels of messages are inside field options. -/
def FieldOptions.depth (m : FieldOptions) : Nat :=
  depthOf? flat m.fieldInfo

/-- Field options are read back. -/
theorem FieldOptions.readsBack (m : FieldOptions) :
    ReadsBack FieldOptions.known FieldOptions.write FieldOptions.depth m := by
  intro levels hdepth
  exact .append (.append
    (.bool? (fun (m : FieldOptions) v => { m with deprecated := v }) rfl (fun _ => rfl) rfl
      (by decide))
    (.int32s (fun (m : FieldOptions) v => { m with fieldBehavior := v })
      rfl (fun _ _ => rfl) rfl (by decide)))
    (.message? (fun (m : FieldOptions) v => { m with fieldInfo := v }) FieldInfo.readsBack hdepth
      rfl rfl (fun _ => rfl) rfl (by decide))

/-- How many levels of messages are inside a field. -/
def Field.depth (m : Field) : Nat :=
  depthOf? FieldOptions.depth m.options

/-- Fields are read back. -/
theorem Field.readsBack (m : Field) : ReadsBack Field.known Field.write Field.depth m := by
  intro levels hdepth
  exact .append (.append (.append (.append (.append (.append (.append (.append
    (.text? (fun (m : Field) v => { m with name := v }) rfl (fun _ => rfl) rfl (by decide))
    (.int32? (fun (m : Field) v => { m with number := v }) rfl (fun _ => rfl) rfl (by decide)))
    (.int32? (fun (m : Field) v => { m with label := v }) rfl (fun _ => rfl) rfl (by decide)))
    (.int32? (fun (m : Field) v => { m with type := v }) rfl (fun _ => rfl) rfl (by decide)))
    (.text? (fun (m : Field) v => { m with typeName := v }) rfl (fun _ => rfl) rfl (by decide)))
    (.message? (fun (m : Field) v => { m with options := v }) FieldOptions.readsBack hdepth
      rfl rfl (fun _ => rfl) rfl (by decide)))
    (.int32? (fun (m : Field) v => { m with oneofIndex := v }) rfl (fun _ => rfl) rfl (by decide)))
    (.text? (fun (m : Field) v => { m with jsonName := v }) rfl (fun _ => rfl) rfl (by decide)))
    (.bool? (fun (m : Field) v => { m with proto3Optional := v }) rfl (fun _ => rfl) rfl
      (by decide))

/-- How many levels of messages are inside a value of an enumeration. -/
def EnumValue.depth (m : EnumValue) : Nat :=
  depthOf? flat m.options

/-- Values of enumerations are read back. -/
theorem EnumValue.readsBack (m : EnumValue) :
    ReadsBack EnumValue.known EnumValue.write EnumValue.depth m := by
  intro levels hdepth
  exact .append (.append
    (.text? (fun (m : EnumValue) v => { m with name := v }) rfl (fun _ => rfl) rfl (by decide))
    (.int32? (fun (m : EnumValue) v => { m with number := v }) rfl (fun _ => rfl) rfl (by decide)))
    (.message? (fun (m : EnumValue) v => { m with options := v }) EnumValueOptions.readsBack hdepth
      rfl rfl (fun _ => rfl) rfl (by decide))

/-- How many levels of messages are inside an enumeration. -/
def Enumeration.depth (m : Enumeration) : Nat :=
  max (depthOfAll EnumValue.depth m.values) (depthOf? flat m.options)

/-- Enumerations are read back. -/
theorem Enumeration.readsBack (m : Enumeration) :
    ReadsBack Enumeration.known Enumeration.write Enumeration.depth m := by
  intro levels hdepth
  obtain ⟨hvalues, hoptions⟩ := max_le_iff.1 hdepth
  exact .append (.append
    (.text? (fun (m : Enumeration) v => { m with name := v }) rfl (fun _ => rfl) rfl (by decide))
    (.messages (fun (m : Enumeration) v => { m with values := v }) (fun v _ => v.readsBack) hvalues
      rfl (fun _ _ => rfl) rfl (by decide)))
    (.message? (fun (m : Enumeration) v => { m with options := v }) EnumOptions.readsBack hoptions
      rfl rfl (fun _ => rfl) rfl (by decide))

/-! ## Messages of a schema -/

mutual

/-- How many levels of messages are inside a message of a schema. -/
def Message.depth : Message → Nat
  | .mk _ fields messages enums options oneofs =>
    max (depthOfAll Field.depth fields) <| max (Message.depthAll messages) <|
      max (depthOfAll Enumeration.depth enums) <| max (depthOf? flat options)
        (depthOfAll flat oneofs)

/-- How many levels of messages nested messages add to the one that holds them. -/
def Message.depthAll : List Message → Nat
  | [] => 0
  | message :: rest => max (message.depth + 1) (Message.depthAll rest)

end

/-- Nested messages add their levels as other messages do. -/
theorem Message.depthAll_eq (messages : List Message) :
    Message.depthAll messages = depthOfAll Message.depth messages := by
  induction messages with
  | nil => rfl
  | cons message rest ih => rw [Message.depthAll, ih, depthOfAll]

/-- Nested messages are written as other messages are. -/
theorem Message.writeAll_eq (messages : List Message) :
    Message.writeAll messages = writeMessages 3 Message.write messages := by
  induction messages with
  | nil => rfl
  | cons message rest ih =>
      rw [Message.writeAll, ih, writeMessages, writeMessages, List.flatMap_cons]

/-- Nested messages are read as other messages are. -/
theorem Message.known_nested (levels : Nat) :
    Message.known levels 3 = some (addMessage levels Message.known fun
      | .mk name fields messages enums options oneofs, v =>
        .mk name fields (messages ++ [v]) enums options oneofs) := by
  have hbelow : Message.readBelow levels = mergeBelow levels Message.known default := by
    funext bytes
    cases levels <;> rfl
  simp only [Message.known, Message.knownWith, hbelow, Option.some.injEq]
  funext m value
  cases m
  rfl

mutual

/-- Messages of a schema are read back. -/
theorem Message.readsBack (m : Message) :
    ReadsBack Message.known Message.write Message.depth m := by
  cases m with
  | mk name fields messages enums options oneofs =>
    intro levels hdepth
    simp only [Message.depth, Message.depthAll_eq, max_le_iff] at hdepth
    obtain ⟨hfields, hmessages, henums, hoptions, honeofs⟩ := hdepth
    rw [Message.write, Message.writeAll_eq]
    exact .append (.append (.append (.append (.append
      (.text? (fun _ v => Message.mk v [] [] [] none []) rfl (fun _ => rfl) rfl (by decide))
      (.messages (fun _ v => Message.mk name v [] [] none []) (fun v _ => v.readsBack) hfields
        rfl (fun _ _ => rfl) rfl (by decide)))
      (.messages (fun _ v => Message.mk name fields v [] none [])
        (Message.readsBack_of_mem messages)
        hmessages (Message.known_nested levels) (fun _ _ => rfl) rfl (by decide)))
      (.messages (fun _ v => Message.mk name fields messages v none [])
        (fun v _ => v.readsBack) henums
        rfl (fun _ _ => rfl) rfl (by decide)))
      (.message? (fun _ v => Message.mk name fields messages enums v []) MessageOptions.readsBack
        hoptions rfl rfl (fun _ => rfl) rfl (by decide)))
      (.messages (fun _ v => Message.mk name fields messages enums options v)
        (fun v _ => v.readsBack) honeofs
        rfl (fun _ _ => rfl) rfl (by decide))

/-- Nested messages are read back. -/
theorem Message.readsBack_of_mem (messages : List Message) :
    ∀ m ∈ messages, ReadsBack Message.known Message.write Message.depth m := by
  cases messages with
  | nil => simp
  | cons first rest =>
    exact List.forall_mem_cons.2 ⟨Message.readsBack first, Message.readsBack_of_mem rest⟩

end

/-! ## HTTP rules -/

/-- How many levels of messages a pattern adds to its rule. -/
def HttpPattern.depth : HttpPattern → Nat
  | .custom _ => 1
  | _ => 0

mutual

/-- How many levels of messages are inside an HTTP rule. -/
def HttpRule.depth : HttpRule → Nat
  | .mk _ pattern _ additional _ =>
    max (pattern.elim 0 HttpPattern.depth) (HttpRule.depthAll additional)

/-- How many levels of messages further bindings add to their rule. -/
def HttpRule.depthAll : List HttpRule → Nat
  | [] => 0
  | rule :: rest => max (rule.depth + 1) (HttpRule.depthAll rest)

end

/-- Further bindings add their levels as other messages do. -/
theorem HttpRule.depthAll_eq (rules : List HttpRule) :
    HttpRule.depthAll rules = depthOfAll HttpRule.depth rules := by
  induction rules with
  | nil => rfl
  | cons rule rest ih => rw [HttpRule.depthAll, ih, depthOfAll]

/-- Further bindings are written as other messages are. -/
theorem HttpRule.writeAll_eq (rules : List HttpRule) :
    HttpRule.writeAll rules = writeMessages 11 HttpRule.write rules := by
  induction rules with
  | nil => rfl
  | cons rule rest ih => rw [HttpRule.writeAll, ih, writeMessages, writeMessages, List.flatMap_cons]

/-- Further bindings are read as other messages are. -/
theorem HttpRule.known_additional (levels : Nat) :
    HttpRule.known levels 11 = some (addMessage levels HttpRule.known fun
      | .mk selector pattern body additional response, v =>
        .mk selector pattern body (additional ++ [v]) response) := by
  have hbelow : HttpRule.readBelow levels = mergeBelow levels HttpRule.known default := by
    funext bytes
    cases levels <;> rfl
  simp only [HttpRule.known, HttpRule.knownWith, hbelow, Option.some.injEq]
  funext m value
  cases m
  rfl

/-- A pattern is carried into a rule that has none. -/
theorem HttpRule.carries_pattern {levels : Nat} (selector : String) {pattern : Option HttpPattern}
    (hdepth : pattern.elim 0 HttpPattern.depth ≤ levels) :
    Carries (HttpRule.known levels) (.mk selector none "" [] "") (writePattern? pattern)
      (.mk selector pattern "" [] "") := by
  have path (number : Nat) (hnumber : IsNumber number) (make : String → HttpPattern)
    (path : String)
      (hknown : HttpRule.known levels number =
        some (putScalar Value.text? fun rule path => rule.withPattern (make path))) :
      Carries (HttpRule.known levels) (.mk selector none "" [] "")
        (writeDelimited number (Text.toBytes path)) (.mk selector (some (make path)) "" [] "") :=
    .delimited hnumber hknown fun _ => by simp [putScalar, Value.text?, HttpRule.withPattern]
  cases pattern with
  | none => exact .nil
  | some pattern =>
    cases pattern with
    | get text => exact path 2 (by decide) .get text rfl
    | put text => exact path 3 (by decide) .put text rfl
    | post text => exact path 4 (by decide) .post text rfl
    | delete text => exact path 5 (by decide) .delete text rfl
    | patch text => exact path 6 (by decide) .patch text rfl
    | custom custom =>
      refine .delimited (by decide) rfl fun hlength => ?_
      have hread : mergeBelow levels CustomPattern.known {} custom.write = some custom :=
        (CustomPattern.readsBack custom).mergeBelow hdepth hlength
      simp [HttpRule.customPattern, HttpRule.pattern, HttpRule.withPattern, Value.message?, hread]

mutual

/-- HTTP rules are read back. -/
theorem HttpRule.readsBack (m : HttpRule) :
    ReadsBack HttpRule.known HttpRule.write HttpRule.depth m := by
  cases m with
  | mk selector pattern body additional response =>
    intro levels hdepth
    simp only [HttpRule.depth, HttpRule.depthAll_eq, max_le_iff] at hdepth
    obtain ⟨hpattern, hadditional⟩ := hdepth
    rw [HttpRule.write, HttpRule.writeAll_eq]
    exact .append (.append (.append (.append
      (.text (fun _ v => HttpRule.mk v none "" [] "") rfl (fun _ => rfl) rfl (by decide))
      (HttpRule.carries_pattern selector hpattern))
      (.text (fun _ v => HttpRule.mk selector pattern v [] "") rfl (fun _ => rfl) rfl (by decide)))
      (.messages (fun _ v => HttpRule.mk selector pattern body v "")
        (HttpRule.readsBack_of_mem additional) hadditional (HttpRule.known_additional levels)
          (fun _ _ => rfl) rfl (by decide)))
      (.text (fun _ v => HttpRule.mk selector pattern body additional v) rfl (fun _ => rfl) rfl
        (by decide))

/-- Further bindings are read back. -/
theorem HttpRule.readsBack_of_mem (rules : List HttpRule) :
    ∀ m ∈ rules, ReadsBack HttpRule.known HttpRule.write HttpRule.depth m := by
  cases rules with
  | nil => simp
  | cons first rest =>
    exact List.forall_mem_cons.2 ⟨HttpRule.readsBack first, HttpRule.readsBack_of_mem rest⟩

end

/-! ## Services -/

/-- How many levels of messages are inside a routing rule. -/
def RoutingRule.depth (m : RoutingRule) : Nat :=
  depthOfAll flat m.parameters

/-- Routing rules are read back. -/
theorem RoutingRule.readsBack (m : RoutingRule) :
    ReadsBack RoutingRule.known RoutingRule.write RoutingRule.depth m := by
  intro levels hdepth
  exact .messages (fun (m : RoutingRule) v => { m with parameters := v })
    (fun v _ => readsBack_routingParameter v) hdepth rfl (fun _ _ => rfl) rfl (by decide)

/-- How many levels of messages are inside method options. -/
def MethodOptions.depth (m : MethodOptions) : Nat :=
  max (depthOf? flat m.operationInfo) <|
    max (depthOf? HttpRule.depth m.http) (depthOf? RoutingRule.depth m.routing)

/-- Method options are read back. -/
theorem MethodOptions.readsBack (m : MethodOptions) :
    ReadsBack MethodOptions.known MethodOptions.write MethodOptions.depth m := by
  intro levels hdepth
  simp only [MethodOptions.depth, max_le_iff] at hdepth
  obtain ⟨hoperation, hhttp, hrouting⟩ := hdepth
  exact .append (.append (.append
    (.bool? (fun (m : MethodOptions) v => { m with deprecated := v }) rfl (fun _ => rfl) rfl
      (by decide))
    (.message? (fun (m : MethodOptions) v => { m with operationInfo := v }) OperationInfo.readsBack
      hoperation rfl rfl (fun _ => rfl) rfl (by decide)))
    (.message? (fun (m : MethodOptions) v => { m with http := v }) HttpRule.readsBack hhttp
      rfl rfl (fun _ => rfl) rfl (by decide)))
    (.message? (fun (m : MethodOptions) v => { m with routing := v }) RoutingRule.readsBack hrouting
      rfl rfl (fun _ => rfl) rfl (by decide))

/-- How many levels of messages are inside a method. -/
def Method.depth (m : Method) : Nat :=
  depthOf? MethodOptions.depth m.options

/-- Methods are read back. -/
theorem Method.readsBack (m : Method) : ReadsBack Method.known Method.write Method.depth m := by
  intro levels hdepth
  exact .append (.append (.append (.append (.append
    (.text? (fun (m : Method) v => { m with name := v }) rfl (fun _ => rfl) rfl (by decide))
    (.text? (fun (m : Method) v => { m with inputType := v }) rfl (fun _ => rfl) rfl (by decide)))
    (.text? (fun (m : Method) v => { m with outputType := v }) rfl (fun _ => rfl) rfl (by decide)))
    (.message? (fun (m : Method) v => { m with options := v }) MethodOptions.readsBack hdepth
      rfl rfl (fun _ => rfl) rfl (by decide)))
    (.bool? (fun (m : Method) v => { m with clientStreaming := v }) rfl (fun _ => rfl) rfl
      (by decide)))
    (.bool? (fun (m : Method) v => { m with serverStreaming := v }) rfl (fun _ => rfl) rfl
      (by decide))

/-- How many levels of messages are inside a service. -/
def Service.depth (m : Service) : Nat :=
  max (depthOfAll Method.depth m.methods) (depthOf? flat m.options)

/-- Services are read back. -/
theorem Service.readsBack (m : Service) :
    ReadsBack Service.known Service.write Service.depth m := by
  intro levels hdepth
  obtain ⟨hmethods, hoptions⟩ := max_le_iff.1 hdepth
  exact .append (.append
    (.text? (fun (m : Service) v => { m with name := v }) rfl (fun _ => rfl) rfl (by decide))
    (.messages (fun (m : Service) v => { m with methods := v }) (fun v _ => v.readsBack) hmethods
      rfl (fun _ _ => rfl) rfl (by decide)))
    (.message? (fun (m : Service) v => { m with options := v }) ServiceOptions.readsBack hoptions
      rfl rfl (fun _ => rfl) rfl (by decide))

/-! ## Files -/

/-- How many levels of messages are inside the places of a file. -/
def SourceInfo.depth (m : SourceInfo) : Nat :=
  depthOfAll flat m.locations

/-- The places of a file are read back. -/
theorem SourceInfo.readsBack (m : SourceInfo) :
    ReadsBack SourceInfo.known SourceInfo.write SourceInfo.depth m := by
  intro levels hdepth
  exact .messages (fun (m : SourceInfo) v => { m with locations := v })
    (fun v _ => v.readsBack) hdepth
    rfl (fun _ _ => rfl) rfl (by decide)

/-- How many levels of messages are inside a file. -/
def File.depth (m : File) : Nat :=
  max (depthOfAll Message.depth m.messages) <| max (depthOfAll Enumeration.depth m.enums) <|
    max (depthOfAll Service.depth m.services) (depthOf? SourceInfo.depth m.sourceInfo)

/-- Files are read back. -/
theorem File.readsBack (m : File) : ReadsBack File.known File.write File.depth m := by
  intro levels hdepth
  simp only [File.depth, max_le_iff] at hdepth
  obtain ⟨hmessages, henums, hservices, hsource⟩ := hdepth
  exact .append (.append (.append (.append (.append (.append (.append
    (.text? (fun (m : File) v => { m with name := v }) rfl (fun _ => rfl) rfl (by decide))
    (.text? (fun (m : File) v => { m with package := v }) rfl (fun _ => rfl) rfl (by decide)))
    (.texts (fun (m : File) v => { m with dependencies := v }) rfl (fun _ _ => rfl) rfl
      (by decide)))
    (.messages (fun (m : File) v => { m with messages := v }) (fun v _ => v.readsBack) hmessages
      rfl (fun _ _ => rfl) rfl (by decide)))
    (.messages (fun (m : File) v => { m with enums := v }) (fun v _ => v.readsBack) henums
      rfl (fun _ _ => rfl) rfl (by decide)))
    (.messages (fun (m : File) v => { m with services := v }) (fun v _ => v.readsBack) hservices
      rfl (fun _ _ => rfl) rfl (by decide)))
    (.message? (fun (m : File) v => { m with sourceInfo := v }) SourceInfo.readsBack hsource
      rfl rfl (fun _ => rfl) rfl (by decide)))
    (.text? (fun (m : File) v => { m with syntaxName := v }) rfl (fun _ => rfl) rfl (by decide))

/-- How many levels of messages are below a set of files. -/
def FileSet.depth (m : FileSet) : Nat :=
  depthOfAll File.depth m.files

/-- Sets of files are read back. -/
theorem FileSet.readsBack (m : FileSet) :
    ReadsBack FileSet.known FileSet.write FileSet.depth m := by
  intro levels hdepth
  exact .messages (fun (m : FileSet) v => { m with files := v }) (fun v _ => v.readsBack) hdepth
    rfl (fun _ _ => rfl) rfl (by decide)

end ApiModel.Descriptor
