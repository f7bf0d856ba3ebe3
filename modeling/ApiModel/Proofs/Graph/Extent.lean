import ApiModel.Proofs.Arena
import Mathlib.Data.List.Nodup

/-!
# Extents

The extent of a model is all that its elements can refer to and what they rely on there: the places
of messages with their numbers of fields and what is around them, and the places of elements of the
other kinds. An element is sound if everything it refers to lies in the extent, so a sound element
stays sound while a model grows.
-/

namespace ApiModel

/-- What others rely on of a message. -/
structure Slot where
  /-- The number of its fields. -/
  fieldCount : Nat
  /-- The message around it. -/
  parent : Option MessageRef

/-- What others rely on of a message. -/
def Message.slot (x : Message) : Slot :=
  ⟨x.fields.length, x.parent⟩

/-- What can be referred to. -/
structure Extent where
  /-- The message at a place, if there is one. -/
  message : MessageRef → Option Slot
  /-- What is around the enumeration at a place, if there is one. -/
  enumeration : EnumRef → Option (Option MessageRef)
  /-- The number of services. -/
  services : Nat
  /-- The number of methods. -/
  methods : Nat

namespace Extent

variable (e : Extent)

/-- Whether there is a message at a place. -/
def HasMessage (r : MessageRef) : Prop := ∃ slot, e.message r = some slot

/-- Whether there is a message at a place that is nested in another. -/
def HasChild (p r : MessageRef) : Prop := ∃ n, e.message r = some ⟨n, some p⟩

/-- Whether there is a message at a place that is nested in no other. -/
def HasRoot (r : MessageRef) : Prop := ∃ n, e.message r = some ⟨n, none⟩

/-- Whether there is a field at a place. -/
def HasField (f : FieldRef) : Prop := ∃ slot, e.message f.message = some slot ∧
    f.index < slot.fieldCount

/-- Whether there is an enumeration at a place. -/
def HasEnum (r : EnumRef) : Prop := ∃ p, e.enumeration r = some p

/-- Whether there is a service at a place. -/
def HasService (r : ServiceRef) : Prop := r.index < e.services

/-- Whether there is a method at a place. -/
def HasMethod (r : MethodRef) : Prop := r.index < e.methods

/-- Whether there is what the type of a field resolves to. -/
def HasType : TypeRef → Prop
  | .message r => e.HasMessage r
  | .enumeration r => e.HasEnum r

/-- Whether another extent has everything that the elements of an extent refer to. -/
structure Within (e other : Extent) : Prop where
  /-- Messages. -/
  hasMessage : ∀ {r}, e.HasMessage r → other.HasMessage r
  /-- Nested messages. -/
  hasChild : ∀ {p r}, e.HasChild p r → other.HasChild p r
  /-- Fields. -/
  hasField : ∀ {f}, e.HasField f → other.HasField f
  /-- Enumerations. -/
  enumeration : ∀ {r p}, e.enumeration r = some p → other.enumeration r = some p
  /-- Services. -/
  services : e.services ≤ other.services
  /-- Methods. -/
  methods : e.methods ≤ other.methods

namespace Within

variable {e other : Extent}

/-- An extent is within one that has the same messages and no fewer of the other elements. -/
theorem of_slots (hmessage : ∀ r slot, e.message r = some slot → other.message r = some slot)
    (henumeration : ∀ r p, e.enumeration r = some p → other.enumeration r = some p)
    (hservices : e.services ≤ other.services) (hmethods : e.methods ≤ other.methods) :
    Within e other where
  hasMessage := by
    rintro r ⟨slot, hslot⟩
    exact ⟨slot, hmessage r slot hslot⟩
  hasChild := by
    rintro p r ⟨n, hslot⟩
    exact ⟨n, hmessage r _ hslot⟩
  hasField := by
    rintro f ⟨slot, hslot, hlt⟩
    exact ⟨slot, hmessage f.message slot hslot, hlt⟩
  enumeration := henumeration _ _
  services := hservices
  methods := hmethods

variable (h : Within e other)

include h

/-- An extent within another has its enumerations there. -/
theorem hasEnum {r : EnumRef} (hr : e.HasEnum r) : other.HasEnum r := by
  obtain ⟨p, hp⟩ := hr
  exact ⟨p, h.enumeration hp⟩

/-- An extent within another has its services there. -/
theorem hasService {r : ServiceRef} (hr : e.HasService r) : other.HasService r :=
  Nat.lt_of_lt_of_le hr h.services

/-- An extent within another has its methods there. -/
theorem hasMethod {r : MethodRef} (hr : e.HasMethod r) : other.HasMethod r :=
  Nat.lt_of_lt_of_le hr h.methods

/-- An extent within another has its types there. -/
theorem hasType {t : TypeRef} (ht : e.HasType t) : other.HasType t := by
  cases t with
  | message r => exact h.hasMessage ht
  | enumeration r => exact h.hasEnum ht

end Within

end Extent

/-! ## Sound elements -/

/-- Whether a field of a message refers to what there is. -/
structure FieldSound (e : Extent) (owner : MessageRef) (groups : Nat) (f : Field) : Prop where
  /-- What its type resolves to. -/
  target : ∀ t ∈ f.target, e.HasType t
  /-- Its group of alternatives. -/
  group : ∀ g ∈ f.group, g < groups
  /-- Its owner. -/
  parent : f.parent = some owner

/-- Whether the message at a place refers to what there is. -/
structure MessageSound (e : Extent) (r : MessageRef) (x : Message) : Prop where
  /-- Its fields. -/
  fields : ∀ f ∈ x.fields, FieldSound e r x.oneOfs.length f
  /-- The alternatives of its groups. -/
  oneOfs : ∀ o ∈ x.oneOfs, ∀ i ∈ o.fields, i < x.fields.length
  /-- The messages nested in it. -/
  messages : ∀ c ∈ x.messages, e.HasChild r c
  /-- No message is nested in it twice. -/
  messagesOnce : x.messages.Nodup
  /-- The enumerations nested in it. -/
  enums : ∀ c ∈ x.enums, e.enumeration c = some (some r)
  /-- No enumeration is nested in it twice. -/
  enumsOnce : x.enums.Nodup
  /-- The message around it. -/
  parent : ∀ p ∈ x.parent, e.HasMessage p
  /-- The fields that drive its pages. -/
  pagination : ∀ p ∈ x.pagination, e.HasField p.nextPageToken ∧ e.HasField p.pageableItem

/-- Whether the enumeration at a place refers to what there is. -/
structure EnumSound (e : Extent) (r : EnumRef) (x : Enumeration) : Prop where
  /-- The owner of its values. -/
  values : ∀ v ∈ x.values, v.parent = some r
  /-- The first values of its numbers. -/
  numbers : ∀ i ∈ x.uniqueNumberValues, i < x.values.length
  /-- The message around it. -/
  parent : ∀ p ∈ x.parent, e.HasMessage p

/-- Whether a service refers to what there is. -/
structure ServiceSound (e : Extent) (x : Service) : Prop where
  /-- Its methods. -/
  methods : ∀ r ∈ x.methods, e.HasMethod r
  /-- No method is listed twice. -/
  methodsOnce : x.methods.Nodup

/-- Whether a long-running operation refers to what there is. -/
structure OperationSound (e : Extent) (info : OperationInfo) : Prop where
  /-- Its final response. -/
  responseType : ∀ r ∈ info.responseType, e.HasMessage r
  /-- Its metadata. -/
  metadataType : ∀ r ∈ info.metadataType, e.HasMessage r

/-- Whether a method refers to what there is. -/
structure MethodSound (e : Extent) (x : Method) : Prop where
  /-- Its request. -/
  inputType : ∀ r ∈ x.inputType, e.HasMessage r
  /-- Its response. -/
  outputType : ∀ r ∈ x.outputType, e.HasMessage r
  /-- Its long-running operation. -/
  operation : ∀ info ∈ x.operationInfo, OperationSound e info
  /-- The field that takes its page token. -/
  pagination : ∀ f ∈ x.pagination, e.HasField f
  /-- The fields that clients fill in. -/
  autoPopulated : ∀ f ∈ x.autoPopulated, e.HasField f
  /-- Its service. -/
  service : ∀ s ∈ x.service, e.HasService s

section Mono

variable {e other : Extent} (h : e.Within other)

include h

/-- A field that is sound in an extent is sound in every one around it. -/
theorem FieldSound.mono {owner : MessageRef} {groups : Nat} {f : Field}
    (hf : FieldSound e owner groups f) : FieldSound other owner groups f where
  target t ht := h.hasType (hf.target t ht)
  group := hf.group
  parent := hf.parent

/-- A message that is sound in an extent is sound in every one around it. -/
theorem MessageSound.mono {r : MessageRef} {x : Message} (hx : MessageSound e r x) :
    MessageSound other r x where
  fields f hf := (hx.fields f hf).mono h
  oneOfs := hx.oneOfs
  messages c hc := h.hasChild (hx.messages c hc)
  messagesOnce := hx.messagesOnce
  enums c hc := h.enumeration (hx.enums c hc)
  enumsOnce := hx.enumsOnce
  parent p hp := h.hasMessage (hx.parent p hp)
  pagination p hp := (hx.pagination p hp).imp h.hasField h.hasField

/-- An enumeration that is sound in an extent is sound in every one around it. -/
theorem EnumSound.mono {r : EnumRef} {x : Enumeration} (hx : EnumSound e r x) :
    EnumSound other r x where
  values := hx.values
  numbers := hx.numbers
  parent p hp := h.hasMessage (hx.parent p hp)

/-- A service that is sound in an extent is sound in every one around it. -/
theorem ServiceSound.mono {x : Service} (hx : ServiceSound e x) : ServiceSound other x where
  methods r hr := h.hasMethod (hx.methods r hr)
  methodsOnce := hx.methodsOnce

/-- An operation that is sound in an extent is sound in every one around it. -/
theorem OperationSound.mono {info : OperationInfo} (hx : OperationSound e info) :
    OperationSound other info where
  responseType r hr := h.hasMessage (hx.responseType r hr)
  metadataType r hr := h.hasMessage (hx.metadataType r hr)

/-- A method that is sound in an extent is sound in every one around it. -/
theorem MethodSound.mono {x : Method} (hx : MethodSound e x) : MethodSound other x where
  inputType r hr := h.hasMessage (hx.inputType r hr)
  outputType r hr := h.hasMessage (hx.outputType r hr)
  operation info hinfo := (hx.operation info hinfo).mono h
  pagination f hf := h.hasField (hx.pagination f hf)
  autoPopulated f hf := h.hasField (hx.autoPopulated f hf)
  service s hs := h.hasService (hx.service s hs)

end Mono

/-- A message with as many fields of the same owner and groups stays sound. -/
theorem MessageSound.withFields {e : Extent} {r : MessageRef} {x : Message}
    (hx : MessageSound e r x) {fields : List Field} (hlength : fields.length = x.fields.length)
    (hfields : ∀ g ∈ fields, ∃ f ∈ x.fields,
      g.group = f.group ∧ g.parent = f.parent ∧ ∀ t ∈ g.target, e.HasType t) :
    MessageSound e r { x with fields := fields } where
  fields g hg := by
    obtain ⟨f, hf, hgroup, hparent, htarget⟩ := hfields g hg
    have hsound := hx.fields f hf
    exact ⟨htarget, hgroup ▸ hsound.group, hparent.trans hsound.parent⟩
  oneOfs o ho i hi := by
    have hlt := hx.oneOfs o ho i hi
    exact hlength ▸ hlt
  messages := hx.messages
  messagesOnce := hx.messagesOnce
  enums := hx.enums
  enumsOnce := hx.enumsOnce
  parent := hx.parent
  pagination := hx.pagination

/-- A message whose fields are changed, but for their owners and groups, stays sound. -/
theorem MessageSound.mapFields {e : Extent} {r : MessageRef} {x : Message} (hx : MessageSound e r x)
    {change : Field → Field} (hgroup : ∀ f, (change f).group = f.group)
    (hparent : ∀ f, (change f).parent = f.parent)
    (htarget : ∀ f ∈ x.fields, ∀ t ∈ (change f).target, e.HasType t) :
    MessageSound e r { x with fields := x.fields.map change } := by
  refine hx.withFields (List.length_map _) fun g hg => ?_
  obtain ⟨f, hf, rfl⟩ := List.mem_map.1 hg
  exact ⟨f, hf, hgroup f, hparent f, htarget f hf⟩

/-- A message with other documentation stays sound. -/
theorem MessageSound.documented {e : Extent} {r : MessageRef} {x : Message}
    (hx : MessageSound e r x) (text : String) : MessageSound e r { x with documentation := text } :=
  ⟨hx.fields, hx.oneOfs, hx.messages, hx.messagesOnce, hx.enums, hx.enumsOnce, hx.parent,
    hx.pagination⟩

/-- A message with less nested in it stays sound. -/
theorem MessageSound.nesting {e : Extent} {r : MessageRef} {x : Message} (hx : MessageSound e r x)
    {messages : List MessageRef} {enums : List EnumRef} (hmessages : messages.Sublist x.messages)
    (henums : enums.Sublist x.enums) :
    MessageSound e r { x with messages := messages, enums := enums } where
  fields := hx.fields
  oneOfs := hx.oneOfs
  messages c hc := hx.messages c (hmessages.subset hc)
  messagesOnce := hx.messagesOnce.sublist hmessages
  enums c hc := hx.enums c (henums.subset hc)
  enumsOnce := hx.enumsOnce.sublist henums
  parent := hx.parent
  pagination := hx.pagination

/-- An enumeration with as many values of the same owner stays sound. -/
theorem EnumSound.withValues {e : Extent} {r : EnumRef} {x : Enumeration} (hx : EnumSound e r x)
    {values : List EnumValue} (hlength : values.length = x.values.length)
    (hvalues : ∀ w ∈ values, ∃ v ∈ x.values, w.parent = v.parent) (text : String) :
    EnumSound e r { x with documentation := text, values := values } where
  values w hw := by
    obtain ⟨v, hv, hparent⟩ := hvalues w hw
    exact hparent.trans (hx.values v hv)
  numbers i hi := by
    have hlt := hx.numbers i hi
    exact hlength ▸ hlt
  parent := hx.parent

/-! ## The extent of a model -/

namespace Model

/-- What the elements of a model can refer to. -/
def extent (m : Model) : Extent where
  message r := (messageArena.find? m r).map Message.slot
  enumeration r := (enumArena.find? m r).map Enumeration.parent
  services := m.store.services.size
  methods := m.store.methods.size

variable {m : Model}

/-- The slot of a place in the extent of a model is that of the message there. -/
theorem extent_message {r : MessageRef} {x : Message} (h : messageArena.find? m r = some x) :
    m.extent.message r = some x.slot :=
  congrArg (Option.map Message.slot) h

/-- The extent of a model has the places where a message is found. -/
theorem hasMessage_iff {r : MessageRef} :
    m.extent.HasMessage r ↔ ∃ x, messageArena.find? m r = some x := by
  constructor
  · rintro ⟨slot, hslot⟩
    obtain ⟨x, hx, -⟩ := Option.map_eq_some_iff.1 hslot
    exact ⟨x, hx⟩
  · rintro ⟨x, hx⟩
    exact ⟨x.slot, extent_message hx⟩

/-- The extent of a model has the places of its array of messages. -/
theorem hasMessage_iff_holds {r : MessageRef} :
    m.extent.HasMessage r ↔ messageArena.Holds m r := by
  rw [hasMessage_iff]
  constructor
  · rintro ⟨x, hx⟩
    exact messageArena.holds_of_find? hx
  · intro h
    exact ⟨_, messageArena.find?_of_holds h⟩

/-- There is a message that is nested in another where one is found. -/
theorem hasChild_iff {p r : MessageRef} :
    m.extent.HasChild p r ↔ ∃ x, messageArena.find? m r = some x ∧ x.parent = some p := by
  constructor
  · rintro ⟨n, hslot⟩
    obtain ⟨x, hx, hxp⟩ := Option.map_eq_some_iff.1 hslot
    exact ⟨x, hx, (Slot.mk.inj hxp).2⟩
  · rintro ⟨x, hx, hxp⟩
    exact ⟨x.fields.length, by rw [extent_message hx, Message.slot, hxp]⟩

/-- There is a message that is not nested where one is found. -/
theorem hasRoot_iff {r : MessageRef} :
    m.extent.HasRoot r ↔ ∃ x, messageArena.find? m r = some x ∧ x.parent = none := by
  constructor
  · rintro ⟨n, hslot⟩
    obtain ⟨x, hx, hxp⟩ := Option.map_eq_some_iff.1 hslot
    exact ⟨x, hx, (Slot.mk.inj hxp).2⟩
  · rintro ⟨x, hx, hxp⟩
    exact ⟨x.fields.length, by rw [extent_message hx, Message.slot, hxp]⟩

/-- There is a field if the message at its place is long enough. -/
theorem hasField_iff {f : FieldRef} :
    m.extent.HasField f ↔ f.index < (m.message f.message).fields.length := by
  change _ ↔ f.index < (messageArena.get m f.message).fields.length
  rw [messageArena.get_eq]
  constructor
  · rintro ⟨slot, hslot, hlt⟩
    obtain ⟨x, hx, rfl⟩ := Option.map_eq_some_iff.1 hslot
    rw [hx]
    exact hlt
  · intro h
    cases hx : messageArena.find? m f.message with
    | none =>
      rw [hx] at h
      exact absurd h (Nat.not_lt_zero _)
    | some x =>
      rw [hx] at h
      exact ⟨x.slot, extent_message hx, h⟩

end Model

end ApiModel
