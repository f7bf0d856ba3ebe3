import ApiModel.Proofs.Assembly.Settled
import ApiModel.Proofs.Graph.Documents
import ApiModel.Proofs.Graph.Liveness
import ApiModel.Proofs.Graph.Passes

/-!
# What the messages of a document refer to

The readers of documents with schemas give each schema a message under its full name, and make full
names of the references between them. A full name is declared if it is that of a schema or of a
well-known message. If all full names that messages and methods refer to have messages in the store,
and all of these are live, then assembly finds them and comes to its end.
-/

namespace ApiModel

open Model

/-! ## Declared names -/

/-- Whether a full name is that of a well-known message. -/
def WellKnown.Provides (id : String) : Prop :=
  ∃ name ∈ WellKnown.messageNames, id = WellKnown.idOf name

/-- Whether a full name is that of one of the schemas in a package, or of a well-known message. -/
def DeclaredIn {schema : Type} (schemas : List (String × schema)) (package id : String) : Prop :=
  (∃ entry ∈ schemas, id = qualify package entry.1) ∨ WellKnown.Provides id

namespace WellKnown

@[simp]
theorem provides_emptyId : Provides emptyId := ⟨"Empty", by decide, by decide⟩

@[simp]
theorem provides_timestampId : Provides timestampId := ⟨"Timestamp", by decide, by decide⟩

@[simp]
theorem provides_durationId : Provides durationId := ⟨"Duration", by decide, by decide⟩

@[simp]
theorem provides_fieldMaskId : Provides fieldMaskId := ⟨"FieldMask", by decide, by decide⟩

end WellKnown

/-! ## Named types -/

/-- Whether a type is a message whose full name has a property, if it is told by a full name. -/
def FieldType.Names (type : FieldType) (P : String → Prop) (id : String) : Prop :=
  type.isNamed → type = .message ∧ P id

/-- Whether the type of a field is a message whose full name has a property, if it is told by a full
name. -/
def Field.Names (P : String → Prop) (f : Field) : Prop :=
  f.type.Names P f.typeId

/-- Whether a map entry has its pair of fields, and all fields of the message that have a named type
have messages whose full names have a property. -/
structure Message.Grounded (P : String → Prop) (x : Message) : Prop where
  /-- A map entry has its pair of fields. -/
  entry : x.isMap → HasEntryShape x
  /-- The named types of the fields. -/
  fields : ∀ f ∈ x.fields, f.Names P

section Names

variable {P Q : String → Prop}

/-- A type that names a message with a property names one with any weaker property. -/
theorem FieldType.Names.mono {type : FieldType} {id : String} (h : type.Names P id)
    (hPQ : ∀ id, P id → Q id) : type.Names Q id :=
  fun hnamed => (h hnamed).imp_right (hPQ id)

/-- A field that names a message with a property names one with any weaker property. -/
theorem Field.Names.mono {f : Field} (h : f.Names P) (hPQ : ∀ id, P id → Q id) : f.Names Q :=
  FieldType.Names.mono h hPQ

/-- A message that is grounded in names with a property is grounded in names with any weaker
property. -/
theorem Message.Grounded.mono {x : Message} (h : x.Grounded P) (hPQ : ∀ id, P id → Q id) :
    x.Grounded Q :=
  ⟨h.entry, fun f hf => (h.fields f hf).mono hPQ⟩

/-- A message that is no map entry and has no fields is grounded. -/
theorem Message.grounded_of_empty {x : Message} (hmap : x.isMap = false) (hfields : x.fields = []) :
    x.Grounded P := by
  refine ⟨fun h => ?_, fun f hf => ?_⟩
  · rw [hmap] at h
    cases h
  · rw [hfields] at hf
    exact absurd hf List.not_mem_nil

end Names

/-! ## Assembly -/

namespace Model

/-- Whether the store has a message of a full name. -/
def HasNamed (m : Model) (id : String) : Prop := ∃ x ∈ m.store.messages, x.id = id

/-- Whether all that messages and methods refer to are messages of the store, and all of these are
live. -/
structure Grounded (m : Model) : Prop where
  /-- The messages. -/
  messages : ∀ x ∈ m.store.messages, x.Grounded m.HasNamed
  /-- The methods. -/
  methods : ∀ x ∈ m.store.methods, ∀ id ∈ x.references, m.HasNamed id
  /-- All messages are live. -/
  live : ∀ r, messageArena.Holds m r → m.LiveMessage r

namespace Grounded

variable {m : Model} (h : m.Grounded) (hparsed : Parsed m)

include h hparsed

/-- The full name of a message of the store is found. -/
theorem isSome_messageRef? {id : String} (hid : m.HasNamed id) :
    (m.buildIndices.messageRef? id).isSome := by
  obtain ⟨x, hx, rfl⟩ := hid
  obtain ⟨i, hi, rfl⟩ := Array.mem_iff_getElem.1 hx
  have hheld : messageArena.Holds m ⟨i⟩ := hi
  have hplace : m.message ⟨i⟩ = m.store.messages[i] :=
    messageArena.get_of_find? (r := ⟨i⟩) (Array.getElem?_eq_getElem hi)
  exact hplace ▸ hparsed.finiteNesting.isSome_messageRef? (h.live ⟨i⟩ hheld)

/-- The types of the fields of all messages are found. -/
theorem fieldResolves {x : Message} (hx : x ∈ m.store.messages) {f : Field}
    (hf : f ∈ x.fields) :
    m.buildIndices.FieldResolves f := by
  intro hnamed
  obtain ⟨htype, hid⟩ := (h.messages x hx).fields f hf hnamed
  rw [namedType?, htype, Option.isSome_map]
  exact h.isSome_messageRef? hparsed hid

/-- The types of all methods are found. -/
theorem methodResolves {x : Method} (hx : x ∈ m.store.methods) :
    m.buildIndices.MethodResolves x :=
  fun id hid => h.isSome_messageRef? hparsed (h.methods x hx id hid)

/-- A model that was read and is grounded is assembled without an error. -/
theorem error?_crossReference : m.crossReference.error? = none := by
  refine error?_of_resolvable (resolvable_of_store (fun link hlink => ?_)
    (fun x hx => ⟨(h.messages x hx).entry, fun f hf => h.fieldResolves hparsed hx hf⟩)
    fun x hx => h.methodResolves hparsed hx)
  obtain ⟨⟨before, hbuilt⟩, -⟩ := hparsed.built
  have hsound : Sound m := hbuilt.toSound
  obtain ⟨-, service, hservice, hlisted⟩ := hsound.of_mem_listedMethods hlink
  exact (hsound.service _ service hservice).methods _ hlisted

end Grounded

end Model

end ApiModel
