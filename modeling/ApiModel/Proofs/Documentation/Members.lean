import ApiModel.Proofs.Discovery.Steps
import ApiModel.Proofs.Package.Readers

/-!
# Full names of members

Every reader gives a field the full name of its message, a dot and its own name, and a value of an
enumeration that of its enumeration. The well-known types are named so, too, and assembly renames
nothing.
-/

namespace ApiModel

/-- The full name and the name of a field. -/
def Field.naming (f : Field) : String × String := (f.id, f.name)

/-- Whether the full names of the fields are that of the message, a dot and their names. -/
def Message.NamesFields (x : Message) : Prop := ∀ f ∈ x.fields, f.id = x.id ++ "." ++ f.name

/-- Whether the full names of the values are that of the enumeration, a dot and their names. -/
def Enumeration.NamesValues (x : Enumeration) : Prop :=
  ∀ v ∈ x.values, v.id = x.id ++ "." ++ v.name

/-- A message with the names of one that names its fields names its own. -/
theorem Message.NamesFields.of_names {x y : Message} (h : x.NamesFields) (hid : y.id = x.id)
    (hfields : y.fields.map Field.naming = x.fields.map Field.naming) : y.NamesFields := by
  intro f hf
  have hmem : f.naming ∈ x.fields.map Field.naming := hfields ▸ List.mem_map_of_mem hf
  obtain ⟨g, hg, hnames⟩ := List.mem_map.1 hmem
  obtain ⟨hfull, hname⟩ := Prod.mk.inj hnames
  rw [← hfull, h g hg, hname, hid]

namespace Model

/-- Whether all fields and values have the full name of what they belong to, a dot and their
names. -/
structure NamesMembers (m : Model) : Prop where
  /-- The fields of messages. -/
  messages : ∀ x ∈ m.store.messages, x.NamesFields
  /-- The values of enumerations. -/
  enums : ∀ x ∈ m.store.enums, x.NamesValues

variable {m k : Model}

namespace NamesMembers

/-- A model without messages and enumerations names all its members. -/
theorem of_empty (hmessages : m.store.messages = #[]) (henums : m.store.enums = #[]) :
    NamesMembers m where
  messages x hx := by
    rw [hmessages] at hx
    exact absurd hx (Array.not_mem_empty x)
  enums x hx := by
    rw [henums] at hx
    exact absurd hx (Array.not_mem_empty x)

variable (h : NamesMembers m)

include h

/-- Adding a message that names its fields keeps the members of the model named. -/
theorem addMessage {x : Message} (hx : x.NamesFields) : NamesMembers (m.addMessage x).model where
  messages y hy := by
    rcases Discovery.mem_addMessage.1 hy with hy | rfl
    · exact h.messages y hy
    · refine hx.of_names rfl ?_
      rw [Message.ownedBy, List.map_map]
      rfl
  enums := h.enums

/-- Adding the well-known types keeps the members of the model named. -/
theorem register : NamesMembers (WellKnown.register m) where
  messages x hx := by
    rcases WellKnown.of_mem_register hx with hold | ⟨name, rfl⟩
    · exact h.messages x hold
    · exact fun f hf => absurd hf List.not_mem_nil
  enums x hx := by
    rcases WellKnown.of_mem_register_enums hx with hold | ⟨r, rfl⟩
    · exact h.enums x hold
    · intro v hv
      obtain rfl := List.mem_singleton.1 hv
      rw [Enumeration.ownedBy, WellKnown.nullValue, String.append_assoc]
      rfl

end NamesMembers

end Model

open Model

variable {m k : Model}

/-! ## Discovery documents -/

namespace Discovery

/-- The message of a schema names its fields. -/
theorem namesFields_makeMessage {package name : String} {schema : Schema} {x : Message}
    (h : makeMessage package name schema = .ok x) : x.NamesFields := by
  obtain ⟨shape, -, h⟩ := Attempt.bind_eq_ok.1 h
  split at h
  · obtain ⟨fields, hfields, h⟩ := Attempt.bind_eq_ok.1 h
    obtain rfl := Except.ok.inj h
    intro f hf
    obtain ⟨field?, hmem, hsome⟩ := List.mem_filterMap.1 hf
    obtain ⟨property, -, hproperty⟩ := Attempt.mapM_forall_right hfields field? hmem
    obtain ⟨type?, -, hproperty⟩ := Attempt.bind_eq_ok.1 hproperty
    obtain rfl := Except.ok.inj hproperty
    obtain ⟨type, -, rfl⟩ := Option.map_eq_some_iff.1 hsome
    rfl
  · cases h

/-- Reading a document keeps members named. -/
theorem keptByReading_namesMembers : KeptByReading NamesMembers where
  message hx hm := hm.addMessage (namesFields_makeMessage hx)
  method _ hm := { hm with }
  service _ _ hm := { hm with }
  listed _ _ hm := { hm with }

/-- The model of a discovery document names its members. -/
theorem namesMembers_model {d : Document} {config : Option ServiceConfig}
    (h : d.model config = .ok m) :
    NamesMembers m := by
  have hempty : NamesMembers (d.identity config) := by
    cases config <;> exact .of_empty rfl rfl
  obtain ⟨k, hk, hm⟩ := keptByReading_namesMembers.exists_model hempty h
  rw [hm]
  exact hk.register

end Discovery

/-! ## Interface descriptions -/

namespace OpenApi

/-- The entry message of a map names its fields. -/
theorem namesFields_mapEntry {package id name : String} {schema : Schema} {x : Message}
    (h : mapEntry package id name schema = .ok x) : x.NamesFields := by
  have hdot : ∀ rest, id ++ ("." ++ rest) = id ++ "." ++ rest := fun _ => String.append_assoc.symm
  obtain ⟨type, -, rfl⟩ := of_mapEntry h
  intro f hf
  rcases List.mem_pair.1 hf with rfl | rfl
  · exact hdot "key"
  · exact hdot "value"

/-- A field has the full name of its message, a dot and its name. -/
theorem id_makeField {package messageId name : String} {schema : Schema} {made : MadeField}
    (h : makeField package messageId name schema = .ok made) :
    made.field.id = messageId ++ "." ++ made.field.name := by
  cases makes_makeField h with
  | single => rfl
  | list => rfl
  | map => rfl

/-- Presence is no part of the names of a field. -/
theorem naming_withPresence (required : Bool) (f : Field) :
    (withPresence required f).naming = f.naming := by
  unfold withPresence
  split <;> rfl

/-- The messages of a component schema name their fields. -/
theorem ComponentBatch.namesFields {package : String} {component : String × Schema}
    {batch : List Message} (h : ComponentBatch package component batch) :
    ∀ x ∈ batch, x.NamesFields := by
  refine h.forall_messages (fun _ _ _ _ => namesFields_mapEntry) fun made hmade f hf => ?_
  obtain ⟨field, hfield, rfl⟩ := List.mem_map.1 hf
  obtain ⟨property, -, hproperty⟩ := Attempt.mapM_forall_right hmade field hfield
  obtain ⟨hid, hname⟩ := Prod.mk.inj (naming_withPresence _ field.field)
  rw [hid, hname]
  exact id_makeField hproperty

/-- The request field of a parameter has the full name of its message, a dot and its name. -/
theorem id_parameterField {package messageId : String} {p : Parameter} {f : Field}
    (h : parameterField package messageId p = .ok f) : f.id = messageId ++ "." ++ f.name := by
  obtain ⟨made, documentation, hmade, -, rfl⟩ := of_parameterField h
  obtain ⟨hid, hname⟩ :=
    Prod.mk.inj (naming_withPresence (p.required || p.location == "path") _)
  rw [hid, hname]
  exact id_makeField hmade

/-- The request field of a body has the full name of its message, a dot and its name. -/
theorem id_bodyField {package methodId messageId : String} {body : RequestBody} {f : Field}
    (h : bodyField package methodId messageId body = .ok f) :
    f.id = messageId ++ "." ++ f.name := by
  obtain ⟨media, target, -, -, -, rfl⟩ := of_bodyField h
  obtain ⟨hid, hname⟩ := Prod.mk.inj (naming_withPresence body.required _)
  rw [hid, hname]

/-- The request message of a method names its fields. -/
theorem namesFields_requestMessage {package methodId methodName : String} {c : Call} {x : Message}
    (h : requestMessage package methodId methodName c = .ok x) : x.NamesFields := by
  obtain ⟨parameters, hparameters, h⟩ := Attempt.bind_eq_ok.1 h
  obtain ⟨body, hbody, h⟩ := Attempt.bind_eq_ok.1 h
  obtain rfl := Except.ok.inj h
  intro f hf
  rcases List.mem_append.1 hf with hf | hf
  · obtain ⟨p, -, hp⟩ := Attempt.mapM_forall_right hparameters f hf
    exact id_parameterField hp
  · obtain ⟨b, -, hb⟩ := Attempt.mapM_forall_right hbody f hf
    exact id_bodyField hb

/-- The model of an interface description names its members. -/
theorem namesMembers_model {d : Document} {config : Option ServiceConfig}
    (h : d.model config = .ok m) :
    NamesMembers m := by
  obtain ⟨k, batches, made, hm, hcontents⟩ := exists_documentContents h
  have hplaced : ∀ x : Message, x.unplaced.fields.map Field.naming =
      x.fields.map Field.naming := by
    intro x
    rw [Message.unplaced, List.map_map]
    rfl
  suffices hnames : NamesMembers k from hm ▸ hnames.register
  refine ⟨?_, fun x hx => ?_⟩
  · refine hcontents.forall_messages (fun x => ?_) (fun _ _ _ _ hbatch => hbatch.namesFields)
      fun _ _ _ hmake => namesFields_requestMessage (madeInto_makeMethod hmake).request
    exact ⟨fun h => h.of_names rfl (hplaced x).symm, fun h => h.of_names rfl (hplaced x)⟩
  · rw [hcontents.enums] at hx
    exact absurd hx (Array.not_mem_empty x)

end OpenApi

/-! ## Descriptor sets -/

namespace Descriptor

/-- The model of a descriptor set names its members. -/
theorem namesMembers_model {set : FileSet} {config : Option ServiceConfig} {included : List String}
    (h : set.model config included = .ok m) : NamesMembers m := by
  obtain ⟨k, hm, hcorresponds⟩ := corresponds_model h
  suffices hnames : NamesMembers k from hm ▸ hnames.register
  refine ⟨fun x hx f hf => ?_, fun x hx v hv => ?_⟩
  · obtain ⟨d, -, hyields⟩ :=
      Attempt.exists_mem_left hcorresponds.types.messages x (Array.mem_toList_iff.2 hx)
    obtain ⟨source, -, hfield⟩ := Attempt.exists_mem_left hyields.fields f hf
    rw [hfield.id, hyields.id]
  · obtain ⟨d, -, hyields⟩ :=
      Attempt.exists_mem_left hcorresponds.types.enums x (Array.mem_toList_iff.2 hx)
    obtain ⟨source, -, hvalue⟩ := Attempt.exists_mem_left hyields.values v hv
    rw [hvalue.id, hyields.id]

end Descriptor

/-! ## Models that were read -/

namespace Model

/-- A model that was read names its members. -/
theorem Parsed.namesMembers (h : Parsed m) : NamesMembers m := by
  cases h with
  | discovery h => exact Discovery.namesMembers_model h
  | openApi h => exact OpenApi.namesMembers_model h
  | descriptor h => exact Descriptor.namesMembers_model h

/-- Assembly leaves the fields of messages named, however far it gets. -/
theorem NamesMembers.message_crossReference (h : NamesMembers m) (r : MessageRef) :
    (m.crossReference.model.message r).NamesFields := by
  have hbefore : (m.message r).NamesFields :=
    forall_message (fun f hf => absurd hf List.not_mem_nil) h.messages r
  have hsource := source_crossReference m r
  have hnaming : ∀ x : Message, x.source.fields.map Field.naming =
    x.fields.map Field.naming := fun x => by
    rw [Message.source, List.map_map]
    rfl
  have hid := congrArg Message.id hsource
  refine hbefore.of_names hid ?_
  rw [← hnaming, hsource, hnaming]

/-- Assembly leaves the values of enumerations named, however far it gets. -/
theorem NamesMembers.enumeration_crossReference (h : NamesMembers m) (r : EnumRef) :
    (m.crossReference.model.enumeration r).NamesValues := by
  have hbefore : (m.enumeration r).NamesValues :=
    enumArena.forall_get (fun v hv => absurd hv List.not_mem_nil) h.enums r
  have hsource := (sameSource_crossReference m).enumSource r
  rw [enumeration_buildIndices] at hsource
  have hid := congrArg Enumeration.id hsource
  have hvalues := congrArg Enumeration.values hsource
  intro v hv
  have hv : v ∈ (m.enumeration r).values := hvalues ▸ hv
  exact (hbefore v hv).trans (congrArg (fun id => id ++ "." ++ v.name) hid.symm)

end Model

end ApiModel
