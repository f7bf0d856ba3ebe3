import ApiModel.Creation
import ApiModel.Descriptor.Write
import ApiModel.Proofs.Assembly.Maps
import ApiModel.Proofs.Descriptor.Body
import ApiModel.Proofs.Descriptor.Steps
import ApiModel.Proofs.Discovery.Steps
import ApiModel.Proofs.OpenApi.Lookup
import ApiModel.Proofs.OpenApi.Requests
import ApiModel.Proofs.Package.Documents

/-!
# Maps of all formats

Of the readers only the one of interface descriptions marks fields as maps, and what it marks are
properties of component schemas, which name their entries. So whatever was read, assembly that comes
to its end makes the mark of a field, the message that it holds and the query for maps agree.
-/

namespace ApiModel

open Model

/-- Whether the fields of a message that are marked as maps are declared to be as stated. -/
def Message.MarksOnly (P : String × FieldType × String → Prop) (x : Message) : Prop :=
  ∀ f ∈ x.fields, f.map = true → P f.declaration

/-- Whether the fields of all messages that are marked as maps are declared to be as stated. -/
def Model.MarksOnly (P : String × FieldType × String → Prop) (m : Model) : Prop :=
  ∀ r, (m.message r).MarksOnly P

/-- Whether every field of a message is marked and declared like a field of another. -/
def Message.MarkedLike (y x : Message) : Prop :=
  ∀ f ∈ y.fields, ∃ g ∈ x.fields, g.map = f.map ∧ g.declaration = f.declaration

variable {P : String × FieldType × String → Prop} {x y : Message} {m k : Model}

/-- A message with the fields of another is marked like it. -/
theorem Message.MarkedLike.of_fields_eq (h : y.fields = x.fields) : y.MarkedLike x := by
  intro f hf
  exact ⟨f, h ▸ hf, rfl, rfl⟩

/-- A message that is marked like one that marks only given fields marks only given fields. -/
theorem Message.MarksOnly.of_markedLike (h : x.MarksOnly P) (hlike : y.MarkedLike x) :
    y.MarksOnly P := by
  intro f hf hmap
  obtain ⟨g, hg, hmark, hdeclared⟩ := hlike f hf
  rw [← hdeclared]
  exact h g hg (hmark.trans hmap)

/-- A message without fields marks only given ones. -/
theorem Message.MarksOnly.of_fields_eq_nil (h : x.fields = []) : x.MarksOnly P := by
  intro f hf
  rw [h] at hf
  exact absurd hf List.not_mem_nil

namespace Model.MarksOnly

/-- What is so of all messages of the store is so at every place. -/
theorem of_store (h : ∀ x ∈ m.store.messages, x.MarksOnly P) : m.MarksOnly P :=
  forall_message (.of_fields_eq_nil rfl) h

/-- A model without messages marks only given fields. -/
theorem of_empty (h : m.store.messages = #[]) : m.MarksOnly P := by
  refine of_store fun x hx => ?_
  rw [h] at hx
  exact absurd hx (Array.not_mem_empty x)

variable (h : m.MarksOnly P)

include h

/-- Adding a message that marks only given fields keeps that the model does. -/
theorem addMessage (hx : x.MarksOnly P) : (m.addMessage x).model.MarksOnly P := by
  intro r
  have hmessage : (m.addMessage x).model.message r =
      if r = messageArena.next m then x.ownedBy (messageArena.next m) else m.message r :=
    messageArena.get_push m (x.ownedBy (messageArena.next m)) r
  rw [hmessage]
  split
  · refine hx.of_markedLike fun g hg => ?_
    obtain ⟨f, hf, rfl⟩ := List.mem_map.1 hg
    exact ⟨f, hf, rfl, rfl⟩
  · exact h r

/-- A message can be changed, if its fields keep their marks and declarations. -/
theorem modifyMessage {r : MessageRef} {change : Message → Message}
    (hlike : (change (m.message r)).MarkedLike (m.message r)) :
    (m.modifyMessage r change).MarksOnly P :=
  fun s => (h s).of_markedLike
    (messageArena.get_modify_relates (R := Message.MarkedLike) (fun _ => .of_fields_eq rfl)
      m r s hlike)

/-- Adding the well-known types keeps that a model marks only given fields. -/
theorem register : (WellKnown.register m).MarksOnly P := by
  refine WellKnown.register_keeps (P := Model.MarksOnly P) (fun k name hk => ?_) (fun k hk => ?_) h
  · unfold WellKnown.registerMessage
    split
    · exact hk
    · exact hk.addMessage (.of_fields_eq_nil rfl)
  · unfold WellKnown.registerEnum
    split
    · exact hk
    · exact hk

end Model.MarksOnly

/-! ## Discovery documents -/

namespace Discovery

/-- The message of a schema marks nothing. -/
theorem marksNothing_makeMessage {package name : String} {schema : Schema}
    (h : makeMessage package name schema = .ok x) : x.MarksOnly P := by
  obtain ⟨shape, -, h⟩ := Attempt.bind_eq_ok.1 h
  split at h
  · obtain ⟨fields, hfields, h⟩ := Attempt.bind_eq_ok.1 h
    obtain rfl := Except.ok.inj h
    intro f hf hmap
    obtain ⟨field?, hmem, hsome⟩ := List.mem_filterMap.1 hf
    obtain ⟨property, -, hproperty⟩ := Attempt.mapM_forall_right hfields field? hmem
    obtain ⟨type?, -, hproperty⟩ := Attempt.bind_eq_ok.1 hproperty
    obtain rfl := Except.ok.inj hproperty
    obtain ⟨type, -, rfl⟩ := Option.map_eq_some_iff.1 hsome
    cases hmap
  · cases h

/-- Reading a document marks nothing. -/
theorem keptByReading_marksOnly : KeptByReading (Model.MarksOnly P) where
  message hx hm := hm.addMessage (marksNothing_makeMessage hx)
  method _ hm := hm
  service _ _ hm := hm
  listed _ _ hm := hm

/-- The model of a discovery document marks nothing. -/
theorem marksNothing_model {d : Document} {config : Option ServiceConfig}
    (h : d.model config = .ok m) :
    m.MarksOnly P := by
  have hempty : (d.identity config).MarksOnly P := by
    cases config <;> exact .of_empty rfl
  obtain ⟨k, hk, hm⟩ := keptByReading_marksOnly.exists_model hempty h
  rw [hm]
  exact hk.register

end Discovery

/-! ## Descriptor sets -/

namespace Descriptor

/-- A converted message marks nothing. -/
theorem marksNothing_convertMessage {x : ApiModel.Message} {context : FileContext} {scope : String}
    {parent : Option MessageRef} {place : Place} {message : Message}
    (h : convertMessage context scope parent place message = .ok x) : x.MarksOnly P := by
  obtain ⟨fields, hfields, rfl⟩ := convertMessage_eq_ok.1 h
  intro f hf hmap
  obtain ⟨source, documentation, made, hmade, rfl⟩ := exists_convert_of_mem hfields f hf
  rw [inGroup_eq] at hmap
  exact absurd hmap (Bool.eq_false_iff.1 (convertsTo_convert hmade).map)

/-- Reading a set marks nothing. -/
theorem keptByReading_marksOnly : KeptByReading (Model.MarksOnly P) where
  message hx hm := hm.addMessage (marksNothing_convertMessage hx)
  enumeration _ hm := hm
  nested _ _ _ hm := hm.modifyMessage (.of_fields_eq rfl)
  marked r hm := by
    refine hm.modifyMessage fun g hg => ?_
    obtain ⟨f, hf, rfl | rfl⟩ := Sound.of_mem_modify hg
    · exact ⟨g, hf, rfl, rfl⟩
    · exact ⟨f, hf, rfl, rfl⟩
  method _ hm := hm
  service _ hm := hm
  listed _ _ _ _ _ hm := hm

/-- The model of a descriptor set marks nothing. -/
theorem marksNothing_model {set : FileSet} {config : Option ServiceConfig} {included : List String}
    (h : set.model config included = .ok m) : m.MarksOnly P := by
  have hempty : (identity (set.packageName included) config).MarksOnly P := .of_empty rfl
  obtain ⟨k, hk, hm⟩ := keptByReading_marksOnly.exists_model hempty h
  rw [hm]
  exact hk.register

end Descriptor

/-! ## Interface descriptions -/

namespace OpenApi

/-- Whether what a field is declared to be names the entry of a map of a component. -/
def Document.NamesEntry (d : Document) (package : String)
    (declared : String × FieldType × String) : Prop :=
  ∃ component ∈ d.schemas, ∃ property ∈ component.2.maps,
    declared.2 = (.message, qualify package component.1 ++ "." ++ entryName property.1)

variable {d : Document} {config : Option ServiceConfig} {package messageId methodId name : String}

/-- Presence is no part of what marks a map. -/
theorem map_withPresence (required : Bool) (f : Field) : (withPresence required f).map = f.map := by
  unfold withPresence
  split <;> rfl

/-- A marked field is that of a map, and names its entry. -/
theorem namesEntry_makeField {schema : Schema} {made : MadeField}
    (h : makeField package messageId name schema = .ok made) (hmap : made.field.map = true) :
    ∃ values, schema.values? = some values ∧
      made.field.declaration.2 = (.message, messageId ++ "." ++ entryName name) := by
  cases makes_makeField h with
  | single => cases hmap
  | list => cases hmap
  | map shape => exact ⟨_, values?_of_fieldShape shape, rfl⟩

/-- The entry of a map marks nothing. -/
theorem marksNothing_mapEntry {schema : Schema}
    (h : mapEntry package messageId name schema = .ok x) :
    x.MarksOnly P := by
  obtain ⟨type, -, rfl⟩ := of_mapEntry h
  intro f hf hmap
  rcases List.mem_pair.1 hf with rfl | rfl <;> cases hmap

/-- The messages of a component mark the maps of the component only, and these name their
entries. -/
theorem ComponentBatch.marksOnly {component : String × Schema} {batch : List Message}
    (h : ComponentBatch package component batch) (hcomponent : component ∈ d.schemas) :
    ∀ x ∈ batch, x.MarksOnly (d.NamesEntry package) := by
  refine h.forall_messages (fun _ _ _ _ => marksNothing_mapEntry) fun made hmade f hf hmap => ?_
  obtain ⟨field, hfield, rfl⟩ := List.mem_map.1 hf
  obtain ⟨property, hmem, hproperty⟩ := Attempt.mapM_forall_right hmade field hfield
  rw [map_withPresence] at hmap
  obtain ⟨values, hvalues, hdeclared⟩ := namesEntry_makeField hproperty hmap
  refine ⟨component, hcomponent, (property.1, values),
    List.mem_filterMap.2 ⟨property, hmem, ?_⟩, ?_⟩
  · rw [hvalues, Option.map_some]
  · rw [declaration_withPresence, hdeclared]

/-- The request message of a method marks nothing. -/
theorem marksNothing_requestMessage {c : Call}
    (h : requestMessage package methodId name c = .ok x) :
    x.MarksOnly P := by
  obtain ⟨parameters, hparameters, h⟩ := Attempt.bind_eq_ok.1 h
  obtain ⟨body, hbody, h⟩ := Attempt.bind_eq_ok.1 h
  obtain rfl := Except.ok.inj h
  intro f hf hmap
  rcases List.mem_append.1 hf with hf | hf
  · obtain ⟨p, -, hp⟩ := Attempt.mapM_forall_right hparameters f hf
    obtain ⟨made, documentation, -, hsingle, rfl⟩ := of_parameterField hp
    rw [map_withPresence, hsingle] at hmap
    cases hmap
  · obtain ⟨b, -, hb⟩ := Attempt.mapM_forall_right hbody f hf
    obtain ⟨media, target, -, -, -, rfl⟩ := of_bodyField hb
    rw [map_withPresence] at hmap
    cases hmap

/-- The model of an interface description marks the maps of components only, and these name their
entries. -/
theorem marksOnly_model (h : d.model config = .ok m) :
    m.MarksOnly (d.NamesEntry m.packageName) := by
  obtain ⟨k, batches, made, hm, hcontents⟩ := exists_documentContents h
  have hpackage : m.packageName = k.packageName := hm ▸ (registered_register k).packageName
  suffices hmarks : k.MarksOnly (d.NamesEntry k.packageName) by
    rw [hpackage, hm]
    exact hmarks.register
  refine .of_store (hcontents.forall_messages (fun x => ⟨fun h => ?_, fun h => ?_⟩)
    (fun _ hcomponent _ _ hbatch => hbatch.marksOnly hcomponent)
    fun _ _ _ hmake => marksNothing_requestMessage (madeInto_makeMethod hmake).request)
  · exact h.of_markedLike fun f hf => ⟨_, List.mem_map_of_mem hf, rfl, rfl⟩
  · refine h.of_markedLike fun g hg => ?_
    obtain ⟨f, hf, rfl⟩ := List.mem_map.1 hg
    exact ⟨f, hf, rfl, rfl⟩

/-- What is declared to name the entry of a map names a map entry that is found. -/
theorem HasComponents.namesMapEntry {components : List MessageRef}
    (h : HasComponents d m components) {f : Field}
    (hnames : d.NamesEntry m.packageName f.declaration) : m.buildIndices.NamesMapEntry f := by
  obtain ⟨component, hcomponent, property, hproperty, hdeclared⟩ := hnames
  obtain ⟨htype, hid⟩ := Prod.mk.inj hdeclared
  have htype : f.type = .message := htype
  have hid : f.typeId = qualify m.packageName component.1 ++ "." ++ entryName property.1 := hid
  obtain ⟨r, -, hmessage, hentries⟩ :=
    Attempt.exists_mem_right h.messageRef?_entry component hcomponent
  obtain ⟨i, c, -, hc, hfound⟩ := hentries property hproperty
  obtain ⟨other, -, hentry⟩ :=
    Attempt.exists_mem_left hmessage.entries c (List.mem_of_getElem? hc)
  rw [hmessage.id, ← hid] at hfound
  refine ⟨c, ?_, ?_⟩
  · rw [namedType?, htype]
    dsimp only
    rw [hfound, Option.map_some]
  · rw [message_buildIndices]
    exact hentry.isMap

end OpenApi

/-! ## All formats -/

/-- What is marked in a model that was read names a map entry that is found. -/
theorem namesMapEntry_readSource {config : ModelConfig} {service : Option ServiceConfig}
    {contents : Bytes} (h : config.readSource service contents = .ok m) {r : MessageRef} {f : Field}
    (hf : f ∈ (m.message r).fields) (hmap : f.map = true) : m.buildIndices.NamesMapEntry f := by
  -- two of the readers mark nothing at all
  have hnothing : ¬m.MarksOnly fun _ => False := fun hmarks => hmarks r f hf hmap
  unfold ModelConfig.readSource at h
  split at h
  · unfold Discovery.readModel at h
    split at h
    · cases h
    · exact absurd (Discovery.marksNothing_model h) hnothing
  · unfold OpenApi.readModel at h
    split at h
    · cases h
    · rename_i d hdecode
      obtain ⟨value, -, hread⟩ := Option.bind_eq_some_iff.1 hdecode
      exact (OpenApi.hasComponents_model hread h).namesMapEntry
        (OpenApi.marksOnly_model h r f hf hmap)
  · unfold Descriptor.readModel at h
    split at h
    · cases h
    · exact absurd (Descriptor.marksNothing_model h) hnothing

/-- Whatever was read, if assembly comes to its end then no field of an indexed message is both a
map and a list. Such a field is marked as a map if and only if it holds a map entry, and if it is of
the type of messages, if and only if the query for maps finds it. What a map holds has a key and a
value, and nothing else. -/
theorem mapsAgree_readSource {config : ModelConfig} {service : Option ServiceConfig}
    {contents : Bytes} (h : config.readSource service contents = .ok m)
    (hnone : m.crossReference.error? = none) :
    MapsAgree m.crossReference.model := by
  refine mapsAgree_crossReference hnone fun r _ f hf hmap => ?_
  rw [message_buildIndices] at hf
  exact namesMapEntry_readSource h hf hmap

/-- A file with a message of labels, which are a list of map entries there. -/
def labelledFile : Descriptor.FileSet :=
  ⟨[{ name := some "shelf.proto"
      package := some "lib"
      messages := [.mk (some "Shelf")
        [{ name := some "labels"
           number := some 1
           label := some Descriptor.Field.repeatedLabel
           type := some 11
           typeName := some ".lib.Shelf.LabelsEntry" }]
        [.mk (some "LabelsEntry")
          [{ name := some "key", number := some 1, type := some 9 },
            { name := some "value", number := some 2, type := some 9 }]
          [] [] (some { mapEntry := some true }) []]
        [] none []] }]⟩

/-- The labels of the labelled file are read as a list that is not marked, and assembly makes them a
map. -/
theorem mapsAgree_readSource_labelledFile :
    ∃ m r f g, ModelConfig.readSource { format := .protobuf, source := "shelf.proto" } none
      labelledFile.write =
        .ok m ∧
      m.crossReference.error? = none ∧ r ∈ m.crossReference.model.indexedMessages ∧
      f ∈ (m.message r).fields ∧ f.name = "labels" ∧ f.map = false ∧ f.repeated = true ∧
      g ∈ (m.crossReference.model.message r).fields ∧ g.name = "labels" ∧
        g.type = .message ∧ g.map = true ∧
      m.crossReference.model.MapsAgreeAt g := by
  have hcheck : (ModelConfig.readSource { format := .protobuf, source := "shelf.proto" } none
      labelledFile.write).toOption.any (fun m => m.crossReference.error?.isNone &&
        m.crossReference.model.indexedMessages.any fun r =>
          ((m.message r).fields.any fun f => f.name == "labels" && !f.map && f.repeated) &&
            (m.crossReference.model.message r).fields.any fun g =>
              g.name == "labels" && g.type == .message && g.map) = true := by
    decide +kernel
  obtain ⟨m, hread, hcheck⟩ := Attempt.exists_ok_of_any hcheck
  simp only [Bool.and_eq_true, Option.isNone_iff_eq_none, List.any_eq_true, beq_iff_eq,
    Bool.not_eq_true'] at hcheck
  obtain ⟨hnone, r, hr, ⟨f, hf, ⟨hf', hlist⟩, hrepeated⟩, g, hg, ⟨hg', htype⟩,
    hmap⟩ := hcheck
  exact ⟨m, r, f, g, hread, hnone, hr, hf, hf', hlist, hrepeated, hg, hg', htype, hmap,
    mapsAgree_readSource hread hnone r hr g hg⟩

end ApiModel
