import ApiModel.Descriptor.Write
import ApiModel.Proofs.Descriptor.Inventory
import ApiModel.Proofs.Graph.Shadowing
import ApiModel.Proofs.OpenApi.Anchors
import ApiModel.Proofs.Package.Documents

/-!
# Well-known types resolve

The well-known types are added to the elements that a specification declares itself, each unless
some element of the store has its full name already. As the lists lead to every element of the
store, wherever it was declared, all their full names are found, and lead to what the specification
declares where it declares one.
-/

namespace ApiModel

open Model

variable {m k : Model}

/-! ## What a specification declares itself -/

/-- The model of a decoded document before the well-known types are added. -/
def Discovery.Document.declared (d : Document) (config : Option ServiceConfig) :
    Except Error Model := do
  d.check
  let m ← d.schemas.foldlM addSchema (d.identity config)
  (firstOfEachName [] d.servingResources).foldlM (addService d) m

/-- The model of a decoded document before the well-known types are added. -/
def OpenApi.Document.declared (d : Document) (config : Option ServiceConfig) :
    Except Error Model := do
  let m ← d.schemas.foldlM addSchema (d.identity config)
  addService d (d.serviceName config) m

/-- The model of a set of files before the well-known types are added. -/
def Descriptor.FileSet.declared (set : FileSet) (config : Option ServiceConfig)
    (included : List String) :
    Except Error Model := do
  let m ← set.files.foldlM (addTypes (set.selects included))
    (identity (set.packageName included) config)
  (set.files.filter (set.selects included)).foldlM (addServices ⟨config, set.messagesById⟩) m

/-- The model of a specification before the well-known types are added. -/
def ModelConfig.readDeclared (config : ModelConfig) (service : Option ServiceConfig)
    (contents : Bytes) :
    Except Error Model :=
  match config.format with
  | .discovery =>
    match Json.decode Discovery.Document.read contents with
    | none => .error .json
    | some document => document.declared service
  | .openApi =>
    match Json.decode OpenApi.Document.read contents with
    | none => .error .json
    | some document => document.declared service
  | .protobuf =>
    match Descriptor.FileSet.read contents with
    | none => .error .descriptor
    | some set => set.declared service (config.options.listOption SourceOptions.includeList)

/-- A document is read by adding the well-known types to what it declares. -/
theorem Discovery.Document.model_eq (d : Document) (config : Option ServiceConfig) :
    d.model config = (d.declared config).map WellKnown.register := by
  simp only [declared, Attempt.map_bind]
  simp only [Attempt.map_eq_bind]
  rfl

/-- An interface description is read by adding the well-known types to what it declares. -/
theorem OpenApi.Document.model_eq (d : Document) (config : Option ServiceConfig) :
    d.model config = (d.declared config).map WellKnown.register := by
  simp only [declared, Attempt.map_bind]
  simp only [Attempt.map_eq_bind]
  rfl

/-- A set of files is read by adding the well-known types to what it declares. -/
theorem Descriptor.FileSet.model_eq (set : FileSet) (config : Option ServiceConfig)
    (included : List String) :
    set.model config included = (set.declared config included).map WellKnown.register := by
  simp only [declared, Attempt.map_bind]
  simp only [Attempt.map_eq_bind]
  rfl

/-- Every specification is read by adding the well-known types to what it declares. -/
theorem ModelConfig.readSource_eq (config : ModelConfig) (service : Option ServiceConfig)
    (contents : Bytes) :
    config.readSource service contents =
      (config.readDeclared service contents).map WellKnown.register := by
  unfold readSource readDeclared
  cases config.format with
  | discovery =>
    unfold Discovery.readModel
    cases Json.decode Discovery.Document.read contents with
    | none => rfl
    | some d => exact d.model_eq service
  | openApi =>
    unfold OpenApi.readModel
    cases Json.decode OpenApi.Document.read contents with
    | none => rfl
    | some d => exact d.model_eq service
  | protobuf =>
    unfold Descriptor.readModel
    cases Descriptor.FileSet.read contents with
    | none => rfl
    | some set => exact set.model_eq service _

/-! ## Every element is listed -/

/-- Behind what declares no enumeration, every enumeration is an external one. -/
theorem Model.Registered.listedEnum (h : Registered k m) (hnone : k.store.enums = #[]) {r : EnumRef}
    (hr : enumArena.Holds m r) : m.ListedEnum r := by
  rcases h.enumeration r _ (enumArena.find?_of_holds hr) with hold | hexternal
  · have hmem := Array.mem_of_getElem? hold
    change _ ∈ k.store.enums at hmem
    rw [hnone] at hmem
    exact absurd hmem (Array.not_mem_empty _)
  · exact .inl (List.mem_append_right _ hexternal)

/-- In the model of a discovery document every element is listed. -/
theorem Discovery.inventoried_model {d : Document} {config : Option ServiceConfig}
    (h : d.model config = .ok m) : Inventoried m [] [] := by
  have hkept : KeptByReading fun k => k.store.enums = #[] :=
    ⟨fun _ hm => hm, fun _ hm => hm, fun _ _ hm => hm, fun _ _ hm => hm⟩
  have hempty : (d.identity config).store.enums = #[] := by
    cases config <;> rfl
  obtain ⟨k, hnone, hm⟩ := hkept.exists_model hempty h
  have hregistered : Registered k m := hm ▸ registered_register k
  obtain ⟨_, hgrounded, -⟩ := grounded_model h
  constructor
  case message => exact fun r hr => .inr (.inl (hgrounded.listed r hr))
  case enumeration => exact fun r hr => .inr (hregistered.listedEnum hnone hr)

/-- In the model of an interface description every element is listed. -/
theorem OpenApi.inventoried_model {d : Document} {config : Option ServiceConfig}
    (h : d.model config = .ok m) : Inventoried m [] [] := by
  obtain ⟨k, batches, made, hm, hcontents⟩ := exists_documentContents h
  have hregistered : Registered k m := hm ▸ registered_register k
  constructor
  case message =>
    intro r hr
    right
    rcases anchored_model h r _ (messageArena.find?_of_holds hr) with
      hroot | ⟨p, -, y, hy, hnested⟩
    · exact .inl hroot
    · have hat : m.message p = y := messageArena.get_of_find? hy
      refine .inr ⟨p, ?_⟩
      rw [NestedIn, hat]
      exact hnested
  case enumeration => exact fun r hr => .inr (hregistered.listedEnum hcontents.enums hr)

namespace Model.Parsed

variable (h : Parsed m)

include h

/-- In a model that was read every element is listed. -/
theorem inventoried : Inventoried m [] [] := by
  cases h with
  | discovery h => exact Discovery.inventoried_model h
  | openApi h => exact OpenApi.inventoried_model h
  | descriptor h => exact Descriptor.inventoried_model h

/-- The full name of every message in the store of a model that was read is found. -/
theorem exists_messageRef? {x : Message} (hx : x ∈ m.store.messages) :
    ∃ r, m.buildIndices.messageRef? x.id = some r ∧ (m.message r).id = x.id := by
  obtain ⟨-, rank, hrank, hbound⟩ := h.built
  obtain ⟨i, hi⟩ := Array.mem_iff_getElem?.1 hx
  have hfound : messageArena.find? m ⟨i⟩ = some x := hi
  have hlive := h.inventoried.liveMessage hrank hbound (messageArena.holds_of_find? hfound)
  have hvisited := h.finiteNesting.mem_visitedMessages.2 hlive
  have hat : m.message ⟨i⟩ = x := messageArena.get_of_find? hfound
  have hsome : ((indexBy (fun r => (m.message r).id) m.visitedMessages).get? x.id).isSome :=
    isSome_get?_indexBy.2 ⟨_, hvisited, congrArg Message.id hat⟩
  obtain ⟨r, hr⟩ := Option.isSome_iff_exists.1 hsome
  exact ⟨r, (messageRef?_buildIndices m x.id).trans hr, (of_get?_indexBy hr).2⟩

/-- The full name of every enumeration in the store of a model that was read is found. -/
theorem exists_enumRef? {x : Enumeration} (hx : x ∈ m.store.enums) :
    ∃ r, m.buildIndices.enumRef? x.id = some r ∧ (m.enumeration r).id = x.id := by
  obtain ⟨-, rank, hrank, hbound⟩ := h.built
  obtain ⟨i, hi⟩ := Array.mem_iff_getElem?.1 hx
  have hfound : enumArena.find? m ⟨i⟩ = some x := hi
  have hlive := h.inventoried.liveEnum hrank hbound (enumArena.holds_of_find? hfound)
  have hvisited := h.finiteNesting.mem_visitedEnums.2 hlive
  have hat : m.enumeration ⟨i⟩ = x := enumArena.get_of_find? hfound
  have hsome : ((indexBy (fun r => (m.enumeration r).id) m.visitedEnums).get? x.id).isSome :=
    isSome_get?_indexBy.2 ⟨_, hvisited, congrArg Enumeration.id hat⟩
  obtain ⟨r, hr⟩ := Option.isSome_iff_exists.1 hsome
  exact ⟨r, (enumRef?_buildIndices m x.id).trans hr, (of_get?_indexBy hr).2⟩

end Model.Parsed

/-! ## Where full names lead -/

namespace Arena

variable {ref element : Type} {a : Arena ref element} {id : element → String}
  {Given : ref → element → Prop} {external : List ref}

/-- Whether at a place there is an element of a full name: the one of another model, if that has one
of the name, and else a given one, which is external. -/
structure LeadsTo (a : Arena ref element) (id : element → String) (k m : Model)
    (external : List ref) (key : String) (given : ref → element) (r : ref) : Prop where
  /-- The element has the name. -/
  name : id (a.get m r) = key
  /-- It is the one of the other model. -/
  own : (∃ x ∈ a.elements k, id x = key) → a.find? k r = some (a.get m r)
  /-- Or the given one. -/
  added : (∀ x ∈ a.elements k, id x ≠ key) → r ∈ external ∧ a.get m r = given r

/-- A place with an element of a full name leads to what was there, or to what is given for the
name. -/
theorem Supplies.leadsTo (h : a.Supplies id Given k m external) {key : String}
    {given : ref → element} {r : ref} (hname : id (a.get m r) = key) (hblank : key ≠ id a.blank)
    (hgiven : ∀ x, Given r x → id x = key → x = given r) :
    a.LeadsTo id k m external key given r := by
  have hheld : a.Holds m r := a.holds_of_get_ne fun hget => hblank (by rw [← hname, hget])
  constructor
  case name => exact hname
  case own =>
    rintro ⟨x, hx, hid⟩
    refine (h.found r _ (a.find?_of_holds hheld)).resolve_right fun hadded => ?_
    exact hadded.2.2 x hx (hid.trans hname.symm)
  case added =>
    intro hnone
    rcases h.found r _ (a.find?_of_holds hheld) with hold | ⟨hexternal, hmade, -⟩
    · exact absurd hname (hnone _ (Array.mem_of_getElem? hold))
    · exact ⟨hexternal, hgiven _ hmade hname⟩

end Arena

namespace WellKnown

/-- Well-known types have different full names. -/
theorem idOf_inj {name other : String} (h : idOf name = idOf other) : name = other :=
  (String.append_right_inj _).1 h

/-- After adding the well-known types there is an enumeration of the well-known name. -/
theorem exists_register_nullValue (m : Model) :
    ∃ x ∈ (register m).store.enums, x.id = nullValue.id := by
  rw [register]
  generalize messageNames.foldl registerMessage m = k
  unfold registerEnum
  split
  · rename_i hany
    obtain ⟨x, hx, hid⟩ := Array.any_eq_true'.1 hany
    exact ⟨x, hx, beq_iff_eq.1 hid⟩
  · exact ⟨_, Array.mem_push_self, rfl⟩

/-- Where there is an element of every well-known name, nothing is added. -/
theorem register_eq_self
    (hmessages : ∀ name ∈ messageNames, ∃ x ∈ m.store.messages, x.id = idOf name)
    (hnullValue : ∃ x ∈ m.store.enums, x.id = nullValue.id) : register m = m := by
  have hone : ∀ name ∈ messageNames, registerMessage m name = m := by
    intro name hname
    obtain ⟨x, hx, hid⟩ := hmessages name hname
    have hany : (m.store.messages.any fun element => element.id == idOf name) = true :=
      Array.any_eq_true'.2 ⟨x, hx, beq_iff_eq.2 hid⟩
    rw [registerMessage, if_pos hany]
  have hall : messageNames.foldl registerMessage m = m :=
    List.foldlRecOn (motive := fun k => k = m) messageNames _ rfl
      fun k hk name hname => by rw [hk, hone name hname]
  obtain ⟨x, hx, hid⟩ := hnullValue
  have hany : (m.store.enums.any fun element => element.id == nullValue.id) = true :=
    Array.any_eq_true'.2 ⟨x, hx, beq_iff_eq.2 hid⟩
  rw [register, hall, registerEnum, if_pos hany]

/-- Whether the full names of all well-known types are found in a model once it has indices, and
lead to what another model, of what is declared, has of the name, or else to an external element. -/
structure Resolves (k m : Model) : Prop where
  /-- The messages. -/
  message : ∀ name ∈ messageNames, ∃ r, m.buildIndices.messageRef? (idOf name) = some r ∧
    messageArena.LeadsTo Message.id k m m.externalMessages (idOf name)
      (fun _ => plainMessage name) r
  /-- The enumeration. -/
  nullValue : ∃ r, m.buildIndices.enumRef? nullValue.id = some r ∧
    enumArena.LeadsTo Enumeration.id k m m.externalEnums nullValue.id nullValue.ownedBy r

/-- No well-known type goes without a name. -/
theorem idOf_ne_empty (name : String) : idOf name ≠ "" := by
  intro h
  have hempty := congrArg String.toList h
  rw [idOf, String.toList_append, String.toList_append, String.toList_append] at hempty
  cases hempty

/-- In a model that was read, all well-known types are found. -/
theorem resolves_register (hm : m = register k) (h : Parsed m) : Resolves k m := by
  have hmessages := hm ▸ supplies_register k
  have henums := hm ▸ supplies_register_enums k
  have hnullValue := hm ▸ exists_register_nullValue k
  constructor
  case message =>
    intro name hname
    obtain ⟨x, hx, hid⟩ := hm ▸ exists_register k hname
    obtain ⟨r, hr, hrid⟩ := h.exists_messageRef? hx
    rw [hid] at hr hrid
    refine ⟨r, hr, hmessages.leadsTo hrid (idOf_ne_empty name) ?_⟩
    rintro _ ⟨other, rfl⟩ hother
    exact congrArg plainMessage (idOf_inj hother)
  case nullValue =>
    obtain ⟨x, hx, hid⟩ := hnullValue
    obtain ⟨r, hr, hrid⟩ := h.exists_enumRef? hx
    rw [hid] at hr hrid
    exact ⟨r, hr, henums.leadsTo hrid (idOf_ne_empty "NullValue") fun _ hmade _ => hmade⟩

/-- Adding the well-known types again changes nothing, whatever else of a model has changed. -/
theorem register_eq_self_of_register (hm : m = register k) {other : Model}
    (hmessages : other.store.messages = m.store.messages)
    (henums : other.store.enums = m.store.enums) :
    register other = other := by
  refine register_eq_self (fun name hname => ?_) ?_
  · rw [hmessages, hm]
    exact exists_register k hname
  · rw [henums, hm]
    exact exists_register_nullValue k

end WellKnown

/-- Of every model that was read, whatever its format, the full names of all well-known types are
found once the indices are built. They lead to what the specification declares itself, if it
declares an element of the name, and else to the external one that was added. Adding the well-known
types again changes nothing, before and after the indices are built. -/
theorem ModelConfig.resolves_readSource {config : ModelConfig} {service : Option ServiceConfig}
    {contents : Bytes} (h : config.readSource service contents = .ok m) :
    ∃ k, config.readDeclared service contents = .ok k ∧ WellKnown.Resolves k m ∧
      WellKnown.register m = m ∧ WellKnown.register m.buildIndices = m.buildIndices := by
  have hparsed : Parsed m := parsed_readSource h
  rw [readSource_eq, Attempt.map_eq_ok] at h
  obtain ⟨k, hk, hm⟩ := h
  have hstore : m.buildIndices.store.messages = m.store.messages ∧
      m.buildIndices.store.enums = m.store.enums := by
    rw [buildIndices_eq]
    exact ⟨rfl, rfl⟩
  exact ⟨k, hk, WellKnown.resolves_register hm.symm hparsed,
    WellKnown.register_eq_self_of_register hm.symm rfl rfl,
    WellKnown.register_eq_self_of_register hm.symm hstore.1 hstore.2⟩

/-- A file with a type of a well-known name nested in a message, and the file to generate. -/
def nestedTimestamp : Descriptor.FileSet :=
  ⟨[{ name := some "clock.proto"
      package := some "google"
      messages := [.mk (some "protobuf") [] [.mk (some "Timestamp") [] [] [] none []] [] none []] },
    { name := some "shelf.proto"
      package := some "lib"
      messages := [.mk (some "Shelf") [] [] [] none []] }]⟩

/-- The files of the nested timestamp declare the well-known message of points in time, nested and
external, and not the one of spans of time. Their model resolves both. -/
theorem ModelConfig.resolves_readSource_nestedTimestamp :
    ∃ m k, ModelConfig.readSource { format := .protobuf, source := "shelf.proto" } none
        nestedTimestamp.write = .ok m ∧
      ModelConfig.readDeclared { format := .protobuf, source := "shelf.proto" } none
        nestedTimestamp.write = .ok k ∧
      (∃ x ∈ k.store.messages, x.id = WellKnown.timestampId) ∧
      (∀ x ∈ k.store.messages, x.id ≠ WellKnown.durationId) ∧ WellKnown.Resolves k m ∧
      WellKnown.register m = m ∧ WellKnown.register m.buildIndices = m.buildIndices := by
  have hcheck : (ModelConfig.readDeclared { format := .protobuf, source := "shelf.proto" } none
      nestedTimestamp.write).toOption.any (fun k => decide
        ((∃ x ∈ k.store.messages, x.id = WellKnown.timestampId) ∧
          ∀ x ∈ k.store.messages, x.id ≠ WellKnown.durationId)) = true := by decide +kernel
  obtain ⟨k, hdeclared, hnames⟩ := Attempt.exists_ok_of_any hcheck
  have hread : ModelConfig.readSource { format := .protobuf, source := "shelf.proto" } none
      nestedTimestamp.write = .ok (WellKnown.register k) := by
    rw [ModelConfig.readSource_eq, hdeclared]
    rfl
  obtain ⟨other, hother, hresolves⟩ := ModelConfig.resolves_readSource hread
  obtain rfl : k = other := Except.ok.inj (hdeclared.symm.trans hother)
  have hnamed := of_decide_eq_true hnames
  exact ⟨_, k, hread, hdeclared, hnamed.1, hnamed.2, hresolves⟩

/-! ## Sets of files -/

/-- The types that a set of files declares itself are those of all its files, at every level of
nesting. -/
theorem Descriptor.FileSet.declares_iff {set : FileSet} {config : Option ServiceConfig}
    {included : List String} (h : set.declared config included = .ok k) (id : String) :
    ((∃ x ∈ k.store.messages, x.id = id) ↔ ∃ d ∈ set.preorder, d.id = id) ∧
      ((∃ x ∈ k.store.enums, x.id = id) ↔ ∃ d ∈ set.enumOrder, d.id = id) := by
  obtain ⟨types, htypes, hservices⟩ := Attempt.bind_eq_ok.1 h
  have htypes := (corresponds_of_steps htypes hservices).types
  have hmessages := Attempt.exists_key_iff htypes.messages (fun _ _ hyields => hyields.id) id
  have henums := Attempt.exists_key_iff htypes.enums (fun _ _ hyields => hyields.id) id
  simp only [Array.mem_toList_iff] at hmessages henums
  exact ⟨hmessages, henums⟩

/-- In the model of a set of files every well-known message is found: the one that some file
declares under the name, at whatever level of nesting, and else the one that was added. -/
theorem Descriptor.FileSet.exists_wellKnown {set : FileSet} {config : Option ServiceConfig}
    {included : List String} (h : set.model config included = .ok m) {name : String}
    (hname : name ∈ WellKnown.messageNames) :
    ∃ k r, set.declared config included = .ok k ∧
      m.buildIndices.messageRef? (WellKnown.idOf name) = some r ∧
      ((∃ d ∈ set.preorder, d.id = WellKnown.idOf name) →
        messageArena.find? k r = some (m.message r)) ∧
      ((∀ d ∈ set.preorder, d.id ≠ WellKnown.idOf name) →
        r ∈ m.externalMessages ∧ m.message r = WellKnown.plainMessage name) := by
  have hparsed : Parsed m := .descriptor h
  rw [FileSet.model_eq, Attempt.map_eq_ok] at h
  obtain ⟨k, hk, hm⟩ := h
  obtain ⟨r, hr, hleads⟩ := (WellKnown.resolves_register hm.symm hparsed).message name hname
  have hdeclares := (declares_iff hk (WellKnown.idOf name)).1
  refine ⟨k, r, hk, hr, fun hdeclared => hleads.own (hdeclares.2 hdeclared), fun hnone => ?_⟩
  refine hleads.added fun x hx hid => ?_
  obtain ⟨d, hd, hsame⟩ := hdeclares.1 ⟨x, hx, hid⟩
  exact hnone d hd hsame

end ApiModel
