import ApiModel.Proofs.Grounding
import ApiModel.Proofs.OpenApi.Anchors
import ApiModel.Proofs.OpenApi.Messages
import ApiModel.Proofs.Text.Affixes

/-!
# References of interface descriptions

The reader makes the references of properties, of the items of lists, of the values of maps, of
parameters, of bodies and of answers into full names. If each of them names a component schema,
every name that it makes is that of a component schema, a map entry, a request message or a
well-known message. All of these are in the store, and nothing in the store is lost, so all are
found when the model is assembled.
-/

namespace ApiModel

/-- A message is grounded whatever its place is. -/
theorem Message.grounded_unplaced {P : String → Prop} {x : Message} :
    x.unplaced.Grounded P ↔ x.Grounded P := by
  have hshape : Model.HasEntryShape x.unplaced ↔ Model.HasEntryShape x := by
    rw [Model.HasEntryShape, Model.HasEntryShape, Message.unplaced, List.map_map]
    exact Iff.rfl
  have hfields : (∀ f ∈ x.unplaced.fields, f.Names P) ↔ ∀ f ∈ x.fields, f.Names P :=
    List.forall_mem_map
  constructor
  · exact fun h => ⟨fun hmap => hshape.1 (h.entry hmap), hfields.1 h.fields⟩
  · exact fun h => ⟨fun hmap => hshape.2 (h.entry hmap), hfields.2 h.fields⟩

namespace OpenApi

open Model

/-! ## The references of a document -/

/-- The reference that a schema is, if it is one. -/
def Schema.ownReferences (s : Schema) : List String :=
  if s.reference.isEmpty then [] else [s.reference]

/-- Whether a schema is an object without properties that says whether it may have members. -/
def Schema.isFreeForm (s : Schema) : Bool :=
  s.kind == "object" && s.properties.isEmpty && s.additional.any fun additional =>
    match additional with
    | .allowed _ => true
    | .values _ => false

/-- The references that are made into the type of a single value. -/
def Schema.valueReferences (s : Schema) : List String :=
  if s.isFreeForm then [] else s.ownReferences

/-- The references that are made into the type of a field: those of the items of a list, of the
values of a map, or of a single value. -/
def Schema.references (s : Schema) : List String :=
  if s.kind = "array" then s.items.toList.flatMap Schema.ownReferences
  else match s.kind == "object", s.additional with
    | true, some (.values values) => values.valueReferences
    | _, _ => s.valueReferences

/-- The references in the JSON body of a request or an answer. -/
def bodyReferences (content : List (String × MediaType)) : List String :=
  (content.lookup bodyMediaType).toList.flatMap fun media => media.schema.ownReferences

/-- The references of a call: those of its path and query parameters, of its body, and of its answer
if it succeeds. -/
def Call.references (c : Call) : List String :=
  ((c.parameters.filter fun p => p.location == "path" || p.location == "query").flatMap fun p =>
    p.schema.references) ++
  (c.operation.requestBody.toList.flatMap fun body => bodyReferences body.content) ++
  (c.operation.responses.lookup "200").toList.flatMap fun response =>
    bodyReferences response.content

/-- The references of a document. -/
def Document.references (d : Document) : List String :=
  (d.schemas.flatMap fun component => component.2.properties.flatMap fun property =>
    property.2.references) ++
    d.calls.flatMap Call.references

/-- Whether a reference names a component schema of a document. -/
def Document.Knows (d : Document) (reference : String) : Prop :=
  ∃ component ∈ d.schemas, reference = componentStart ++ component.1

/-- Whether all references of a document name component schemas of it. -/
def Document.Closed (d : Document) : Prop :=
  ∀ reference ∈ d.references, d.Knows reference

instance (d : Document) (reference : String) : Decidable (d.Knows reference) :=
  inferInstanceAs
    (Decidable (∃ component ∈ d.schemas, reference = componentStart ++ component.1))

instance (d : Document) : Decidable d.Closed :=
  inferInstanceAs (Decidable (∀ reference ∈ d.references, d.Knows reference))

/-! ## What the reader refers to -/

variable {d : Document} {package : String}

/-- A reference that names a component schema is made into its full name. -/
theorem declaredIn_referencedId {id reference target : String} (hknown : d.Knows reference)
    (h : referencedId package id reference = .ok target) : DeclaredIn d.schemas package target := by
  obtain ⟨component, hcomponent, rfl⟩ := hknown
  unfold referencedId at h
  rw [Text.stripPrefix?_eq_some.2 rfl] at h
  exact .inl ⟨component, hcomponent, (Except.ok.inj h).symm⟩

/-- The type of a scalar is a well-known message or has no name. -/
theorem names_of_scalarType? {kind format : String} {t : ValueType}
    (h : scalarType? kind format = some t) : t.type.Names WellKnown.Provides t.id := by
  unfold scalarType? at h
  split at h <;> cases h
  all_goals simp [FieldType.Names, FieldType.isNamed]

/-- Whether the type of a value is declared, if it is named. -/
def ValueType.Declared (d : Document) (package : String) (t : ValueType) : Prop :=
  t.type.Names (DeclaredIn d.schemas package) t.id

/-- Objects of any content are a well-known message. -/
theorem declared_freeForm (d : Document) (package : String) :
    ValueType.Declared d package ⟨.message, freeFormId⟩ :=
  fun _ => ⟨rfl, .inr ⟨"Struct", by decide, rfl⟩⟩

/-- The type of a value that is neither a list nor a map is declared. -/
theorem declared_of_elementType {id : String} {s : Schema} {t : ValueType}
    (h : elementType package id s = .ok t)
    (hknown : ∀ reference ∈ s.ownReferences, d.Knows reference) :
    t.Declared d package := by
  unfold elementType at h
  split at h
  · rename_i href
    obtain ⟨target, htarget, rfl⟩ := Attempt.map_eq_ok.1 h
    have hmem : s.reference ∈ s.ownReferences := by
      rw [Schema.ownReferences, if_neg (by simpa using href)]
      exact List.mem_cons_self
    exact fun _ => ⟨rfl, declaredIn_referencedId (hknown _ hmem) htarget⟩
  · split at h
    · split at h
      · obtain rfl := Except.ok.inj h
        exact declared_freeForm d package
      · cases h
    · split at h
      · cases h
      · split at h
        · rename_i hscalar
          obtain rfl := Except.ok.inj h
          exact (names_of_scalarType? hscalar).mono fun id => .inr
        · cases h

/-! ## Fields -/

/-- A schema is of free form if it is an object without properties that says whether it may have
members. -/
theorem Schema.isFreeForm_iff {s : Schema} : s.isFreeForm = true ↔
    s.kind = "object" ∧ s.properties.isEmpty = true ∧
    ∃ value, s.additional = some (.allowed value) := by
  rw [Schema.isFreeForm, Bool.and_eq_true, Bool.and_eq_true, beq_iff_eq, and_assoc]
  refine and_congr_right fun _ => and_congr_right fun _ => ?_
  cases s.additional with
  | none => simp
  | some additional => cases additional <;> simp

/-- The type of a single value is declared. -/
theorem declared_of_single {id : String} {s : Schema} {t : ValueType}
    (h : fieldShape package id s = .ok (.single t))
    (hknown : ∀ reference ∈ s.valueReferences, d.Knows reference) : t.Declared d package := by
  have hplain : s.isFreeForm ≠ true → elementType package id s = .ok t →
      t.Declared d package := by
    intro hform helement
    rw [Schema.valueReferences, if_neg hform] at hknown
    exact declared_of_elementType helement hknown
  have hsingle : (elementType package id s).map FieldShape.single = .ok (.single t) →
      elementType package id s = .ok t := by
    intro hmap
    obtain ⟨made, hmade, heq⟩ := Attempt.map_eq_ok.1 hmap
    rw [hmade, FieldShape.single.inj heq]
  unfold fieldShape at h
  split at h
  case h_1 =>
    obtain ⟨made, -, heq⟩ := Attempt.map_eq_ok.1 h
    cases heq
  case h_2 => cases h
  case h_3 => cases h
  case h_4 =>
    split at h
    · obtain rfl := FieldShape.single.inj (Except.ok.inj h)
      exact declared_freeForm d package
    · rename_i hproperties
      exact hplain (fun hform => hproperties (Schema.isFreeForm_iff.1 hform).2.1) (hsingle h)
  case h_5 hother =>
    refine hplain (fun hform => ?_) (hsingle h)
    obtain ⟨hkind, -, value, hvalue⟩ := Schema.isFreeForm_iff.1 hform
    exact hother value hkind hvalue

/-- The references of a field are those of what its shape is made from. -/
theorem of_fieldShape {id : String} {s : Schema} {shape : FieldShape}
    (h : fieldShape package id s = .ok shape) :
    match shape with
    | .single _ => s.references = s.valueReferences
    | .list t =>
        ∃ items, s.references = items.ownReferences ∧ elementType package id items = .ok t
    | .map values => s.references = values.valueReferences := by
  unfold fieldShape at h
  split at h
  case h_1 items hkind hitems =>
    obtain ⟨t, ht, rfl⟩ := Attempt.map_eq_ok.1 h
    exact ⟨items, by simp [Schema.references, hkind, hitems], ht⟩
  case h_2 => cases h
  case h_3 values hkind hvalues =>
    obtain rfl := Except.ok.inj h
    simp [Schema.references, hkind, hvalues]
  case h_4 value hkind hvalue =>
    have hreferences : s.references = s.valueReferences := by
      simp [Schema.references, hkind, hvalue]
    split at h
    · obtain rfl := Except.ok.inj h
      exact hreferences
    · obtain ⟨t, -, rfl⟩ := Attempt.map_eq_ok.1 h
      exact hreferences
  case h_5 hlist hempty hvalues hfree =>
    obtain ⟨t, -, rfl⟩ := Attempt.map_eq_ok.1 h
    have hkind : s.kind ≠ "array" := by
      intro hkind
      cases hitems : s.items with
      | none => exact hempty hkind hitems
      | some items => exact hlist items hkind hitems
    show s.references = s.valueReferences
    rw [Schema.references, if_neg hkind]
    split
    · rename_i values hobject hadditional
      exact absurd hadditional (hvalues values (beq_iff_eq.1 hobject))
    · rfl

/-- The entry message of a map has its pair of fields, and its values have a type that is
declared. -/
theorem grounded_mapEntry {id name : String} {s : Schema} {x : Message}
    (h : mapEntry package id name s = .ok x)
    (hknown : ∀ reference ∈ s.valueReferences, d.Knows reference) :
    x.Grounded (DeclaredIn d.schemas package) := by
  obtain ⟨type, hshape, rfl⟩ := of_mapEntry h
  refine ⟨fun _ => List.Perm.refl _, fun f hf => ?_⟩
  rcases List.mem_pair.1 hf with rfl | rfl
  · exact fun hnamed => Bool.noConfusion hnamed
  · exact declared_of_single hshape hknown

/-- What a field and the entry message that it needs refer to. -/
structure MadeField.Grounded (d : Document) (package : String) (made : MadeField) : Prop where
  /-- The entry message has its pair of fields, and refers to what is declared. -/
  entry : ∀ x ∈ made.entry, x.Grounded (DeclaredIn d.schemas package)
  /-- The field refers to the entry message or to what is declared. -/
  field : made.field.Names fun id => DeclaredIn d.schemas package id ∨
    ∃ x ∈ made.entry, x.id = id
  /-- Only a map needs an entry message. -/
  map : made.entry.isSome → made.field.map

/-- The field of a schema whose references are known is grounded. -/
theorem grounded_makeField {messageId name : String} {s : Schema} {made : MadeField}
    (h : makeField package messageId name s = .ok made)
    (hknown : ∀ reference ∈ s.references, d.Knows reference) : made.Grounded d package := by
  cases makes_makeField h with
  | @single t hshape =>
    rw [of_fieldShape hshape] at hknown
    have ht : t.Declared d package := declared_of_single hshape hknown
    exact ⟨fun x hx => absurd hx (Option.not_mem_none x), fun hnamed =>
      (ht hnamed).imp_right .inl, fun hsome => Bool.noConfusion hsome⟩
  | @list t hshape =>
    obtain ⟨items, hitems, helement⟩ := of_fieldShape hshape
    rw [hitems] at hknown
    have ht : t.Declared d package := declared_of_elementType helement hknown
    exact ⟨fun x hx => absurd hx (Option.not_mem_none x), fun hnamed =>
      (ht hnamed).imp_right .inl, fun hsome => Bool.noConfusion hsome⟩
  | @map values x hshape hx =>
    rw [of_fieldShape hshape] at hknown
    refine ⟨?_, fun _ => ⟨rfl, .inr ⟨x, rfl, id_mapEntry hx⟩⟩, fun _ => rfl⟩
    rintro y ⟨⟩
    exact grounded_mapEntry hx hknown

/-- Presence has nothing to do with the type of a field. -/
theorem names_withPresence {P : String → Prop} {required : Bool} {f : Field} (h : f.Names P) :
    (withPresence required f).Names P := by
  unfold withPresence
  split <;> exact h

/-! ## Messages and methods -/

/-- The messages of a component schema refer to what is declared, and to each other. -/
theorem ComponentBatch.grounded {component : String × Schema} {batch : List Message}
    (h : ComponentBatch package component batch)
    (hknown : ∀ property ∈ component.2.properties, ∀ reference ∈ property.2.references,
      d.Knows reference) :
    ∀ x ∈ batch, x.Grounded fun id => DeclaredIn d.schemas package id ∨
    ∃ y ∈ batch, y.id = id := by
  obtain ⟨made, hmade, rfl⟩ := h
  have hgrounded : ∀ x ∈ made, x.Grounded d package := by
    intro x hx
    obtain ⟨property, hproperty, hfield⟩ := Attempt.mapM_forall_right hmade x hx
    exact grounded_makeField hfield (hknown property hproperty)
  intro x hx
  rcases List.mem_append.1 hx with hx | hx
  · obtain ⟨field, hfield, hentry⟩ := List.mem_filterMap.1 hx
    exact ((hgrounded field hfield).entry x hentry).mono fun _ => .inl
  · obtain rfl := List.mem_singleton.1 hx
    refine ⟨fun hmap => Bool.noConfusion hmap, fun f hf => ?_⟩
    obtain ⟨field, hfield, rfl⟩ := List.mem_map.1 hf
    refine names_withPresence ((hgrounded field hfield).field.mono fun id hid => ?_)
    refine hid.imp_right ?_
    rintro ⟨entry, hentry, rfl⟩
    exact ⟨entry, List.mem_append_left _ (List.mem_filterMap.2 ⟨field, hfield, hentry⟩),
      rfl⟩

/-- The request field of a parameter refers to what is declared. -/
theorem names_parameterField {messageId : String} {p : Parameter} {f : Field}
    (h : parameterField package messageId p = .ok f)
    (hknown : ∀ reference ∈ p.schema.references, d.Knows reference) :
    f.Names (DeclaredIn d.schemas package) := by
  obtain ⟨made, documentation, hmade, hsingle, rfl⟩ := of_parameterField h
  have hgrounded := grounded_makeField hmade hknown
  have hfield : made.field.Names (DeclaredIn d.schemas package) :=
    hgrounded.field.mono fun id hid => by
    refine hid.resolve_right ?_
    rintro ⟨x, hx, -⟩
    have hmap := hgrounded.map (Option.isSome_iff_exists.2 ⟨x, hx⟩)
    rw [hsingle] at hmap
    cases hmap
  exact names_withPresence hfield

/-- A reference in a JSON body is one of the references of the body. -/
theorem mem_bodyReferences {content : List (String × MediaType)} {media : MediaType}
    (h : content.lookup bodyMediaType = some media)
    (href : ¬media.schema.reference.isEmpty = true) :
    media.schema.reference ∈ bodyReferences content := by
  rw [bodyReferences, h, Option.toList_some, List.flatMap_singleton, Schema.ownReferences,
    if_neg href]
  exact List.mem_cons_self

/-- The request field of a body refers to what is declared. -/
theorem names_bodyField {methodId messageId : String} {body : RequestBody} {f : Field}
    (h : bodyField package methodId messageId body = .ok f)
    (hknown : ∀ reference ∈ bodyReferences body.content, d.Knows reference) :
    f.Names (DeclaredIn d.schemas package) := by
  obtain ⟨media, target, hmedia, href, htarget, rfl⟩ := of_bodyField h
  refine names_withPresence fun _ => ⟨rfl, ?_⟩
  exact declaredIn_referencedId (hknown _ (mem_bodyReferences hmedia href)) htarget

/-- The request message of a call refers to what is declared. -/
theorem grounded_requestMessage {methodId methodName : String} {c : Call} {x : Message}
    (h : requestMessage package methodId methodName c = .ok x)
    (hknown : ∀ reference ∈ c.references, d.Knows reference) :
    x.Grounded (DeclaredIn d.schemas package) := by
  obtain ⟨parameters, hparameters, h⟩ := Attempt.bind_eq_ok.1 h
  obtain ⟨body, hbody, h⟩ := Attempt.bind_eq_ok.1 h
  obtain rfl := Except.ok.inj h
  refine ⟨fun hmap => Bool.noConfusion hmap, fun f hf => ?_⟩
  rcases List.mem_append.1 hf with hf | hf
  · obtain ⟨p, hp, hfield⟩ := Attempt.mapM_forall_right hparameters f hf
    refine names_parameterField hfield fun reference href => hknown reference ?_
    exact List.mem_append_left _ (List.mem_append_left _ (List.mem_flatMap.2 ⟨p, hp, href⟩))
  · obtain ⟨source, hsource, hfield⟩ := Attempt.mapM_forall_right hbody f hf
    refine names_bodyField hfield fun reference href => hknown reference ?_
    exact List.mem_append_left _
      (List.mem_append_right _ (List.mem_flatMap.2 ⟨source, hsource, href⟩))

/-- The answer of a call is declared. -/
theorem declaredIn_responseId {methodId id : String} {c : Call}
    (h : responseId package methodId c.operation = .ok id)
    (hknown : ∀ reference ∈ c.references, d.Knows reference) :
    DeclaredIn d.schemas package id := by
  unfold responseId at h
  split at h
  · obtain rfl := Except.ok.inj h
    exact .inr WellKnown.provides_emptyId
  · rename_i media hmedia
    split at h
    · cases h
    · rename_i href
      obtain ⟨response, hresponse, hcontent⟩ := Option.bind_eq_some_iff.1 hmedia
      refine declaredIn_referencedId (hknown _ (List.mem_append_right _ (List.mem_flatMap.2 ?_))) h
      exact ⟨response, by simp [hresponse], mem_bodyReferences hcontent href⟩

/-- A method refers to its request message and to what is declared, and so does its request
message. -/
theorem grounded_makeMethod {serviceId : String} {c : Call} {made : MadeMethod}
    (h : makeMethod package serviceId c = .ok made)
    (hknown : ∀ reference ∈ c.references, d.Knows reference) :
    made.request.Grounded (DeclaredIn d.schemas package) ∧
      ∀ id ∈ made.method.references, DeclaredIn d.schemas package id ∨
      id = made.request.id := by
  have hmade := madeInto_makeMethod h
  refine ⟨grounded_requestMessage hmade.request hknown, fun id hid => ?_⟩
  have hpair : made.method.references = [made.method.inputTypeId, made.method.outputTypeId] := by
    rw [Method.references, hmade.operation]
    rfl
  rw [hpair] at hid
  rcases List.mem_pair.1 hid with rfl | rfl
  · exact .inr hmade.input
  · exact .inl (declaredIn_responseId hmade.output hknown)

/-! ## The model of a document -/

variable {m k : Model} {config : Option ServiceConfig} {serviceName : String}
  {batches : List (List Message)} {made : List MadeMethod} {requests : List MessageRef}

/-- What the store contains without its place has its full name there. -/
theorem exists_of_mem_contents {x : Message} (h : x.unplaced ∈ contents k) :
    ∃ y ∈ k.store.messages, y.id = x.id := by
  obtain ⟨y, hy, heq⟩ := List.mem_map.1 h
  have hid : y.unplaced.id = x.unplaced.id := congrArg Message.id heq
  exact ⟨y, Array.mem_toList_iff.1 hy, hid⟩

/-- Every message that is read from a closed document refers to what is declared and to what is
read. -/
theorem DocumentContents.grounded (h : DocumentContents d serviceName batches made k)
    (hclosed : d.Closed) :
    ∀ x ∈ k.store.messages,
      x.Grounded fun id => DeclaredIn d.schemas k.packageName id ∨
      ∃ y ∈ k.store.messages, y.id = id := by
  refine h.forall_messages (fun x => Message.grounded_unplaced)
    (fun component hcomponent batch hbatch hmade y hy => ?_) fun c hc x hmake => ?_
  · have hknown : ∀ property ∈ component.2.properties, ∀ reference ∈ property.2.references,
        d.Knows reference := fun property hproperty reference hreference =>
      hclosed reference (List.mem_append_left _ (List.mem_flatMap.2
        ⟨component, hcomponent, List.mem_flatMap.2 ⟨property, hproperty, hreference⟩⟩))
    refine (hmade.grounded hknown y hy).mono fun id hid => hid.imp_right ?_
    -- the entries of a component schema are in the store with it
    rintro ⟨z, hz, rfl⟩
    refine exists_of_mem_contents ?_
    rw [h.contents]
    exact List.mem_append_left _ (List.mem_map_of_mem (List.mem_flatten.2 ⟨batch, hbatch, hz⟩))
  · have hknown : ∀ reference ∈ c.references, d.Knows reference := fun reference hreference =>
      hclosed reference (List.mem_append_right _ (List.mem_flatMap.2 ⟨c, hc, hreference⟩))
    exact (grounded_makeMethod hmake hknown).1.mono fun _ => .inl

/-- The model of a document has all messages that the document declares. -/
theorem DocumentMade.hasNamed (h : DocumentMade package serviceName d m made requests)
    (hregistered : m = WellKnown.register k) {id : String} (hid : DeclaredIn d.schemas package id) :
    m.HasNamed id := by
  rcases hid with ⟨component, hcomponent, rfl⟩ | ⟨name, hname, rfl⟩
  · have hmem := List.mem_append_left (made.map fun x => x.request.id)
      (List.mem_map_of_mem (f := fun component => qualify package component.1) hcomponent)
    obtain ⟨r, -, x, hx, hid⟩ := Attempt.exists_mem_left h.listed _ hmem
    exact ⟨x, Array.mem_of_getElem? hx, hid⟩
  · rw [hregistered]
    exact WellKnown.exists_register k hname

/-- The model of a closed document is grounded. -/
theorem grounded_model (h : d.model config = .ok m) (hclosed : d.Closed) : m.Grounded := by
  obtain ⟨k, batches, contents, hm, hcontents⟩ := exists_documentContents h
  obtain ⟨made, requests, hmade⟩ := exists_made h
  have hdeclared : ∀ id, DeclaredIn d.schemas m.packageName id → m.HasNamed id :=
    fun id hid => hmade.hasNamed hm hid
  have hpackage : m.packageName = k.packageName := hm ▸ WellKnown.packageName_register k
  refine ⟨fun x hx => ?_, fun x hx id hid => ?_, fun r hr => (anchored_model h).live hr⟩
  · rw [hm] at hx
    rcases WellKnown.of_mem_register hx with hx | ⟨name, rfl⟩
    · refine (hcontents.grounded hclosed x hx).mono fun id hid => ?_
      rcases hid with hid | ⟨y, hy, hid⟩
      · exact hdeclared id (hpackage ▸ hid)
      · exact ⟨y, hm ▸ WellKnown.mem_register hy, hid⟩
    · exact Message.grounded_of_empty rfl rfl
  · have hx : x ∈ made.map MadeMethod.method := hmade.methods ▸ Array.mem_toList_iff.2 hx
    obtain ⟨y, hy, rfl⟩ := List.mem_map.1 hx
    obtain ⟨c, hc, hmake⟩ := Attempt.mapM_forall_right hmade.calls y hy
    have hknown : ∀ reference ∈ c.references, d.Knows reference := fun reference hreference =>
      hclosed reference (List.mem_append_right _ (List.mem_flatMap.2 ⟨c, hc, hreference⟩))
    rcases (grounded_makeMethod hmake hknown).2 id hid with hid | rfl
    · exact hdeclared id hid
    · obtain ⟨r, -, hr⟩ := Attempt.exists_mem_left hmade.held y hy
      exact ⟨_, Array.mem_of_getElem? hr, rfl⟩

/-- The model of a document whose references are closed is assembled without an error, whatever its
service configuration. -/
theorem crossReference_of_closed (h : d.model config = .ok m) (hclosed : d.Closed) :
    m.crossReference.error? = none :=
  (grounded_model h hclosed).error?_crossReference (.openApi h)

/-- A schema that refers to a component schema. -/
def referring (name : String) : Schema := { Schema.blank with reference := componentStart ++ name }

/-- A document whose schemas refer to each other by a property, a list and a map, and whose
operations take a parameter and a body and answer by reference. -/
def catalogue : Document :=
  { info := { title := "Catalogue" }
    paths := [("/v1/items",
      { get := some
          { operationId := "list"
            parameters := [{ name := "kind", location := "query", schema := referring "Kind" }]
            responses := [("200", ⟨[("application/json", ⟨referring "Item"⟩)]⟩)] }
        post := some
          { operationId := "create"
            requestBody := some { content := [("application/json", ⟨referring "Item"⟩)] } } })]
    schemas := [
      ("Item",
        { Schema.blank with
          kind := "object"
          properties := [
            ("kind", referring "Kind"),
            ("labels",
              { Schema.blank with
                kind := "object"
                additional := some (.values (referring "Kind")) }),
            ("parts", { Schema.blank with kind := "array", items := some (referring "Item") })] }),
      ("Kind", { Schema.blank with kind := "object" })] }

/-- The references of the catalogue are closed, so its model is assembled without an error. -/
theorem crossReference_of_closed_catalogue :
    ∃ m, catalogue.model none = .ok m ∧ catalogue.Closed ∧
    m.crossReference.error? = none := by
  have hread : (catalogue.model none).toOption.any (fun _ => true) = true := by decide +kernel
  have hclosed : catalogue.Closed := by decide +kernel
  obtain ⟨m, hm, -⟩ := Attempt.exists_ok_of_any hread
  exact ⟨m, hm, hclosed, crossReference_of_closed hm hclosed⟩

end OpenApi

end ApiModel
