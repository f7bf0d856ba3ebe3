import ApiModel.Assembly.CrossReference
import ApiModel.Proofs.Assembly.Indices
import ApiModel.Proofs.Attempt

/-!
# Resolution

What the names of fields and methods resolve to under given indices. Resolving all indexed elements
either gives every one of them the places of its names, or stops at a name that the indices do not
have.
-/

namespace ApiModel

/-- Whether the type of a field is told by a full name. -/
def FieldType.isNamed : FieldType → Bool
  | .message | .group | .enumeration => true
  | _ => false

/-- The full names that an operation gives for its types, of those that are not empty. -/
def OperationInfo.references (info : OperationInfo) : List String :=
  [info.responseTypeId, info.metadataTypeId].filter fun id => !id.isEmpty

/-- The full names of messages that a method gives. -/
def Method.references (x : Method) : List String :=
  x.inputTypeId :: x.outputTypeId :: x.operationInfo.toList.flatMap OperationInfo.references

namespace Model

/-- The place that the type of a field names, if it names one that is indexed. -/
def namedType? (m : Model) (f : Field) : Option TypeRef :=
  match f.type with
  | .message | .group => (m.messageRef? f.typeId).map TypeRef.message
  | .enumeration => (m.enumRef? f.typeId).map TypeRef.enumeration
  | _ => none

/-- The place that a full name stands for, unless it is empty. -/
def optionalRef? (m : Model) (id : String) : Option MessageRef :=
  if id.isEmpty then none else m.messageRef? id

/-- The field with the place of its type. -/
def linkedField (m : Model) (f : Field) : Field :=
  { f with target := m.namedType? f }

/-- The message with the places of the types of its fields. -/
def linkedMessage (m : Model) (x : Message) : Message :=
  { x with fields := x.fields.map m.linkedField }

/-- The operation with the places of its types. -/
def linkedOperation (m : Model) (info : OperationInfo) : OperationInfo :=
  { info with
    responseType := m.optionalRef? info.responseTypeId
    metadataType := m.optionalRef? info.metadataTypeId }

/-- The method with the places of its types. -/
def linkedMethod (m : Model) (x : Method) : Method :=
  { x with
    inputType := m.messageRef? x.inputTypeId
    outputType := m.messageRef? x.outputTypeId
    returnsEmpty := x.outputTypeId == WellKnown.emptyId
    operationInfo := x.operationInfo.map m.linkedOperation }

/-- Whether the type of a field is found, if it is told by a full name. -/
def FieldResolves (m : Model) (f : Field) : Prop :=
  f.type.isNamed → (m.namedType? f).isSome

/-- Whether all full names that a method gives are found. -/
def MethodResolves (m : Model) (x : Method) : Prop :=
  ∀ id ∈ x.references, (m.messageRef? id).isSome

variable {m other : Model}

/-! ## Fields -/

/-- A type that is not told by a full name stands for no place. -/
theorem namedType?_of_not_isNamed {f : Field} (h : f.type.isNamed = false) :
    m.namedType? f = none := by
  unfold namedType?
  cases ht : f.type <;> rw [ht] at h <;> first | rfl | cases h

/-- Resolving a field looks up its name and fails if the name is not found. -/
theorem resolveTarget_eq (m : Model) (f : Field) :
    m.resolveTarget f =
      if f.type.isNamed && (m.namedType? f).isNone then .error (.unresolved f.id f.typeId)
      else .ok (m.namedType? f) := by
  unfold resolveTarget namedType?
  cases f.type with
  | message => cases m.messageRef? f.typeId <;> rfl
  | group => cases m.messageRef? f.typeId <;> rfl
  | enumeration => cases m.enumRef? f.typeId <;> rfl
  | _ => rfl

/-- A field is resolved if and only if its name is found. -/
theorem resolveField_eq_ok {f g : Field} :
    m.resolveField f = .ok g ↔ m.FieldResolves f ∧ m.linkedField f = g := by
  rw [resolveField, resolveTarget_eq, FieldResolves, linkedField]
  cases f.type.isNamed <;> cases m.namedType? f <;>
    simp [Except.map]

/-- A field is not resolved if and only if its name is not found. -/
theorem resolveField_eq_error {f : Field} {e : Error} :
    m.resolveField f = .error e ↔
      f.type.isNamed ∧ m.namedType? f = none ∧ e = .unresolved f.id f.typeId := by
  rw [resolveField, resolveTarget_eq]
  cases f.type.isNamed <;> cases m.namedType? f <;>
    simp [Except.map, eq_comm]

/-- Models of one outline find the same place for the type of a field. -/
theorem SameOutline.namedType? (h : SameOutline m other) (f : Field) :
    other.namedType? f = m.namedType? f := by
  unfold Model.namedType?
  rw [h.messageRef?, h.enumRef?]

/-- Models of one outline resolve a field alike, or fail alike. -/
theorem SameOutline.resolveField (h : SameOutline m other) (f : Field) :
    other.resolveField f = m.resolveField f := by
  rw [Model.resolveField, Model.resolveField, resolveTarget_eq, resolveTarget_eq, h.namedType?]

/-- The attempt to resolve the fields of a message. -/
def resolvedMessage (m : Model) (x : Message) : Except Error Message :=
  (x.fields.mapM m.resolveField).map fun fields => { x with fields := fields }

/-- The fields of a message are resolved if and only if all names are found. -/
theorem resolvedMessage_eq_ok {x y : Message} :
    m.resolvedMessage x = .ok y ↔ (∀ f ∈ x.fields, m.FieldResolves f) ∧
    m.linkedMessage x = y := by
  rw [resolvedMessage, Attempt.map_eq_ok]
  constructor
  · rintro ⟨fields, hfields, rfl⟩
    have hall := Attempt.mapM_eq_ok.1 hfields
    have hlinked : List.Forall₂ (fun f g => m.linkedField f = g) x.fields fields :=
      hall.imp fun f g h => (resolveField_eq_ok.1 h).2
    rw [List.forall₂_map_left_iff.symm, List.forall₂_eq_eq_eq] at hlinked
    refine ⟨fun f hf => ?_, by rw [linkedMessage, hlinked]⟩
    obtain ⟨g, -, hg⟩ := Attempt.mapM_forall_left hfields f hf
    exact (resolveField_eq_ok.1 hg).1
  · rintro ⟨hall, rfl⟩
    exact ⟨_, Attempt.mapM_eq_map fun f hf => resolveField_eq_ok.2 ⟨hall f hf, rfl⟩, rfl⟩

/-- The fields of a message are not resolved because of one of them. -/
theorem of_resolvedMessage_eq_error {x : Message} {e : Error} (h : m.resolvedMessage x = .error e) :
    ∃ f ∈ x.fields, f.type.isNamed ∧ m.namedType? f = none ∧
    e = .unresolved f.id f.typeId := by
  obtain ⟨f, hf, he⟩ := Attempt.of_mapM_eq_error (Attempt.map_eq_error.1 h)
  exact ⟨f, hf, resolveField_eq_error.1 he⟩

/-- Resolving the fields of a message changes that message. -/
theorem resolveMessage_eq (m : Model) (r : MessageRef) :
    m.resolveMessage r =
      (m.resolvedMessage (m.message r)).map fun y => messageArena.modify m r fun _ => y := by
  rw [resolveMessage, resolvedMessage]
  cases (m.message r).fields.mapM m.resolveField with
  | error e => rfl
  | ok fields => exact congrArg Except.ok (messageArena.modify_congr fun _ => rfl)

/-- Resolving all fields comes to its end, and gives all fields of indexed messages their places, if
every name is found, and stops at a name that is not found else. -/
theorem resolveFields_cases (hindexed : m.indexedMessages.Nodup) :
    ((∀ r ∈ m.indexedMessages, ∀ f ∈ (m.message r).fields, m.FieldResolves f) ∧
      m.resolveFields =
        ⟨messageArena.map m fun r x => if r ∈ m.indexedMessages then m.linkedMessage x else x,
          none⟩) ∨
    ∃ r ∈ m.indexedMessages, ∃ f ∈ (m.message r).fields, f.type.isNamed ∧
      m.namedType? f = none ∧
      m.resolveFields.error? = some (.unresolved f.id f.typeId) := by
  have hstep : ∀ k r, SameOutline m k → k.resolveMessage r =
      (m.resolvedMessage (messageArena.get k r)).map fun y =>
        messageArena.modify k r fun _ => y := by
    intro k r hk
    have hfields : k.resolveField = m.resolveField := funext hk.resolveField
    rw [resolveMessage_eq, resolvedMessage, resolvedMessage, hfields]
    rfl
  have hkeep : ∀ k r y, SameOutline m k → m.resolvedMessage (messageArena.get k r) = .ok y →
      SameOutline m (messageArena.modify k r fun _ => y) := by
    intro k r y hk hy
    obtain ⟨-, rfl⟩ := resolvedMessage_eq_ok.1 hy
    exact hk.trans (sameOutline_messages.modify rfl)
  rcases messageArena.forEach_eq_map hstep hkeep hindexed (SameOutline.refl m) with
    ⟨made, hmade, heq⟩ | ⟨e, he, r, hr, hfail⟩
  · refine .inl ⟨fun r hr => (resolvedMessage_eq_ok.1 (hmade r hr)).1, ?_⟩
    rw [resolveFields, heq]
    refine congrArg (Outcome.mk · none) (messageArena.map_congr fun r _ => ?_)
    split
    · rename_i hr
      exact (resolvedMessage_eq_ok.1 (hmade r hr)).2.symm
    · rfl
  · obtain ⟨f, hf, hnamed, hnone, rfl⟩ := of_resolvedMessage_eq_error hfail
    exact .inr ⟨r, hr, f, hf, hnamed, hnone, he⟩

/-! ## Methods -/

/-- A message name is resolved if and only if it is found. -/
theorem resolveMessageId_eq_ok {owner id : String} {r : MessageRef} :
    m.resolveMessageId owner id = .ok r ↔ m.messageRef? id = some r := by
  unfold resolveMessageId
  cases m.messageRef? id <;> simp

/-- A message name is not resolved if and only if it is not found. -/
theorem resolveMessageId_eq_error {owner id : String} {e : Error} :
    m.resolveMessageId owner id = .error e ↔
      m.messageRef? id = none ∧ e = .unresolved owner id := by
  unfold resolveMessageId
  cases m.messageRef? id <;> simp [eq_comm]

/-- A message name that may be empty is resolved if and only if it is empty or found. -/
theorem resolveOptionalId_eq_ok {owner id : String} {r : Option MessageRef} :
    m.resolveOptionalId owner id = .ok r ↔
      (id.isEmpty = false → (m.messageRef? id).isSome) ∧ m.optionalRef? id = r := by
  unfold resolveOptionalId optionalRef?
  cases id.isEmpty with
  | true => simp
  | false =>
    simp only [Bool.false_eq_true, reduceIte, forall_const, Attempt.map_eq_ok,
      resolveMessageId_eq_ok]
    cases m.messageRef? id <;> simp

/-- A message name that may be empty is not resolved if and only if it is neither empty nor
found. -/
theorem resolveOptionalId_eq_error {owner id : String} {e : Error} :
    m.resolveOptionalId owner id = .error e ↔
      id.isEmpty = false ∧ m.messageRef? id = none ∧ e = .unresolved owner id := by
  unfold resolveOptionalId
  cases id.isEmpty with
  | true => simp
  | false =>
    simp only [Bool.false_eq_true, reduceIte, Attempt.map_eq_error, resolveMessageId_eq_error,
      true_and]

/-- The names of an operation are its references if they are not empty. -/
theorem mem_operationReferences {info : OperationInfo} {id : String} :
    id ∈ info.references ↔
      (id = info.responseTypeId ∨ id = info.metadataTypeId) ∧ id.isEmpty = false := by
  rw [OperationInfo.references, List.mem_filter, List.mem_cons, List.mem_singleton,
    Bool.not_eq_true']

/-- An operation is resolved if and only if its names are found. -/
theorem resolveOperation_eq_ok {owner : String} {info made : OperationInfo} :
    m.resolveOperation owner info = .ok made ↔
      (∀ id ∈ info.references, (m.messageRef? id).isSome) ∧
      m.linkedOperation info = made := by
  rw [resolveOperation, Attempt.bind_eq_ok]
  constructor
  · rintro ⟨response, hresponse, h⟩
    obtain ⟨metadata, hmetadata, h⟩ := Attempt.bind_eq_ok.1 h
    obtain ⟨hfirst, rfl⟩ := resolveOptionalId_eq_ok.1 hresponse
    obtain ⟨hsecond, rfl⟩ := resolveOptionalId_eq_ok.1 hmetadata
    refine ⟨fun id hid => ?_, Except.ok.inj h⟩
    obtain ⟨rfl | rfl, hempty⟩ := mem_operationReferences.1 hid
    · exact hfirst hempty
    · exact hsecond hempty
  · rintro ⟨hall, rfl⟩
    refine ⟨_, resolveOptionalId_eq_ok.2 ⟨fun h => ?_, rfl⟩,
      Attempt.bind_eq_ok.2 ⟨_, resolveOptionalId_eq_ok.2 ⟨fun h => ?_, rfl⟩, rfl⟩⟩
    · exact hall _ (mem_operationReferences.2 ⟨.inl rfl, h⟩)
    · exact hall _ (mem_operationReferences.2 ⟨.inr rfl, h⟩)

/-- An operation is not resolved because of one of its names. -/
theorem of_resolveOperation_eq_error {owner : String} {info : OperationInfo} {e : Error}
    (h : m.resolveOperation owner info = .error e) :
    ∃ id ∈ info.references, m.messageRef? id = none ∧ e = .unresolved owner id := by
  rw [resolveOperation] at h
  cases hresponse : m.resolveOptionalId owner info.responseTypeId with
  | error e' =>
    rw [hresponse] at h
    cases h
    obtain ⟨hempty, hnone, rfl⟩ := resolveOptionalId_eq_error.1 hresponse
    exact ⟨_, mem_operationReferences.2 ⟨.inl rfl, hempty⟩, hnone, rfl⟩
  | ok response =>
    rw [hresponse] at h
    cases hmetadata : m.resolveOptionalId owner info.metadataTypeId with
    | error e' =>
      simp only [hmetadata] at h
      cases h
      obtain ⟨hempty, hnone, rfl⟩ := resolveOptionalId_eq_error.1 hmetadata
      exact ⟨_, mem_operationReferences.2 ⟨.inr rfl, hempty⟩, hnone, rfl⟩
    | ok metadata =>
      simp only [hmetadata] at h
      cases h

/-- The names of a method are those of its request, its response and its operation. -/
theorem methodResolves_iff {x : Method} :
    m.MethodResolves x ↔
      (m.messageRef? x.inputTypeId).isSome ∧ (m.messageRef? x.outputTypeId).isSome ∧
        ∀ info ∈ x.operationInfo, ∀ id ∈ info.references, (m.messageRef? id).isSome := by
  rw [MethodResolves, Method.references, List.forall_mem_cons, List.forall_mem_cons]
  refine and_congr_right fun _ => and_congr_right fun _ => ?_
  cases x.operationInfo with
  | none => simp
  | some info => simp

/-- A method is resolved if and only if all names that it gives are found. -/
theorem resolveMethodNames_eq_ok {x y : Method} :
    m.resolveMethodNames x = .ok y ↔ m.MethodResolves x ∧ m.linkedMethod x = y := by
  rw [resolveMethodNames, Attempt.bind_eq_ok, methodResolves_iff]
  constructor
  · rintro ⟨input, hinput, h⟩
    obtain ⟨output, houtput, h⟩ := Attempt.bind_eq_ok.1 h
    obtain ⟨operation, hoperation, h⟩ := Attempt.bind_eq_ok.1 h
    have hinput := resolveMessageId_eq_ok.1 hinput
    have houtput := resolveMessageId_eq_ok.1 houtput
    have hinfo :
      (∀ info ∈ x.operationInfo, ∀ id ∈ info.references, (m.messageRef? id).isSome) ∧
        x.operationInfo.map m.linkedOperation = operation := by
      cases hx : x.operationInfo with
      | none =>
        rw [hx] at hoperation
        cases hoperation
        exact ⟨fun info hinfo => (Option.not_mem_none info hinfo).elim, rfl⟩
      | some info =>
        rw [hx, Option.mapM_some] at hoperation
        obtain ⟨made, hmade, hoperation⟩ := Attempt.map_eq_ok.1 hoperation
        obtain ⟨hall, rfl⟩ := resolveOperation_eq_ok.1 hmade
        subst hoperation
        exact ⟨fun i hi => Option.mem_some.1 hi ▸ hall, rfl⟩
    refine ⟨⟨?_, ?_, hinfo.1⟩, ?_⟩
    · rw [hinput]
      rfl
    · rw [houtput]
      rfl
    · rw [linkedMethod, hinput, houtput, hinfo.2]
      exact Except.ok.inj h
  · rintro ⟨⟨hinput, houtput, hinfo⟩, rfl⟩
    obtain ⟨input, hinput⟩ := Option.isSome_iff_exists.1 hinput
    obtain ⟨output, houtput⟩ := Option.isSome_iff_exists.1 houtput
    refine ⟨input, resolveMessageId_eq_ok.2 hinput, Attempt.bind_eq_ok.2
      ⟨output, resolveMessageId_eq_ok.2 houtput, Attempt.bind_eq_ok.2
        ⟨x.operationInfo.map m.linkedOperation, ?_, ?_⟩⟩⟩
    · cases hx : x.operationInfo with
      | none => rfl
      | some info =>
        rw [Option.mapM_some]
        exact Attempt.map_eq_ok.2
          ⟨_, resolveOperation_eq_ok.2 ⟨hinfo info hx, rfl⟩, rfl⟩
    · rw [linkedMethod, hinput, houtput]
      rfl

/-- A method is not resolved because of one of the names that it gives. -/
theorem of_resolveMethodNames_eq_error {x : Method} {e : Error}
    (h : m.resolveMethodNames x = .error e) :
    ∃ id ∈ x.references, m.messageRef? id = none ∧ e = .unresolved x.id id := by
  rw [resolveMethodNames] at h
  cases hinput : m.resolveMessageId x.id x.inputTypeId with
  | error e' =>
    rw [hinput] at h
    cases h
    obtain ⟨hnone, rfl⟩ := resolveMessageId_eq_error.1 hinput
    exact ⟨_, List.mem_cons_self, hnone, rfl⟩
  | ok input =>
    rw [hinput] at h
    cases houtput : m.resolveMessageId x.id x.outputTypeId with
    | error e' =>
      simp only [houtput] at h
      cases h
      obtain ⟨hnone, rfl⟩ := resolveMessageId_eq_error.1 houtput
      exact ⟨_, List.mem_cons_of_mem _ List.mem_cons_self, hnone, rfl⟩
    | ok output =>
      simp only [houtput] at h
      cases hx : x.operationInfo with
      | none =>
        simp only [hx] at h
        cases h
      | some info =>
        cases hoperation : m.resolveOperation x.id info with
        | error e' =>
          simp only [hx, Option.mapM_some, hoperation] at h
          cases h
          obtain ⟨id, hid, hnone, rfl⟩ := of_resolveOperation_eq_error hoperation
          refine ⟨id, ?_, hnone, rfl⟩
          rw [Method.references, hx, Option.toList_some, List.flatMap_singleton]
          exact List.mem_cons_of_mem _ (List.mem_cons_of_mem _ hid)
        | ok made =>
          simp only [hx, Option.mapM_some, hoperation] at h
          cases h

/-- Models of one outline link a method to the same places. -/
theorem SameOutline.linkedMethod (h : SameOutline m other) (x : Method) :
    other.linkedMethod x = m.linkedMethod x := by
  have hoptional : other.optionalRef? = m.optionalRef? := by
    funext id
    rw [optionalRef?, optionalRef?, h.messageRef?]
  have hoperation : other.linkedOperation = m.linkedOperation := by
    funext info
    rw [linkedOperation, linkedOperation, hoptional]
  rw [Model.linkedMethod, Model.linkedMethod, h.messageRef?, h.messageRef?, hoperation]

/-- Models of one outline resolve the names of a method alike, or fail alike. -/
theorem SameOutline.resolveMethodNames (h : SameOutline m other) (x : Method) :
    other.resolveMethodNames x = m.resolveMethodNames x := by
  have hid : other.resolveMessageId = m.resolveMessageId := by
    funext owner id
    rw [resolveMessageId, resolveMessageId, h.messageRef?]
  have hoperation : other.resolveOperation = m.resolveOperation := by
    funext owner info
    rw [resolveOperation, resolveOperation, resolveOptionalId, resolveOptionalId, resolveOptionalId,
      resolveOptionalId, hid]
  rw [Model.resolveMethodNames, Model.resolveMethodNames, hid, hoperation]

/-- Resolving the methods comes to its end, and gives all indexed methods their places, if every
name is found, and stops at a name that is not found else. -/
theorem resolveMethods_cases (hindexed : m.indexedMethods.Nodup) :
    ((∀ r ∈ m.indexedMethods, m.MethodResolves (m.method r)) ∧
      m.resolveMethods =
        ⟨methodArena.map m fun r x => if r ∈ m.indexedMethods then m.linkedMethod x
          else x, none⟩) ∨
    ∃ r ∈ m.indexedMethods, ∃ id ∈ (m.method r).references, m.messageRef? id = none ∧
      m.resolveMethods.error? = some (.unresolved (m.method r).id id) := by
  have hstep : ∀ k r, SameOutline m k → k.resolveMethod r =
      (m.resolveMethodNames (methodArena.get k r)).map fun y =>
        methodArena.modify k r fun _ => y := by
    intro k r hk
    rw [resolveMethod, hk.resolveMethodNames]
    rfl
  have hkeep : ∀ k r y, SameOutline m k → m.resolveMethodNames (methodArena.get k r) = .ok y →
      SameOutline m (methodArena.modify k r fun _ => y) := by
    intro k r y hk hy
    obtain ⟨-, rfl⟩ := resolveMethodNames_eq_ok.1 hy
    exact hk.trans (sameOutline_methods.modify rfl)
  rcases methodArena.forEach_eq_map hstep hkeep hindexed (SameOutline.refl m) with
    ⟨made, hmade, heq⟩ | ⟨e, he, r, hr, hfail⟩
  · refine .inl ⟨fun r hr => (resolveMethodNames_eq_ok.1 (hmade r hr)).1, ?_⟩
    rw [resolveMethods, heq]
    refine congrArg (Outcome.mk · none) (methodArena.map_congr fun r _ => ?_)
    split
    · rename_i hr
      exact (resolveMethodNames_eq_ok.1 (hmade r hr)).2.symm
    · rfl
  · obtain ⟨id, hid, hnone, rfl⟩ := of_resolveMethodNames_eq_error hfail
    exact .inr ⟨r, hr, id, hid, hnone, he⟩

end Model

end ApiModel
