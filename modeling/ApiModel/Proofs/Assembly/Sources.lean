import ApiModel.Proofs.Assembly.Annotation
import ApiModel.Proofs.Assembly.Resolution
import Mathlib.Data.List.Permutation

/-!
# Sources

The source of a model is what is left of it without everything that assembly derives: places of
types, marks, numbers and pages. Every pass of assembly keeps it, however far it gets, and whether a
model can be assembled is told by its source and its indices.
-/

namespace ApiModel

/-- The field without what is derived. -/
def Field.source (f : Field) : Field :=
  { f with target := none, map := false, repeated := false, recursive := false }

/-- The message without what is derived. -/
def Message.source (x : Message) : Message :=
  { x with fields := x.fields.map Field.source, pagination := none }

/-- The enumeration without what is derived. -/
def Enumeration.source (x : Enumeration) : Enumeration :=
  { x with uniqueNumberValues := [] }

/-- The operation without what is derived. -/
def OperationInfo.source (info : OperationInfo) : OperationInfo :=
  { info with responseType := none, metadataType := none }

/-- The method without what is derived. -/
def Method.source (x : Method) : Method :=
  { x with
    inputType := none
    outputType := none
    returnsEmpty := false
    operationInfo := x.operationInfo.map OperationInfo.source
    pagination := none }

namespace Model

/-- Whether two models have the same indices and the same source. -/
structure SameSource (m other : Model) : Prop extends SameOutline m other where
  /-- As many methods. -/
  methodCount : other.store.methods.size = m.store.methods.size
  /-- The messages are the same but for what is derived. -/
  messageSource : ∀ r, (other.message r).source = (m.message r).source
  /-- The enumerations are the same but for what is derived. -/
  enumSource : ∀ r, (other.enumeration r).source = (m.enumeration r).source
  /-- The methods are the same but for what is derived. -/
  methodSource : ∀ r, (other.method r).source = (m.method r).source
  /-- The services are the same. -/
  serviceSource : ∀ r, other.service r = m.service r

variable {m other last : Model}

namespace SameSource

/-- Every model has its own source. -/
theorem refl (m : Model) : SameSource m m :=
  ⟨SameOutline.refl m, rfl, fun _ => rfl, fun _ => rfl, fun _ => rfl, fun _ => rfl⟩

/-- Having the same source is passed on. -/
theorem trans (h : SameSource m other) (h' : SameSource other last) : SameSource m last where
  toSameOutline := h.toSameOutline.trans h'.toSameOutline
  methodCount := h'.methodCount.trans h.methodCount
  messageSource r := (h'.messageSource r).trans (h.messageSource r)
  enumSource r := (h'.enumSource r).trans (h.enumSource r)
  methodSource r := (h'.methodSource r).trans (h.methodSource r)
  serviceSource r := (h'.serviceSource r).trans (h.serviceSource r)

/-- Models of one source have the same map entries. -/
theorem isMap (h : SameSource m other) (r : MessageRef) :
    (other.message r).isMap = (m.message r).isMap := by
  have hsource := congrArg Message.isMap (h.messageSource r)
  exact hsource

/-- In models of one source a message has the same fields but for what is derived. -/
theorem fields (h : SameSource m other) (r : MessageRef) :
    (other.message r).fields.map Field.source = (m.message r).fields.map Field.source := by
  have hsource := congrArg Message.fields (h.messageSource r)
  exact hsource

/-- What holds of all fields of a message for their sources holds of them after a pass. -/
theorem forall_fields (h : SameSource m other) {P : Field → Prop} {r : MessageRef}
    (hP : ∀ f ∈ (m.message r).fields, P f.source) :
    ∀ f ∈ (other.message r).fields, P f.source := by
  rw [← List.forall_mem_map (P := P)] at hP ⊢
  rwa [h.fields r]

end SameSource

/-- A change of messages that keeps what was read of them keeps the source of the model. -/
theorem sameSource_messages : messageArena.SeenThrough Message.source SameSource :=
  fun m xs hsize h =>
    { SameSource.refl m with
      toSameOutline := sameOutline_messages m xs hsize fun r => (congrArg messageListing (h r) :)
      messageSource := h }

/-- A change of enumerations that keeps what was read of them keeps the source of the model. -/
theorem sameSource_enums : enumArena.SeenThrough Enumeration.source SameSource :=
  fun m xs hsize h =>
    { SameSource.refl m with
      toSameOutline := sameOutline_enums m xs hsize fun r => (congrArg Enumeration.id (h r) :)
      enumSource := h }

/-- A change of methods that keeps what was read of them keeps the source of the model. -/
theorem sameSource_methods : methodArena.SeenThrough Method.source SameSource :=
  fun m xs hsize h =>
    { SameSource.refl m with
      toSameOutline := sameOutline_methods m xs hsize fun r => (congrArg Method.id (h r) :)
      methodCount := hsize
      methodSource := h }

/-! ## The passes -/

/-- A field with a place for its type has the same source. -/
theorem source_linkedMessage (m : Model) (x : Message) : (m.linkedMessage x).source = x.source := by
  rw [Message.source, linkedMessage, List.map_map]
  rfl

/-- A method with places for its types has the same source. -/
theorem source_linkedMethod (m : Model) (x : Method) : (m.linkedMethod x).source = x.source := by
  rw [Method.source, linkedMethod, Option.map_map]
  rfl

/-- A map field has the same source. -/
theorem source_markedField (m : Model) (f : Field) : (m.markedField f).source = f.source := by
  unfold markedField
  split
  · rfl
  · rfl

/-- A message with its map fields marked has the same source. -/
theorem source_markedMessage (m : Model) (x : Message) : (m.markedMessage x).source = x.source := by
  rw [Message.source, markedMessage, List.map_map]
  have hfields : Field.source ∘ m.markedField = Field.source := funext m.source_markedField
  rw [hfields]
  rfl

/-- A message with its recursive fields marked has the same source. -/
theorem source_recursiveMessage (m : Model) (r : MessageRef) (x : Message) :
    (m.recursiveMessage r x).source = x.source := by
  rw [Message.source, recursiveMessage, List.map_map]
  rfl

/-- Resolving the fields keeps the source, however far it gets. -/
theorem sameSource_resolveFields (m : Model) : SameSource m m.resolveFields.model := by
  refine Outcome.forEach_relates SameSource.refl SameSource.trans (fun k r y hy => ?_) _ m
  rw [resolveMessage_eq] at hy
  obtain ⟨x, hx, rfl⟩ := Attempt.map_eq_ok.1 hy
  obtain ⟨-, rfl⟩ := resolvedMessage_eq_ok.1 hx
  exact sameSource_messages.modify (source_linkedMessage k _)

/-- Marking the maps keeps the source. -/
theorem sameSource_markAllMaps (m : Model) : SameSource m m.markAllMaps :=
  foldl_relates SameSource.refl SameSource.trans
    (fun k _ => sameSource_messages.modify (source_markedMessage k _)) _ m

/-- Resolving the methods keeps the source, however far it gets. -/
theorem sameSource_resolveMethods (m : Model) : SameSource m m.resolveMethods.model := by
  refine Outcome.forEach_relates SameSource.refl SameSource.trans (fun k r y hy => ?_) _ m
  obtain ⟨x, hx, rfl⟩ := Attempt.map_eq_ok.1 hy
  obtain ⟨-, rfl⟩ := resolveMethodNames_eq_ok.1 hx
  exact sameSource_methods.modify (source_linkedMethod k _)

/-- Marking the recursive fields keeps the source. -/
theorem sameSource_markAllRecursive (m : Model) : SameSource m m.markAllRecursive := by
  rw [markAllRecursive_eq_foldl]
  exact foldl_relates SameSource.refl SameSource.trans
    (fun k r => sameSource_messages.modify (source_recursiveMessage k r _)) _ m

/-- Finding the first values of numbers keeps the source. -/
theorem sameSource_findAllUniqueValues (m : Model) : SameSource m m.findAllUniqueValues :=
  foldl_relates SameSource.refl SameSource.trans (fun _ _ => sameSource_enums.modify rfl) _ m

/-- Noting pages keeps the source. -/
theorem sameSource_markAllPages (m : Model) : SameSource m m.markAllPages := by
  refine foldl_relates SameSource.refl SameSource.trans (fun k r => ?_) _ m
  rw [markPages_eq]
  split
  · exact SameSource.refl k
  · exact (sameSource_methods.modify rfl).trans (sameSource_messages.modify rfl)

/-- Annotating keeps the source. -/
theorem sameSource_annotate (m : Model) : SameSource m m.annotate :=
  ((sameSource_markAllRecursive m).trans (sameSource_findAllUniqueValues _)).trans
    (sameSource_markAllPages _)

/-- Checking the map entries keeps the model. -/
theorem model_checkMapEntries (m : Model) : (Outcome.ofStep m m.checkMapEntries).model = m := by
  unfold checkMapEntries
  split
  · rfl
  · rfl

/-- All of assembly behind the indices keeps the source, however far it gets. -/
theorem sameSource_crossReference (m : Model) :
    SameSource m.buildIndices m.crossReference.model := by
  rw [crossReference]
  refine Outcome.andThen_relates (R := SameSource) SameSource.trans ?_ fun k => ?_
  · refine Outcome.andThen_relates (R := SameSource) SameSource.trans ?_ fun k => ?_
    · refine Outcome.andThen_relates (R := SameSource) SameSource.trans
        (sameSource_resolveFields _) fun k => ?_
      rw [model_checkMapEntries]
      exact SameSource.refl k
    · exact (sameSource_markAllMaps k).trans (sameSource_resolveMethods _)
  · exact sameSource_annotate k

/-- All of assembly keeps the source of a message, however far it gets. -/
theorem source_crossReference (m : Model) (r : MessageRef) :
    (m.crossReference.model.message r).source = (m.message r).source := by
  rw [(sameSource_crossReference m).messageSource, message_buildIndices]

/-! ## What can be assembled -/

/-- Whether a message has the fields of a map entry, in whichever order. -/
def HasEntryShape (x : Message) : Prop :=
  (x.fields.map Field.name).Perm ["key", "value"]

/-- Whether every name that assembly looks up is found, and map entries have their two fields. -/
structure Resolvable (m : Model) : Prop where
  /-- The types of all fields are found. -/
  fields : ∀ r ∈ m.indexedMessages, ∀ f ∈ (m.message r).fields, m.FieldResolves f
  /-- All map entries have a key and a value. -/
  entries : ∀ r ∈ m.indexedMessages, (m.message r).isMap → HasEntryShape (m.message r)
  /-- The types of all methods are found. -/
  methods : ∀ r ∈ m.indexedMethods, m.MethodResolves (m.method r)

/-- The errors that assembly may stop at, each with the element that it names. -/
inductive Blame (m : Model) : Error → Prop
  /-- A field of an indexed message has a type that is not found. -/
  | field {r : MessageRef} {f : Field} (hr : r ∈ m.indexedMessages)
      (hf : f ∈ (m.message r).fields) (hnamed : f.type.isNamed)
      (hmissing : m.namedType? f = none) :
      Blame m (.unresolved f.id f.typeId)
  /-- An indexed map entry does not have a key and a value. -/
  | entry {r : MessageRef} (hr : r ∈ m.indexedMessages) (hmap : (m.message r).isMap)
      (hshape : ¬HasEntryShape (m.message r)) : Blame m (.mapEntryShape (m.message r).id)
  /-- An indexed method gives a name that is not found. -/
  | method {r : MethodRef} {id : String} (hr : r ∈ m.indexedMethods)
      (hid : id ∈ (m.method r).references) (hmissing : m.messageRef? id = none) :
      Blame m (.unresolved (m.method r).id id)

/-- The check of map entries tests their shape. -/
theorem isEntryShaped_iff {x : Message} : isEntryShaped x ↔ HasEntryShape x := by
  unfold isEntryShaped HasEntryShape
  rw [List.perm_pair, Bool.or_eq_true, beq_iff_eq, beq_iff_eq]

/-- The names that a method gives belong to its source. -/
theorem references_source (x : Method) : x.source.references = x.references := by
  rw [Method.references, Method.references, Method.source]
  cases x.operationInfo with
  | none => rfl
  | some info => rfl

/-- In models of one source a method gives the same names. -/
theorem SameSource.references (h : SameSource m other) (r : MethodRef) :
    (other.method r).references = (m.method r).references := by
  rw [← references_source, h.methodSource, references_source]

/-- In models of one source the names of the same methods are found. -/
theorem SameSource.methodResolves (h : SameSource m other) (r : MethodRef) :
    other.MethodResolves (other.method r) ↔ m.MethodResolves (m.method r) := by
  rw [MethodResolves, MethodResolves, h.references]
  simp only [h.messageRef?]

/-- In models of one source the same messages have the fields of a map entry. -/
theorem SameSource.hasEntryShape (h : SameSource m other) (r : MessageRef) :
    HasEntryShape (other.message r) ↔ HasEntryShape (m.message r) := by
  have hfields := congrArg (List.map Field.name) (h.fields r)
  rw [List.map_map, List.map_map] at hfields
  have hnames : (other.message r).fields.map Field.name = (m.message r).fields.map Field.name :=
    hfields
  rw [HasEntryShape, HasEntryShape, hnames]

/-- Models of one source can be assembled or not alike. -/
theorem Resolvable.of_sameSource (h : Resolvable m) (hsame : SameSource m other) :
    Resolvable other where
  fields r hr := by
    rw [hsame.indexedMessages] at hr
    refine hsame.forall_fields (P := other.FieldResolves) fun f hf hnamed => ?_
    rw [hsame.namedType?]
    exact h.fields r hr f hf hnamed
  entries r hr hmap := by
    rw [hsame.indexedMessages] at hr
    rw [hsame.isMap] at hmap
    exact (hsame.hasEntryShape r).2 (h.entries r hr hmap)
  methods r hr := by
    rw [hsame.indexedMethods] at hr
    exact (hsame.methodResolves r).2 (h.methods r hr)

/-- The check of map entries finds one without a key and a value if there is one. -/
theorem checkMapEntries_cases (m : Model) :
    ((∀ r ∈ m.indexedMessages, (m.message r).isMap → HasEntryShape (m.message r)) ∧
      m.checkMapEntries = .ok m) ∨
    ∃ r ∈ m.indexedMessages, (m.message r).isMap ∧ ¬HasEntryShape (m.message r) ∧
      m.checkMapEntries = .error (.mapEntryShape (m.message r).id) := by
  unfold checkMapEntries
  cases hfind : m.indexedMessages.find? fun r =>
      (m.message r).isMap && !isEntryShaped (m.message r) with
  | none =>
    refine .inl ⟨fun r hr hmap => ?_, rfl⟩
    have hr := List.find?_eq_none.1 hfind r hr
    rw [hmap, Bool.true_and, Bool.not_eq_true', Bool.not_eq_false] at hr
    exact isEntryShaped_iff.1 hr
  | some r =>
    have hr := List.find?_some hfind
    rw [Bool.and_eq_true, Bool.not_eq_true'] at hr
    refine .inr ⟨r, List.mem_of_find?_eq_some hfind, hr.1, fun hshape => ?_, rfl⟩
    rw [isEntryShaped_iff.2 hshape] at hr
    cases hr.2

/-- Where everything is found, there is nothing to blame. -/
theorem Resolvable.not_blame (h : Resolvable m) {e : Error} : ¬Blame m e := by
  intro hblame
  cases hblame with
  | field hr hf hnamed hmissing =>
    have hfound := h.fields _ hr _ hf hnamed
    rw [hmissing] at hfound
    cases hfound
  | entry hr hmap hshape => exact hshape (h.entries _ hr hmap)
  | method hr hid hmissing =>
    have hfound := h.methods _ hr _ hid
    rw [hmissing] at hfound
    cases hfound

end Model

end ApiModel
