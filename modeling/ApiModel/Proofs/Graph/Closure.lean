import ApiModel.Proofs.Assembly.Exactness
import ApiModel.Proofs.Graph.Links
import ApiModel.Proofs.Graph.Retention
import ApiModel.Proofs.Graph.Runs

/-!
# Closed models

A model is closed if every name that an indexed element refers to is found, at the very place that
the element has for it. Assembly gives a closed model. Skipping does not look at what refers to the
elements that it drops, so the model stays closed exactly if all that is referred to is retained.
-/

namespace ApiModel

open Model

/-- Whether every name that an indexed element refers to is found at the place that the element has
for it. -/
structure Model.Closed (m : Model) : Prop where
  /-- The fields of indexed messages. -/
  fields : ∀ r ∈ m.indexedMessages, ∀ f ∈ (m.message r).fields, FieldLinked m f
  /-- The indexed methods. -/
  methods : ∀ r ∈ m.indexedMethods, ReferencesLinked m (m.method r)

namespace Selection

/-- Whether a place is there and a selection retains the message at it. -/
def RetainsMessage (s : Selection) (m : Model) (place : Option MessageRef) : Prop :=
  ∃ r, place = some r ∧ s.Retains m (.message r)

/-- Whether a selection retains all types of a method. -/
structure RetainsCall (s : Selection) (m : Model) (x : Method) : Prop where
  /-- The request. -/
  input : s.RetainsMessage m x.inputType
  /-- The response. -/
  output : s.RetainsMessage m x.outputType
  /-- The response of a long-running operation, if it has a name. -/
  response : ∀ info ∈ x.operationInfo, info.responseTypeId ≠ "" →
    s.RetainsMessage m info.responseType
  /-- The metadata of a long-running operation, if they have a name. -/
  metadata : ∀ info ∈ x.operationInfo, info.metadataTypeId ≠ "" →
    s.RetainsMessage m info.metadataType

/-- Whether a selection retains whatever the indexed elements of the model that it leaves are linked
to. -/
structure RetainsLinks (s : Selection) (m other : Model) : Prop where
  /-- The types of fields. -/
  fields : ∀ r ∈ other.indexedMessages, ∀ f ∈ (m.message r).fields, f.type.isNamed →
    ∃ t, f.target = some t ∧ s.Retains m t
  /-- The types of methods. -/
  methods : ∀ r ∈ other.indexedMethods, s.RetainsCall m (m.method r)

/-- Whether an indexed model is what a selection leaves of another. -/
structure Leaves (s : Selection) (m other : Model) : Prop extends Reduction m other where
  /-- The indices before. -/
  indexed : Indexed m
  /-- The indices after. -/
  indexedAfter : Indexed other
  /-- No message was visited twice. -/
  messagesOnce : m.visitedMessages.Nodup
  /-- No enumeration was visited twice. -/
  enumsOnce : m.visitedEnums.Nodup
  /-- What is retained is visited. -/
  visited : ∀ t, other.Visited t ↔ s.Retains m t

variable {s : Selection} {m other : Model}

/-- The links of a method do not depend on its service. -/
theorem referencesLinked_unowned {x : Method} :
    ReferencesLinked m x.unowned ↔ ReferencesLinked m x :=
  ⟨fun h => ⟨h.input, h.output, h.response, h.metadata⟩,
    fun h => ⟨h.input, h.output, h.response, h.metadata⟩⟩

namespace Leaves

variable (h : Leaves s m other)

include h

/-! ## Names -/

/-- A message that is retained is found under its name. -/
theorem messageRef?_of_retains {id : String} {r : MessageRef} (hr : m.messageRef? id = some r)
    (hretained : s.Retains m (.message r)) : other.messageRef? id = some r := by
  rw [messageRef?, h.indexed.messages] at hr
  rw [messageRef?, h.indexedAfter.messages, indexBy_congr fun r _ => h.messageId r]
  exact get?_indexBy_of_sublist h.messagesOnce h.visitedMessages ((h.visited _).2 hretained) hr

/-- A message that is found is retained. -/
theorem retains_of_messageRef? {id : String} {r : MessageRef} (hr : other.messageRef? id = some r) :
    s.Retains m (.message r) :=
  (h.visited (.message r)).1 (h.indexedAfter.of_messageRef? hr).1

/-- An enumeration that is retained is found under its name. -/
theorem enumRef?_of_retains {id : String} {r : EnumRef} (hr : m.enumRef? id = some r)
    (hretained : s.Retains m (.enumeration r)) : other.enumRef? id = some r := by
  rw [enumRef?, h.indexed.enums] at hr
  rw [enumRef?, h.indexedAfter.enums, indexBy_congr fun r _ =>
    congrArg Enumeration.id (h.enumeration r)]
  exact get?_indexBy_of_sublist h.enumsOnce h.visitedEnums ((h.visited _).2 hretained) hr

/-- An enumeration that is found is retained. -/
theorem retains_of_enumRef? {id : String} {r : EnumRef} (hr : other.enumRef? id = some r) :
    s.Retains m (.enumeration r) :=
  (h.visited (.enumeration r)).1 (h.indexedAfter.of_enumRef? hr).1

/-- The type of a field that is retained is found under its name. -/
theorem namedType?_of_retains {f : Field} {t : TypeRef} (ht : m.namedType? f = some t)
    (hretained : s.Retains m t) : other.namedType? f = some t := by
  unfold namedType? at ht ⊢
  split at ht
  · obtain ⟨r, hr, rfl⟩ := Option.map_eq_some_iff.1 ht
    rw [h.messageRef?_of_retains hr hretained]
    rfl
  · obtain ⟨r, hr, rfl⟩ := Option.map_eq_some_iff.1 ht
    rw [h.messageRef?_of_retains hr hretained]
    rfl
  · obtain ⟨r, hr, rfl⟩ := Option.map_eq_some_iff.1 ht
    rw [h.enumRef?_of_retains hr hretained]
    rfl
  · cases ht

/-! ## Links -/

/-- A field is linked exactly if its type, where it has a name, is retained. -/
theorem fieldLinked_iff {f : Field} (hf : f.target = none ∨ f.target = m.namedType? f) :
    FieldLinked other f ↔ (f.type.isNamed → ∃ t, f.target = some t ∧ s.Retains m t) := by
  constructor
  · intro hlinked hnamed
    cases htype : f.type with
    | message =>
      obtain ⟨r, hr, htarget⟩ := hlinked.message (.inl htype)
      exact ⟨_, htarget, h.retains_of_messageRef? hr⟩
    | group =>
      obtain ⟨r, hr, htarget⟩ := hlinked.message (.inr htype)
      exact ⟨_, htarget, h.retains_of_messageRef? hr⟩
    | enumeration =>
      obtain ⟨r, hr, htarget⟩ := hlinked.enumeration htype
      exact ⟨_, htarget, h.retains_of_enumRef? hr⟩
    | _ =>
      rw [htype] at hnamed
      cases hnamed
  · intro hretained
    have htarget : f.target = other.namedType? f := by
      cases hnamed : f.type.isNamed with
      | false =>
        rw [namedType?_of_not_isNamed hnamed] at hf ⊢
        exact hf.elim id id
      | true =>
        obtain ⟨t, ht, hkept⟩ := hretained hnamed
        rcases hf with hf | hf
        · rw [ht] at hf
          cases hf
        · rw [ht, h.namedType?_of_retains (hf ▸ ht) hkept]
    refine FieldLinked.of_target (fun hnamed => ?_) htarget
    obtain ⟨t, ht, -⟩ := hretained hnamed
    rw [← htarget, ht]
    rfl

/-- A name is linked exactly if its message is retained. -/
theorem messageLinked_iff {id : String} {place : Option MessageRef}
    (hplace : place = none ∨ place = m.messageRef? id) :
    (∃ r, other.messageRef? id = some r ∧ place = some r) ↔ s.RetainsMessage m place := by
  constructor
  · rintro ⟨r, hr, hsome⟩
    exact ⟨r, hsome, h.retains_of_messageRef? hr⟩
  · rintro ⟨r, hsome, hretained⟩
    refine ⟨r, ?_, hsome⟩
    rcases hplace with hplace | hplace
    · rw [hsome] at hplace
      cases hplace
    · exact h.messageRef?_of_retains (hplace ▸ hsome) hretained

/-- A name that may be empty is linked exactly if it is empty or its message is retained. -/
theorem optionalLinked_iff {id : String} {place : Option MessageRef}
    (hplace : place = none ∨ place = m.optionalRef? id) :
    OptionalLinked other id place ↔ (id ≠ "" → s.RetainsMessage m place) := by
  have hnamed : id ≠ "" → (place = none ∨ place = m.messageRef? id) := by
    intro hid
    have hempty : id.isEmpty = false := by simpa using hid
    rw [optionalRef?, hempty] at hplace
    exact hplace
  constructor
  · intro hlinked hid
    exact (h.messageLinked_iff (hnamed hid)).1 (hlinked.named hid)
  · intro hretained
    refine ⟨fun hid => (h.messageLinked_iff (hnamed hid)).2 (hretained hid), fun hid => ?_⟩
    subst hid
    exact hplace.elim id id

/-- A method is linked exactly if its types are retained. -/
theorem referencesLinked_iff {x : Method} (hx : Unresolved x ∨ m.linkedMethod x = x) :
    ReferencesLinked other x ↔ s.RetainsCall m x := by
  have hinput : x.inputType = none ∨ x.inputType = m.messageRef? x.inputTypeId :=
    hx.imp Unresolved.inputType fun hlinked => (congrArg Method.inputType hlinked).symm
  have houtput : x.outputType = none ∨ x.outputType = m.messageRef? x.outputTypeId :=
    hx.imp Unresolved.outputType fun hlinked => (congrArg Method.outputType hlinked).symm
  have hoperation : ∀ info ∈ x.operationInfo,
      info.responseType = none ∧ info.metadataType = none ∨ m.linkedOperation info = info := by
    intro info hinfo
    refine hx.imp
      (fun hfresh => ⟨hfresh.responseType info hinfo, hfresh.metadataType info hinfo⟩)
      fun hlinked => ?_
    have hmap := congrArg Method.operationInfo hlinked
    change x.operationInfo.map m.linkedOperation = x.operationInfo at hmap
    rw [Option.mem_def.1 hinfo] at hmap
    exact Option.some.inj hmap
  have hresponse : ∀ info ∈ x.operationInfo,
      OptionalLinked other info.responseTypeId info.responseType ↔
        (info.responseTypeId ≠ "" → s.RetainsMessage m info.responseType) := fun info hinfo =>
    h.optionalLinked_iff ((hoperation info hinfo).imp And.left fun hlinked =>
      (congrArg OperationInfo.responseType hlinked).symm)
  have hmetadata : ∀ info ∈ x.operationInfo,
      OptionalLinked other info.metadataTypeId info.metadataType ↔
        (info.metadataTypeId ≠ "" → s.RetainsMessage m info.metadataType) := fun info hinfo =>
    h.optionalLinked_iff ((hoperation info hinfo).imp And.right fun hlinked =>
      (congrArg OperationInfo.metadataType hlinked).symm)
  constructor
  · intro hlinked
    exact ⟨(h.messageLinked_iff hinput).1 hlinked.input,
      (h.messageLinked_iff houtput).1 hlinked.output, fun info hinfo =>
      (hresponse info hinfo).1 (hlinked.response info hinfo),
      fun info hinfo => (hmetadata info hinfo).1 (hlinked.metadata info hinfo)⟩
  · intro hretained
    exact ⟨(h.messageLinked_iff hinput).2 hretained.input,
      (h.messageLinked_iff houtput).2 hretained.output,
      fun info hinfo => (hresponse info hinfo).2 (hretained.response info hinfo),
      fun info hinfo => (hmetadata info hinfo).2 (hretained.metadata info hinfo)⟩

/-- The model that is left is closed exactly if all links of its indexed elements are retained. -/
theorem closed_iff (hlinked : Linked m) : Closed other ↔ s.RetainsLinks m other := by
  have hmethod : ∀ r, ReferencesLinked other (other.method r) ↔
      s.RetainsCall m (m.method r) := by
    intro r
    have hsame := h.method r
    rw [← h.referencesLinked_iff (hlinked.methods r), ← referencesLinked_unowned, hsame,
      referencesLinked_unowned]
  constructor
  · intro hclosed
    refine ⟨fun r hr f hf => ?_, fun r hr => (hmethod r).1 (hclosed.methods r hr)⟩
    refine (h.fieldLinked_iff (hlinked.fields r f hf)).1 (hclosed.fields r hr f ?_)
    rw [h.toReduction.fields]
    exact hf
  · intro hretained
    refine ⟨fun r hr f hf => ?_, fun r hr => (hmethod r).2 (hretained.methods r hr)⟩
    rw [h.toReduction.fields] at hf
    exact (h.fieldLinked_iff (hlinked.fields r f hf)).2 (hretained.fields r hr f hf)

end Leaves

end Selection

end ApiModel
