import ApiModel.Proofs.Assembly.Settled

/-!
# Exactness of assembly

Assembly comes to its end if and only if every name that it looks up is found and every map entry
has its two fields. Then every named type has the very place that the indices give its name,
whatever places an earlier run had left, and everything that belongs to the source is kept.
Otherwise its error names an element and a name that is really missing.
-/

namespace ApiModel.Model

/-- Whether a field has the place that the indices give its type, and none if its type has no
name. -/
structure FieldLinked (m : Model) (f : Field) : Prop where
  /-- A field that holds a message has the place of that message. -/
  message : f.type = .message ∨ f.type = .group →
    ∃ r, m.messageRef? f.typeId = some r ∧ f.target = some (.message r)
  /-- A field that holds a value of an enumeration has the place of that enumeration. -/
  enumeration : f.type = .enumeration →
    ∃ r, m.enumRef? f.typeId = some r ∧ f.target = some (.enumeration r)
  /-- Every other field has no place. -/
  scalar : f.type ≠ .message → f.type ≠ .group → f.type ≠ .enumeration → f.target = none

/-- Whether a name that may be empty has its place, and none if it is empty. -/
structure OptionalLinked (m : Model) (id : String) (place : Option MessageRef) : Prop where
  /-- A name has the place that the index gives it. -/
  named : id ≠ "" → ∃ r, m.messageRef? id = some r ∧ place = some r
  /-- No name has no place. -/
  unnamed : id = "" → place = none

/-- Whether a method has the places that the indices give its types. -/
structure ReferencesLinked (m : Model) (x : Method) : Prop where
  /-- The request. -/
  input : ∃ r, m.messageRef? x.inputTypeId = some r ∧ x.inputType = some r
  /-- The response. -/
  output : ∃ r, m.messageRef? x.outputTypeId = some r ∧ x.outputType = some r
  /-- The response of a long-running operation. -/
  response : ∀ info ∈ x.operationInfo, OptionalLinked m info.responseTypeId info.responseType
  /-- The metadata of a long-running operation. -/
  metadata : ∀ info ∈ x.operationInfo, OptionalLinked m info.metadataTypeId info.metadataType

/-- Whether a method has the places of its types, and tells whether its response is empty. -/
structure MethodLinked (m : Model) (x : Method) : Prop extends ReferencesLinked m x where
  /-- The response is empty if it is the empty message. -/
  returnsEmpty : x.returnsEmpty = true ↔ x.outputTypeId = ".google.protobuf.Empty"

variable {m : Model}

/-- A field with the place of its name is linked, if that is found. -/
theorem FieldLinked.of_target {f : Field} (hresolves : m.FieldResolves f)
    (htarget : f.target = m.namedType? f) : FieldLinked m f := by
  unfold FieldResolves namedType? at hresolves
  unfold namedType? at htarget
  constructor
  · rintro (htype | htype)
    · simp only [htype, FieldType.isNamed, forall_const, Option.isSome_map] at hresolves htarget
      obtain ⟨r, hr⟩ := Option.isSome_iff_exists.1 hresolves
      exact ⟨r, hr, by rw [htarget, hr, Option.map_some]⟩
    · simp only [htype, FieldType.isNamed, forall_const, Option.isSome_map] at hresolves htarget
      obtain ⟨r, hr⟩ := Option.isSome_iff_exists.1 hresolves
      exact ⟨r, hr, by rw [htarget, hr, Option.map_some]⟩
  · intro htype
    simp only [htype, FieldType.isNamed, forall_const, Option.isSome_map] at hresolves htarget
    obtain ⟨r, hr⟩ := Option.isSome_iff_exists.1 hresolves
    exact ⟨r, hr, by rw [htarget, hr, Option.map_some]⟩
  · intro hmessage hgroup henum
    rw [htarget]
    cases htype : f.type with
    | message => exact absurd htype hmessage
    | group => exact absurd htype hgroup
    | enumeration => exact absurd htype henum
    | _ => rfl

/-- A name has its place if it is empty or found. -/
theorem OptionalLinked.optionalRef? {id : String} (h : id ≠ "" → (m.messageRef? id).isSome) :
    OptionalLinked m id (m.optionalRef? id) := by
  unfold Model.optionalRef?
  constructor
  · intro hid
    obtain ⟨r, hr⟩ := Option.isSome_iff_exists.1 (h hid)
    have hempty : id.isEmpty = false := by simpa using hid
    rw [hempty]
    exact ⟨r, hr, hr⟩
  · rintro rfl
    rfl

/-- A method that linking leaves as it is has its places, if its names are found. -/
theorem MethodLinked.of_linkedMethod {x : Method} (hresolves : m.MethodResolves x)
    (hlinked : m.linkedMethod x = x) : MethodLinked m x := by
  obtain ⟨hinput, houtput, hinfo⟩ := methodResolves_iff.1 hresolves
  obtain ⟨input, hinput⟩ := Option.isSome_iff_exists.1 hinput
  obtain ⟨output, houtput⟩ := Option.isSome_iff_exists.1 houtput
  have hinputType : m.messageRef? x.inputTypeId = x.inputType := congrArg Method.inputType hlinked
  have houtputType : m.messageRef? x.outputTypeId = x.outputType :=
    congrArg Method.outputType hlinked
  have hempty : (x.outputTypeId == WellKnown.emptyId) = x.returnsEmpty :=
    congrArg Method.returnsEmpty hlinked
  have hoperation : x.operationInfo.map m.linkedOperation = x.operationInfo :=
    congrArg Method.operationInfo hlinked
  have hinfoLinked : ∀ info ∈ x.operationInfo, m.linkedOperation info = info := by
    intro info hx
    rw [Option.mem_def.1 hx] at hoperation
    exact Option.some.inj hoperation
  have hfound : ∀ info ∈ x.operationInfo, ∀ id,
      id = info.responseTypeId ∨ id = info.metadataTypeId → id ≠ "" →
        (m.messageRef? id).isSome := by
    intro info hx id hid hne
    have hempty : id.isEmpty = false := by simpa using hne
    exact hinfo info hx id (mem_operationReferences.2 ⟨hid, hempty⟩)
  refine ⟨⟨⟨input, hinput, hinputType ▸ hinput⟩,
    ⟨output, houtput, houtputType ▸ houtput⟩, fun info hx => ?_, fun info hx => ?_⟩, ?_⟩
  · have hplace := congrArg OperationInfo.responseType (hinfoLinked info hx)
    rw [← hplace]
    exact OptionalLinked.optionalRef? (hfound info hx _ (.inl rfl))
  · have hplace := congrArg OperationInfo.metadataType (hinfoLinked info hx)
    rw [← hplace]
    exact OptionalLinked.optionalRef? (hfound info hx _ (.inr rfl))
  · rw [← hempty, beq_iff_eq]
    rfl

/-- Methods that are listed in range are indexed in range after assembly. -/
theorem holds_indexedMethods
    (h : ∀ link ∈ m.listedMethods, link.2.index < m.store.methods.size) {r : MethodRef}
    (hr : r ∈ m.crossReference.model.indexedMethods) :
    methodArena.Holds m.crossReference.model r := by
  have hsource := sameSource_crossReference m
  have hlisting := sameListing_buildIndices m
  have hindexed := indexed_buildIndices m
  rw [hsource.indexedMethods, hindexed.mem_indexedMethods] at hr
  obtain ⟨hlisted, -⟩ := hindexed.of_methodRef? hr
  rw [hlisting.listedMethods] at hlisted
  obtain ⟨link, hlink, rfl⟩ := List.mem_map.1 hlisted
  rw [Arena.Holds]
  change link.2.index < m.crossReference.model.store.methods.size
  rw [hsource.methodCount, buildIndices_eq]
  exact (h link hlink).trans_eq Array.size_mapIdx.symm

/-- Assembly comes to its end if and only if all names are found and map entries have their shape;
it gives every name its place then, and blames a missing name or an entry without that shape
else. -/
theorem crossReference_exact
    (h : ∀ link ∈ m.listedMethods, link.2.index < m.store.methods.size) :
    (m.crossReference.error? = none ↔ Resolvable m.buildIndices) ∧
    (m.crossReference.error? = none →
      SameSource m.buildIndices m.crossReference.model ∧
      (∀ r ∈ m.crossReference.model.indexedMessages,
        ∀ f ∈ (m.crossReference.model.message r).fields,
        FieldLinked m.crossReference.model f) ∧
      ∀ r ∈ m.crossReference.model.indexedMethods,
        MethodLinked m.crossReference.model (m.crossReference.model.method r)) ∧
    ∀ e, m.crossReference.error? = some e → Blame m.buildIndices e := by
  have hsource := sameSource_crossReference m
  have hcases := crossReference_cases m
  cases hcases with
  | inl hend =>
    obtain ⟨hresolvable, hend⟩ := hend
    have herror : m.crossReference.error? = none := by rw [hend]
    have hsettled := settled_crossReference herror
    have hfound := hresolvable.of_sameSource hsource
    refine ⟨⟨fun _ => hresolvable, fun _ => herror⟩, fun _ => ⟨hsource, fun r hr f hf => ?_,
      fun r hr => ?_⟩, fun e he => ?_⟩
    · exact FieldLinked.of_target (hfound.fields r hr f hf)
        (hsettled.fields r hr f hf (hfound.fields r hr f hf))
    · exact MethodLinked.of_linkedMethod (hfound.methods r hr)
        (hsettled.methods r hr (holds_indexedMethods h hr) (hfound.methods r hr))
    · rw [herror] at he
      cases he
  | inr hstop =>
    obtain ⟨e, he, hblame⟩ := hstop
    refine ⟨⟨fun hnone => ?_, fun hresolvable => absurd hblame hresolvable.not_blame⟩,
      fun hnone => ?_, fun e' he' => ?_⟩
    · rw [hnone] at he
      cases he
    · rw [hnone] at he
      cases he
    · rw [he'] at he
      obtain rfl := Option.some.inj he
      exact hblame

/-- A model with a service whose only method gives back the messages that it gets, and a message
that holds another of its kind. -/
def echo : Model :=
  { services := [⟨0⟩]
    messages := [⟨0⟩]
    store :=
      { messages :=
          #[{ id := ".p.Word"
              fields := [{ id := ".p.Word.next", type := .message, typeId := ".p.Word" }] }]
        services := #[{ id := ".p.Echo", methods := [⟨0⟩] }]
        methods :=
          #[{ id := ".p.Echo.Say", inputTypeId := ".p.Word", outputTypeId := ".p.Word" }] } }

/-- All methods of the echo are in range, so that its assembly is exact. -/
theorem crossReference_exact_echo :
    (∀ link ∈ echo.listedMethods, link.2.index < echo.store.methods.size) ∧
    (echo.crossReference.error? = none ↔ Resolvable echo.buildIndices) ∧
    (echo.crossReference.error? = none →
      SameSource echo.buildIndices echo.crossReference.model ∧
      (∀ r ∈ echo.crossReference.model.indexedMessages,
        ∀ f ∈ (echo.crossReference.model.message r).fields,
          FieldLinked echo.crossReference.model f) ∧
      ∀ r ∈ echo.crossReference.model.indexedMethods,
        MethodLinked echo.crossReference.model (echo.crossReference.model.method r)) ∧
    ∀ e, echo.crossReference.error? = some e → Blame echo.buildIndices e := by
  have hrange : ∀ link ∈ echo.listedMethods, link.2.index < echo.store.methods.size := by decide
  exact ⟨hrange, crossReference_exact hrange⟩

end ApiModel.Model
