import ApiModel.Proofs.Assembly.Settled
import ApiModel.Proofs.Reduction

/-!
# Assembling again

Skipping elements of an assembled model and assembling it again changes nothing, unless an element
that stays refers to one that was skipped. For if full names are not shared, every name that is
still found stands for the same place as before, and everything else that assembly derives is read
off elements that skipping leaves as they are.
-/

namespace ApiModel.Model

/-- Whether listed elements of one kind have different full names. -/
structure DistinctIds (m : Model) : Prop where
  /-- The messages. -/
  messages : ∀ r ∈ m.visitedMessages, ∀ s ∈ m.visitedMessages,
    (m.message r).id = (m.message s).id → r = s
  /-- The enumerations. -/
  enums : ∀ r ∈ m.visitedEnums, ∀ s ∈ m.visitedEnums,
    (m.enumeration r).id = (m.enumeration s).id → r = s
  /-- The methods. -/
  methods : ∀ r ∈ m.listedMethods.map Prod.snd, ∀ s ∈ m.listedMethods.map Prod.snd,
    (m.method r).id = (m.method s).id → r = s

/-- Whether an index finds at most what another finds. -/
structure Narrower (m other : Model) : Prop where
  /-- The messages that are found. -/
  messageRef? : ∀ {id r}, other.messageRef? id = some r → m.messageRef? id = some r
  /-- The enumerations that are found. -/
  enumRef? : ∀ {id r}, other.enumRef? id = some r → m.enumRef? id = some r
  /-- The methods that are found. -/
  methodRef? : ∀ {id r}, other.methodRef? id = some r → m.methodRef? id = some r

variable {m other : Model}

/-- The listing tells whether full names differ. -/
theorem DistinctIds.of_sameListing (h : DistinctIds m) (hsame : SameListing m other) :
    DistinctIds other where
  messages r hr s hs hid := by
    rw [hsame.visitedMessages] at hr hs
    rw [hsame.messageId, hsame.messageId] at hid
    exact h.messages r hr s hs hid
  enums r hr s hs hid := by
    rw [hsame.visitedEnums] at hr hs
    rw [hsame.enumeration, hsame.enumeration] at hid
    exact h.enums r hr s hs hid
  methods r hr s hs hid := by
    rw [hsame.listedMethods] at hr hs
    rw [hsame.method, hsame.method] at hid
    exact h.methods r hr s hs hid

/-- If full names differ, a part of the lists finds a part of the elements. -/
theorem DistinctIds.narrower (h : DistinctIds m) (hindexed : Indexed m) (hindexed' : Indexed other)
    (hreduced : Reduction m other) : Narrower m other where
  messageRef? {id r} hr := by
    obtain ⟨hvisited, rfl⟩ := hindexed'.of_messageRef? hr
    rw [messageRef?, hindexed.messages, hreduced.messageId]
    exact get?_indexBy_of_injective h.messages (hreduced.visitedMessages.subset hvisited)
  enumRef? {id r} hr := by
    obtain ⟨hvisited, rfl⟩ := hindexed'.of_enumRef? hr
    rw [enumRef?, hindexed.enums, hreduced.enumeration]
    exact get?_indexBy_of_injective h.enums (hreduced.visitedEnums.subset hvisited)
  methodRef? {id r} hr := by
    obtain ⟨hlisted, rfl⟩ := hindexed'.of_methodRef? hr
    rw [methodRef?, hindexed.methods, hreduced.methodId]
    exact get?_indexBy_of_injective h.methods ((hreduced.listedMethods.map Prod.snd).subset hlisted)

namespace Narrower

variable (h : Narrower m other)

include h

/-- A message that is still found is the same. -/
theorem messageRef?_eq {id : String} (hfound : (other.messageRef? id).isSome) :
    other.messageRef? id = m.messageRef? id := by
  obtain ⟨r, hr⟩ := Option.isSome_iff_exists.1 hfound
  rw [hr, h.messageRef? hr]

/-- An enumeration that is still found is the same. -/
theorem enumRef?_eq {id : String} (hfound : (other.enumRef? id).isSome) :
    other.enumRef? id = m.enumRef? id := by
  obtain ⟨r, hr⟩ := Option.isSome_iff_exists.1 hfound
  rw [hr, h.enumRef? hr]

/-- A type that is still found has the same place. -/
theorem namedType?_eq {f : Field} (hfound : other.FieldResolves f) :
    other.namedType? f = m.namedType? f := by
  unfold FieldResolves namedType? at hfound
  unfold namedType?
  cases htype : f.type with
  | message =>
    rw [htype, Option.isSome_map] at hfound
    rw [h.messageRef?_eq (hfound rfl)]
  | group =>
    rw [htype, Option.isSome_map] at hfound
    rw [h.messageRef?_eq (hfound rfl)]
  | enumeration =>
    rw [htype, Option.isSome_map] at hfound
    rw [h.enumRef?_eq (hfound rfl)]
  | _ => rfl

/-- The names of a method that are all still found have the same places. -/
theorem linkedMethod_eq {x : Method} (hfound : other.MethodResolves x) :
    other.linkedMethod x = m.linkedMethod x := by
  obtain ⟨hinput, houtput, hinfo⟩ := methodResolves_iff.1 hfound
  have hoperation : x.operationInfo.map other.linkedOperation =
      x.operationInfo.map m.linkedOperation := by
    refine Option.map_congr fun info hx => ?_
    have hoptional : ∀ id, id = info.responseTypeId ∨ id = info.metadataTypeId →
        other.optionalRef? id = m.optionalRef? id := by
      intro id hid
      unfold optionalRef?
      cases hempty : id.isEmpty with
      | true => rfl
      | false =>
        have hreferenced := mem_operationReferences.2 ⟨hid, hempty⟩
        exact h.messageRef?_eq (hinfo info hx id hreferenced)
    rw [linkedOperation, linkedOperation, hoptional _ (.inl rfl), hoptional _ (.inr rfl)]
  rw [linkedMethod, linkedMethod, h.messageRef?_eq hinput, h.messageRef?_eq houtput, hoperation]

end Narrower

/-- In a reduced model the same fields lead back to their messages. -/
theorem Reduction.leadsBack (h : Reduction m other) : other.leadsBack = m.leadsBack := by
  refine leadsBack_congr h.messageCount fun r => ?_
  rw [fieldMessages, fieldMessages, h.fields]

/-- In a reduced model the same pages are found for a method. -/
theorem Reduction.pages? (h : Reduction m other) (r : MethodRef) :
    other.pages? (other.method r) = m.pages? (m.method r) := by
  have hinput := congrArg Method.inputType (h.method r)
  have houtput := congrArg Method.outputType (h.method r)
  exact pages?_congr hinput houtput h.fields

/-- Pages that are noted stay noted in a reduced model. -/
theorem PagesNoted.of_reduction {r : MethodRef} (h : PagesNoted m r)
    (hreduced : Reduction m other) :
    PagesNoted other r := by
  intro token response pages hpages
  rw [hreduced.pages?] at hpages
  obtain ⟨hcall, hbody⟩ := h token response pages hpages
  constructor
  · intro hholds
    have hmethod : (other.method r).pagination = (m.method r).pagination := by
      have hmethod := congrArg Method.pagination (hreduced.method r)
      exact hmethod
    rw [hmethod]
    exact hcall ((holds_method_iff hreduced.methodCount).1 hholds)
  · intro hholds
    have hmessage : (other.message response).pagination = (m.message response).pagination := by
      have hmessage := congrArg Message.pagination (hreduced.message response)
      exact hmessage
    rw [hmessage]
    exact hbody ((holds_message_iff hreduced.messageCount).1 hholds)

/-- A method of another service is settled if a method is. -/
theorem linkedMethod_eq_self_of_unowned {x y : Method} (h : y.unowned = x.unowned)
    (hx : m.linkedMethod x = x) : m.linkedMethod y = y := by
  have hsplit : ∀ z : Method, m.linkedMethod z =
      { m.linkedMethod z.unowned with service := z.service } := fun _ => rfl
  have hlinked : m.linkedMethod x.unowned = x.unowned := by
    have hunowned := congrArg Method.unowned hx
    exact hunowned
  rw [hsplit, h, hlinked, ← h]
  rfl

/-- What a reduced model indexes was indexed before, if it finds no other elements. -/
theorem Narrower.mem_indexedMessages (h : Narrower m other) (hindexed : Indexed m)
    (hindexed' : Indexed other) (hreduced : Reduction m other) {r : MessageRef}
    (hr : r ∈ other.indexedMessages) : r ∈ m.indexedMessages := by
  rw [hindexed'.mem_indexedMessages, hreduced.messageId] at hr
  exact hindexed.mem_indexedMessages.2 (h.messageRef? hr)

/-- The methods that a reduced model indexes were indexed before. -/
theorem Narrower.mem_indexedMethods (h : Narrower m other) (hindexed : Indexed m)
    (hindexed' : Indexed other) (hreduced : Reduction m other) {r : MethodRef}
    (hr : r ∈ other.indexedMethods) : r ∈ m.indexedMethods := by
  rw [hindexed'.mem_indexedMethods, hreduced.methodId] at hr
  exact hindexed.mem_indexedMethods.2 (h.methodRef? hr)

/-- A reduced model that is indexed is settled if it finds no other elements. -/
theorem Settled.of_reduction (h : Settled m) (hresolvable : Resolvable m)
    (hreduced : Reduction m other) (hnarrower : Narrower m other)
    (hindices : other.buildIndices = other) : Settled other := by
  have hindexed : Indexed m := h.indices ▸ indexed_buildIndices m
  have hindexed' : Indexed other := hindices ▸ indexed_buildIndices other
  have hmessages : ∀ r ∈ other.indexedMessages, r ∈ m.indexedMessages := fun _ =>
    hnarrower.mem_indexedMessages hindexed hindexed' hreduced
  have hmethods : ∀ r ∈ other.indexedMethods, r ∈ m.indexedMethods := fun _ =>
    hnarrower.mem_indexedMethods hindexed hindexed' hreduced
  refine ⟨hindices, ?fields, ?maps, ?methods, ?recursive, ?numbers, ?pages⟩
  case fields =>
    intro r hr f hf hfound
    rw [hreduced.fields] at hf
    have hr := hmessages r hr
    rw [h.fields r hr f hf (hresolvable.fields r hr f hf), hnarrower.namedType?_eq hfound]
  case maps =>
    intro r hr f hf hmap
    rw [hreduced.fields] at hf
    rw [holdsMapEntry_congr hreduced.isMap] at hmap
    exact h.maps r (hmessages r hr) f hf hmap
  case methods =>
    intro r hr hholds hfound
    have hr := hmethods r hr
    rw [hnarrower.linkedMethod_eq hfound]
    have hholds := (holds_method_iff hreduced.methodCount).1 hholds
    exact linkedMethod_eq_self_of_unowned (hreduced.method r)
      (h.methods r hr hholds (hresolvable.methods r hr))
  case recursive =>
    intro r hr f hf
    rw [hreduced.fields] at hf
    rw [hreduced.leadsBack]
    exact h.recursive r (hmessages r hr) f hf
  case numbers =>
    intro r hr
    rw [hindexed'.mem_indexedEnums, hreduced.enumeration] at hr
    rw [hreduced.enumeration]
    exact h.numbers r (hindexed.mem_indexedEnums.2 (hnarrower.enumRef? hr))
  case pages =>
    intro r hr
    exact (h.pages r (hmethods r hr)).of_reduction hreduced

/-- A name that assembly of a reduced model misses was found before. -/
theorem found_of_blame {e : Error} (hresolvable : Resolvable m) (hindexed : Indexed m)
    (hindexed' : Indexed other) (hreduced : Reduction m other) (hnarrower : Narrower m other)
    (hblame : Blame other e) :
    ∃ owner id, e = .unresolved owner id ∧
      ((m.messageRef? id).isSome ∧ other.messageRef? id = none ∨
        (m.enumRef? id).isSome ∧ other.enumRef? id = none) := by
  have hmessages : ∀ r ∈ other.indexedMessages, r ∈ m.indexedMessages := fun _ =>
    hnarrower.mem_indexedMessages hindexed hindexed' hreduced
  cases hblame with
  | @field r f hr hf hnamed hmissing =>
    rw [hreduced.fields] at hf
    have hfound := hresolvable.fields r (hmessages r hr) f hf hnamed
    refine ⟨f.id, f.typeId, rfl, ?_⟩
    unfold namedType? at hfound hmissing
    cases htype : f.type with
    | message =>
      rw [htype, Option.isSome_map] at hfound
      rw [htype, Option.map_eq_none_iff] at hmissing
      exact .inl ⟨hfound, hmissing⟩
    | group =>
      rw [htype, Option.isSome_map] at hfound
      rw [htype, Option.map_eq_none_iff] at hmissing
      exact .inl ⟨hfound, hmissing⟩
    | enumeration =>
      rw [htype, Option.isSome_map] at hfound
      rw [htype, Option.map_eq_none_iff] at hmissing
      exact .inr ⟨hfound, hmissing⟩
    | _ =>
      rw [htype] at hnamed
      cases hnamed
  | @entry r hr hmap hshape =>
    rw [hreduced.isMap] at hmap
    rw [HasEntryShape, hreduced.fields] at hshape
    exact absurd (hresolvable.entries r (hmessages r hr) hmap) hshape
  | @method r id hr hid hmissing =>
    have hr := hnarrower.mem_indexedMethods hindexed hindexed' hreduced hr
    have hreferences : (other.method r).references = (m.method r).references := by
      have hmethod := congrArg Method.references (hreduced.method r)
      exact hmethod
    rw [hreferences] at hid
    exact ⟨(other.method r).id, id, rfl, .inl ⟨hresolvable.methods r hr id hid, hmissing⟩⟩

/-- Assembling a settled model where everything is found comes to its end and changes nothing. -/
theorem Settled.crossReference_eq (h : Settled m) (hresolvable : Resolvable m) :
    m.crossReference = ⟨m, none⟩ := by
  have houtcome : m.crossReference = ⟨m, m.crossReference.error?⟩ :=
    congrArg (Outcome.mk · m.crossReference.error?) h.crossReference_model
  have hcases := crossReference_cases m
  rw [h.indices] at hcases
  cases hcases with
  | inl hend =>
    have herror : m.crossReference.error? = none := by rw [hend.2]
    rw [houtcome, herror]
  | inr hstop =>
    obtain ⟨e, -, hblame⟩ := hstop
    exact absurd hblame hresolvable.not_blame

/-- Assembling a reduced model changes nothing, and misses only names that were found before. -/
theorem crossReference_of_reduction (h : Settled m) (hresolvable : Resolvable m)
    (hreduced : Reduction m other) (hnarrower : Narrower m other)
    (hindices : other.buildIndices = other) :
    other.crossReference = ⟨other, none⟩ ∨
    ∃ owner id, other.crossReference = ⟨other, some (.unresolved owner id)⟩ ∧
      ((m.messageRef? id).isSome ∧ other.messageRef? id = none ∨
        (m.enumRef? id).isSome ∧ other.enumRef? id = none) := by
  have hindexed : Indexed m := h.indices ▸ indexed_buildIndices m
  have hindexed' : Indexed other := hindices ▸ indexed_buildIndices other
  have hmodel := (h.of_reduction hresolvable hreduced hnarrower hindices).crossReference_model
  have houtcome : other.crossReference = ⟨other, other.crossReference.error?⟩ :=
    congrArg (Outcome.mk · other.crossReference.error?) hmodel
  have hcases := crossReference_cases other
  rw [hindices] at hcases
  cases hcases with
  | inl hend =>
    have herror : other.crossReference.error? = none := by rw [hend.2]
    rw [houtcome, herror]
    exact .inl rfl
  | inr hstop =>
    obtain ⟨e, he, hblame⟩ := hstop
    obtain ⟨owner, id, rfl, hfound⟩ :=
      found_of_blame hresolvable hindexed hindexed' hreduced hnarrower hblame
    rw [houtcome, he]
    exact .inr ⟨owner, id, rfl, hfound⟩

/-- A model with different full names that was assembled is the same after elements are skipped and
it is assembled again, as far as no name of a skipped element is left. -/
theorem crossReference_skipElements {a b : Model} {options : SourceOptions} (h : DistinctIds m)
    (hassembled : m.crossReference.result = .ok a) (hskip : a.skipElements options = .ok b) :
    (b.crossReference = ⟨b, none⟩ ∨
      ∃ owner id, b.crossReference = ⟨b, some (.unresolved owner id)⟩ ∧
        ((a.messageRef? id).isSome ∧ b.messageRef? id = none ∨
          (a.enumRef? id).isSome ∧ b.enumRef? id = none)) ∧
    ((Selection.ofOptions options).isEmpty → b = a ∧ a.crossReference = ⟨a, none⟩) := by
  obtain ⟨herror, rfl⟩ := Outcome.result_eq_ok.1 hassembled
  have hsource := sameSource_crossReference m
  have hsettled := settled_crossReference herror
  have hresolvable := (resolvable_of_crossReference herror).of_sameSource hsource
  have hdistinct := h.of_sameListing ((sameListing_buildIndices m).trans hsource.toSameListing)
  generalize m.crossReference.model = a at *
  have hagain := hsettled.crossReference_eq hresolvable
  have hindices := buildIndices_skipElements hskip hsettled.indices
  have hreduced := reduction_skipElements hskip
  have hindexed : Indexed a := hsettled.indices ▸ indexed_buildIndices a
  have hindexed' : Indexed b := hindices ▸ indexed_buildIndices b
  refine ⟨crossReference_of_reduction hsettled hresolvable hreduced
    (hdistinct.narrower hindexed hindexed' hreduced) hindices, fun hempty => ?_⟩
  rcases skipElements_eq_ok.1 hskip with ⟨-, rfl⟩ | ⟨hfull, -⟩
  · exact ⟨rfl, hagain⟩
  · rw [hempty] at hfull
    cases hfull

/-- A model of two messages that differ in their names, of which no method refers to the second
one. -/
def spare : Model :=
  { services := [⟨0⟩]
    messages := [⟨0⟩, ⟨1⟩]
    store :=
      { messages :=
          #[{ id := ".p.Word"
              fields := [{ id := ".p.Word.next", type := .message, typeId := ".p.Word" }] },
            { id := ".p.Spare" }]
        services := #[{ id := ".p.Echo", methods := [⟨0⟩] }]
        methods :=
          #[{ id := ".p.Echo.Say", inputTypeId := ".p.Word", outputTypeId := ".p.Word" }] } }

/-- The option that skips the second message. -/
def skipSpare : SourceOptions :=
  Index.empty.insert SourceOptions.skippedIds ".p.Spare"

/-- The spare model is assembled, reduced by one message and assembled again. -/
theorem crossReference_skipElements_spare :
    ∃ a b, DistinctIds spare ∧ spare.crossReference.result = .ok a ∧
      a.skipElements skipSpare = .ok b ∧
      (b.crossReference = ⟨b, none⟩ ∨
        ∃ owner id, b.crossReference = ⟨b, some (.unresolved owner id)⟩ ∧
          ((a.messageRef? id).isSome ∧ b.messageRef? id = none ∨
            (a.enumRef? id).isSome ∧ b.enumRef? id = none)) ∧
      ((Selection.ofOptions skipSpare).isEmpty → b = a ∧ a.crossReference = ⟨a, none⟩) := by
  have hdistinct : DistinctIds spare := by
    constructor
    · decide +kernel
    · decide +kernel
    · decide +kernel
  have herror : spare.crossReference.error? = none :=
    Option.isNone_iff_eq_none.1 (by decide +kernel)
  have hassembled : spare.crossReference.result = .ok spare.crossReference.model :=
    Outcome.result_eq_ok.2 ⟨herror, rfl⟩
  have hskip : spare.crossReference.model.skipElements skipSpare =
      .ok ((Selection.ofOptions skipSpare).apply spare.crossReference.model) :=
    skipElements_eq_ok.2 (.inr ⟨by decide +kernel,
      Option.isNone_iff_eq_none.1 (by decide +kernel), rfl⟩)
  exact ⟨_, _, hdistinct, hassembled, hskip,
    crossReference_skipElements hdistinct hassembled hskip⟩

end ApiModel.Model
