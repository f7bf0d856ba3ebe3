import ApiModel.Proofs.Assembly.Reachability

/-!
# Models of one fresh form

The fresh form of a model is what is left of it without the indices and without what assembly
derives from the graph, whether an earlier run or a reader has put it there. Indexing makes twins of
models of one fresh form: their indices are the same, and their elements differ at most in what the
later passes write. What those passes read is the same in twins, along indexed messages at least,
which is all that they follow.
-/

namespace ApiModel

/-- The field without what is derived from the rest of the graph. -/
def Field.fresh (f : Field) : Field :=
  { f with target := none, recursive := false }

/-- The message without what is derived from the rest of the graph. -/
def Message.fresh (x : Message) : Message :=
  { x with fields := x.fields.map Field.fresh, pagination := none }

/-- The method without what is derived from the rest of the graph. -/
def Method.fresh (x : Method) : Method :=
  { x.source with service := none }

namespace Model

open Relation

/-- The model without indices and without what is derived in its elements. -/
def fresh (m : Model) : Model :=
  { m with
    store :=
      { m.store with
        messages := m.store.messages.map Message.fresh
        enums := m.store.enums.map Enumeration.source
        methods := m.store.methods.map Method.fresh
        messageById := Index.empty
        enumById := Index.empty
        serviceById := Index.empty
        methodById := Index.empty } }

variable {m other : Model}

/-! ## Fresh forms -/

/-- The messages of a fresh form are fresh. -/
theorem message_fresh (m : Model) (r : MessageRef) : m.fresh.message r = (m.message r).fresh :=
  getD_map Message.fresh m.store.messages r.index default

/-- The enumerations of a fresh form have no numbers. -/
theorem enumeration_fresh (m : Model) (r : EnumRef) :
    m.fresh.enumeration r = (m.enumeration r).source :=
  getD_map Enumeration.source m.store.enums r.index default

/-- The methods of a fresh form are fresh. -/
theorem method_fresh (m : Model) (r : MethodRef) : m.fresh.method r = (m.method r).fresh :=
  getD_map Method.fresh m.store.methods r.index default

/-- Taking out what is derived twice is taking it out once. -/
theorem fresh_fresh (m : Model) : m.fresh.fresh = m.fresh := by
  have hmessage : Message.fresh ∘ Message.fresh = Message.fresh := by
    funext x
    rw [Function.comp_apply, Message.fresh, Message.fresh, List.map_map]
    rfl
  have hmethod : Method.fresh ∘ Method.fresh = Method.fresh := by
    funext x
    rw [Function.comp_apply, Method.fresh, Method.fresh, Method.source, Method.source,
      Option.map_map]
    rfl
  have henum : Enumeration.source ∘ Enumeration.source = Enumeration.source := rfl
  rw [fresh, fresh, Array.map_map, Array.map_map, Array.map_map, hmessage, hmethod, henum]

/-- The source of a message is that of its fresh form. -/
theorem source_fresh (x : Message) : x.fresh.source = x.source := by
  rw [Message.source, Message.fresh, List.map_map]
  rfl

/-- A fresh form lists the same elements. -/
theorem sameListing_fresh (m : Model) : SameListing m m.fresh where
  messages := rfl
  enums := rfl
  services := rfl
  externalMessages := rfl
  externalEnums := rfl
  count := Array.size_map
  message r := by
    rw [message_fresh]
    rfl
  enumeration r := by
    rw [enumeration_fresh]
    rfl
  service _ := rfl
  method r := by
    rw [method_fresh]
    rfl

/-! ## Twins -/

/-- Whether two models have the same indices, and elements that differ at most in what the later
passes derive. -/
structure Twins (m other : Model) : Prop extends SameOutline m other where
  /-- As many methods. -/
  methodCount : other.store.methods.size = m.store.methods.size
  /-- The messages have one fresh form. -/
  messageFresh : ∀ r, (other.message r).fresh = (m.message r).fresh
  /-- The enumerations have one source. -/
  enumSource : ∀ r, (other.enumeration r).source = (m.enumeration r).source
  /-- The indexed methods have one source. -/
  methodSource : ∀ r ∈ m.indexedMethods, (other.method r).source = (m.method r).source
  /-- The services are the same. -/
  serviceSame : ∀ r, other.service r = m.service r

/-- Indices of one listing are the same. -/
theorem Indexed.sameOutline (h : Indexed m) (h' : Indexed other) (hsame : SameListing m other) :
    SameOutline m other where
  toSameListing := hsame
  messageById := by
    rw [h.messages, h'.messages, hsame.visitedMessages]
    exact indexBy_congr fun r _ => hsame.messageId r
  enumById := by
    rw [h.enums, h'.enums, hsame.visitedEnums]
    exact indexBy_congr fun r _ => hsame.enumeration r
  serviceById := by
    rw [h.services, h'.services, hsame.services]
    exact indexBy_congr fun r _ => hsame.serviceId r
  methodById := by
    rw [h.methods, h'.methods, hsame.listedMethods]
    exact indexBy_congr fun r _ => hsame.method r

/-- A listed method as indexing leaves it is told by its fresh form. -/
theorem source_owned {links : List (ServiceRef × MethodRef)} {r : MethodRef} {x y : Method}
    (hr : r ∈ links.map Prod.snd) (h : y.fresh = x.fresh) :
    (owned links r y).source = (owned links r x).source := by
  obtain ⟨s, hs⟩ := exists_lastOwner? hr
  have hsplit : ∀ z : Method, (owned links r z).source = { z.fresh with service := some s } := by
    intro z
    rw [owned, hs]
    rfl
  rw [hsplit, hsplit, h]

/-- Indexing makes twins of models of one fresh form. -/
theorem twins_buildIndices (h : other.fresh = m.fresh) :
    Twins m.buildIndices other.buildIndices := by
  have hlisting : SameListing m other :=
    (sameListing_fresh m).trans (h ▸ (sameListing_fresh other).symm)
  have houtline : SameOutline m.buildIndices other.buildIndices :=
    (indexed_buildIndices m).sameOutline (indexed_buildIndices other)
      (((sameListing_buildIndices m).symm.trans hlisting).trans (sameListing_buildIndices other))
  have hcount : other.store.methods.size = m.store.methods.size := by
    have hsize := congrArg (fun k : Model => k.store.methods.size) h
    rwa [fresh, fresh, Array.size_map, Array.size_map] at hsize
  refine ⟨houtline, ?count, fun r => ?message, fun r => ?enumeration, fun r hr => ?method,
    fun r => ?service⟩
  case count =>
    rw [buildIndices_eq, buildIndices_eq]
    exact (Array.size_mapIdx.trans hcount).trans Array.size_mapIdx.symm
  case message =>
    rw [buildIndices_eq, buildIndices_eq]
    exact (message_fresh other r).symm.trans (h ▸ message_fresh m r)
  case enumeration =>
    rw [buildIndices_eq, buildIndices_eq]
    exact (enumeration_fresh other r).symm.trans (h ▸ enumeration_fresh m r)
  case service =>
    have hservices := congrArg (fun k : Model => k.service r) h
    rw [buildIndices_eq, buildIndices_eq]
    exact hservices
  case method =>
    have hfresh : (other.method r).fresh = (m.method r).fresh :=
      (method_fresh other r).symm.trans (h ▸ method_fresh m r)
    have hindexed := indexed_buildIndices m
    have hlisted : r ∈ m.listedMethods.map Prod.snd :=
      (sameListing_buildIndices m).listedMethods ▸
        (hindexed.of_methodRef? (hindexed.mem_indexedMethods.1 hr)).1
    by_cases hholds : methodArena.Holds m r
    · have hother : methodArena.Holds other r := (holds_method_iff hcount).2 hholds
      have hm : m.buildIndices.method r = owned m.listedMethods r (m.method r) := by
        rw [buildIndices_eq]
        exact methodArena.get_map (m := m.withIndices) hholds _
      have ho : other.buildIndices.method r = owned other.listedMethods r (other.method r) := by
        rw [buildIndices_eq]
        exact methodArena.get_map (m := other.withIndices) hother _
      rw [hm, ho, hlisting.listedMethods]
      exact source_owned hlisted hfresh
    · have hblank : ∀ k : Model, ¬methodArena.Holds k r →
          k.buildIndices.method r = default := by
        intro k hk
        refine methodArena.get_of_not_holds fun hbuilt => hk ?_
        rw [buildIndices_eq] at hbuilt
        exact (methodArena.holds_map k.withIndices _ r).1 hbuilt
      rw [hblank m hholds, hblank other fun hother => hholds ((holds_method_iff hcount).1 hother)]

/-- Where a field is found to hold a message, that message is indexed. -/
theorem mem_indexedMessages_of_namedType? {f : Field} {t : MessageRef}
    (h : m.namedType? f = some (.message t)) : t ∈ m.indexedMessages := by
  have hfound : m.messageRef? f.typeId = some t := by
    unfold namedType? at h
    split at h
    · obtain ⟨r, hr, hrt⟩ := Option.map_eq_some_iff.1 h
      rwa [← TypeRef.message.inj hrt]
    · obtain ⟨r, hr, hrt⟩ := Option.map_eq_some_iff.1 h
      rwa [← TypeRef.message.inj hrt]
    · obtain ⟨r, -, hrt⟩ := Option.map_eq_some_iff.1 h
      cases hrt
    · cases h
  exact Index.mem_values.2 ⟨f.typeId, hfound⟩

/-- A field as assembly leaves it is told by its fresh form. -/
theorem assembledField_fresh (m : Model) (r : MessageRef) (f : Field) :
    m.assembledField r f.fresh = m.assembledField r f := by
  have hmarked : ∀ b, { m.withTargets.markedField (m.linkedField f.fresh) with recursive := b } =
      { m.withTargets.markedField (m.linkedField f) with recursive := b } := by
    intro b
    have hholds : m.withTargets.holdsMapEntry (m.linkedField f.fresh) =
        m.withTargets.holdsMapEntry (m.linkedField f) := holdsMapEntry_of_target rfl
    rw [markedField, markedField, hholds]
    split
    · rfl
    · rfl
  have hback : m.assembled.leadsBack r (m.withTargets.markedField (m.linkedField f.fresh)) =
      m.assembled.leadsBack r (m.withTargets.markedField (m.linkedField f)) := by
    refine leadsBack_of_target ?_
    exact (target_assembledField r f.fresh).trans (target_assembledField r f).symm
  rw [assembledField, hback]
  exact hmarked _

/-- A message that is indexed holds after assembly what its fields name. -/
theorem holdsMessage_assembled (h : Indexed m) {r t : MessageRef} (hr : r ∈ m.indexedMessages) :
    m.assembled.HoldsMessage r t ↔
      ∃ f ∈ (m.message r).fields.map Field.fresh, m.namedType? f = some (.message t) := by
  rw [HoldsMessage, fields_assembled h hr]
  constructor
  · rintro ⟨g, hg, hgt⟩
    obtain ⟨f, hf, rfl⟩ := List.mem_map.1 hg
    exact ⟨f.fresh, List.mem_map_of_mem hf, (target_assembledField r f).symm.trans hgt⟩
  · rintro ⟨g, hg, hgt⟩
    obtain ⟨f, hf, rfl⟩ := List.mem_map.1 hg
    exact ⟨m.assembledField r f, List.mem_map_of_mem hf, (target_assembledField r f).trans hgt⟩

namespace Twins

variable (h : Twins m other)

include h

/-- Being twins goes both ways. -/
theorem symm : Twins other m where
  toSameOutline := h.toSameOutline.symm
  methodCount := h.methodCount.symm
  messageFresh r := (h.messageFresh r).symm
  enumSource r := (h.enumSource r).symm
  methodSource r hr := (h.methodSource r (h.indexedMethods ▸ hr)).symm
  serviceSame r := (h.serviceSame r).symm

/-- The fields of twins have one fresh form. -/
theorem fields (r : MessageRef) :
    (other.message r).fields.map Field.fresh = (m.message r).fields.map Field.fresh := by
  have hfields := congrArg Message.fields (h.messageFresh r)
  exact hfields

/-- Twins have the same map entries. -/
theorem isMap (r : MessageRef) : (other.message r).isMap = (m.message r).isMap := by
  have hmap := congrArg Message.isMap (h.messageFresh r)
  exact hmap

/-- Twins have the same messages of the shape of a map entry. -/
theorem hasEntryShape (r : MessageRef) :
    HasEntryShape (other.message r) ↔ HasEntryShape (m.message r) := by
  have hnames := congrArg (List.map Field.name) (h.fields r)
  rw [List.map_map, List.map_map] at hnames
  have hnames : (other.message r).fields.map Field.name = (m.message r).fields.map Field.name :=
    hnames
  rw [HasEntryShape, HasEntryShape, hnames]

/-- If everything is found in a model, it is in its twin. -/
theorem resolvable (hm : Resolvable m) : Resolvable other where
  fields r hr f hf := by
    rw [h.indexedMessages] at hr
    have hf : f.fresh ∈ (m.message r).fields.map Field.fresh :=
      h.fields r ▸ List.mem_map_of_mem hf
    obtain ⟨g, hg, hgf⟩ := List.mem_map.1 hf
    have hfound : m.FieldResolves g.fresh := hm.fields r hr g hg
    rw [hgf] at hfound
    intro hnamed
    rw [h.namedType?]
    exact hfound hnamed
  entries r hr hmap := by
    rw [h.indexedMessages] at hr
    rw [h.isMap] at hmap
    exact (h.hasEntryShape r).2 (hm.entries r hr hmap)
  methods r hr id hid := by
    rw [h.indexedMethods] at hr
    rw [← references_source, h.methodSource r hr, references_source] at hid
    rw [h.messageRef?]
    exact hm.methods r hr id hid

variable (hm : Indexed m) (hother : Indexed other)

include hm hother

/-- What can be reached in a model from an indexed message can be reached in its twin: every message
on the way is indexed. -/
theorem reaches {t r : MessageRef} (ht : t ∈ m.indexedMessages)
    (hreach : ReflTransGen m.assembled.HoldsMessage t r) :
    ReflTransGen other.assembled.HoldsMessage t r := by
  revert ht
  induction hreach using ReflTransGen.head_induction_on with
  | refl => exact fun _ => .refl
  | @head s t hst _ ih =>
    intro hs
    obtain ⟨f, hf, hft⟩ := (holdsMessage_assembled hm hs).1 hst
    refine .head ?_ (ih (mem_indexedMessages_of_namedType? hft))
    rw [← h.fields] at hf
    rw [← h.namedType?] at hft
    exact (holdsMessage_assembled hother (h.indexedMessages ▸ hs)).2 ⟨f, hf, hft⟩

/-- What leads back to a message of the store in a model leads back to it in its twin. -/
theorem leadsBack {r : MessageRef} (hr : messageArena.Holds m r) {f : Field}
    (hback : m.assembled.leadsBack r (m.assembledField r f)) :
    other.assembled.leadsBack r (other.assembledField r f) := by
  have hheld : messageArena.Holds m.assembled r :=
    (holds_message_iff (sameSource_assembled m).count).2 hr
  have hheld' : messageArena.Holds other.assembled r :=
    (holds_message_iff ((sameSource_assembled other).count.trans h.count)).2 hr
  obtain ⟨t, ht, hreach⟩ := (leadsBack_iff hheld _).1 hback
  rw [target_assembledField] at ht
  refine (leadsBack_iff hheld' _).2 ⟨t, ?_, h.reaches hm hother ?_ hreach⟩
  · rw [target_assembledField, h.namedType?, ht]
  · exact mem_indexedMessages_of_namedType? ht

/-- Assembly makes the same of a field of a message of the store in twins. -/
theorem assembledField {r : MessageRef} (hr : messageArena.Holds m r) (f : Field) :
    other.assembledField r f = m.assembledField r f := by
  have hmap : ∀ s, (other.withTargets.message s).isMap = (m.withTargets.message s).isMap :=
    fun s =>
    (((sameSource_withTargets other).isMap s).trans (h.isMap s)).trans
      ((sameSource_withTargets m).isMap s).symm
  have hmarked : other.withTargets.markedField (other.linkedField f) =
      m.withTargets.markedField (m.linkedField f) := by
    rw [markedField, markedField, holdsMapEntry_congr hmap, linkedField, linkedField, h.namedType?]
  have hback : other.assembled.leadsBack r (other.withTargets.markedField (other.linkedField f)) =
      m.assembled.leadsBack r (m.withTargets.markedField (m.linkedField f)) :=
    Bool.eq_iff_iff.2 ⟨h.symm.leadsBack hother hm ((holds_message_iff h.count).2 hr),
      h.leadsBack hm hother hr⟩
  rw [Model.assembledField, hback, hmarked]
  rfl

/-- Assembly leaves the same fields in an indexed message of twins. -/
theorem fields_assembled {r : MessageRef} (hr : r ∈ m.indexedMessages) :
    (other.assembled.message r).fields = (m.assembled.message r).fields := by
  have hfresh : ∀ (k : Model) (fields : List Field),
      fields.map (k.assembledField r) = (fields.map Field.fresh).map (k.assembledField r) := by
    intro k fields
    rw [List.map_map]
    exact List.map_congr_left fun f _ => (k.assembledField_fresh r f).symm
  rw [Model.fields_assembled hm hr, Model.fields_assembled hother (h.indexedMessages ▸ hr),
    hfresh other, h.fields, ← hfresh]
  refine List.map_congr_left fun f hf => h.assembledField hm hother ?_ f
  by_contra hout
  have hblank : m.message r = default := messageArena.get_of_not_holds hout
  rw [hblank] at hf
  exact absurd hf List.not_mem_nil

end Twins

end Model

end ApiModel
