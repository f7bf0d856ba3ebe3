import ApiModel.Proofs.Assembly.Sources

/-!
# Settled models

A model is settled if it is what assembly makes of it: assembling it again, however far that gets,
changes nothing. Assembly that comes to its end gives a settled model, and it comes to its end if
and only if all names are found and map entries have their two fields.
-/

namespace ApiModel.Model

/-- Whether everything that assembly derives is there already, as far as names are found. -/
structure Settled (m : Model) : Prop where
  /-- The indices are those of the listing, and methods know their services. -/
  indices : m.buildIndices = m
  /-- Fields have the places of their types. -/
  fields : ∀ r ∈ m.indexedMessages, ∀ f ∈ (m.message r).fields,
    m.FieldResolves f → f.target = m.namedType? f
  /-- Fields that hold map entries are maps. -/
  maps : ∀ r ∈ m.indexedMessages, ∀ f ∈ (m.message r).fields,
    m.holdsMapEntry f → f.map = true ∧ f.repeated = false
  /-- Methods have the places of their types. -/
  methods : ∀ r ∈ m.indexedMethods, methodArena.Holds m r → m.MethodResolves (m.method r) →
    m.linkedMethod (m.method r) = m.method r
  /-- Recursive fields are marked. -/
  recursive : ∀ r ∈ m.indexedMessages, ∀ f ∈ (m.message r).fields, f.recursive =
    m.leadsBack r f
  /-- The first values of numbers are found. -/
  numbers : ∀ r ∈ m.indexedEnums, numberedEnum (m.enumeration r) = m.enumeration r
  /-- Pages are noted. -/
  pages : ∀ r ∈ m.indexedMethods, m.PagesNoted r

variable {m : Model}

/-! ## Assembling a settled model -/

namespace Settled

/-- Resolving the fields of a settled model changes nothing. -/
theorem resolveFields_model (h : Settled m) : m.resolveFields.model = m := by
  refine Outcome.forEach_model_eq_self fun r hr y hy => ?_
  rw [resolveMessage_eq] at hy
  obtain ⟨x, hx, rfl⟩ := Attempt.map_eq_ok.1 hy
  obtain ⟨hall, rfl⟩ := resolvedMessage_eq_ok.1 hx
  have hfields : (m.message r).fields.map m.linkedField = (m.message r).fields := by
    refine (List.map_congr_left fun f hf => ?_).trans (List.map_id' _)
    rw [linkedField, ← h.fields r hr f hf (hall f hf)]
  refine messageArena.modify_eq_self fun _ => ?_
  change m.linkedMessage (m.message r) = m.message r
  rw [linkedMessage, hfields]

/-- Marking the maps of a settled model changes nothing. -/
theorem markAllMaps_eq_self (h : Settled m) : m.markAllMaps = m := by
  refine foldl_eq_self fun r hr => messageArena.modify_eq_self fun _ => ?_
  have hfields : (m.message r).fields.map m.markedField = (m.message r).fields := by
    refine (List.map_congr_left fun f hf => ?_).trans (List.map_id' _)
    unfold markedField
    split
    · rename_i hmap
      obtain ⟨hmarked, hsingle⟩ := h.maps r hr f hf hmap
      rw [← hmarked, ← hsingle]
    · rfl
  change m.markedMessage (m.message r) = m.message r
  rw [markedMessage, hfields]

/-- Resolving the methods of a settled model changes nothing. -/
theorem resolveMethods_model (h : Settled m) : m.resolveMethods.model = m := by
  refine Outcome.forEach_model_eq_self fun r hr y hy => ?_
  obtain ⟨x, hx, rfl⟩ := Attempt.map_eq_ok.1 hy
  obtain ⟨hall, rfl⟩ := resolveMethodNames_eq_ok.1 hx
  exact methodArena.modify_eq_self fun hholds => h.methods r hr hholds hall

/-- Annotating a settled model changes nothing. -/
theorem annotate_eq_self (h : Settled m) : m.annotate = m := by
  have hrecursive : m.markAllRecursive = m := by
    rw [markAllRecursive_eq_foldl]
    refine foldl_eq_self fun r hr => messageArena.modify_eq_self fun _ => ?_
    have hfields : ((m.message r).fields.map fun f => { f with recursive := m.leadsBack r f }) =
        (m.message r).fields := by
      refine (List.map_congr_left fun f hf => ?_).trans (List.map_id' _)
      rw [← h.recursive r hr f hf]
    change m.recursiveMessage r (m.message r) = m.message r
    rw [recursiveMessage, hfields]
  have hnumbers : m.findAllUniqueValues = m :=
    foldl_eq_self fun r hr => enumArena.modify_eq_self fun _ => h.numbers r hr
  have hpages : m.markAllPages = m := foldl_eq_self fun r hr => markPages_eq_self (h.pages r hr)
  rw [annotate, hrecursive, hnumbers, hpages]

/-- Assembling a settled model changes nothing, however far it gets. -/
theorem crossReference_model (h : Settled m) : m.crossReference.model = m := by
  rw [crossReference, h.indices]
  refine Outcome.andThen_model_eq_self ?_ h.annotate_eq_self
  refine Outcome.andThen_model_eq_self ?_ ?_
  · exact Outcome.andThen_model_eq_self h.resolveFields_model (model_checkMapEntries m)
  · rw [h.markAllMaps_eq_self]
    exact h.resolveMethods_model

end Settled

/-! ## The end of assembly -/

/-- The model whose indexed messages have places for the types of their fields. -/
def withTargets (m : Model) : Model :=
  messageArena.map m fun r x => if r ∈ m.indexedMessages then m.linkedMessage x else x

/-- The model whose indexed methods have places for their types. -/
def withCalls (m : Model) : Model :=
  methodArena.map m fun r x => if r ∈ m.indexedMethods then m.linkedMethod x else x

/-- What assembly makes of an indexed model if it comes to its end. -/
def assembled (m : Model) : Model :=
  m.withTargets.markAllMaps.withCalls.annotate

/-- Giving fields their places keeps the source. -/
theorem sameSource_withTargets (m : Model) : SameSource m m.withTargets := by
  refine sameSource_messages.map fun r x => ?_
  split
  · exact source_linkedMessage m x
  · rfl

/-- Giving methods their places keeps the source. -/
theorem sameSource_withCalls (m : Model) : SameSource m m.withCalls := by
  refine sameSource_methods.map fun r x => ?_
  split
  · exact source_linkedMethod m x
  · rfl

/-- What assembly makes of a model has its source. -/
theorem sameSource_assembled (m : Model) : SameSource m m.assembled :=
  (((sameSource_withTargets m).trans (sameSource_markAllMaps _)).trans
    (sameSource_withCalls _)).trans (sameSource_annotate _)

/-- Assembly comes to its end if everything is found, and names something that is not found else. -/
theorem crossReference_cases (m : Model) :
    (Resolvable m.buildIndices ∧ m.crossReference = ⟨m.buildIndices.assembled, none⟩) ∨
      ∃ e, m.crossReference.error? = some e ∧ Blame m.buildIndices e := by
  have hindexed := indexed_buildIndices m
  rw [crossReference]
  generalize m.buildIndices = x at hindexed
  rcases resolveFields_cases hindexed.nodup_indexedMessages with
    ⟨hfields, htargets⟩ | ⟨r, hr, f, hf, hnamed, hmissing, he⟩
  · have htargets : x.resolveFields = ⟨x.withTargets, none⟩ := htargets
    have hsame := sameSource_withTargets x
    rw [htargets, Outcome.andThen_of_end]
    rcases checkMapEntries_cases x.withTargets with
      ⟨hentries, hcheck⟩ | ⟨r, hr, hmap, hshape, hcheck⟩
    · have hmaps := hsame.trans (sameSource_markAllMaps x.withTargets)
      rw [hcheck, Outcome.ofStep, Outcome.andThen_of_end]
      rcases resolveMethods_cases (hmaps.indexedMethods ▸ hindexed.nodup_indexedMethods) with
        ⟨hmethods, hcalls⟩ | ⟨r, hr, id, hid, hmissing, he⟩
      · rw [hcalls, Outcome.andThen_of_end]
        refine .inl ⟨⟨hfields, fun r hr hmap => ?_, fun r hr => ?_⟩, rfl⟩
        · rw [← hsame.indexedMessages] at hr
          rw [← hsame.isMap] at hmap
          exact (hsame.hasEntryShape r).1 (hentries r hr hmap)
        · rw [← hmaps.indexedMethods] at hr
          exact (hmaps.methodResolves r).1 (hmethods r hr)
      · refine .inr ⟨_, Outcome.andThen_error he, ?_⟩
        rw [hmaps.indexedMethods] at hr
        rw [hmaps.references] at hid
        rw [hmaps.messageRef?] at hmissing
        rw [hmaps.method]
        exact .method hr hid hmissing
    · rw [hcheck, Outcome.ofStep]
      refine .inr ⟨_, rfl, ?_⟩
      rw [hsame.indexedMessages] at hr
      rw [hsame.isMap] at hmap
      rw [hsame.messageId]
      exact .entry hr hmap fun h => hshape ((hsame.hasEntryShape r).2 h)
  · exact .inr ⟨_, Outcome.andThen_error (Outcome.andThen_error (Outcome.andThen_error he)),
      .field hr hf hnamed hmissing⟩

/-- Assembly that comes to its end found everything. -/
theorem resolvable_of_crossReference (h : m.crossReference.error? = none) :
    Resolvable m.buildIndices := by
  rcases crossReference_cases m with ⟨hresolvable, -⟩ | ⟨e, he, -⟩
  · exact hresolvable
  · rw [h] at he
    cases he

/-- Assembly comes to its end where everything is found. -/
theorem error?_of_resolvable (h : Resolvable m.buildIndices) : m.crossReference.error? = none := by
  rcases crossReference_cases m with ⟨-, hend⟩ | ⟨e, -, hblame⟩
  · rw [hend]
  · exact absurd hblame h.not_blame

/-- What is stated of all messages of the store, and of the blank one, is so at every place. -/
theorem forall_message {P : Message → Prop} (hblank : P default)
    (h : ∀ x ∈ m.store.messages, P x) (r : MessageRef) : P (m.message r) :=
  messageArena.forall_get hblank h r

/-- Everything is found in an indexed model whose methods are in range if all map entries of the
store have their pair of fields and the types of all fields and methods of the store are found. -/
theorem resolvable_of_store
    (hrange : ∀ link ∈ m.listedMethods, link.2.index < m.store.methods.size)
    (hmessages : ∀ x ∈ m.store.messages, (x.isMap → HasEntryShape x) ∧
      ∀ f ∈ x.fields, m.buildIndices.FieldResolves f)
    (hmethods : ∀ x ∈ m.store.methods, m.buildIndices.MethodResolves x) :
    Resolvable m.buildIndices := by
  have hblank : ((default : Message).isMap → HasEntryShape default) ∧
      ∀ f ∈ (default : Message).fields, m.buildIndices.FieldResolves f :=
    ⟨fun hmap => Bool.noConfusion hmap, fun f hf => absurd hf List.not_mem_nil⟩
  have hmessage := forall_message hblank hmessages
  refine ⟨fun r _ f hf => ?_, fun r _ hmap => ?_, fun r hr => ?_⟩
  · rw [message_buildIndices] at hf
    exact (hmessage r).2 f hf
  · rw [message_buildIndices] at hmap ⊢
    exact (hmessage r).1 hmap
  · have hlisted : r ∈ m.listedMethods.map Prod.snd := by
      rw [← (sameListing_buildIndices m).listedMethods]
      obtain ⟨hlisted, -⟩ :=
        (indexed_buildIndices m).of_methodRef? ((indexed_buildIndices m).mem_indexedMethods.1 hr)
      exact hlisted
    obtain ⟨link, hlink, rfl⟩ := List.mem_map.1 hlisted
    have hholds : methodArena.Holds m link.2 := hrange link hlink
    have howned : m.buildIndices.method link.2 = owned m.listedMethods link.2
        (m.method link.2) := by
      rw [buildIndices_eq]
      exact methodArena.get_map (m := m.withIndices) hholds _
    have hfound : m.buildIndices.MethodResolves (m.method link.2) :=
      hmethods _ (Array.mem_of_getElem? (methodArena.find?_of_holds hholds))
    rw [howned]
    exact hfound

/-- Assembly that comes to its end gives what assembling makes of the indexed model. -/
theorem model_crossReference (h : m.crossReference.error? = none) :
    m.crossReference.model = m.buildIndices.assembled := by
  rcases crossReference_cases m with ⟨-, hend⟩ | ⟨e, he, -⟩
  · rw [hend]
  · rw [h] at he
    cases he

/-- A method of the same source has the same service. -/
theorem service_of_source {x y : Method} (h : y.source = x.source) : y.service = x.service := by
  have hservice := congrArg Method.service h
  exact hservice

/-- Where indexing changes nothing, it changes nothing at a model of the same source. -/
theorem buildIndices_eq_self_of_sameSource {other : Model} (h : m.buildIndices = m)
    (hsame : SameSource m other) : other.buildIndices = other := by
  have hindexed : Indexed m := h ▸ indexed_buildIndices m
  refine (hindexed.of_sameOutline hsame.toSameOutline).buildIndices_eq_self fun r hr => ?_
  have hholds := (holds_method_iff hsame.methodCount).1 hr
  rw [hsame.listedMethods, owned_eq_self, service_of_source (hsame.methodSource r)]
  exact owned_eq_self.1 (owned_of_buildIndices_eq h hholds)

/-- The places of a method's types are found once. -/
theorem linkedMethod_linkedMethod (m : Model) (x : Method) :
    m.linkedMethod (m.linkedMethod x) = m.linkedMethod x := by
  rw [linkedMethod, linkedMethod, Option.map_map]
  rfl

/-- A method is settled if it is but for its pages. -/
theorem linkedMethod_eq_self_of_withoutPages {x y : Method}
    (h : y.withoutPages = (m.linkedMethod x).withoutPages) : m.linkedMethod y = y := by
  have hsplit : ∀ z : Method, m.linkedMethod z =
      { m.linkedMethod z.withoutPages with pagination := z.pagination } := fun _ => rfl
  have hlinked : m.linkedMethod (m.linkedMethod x).withoutPages =
      (m.linkedMethod x).withoutPages := by
    have hidem := congrArg Method.withoutPages (m.linkedMethod_linkedMethod x)
    exact hidem
  rw [hsplit, h, hlinked, ← h]
  rfl

/-! ## What annotating gives -/

section Annotate

variable (h : Indexed m)

include h

/-- Marking the recursive fields keeps which messages each message holds. -/
theorem fieldMessages_markAllRecursive (r : MessageRef) :
    m.markAllRecursive.fieldMessages r = m.fieldMessages r := by
  refine fieldMessages_of_targets ?_
  have hkeeps : ∀ r x, (if r ∈ m.indexedMessages then m.recursiveMessage r x else x).fields.map
      Field.target = x.fields.map Field.target := by
    intro r x
    split
    · rw [recursiveMessage, List.map_map]
      rfl
    · rfl
  rw [markAllRecursive_eq h.nodup_indexedMessages]
  exact messageArena.get_map_keeps (fun x : Message => x.fields.map Field.target) hkeeps r

/-- The annotated model differs from the marked one in numbers and pages only. -/
theorem fields_annotate_eq (r : MessageRef) :
    (m.annotate.message r).fields = (m.markAllRecursive.message r).fields := by
  have hindexed := h.of_sameOutline (sameSource_markAllRecursive m).toSameOutline
  rw [annotate, (sameButPages_markAllPages _).fields,
    findAllUniqueValues_eq hindexed.nodup_indexedEnums]
  rfl

/-- Annotating keeps which fields lead back to their messages. -/
theorem leadsBack_annotate : m.annotate.leadsBack = m.leadsBack := by
  refine leadsBack_congr (sameSource_annotate m).count fun r => ?_
  rw [← fieldMessages_markAllRecursive h r, fieldMessages, fieldMessages, fields_annotate_eq h]

/-- Annotating marks the fields of an indexed message by whether they lead back, and changes nothing
else of them. -/
theorem fields_annotate {r : MessageRef} (hr : r ∈ m.indexedMessages) :
    (m.annotate.message r).fields =
      (m.message r).fields.map fun f => { f with recursive := m.annotate.leadsBack r f } := by
  rw [leadsBack_annotate h, fields_annotate_eq h, markAllRecursive_eq h.nodup_indexedMessages]
  exact congrArg Message.fields (messageArena.get_map_of_mem m hr m.recursiveMessage rfl)

/-- Annotating gives every indexed enumeration its distinct numbers. -/
theorem enumeration_annotate {r : EnumRef} (hr : r ∈ m.indexedEnums) :
    m.annotate.enumeration r = numberedEnum (m.enumeration r) := by
  have hsame := (sameSource_markAllRecursive m).toSameOutline
  have hindexed := h.of_sameOutline hsame
  have hmarked : m.markAllRecursive.enumeration r = m.enumeration r := by
    rw [markAllRecursive_eq h.nodup_indexedMessages]
    rfl
  rw [annotate, (sameButPages_markAllPages _).enumeration_eq,
    findAllUniqueValues_eq hindexed.nodup_indexedEnums, ← hmarked]
  rw [← hsame.indexedEnums] at hr
  exact enumArena.get_map_of_mem m.markAllRecursive hr (fun _ => numberedEnum) rfl

/-- Annotating keeps every method but for its pages. -/
theorem withoutPages_annotate (r : MethodRef) :
    (m.annotate.method r).withoutPages = (m.method r).withoutPages := by
  have hindexed := h.of_sameOutline (sameSource_markAllRecursive m).toSameOutline
  rw [annotate, (sameButPages_markAllPages _).call,
    findAllUniqueValues_eq hindexed.nodup_indexedEnums, markAllRecursive_eq h.nodup_indexedMessages]
  rfl

end Annotate

/-- Annotating notes the pages of every indexed method. -/
theorem pagesNoted_annotate {r : MethodRef} (hr : r ∈ m.indexedMethods) :
    PagesNoted m.annotate r := by
  refine pagesNoted_foldl (.inr ?_)
  rw [(sameSource_findAllUniqueValues _).indexedMethods,
    (sameSource_markAllRecursive m).indexedMethods]
  exact hr

/-! ## What assembly gives -/

/-- The field as assembly leaves it in a message. -/
def assembledField (m : Model) (r : MessageRef) (f : Field) : Field :=
  { m.withTargets.markedField (m.linkedField f) with
    recursive := m.assembled.leadsBack r (m.withTargets.markedField (m.linkedField f)) }

/-- Marking a field keeps its type and what it holds. -/
theorem markedField_keeps {κ : Type} (view : Field → κ)
    (hview : ∀ f : Field, view { f with map := true, repeated := false } = view f) (m : Model)
    (f : Field) : view (m.markedField f) = view f := by
  unfold markedField
  split
  · exact hview f
  · rfl

/-- What leads back to a message is told by what a field holds. -/
theorem leadsBack_of_target {r : MessageRef} {f g : Field} (h : f.target = g.target) :
    m.leadsBack r f = m.leadsBack r g := by
  unfold leadsBack
  rw [h]

/-- What holds a map entry is told by what a field holds. -/
theorem holdsMapEntry_of_target {f g : Field} (h : f.target = g.target) :
    m.holdsMapEntry f = m.holdsMapEntry g := by
  unfold holdsMapEntry
  rw [h]

/-- Assembling a field gives it the place that is found for its type. -/
theorem target_assembledField (r : MessageRef) (f : Field) :
    (m.assembledField r f).target = m.namedType? f :=
  markedField_keeps Field.target (fun _ => rfl) m.withTargets (m.linkedField f)

section Assembled

variable (h : Indexed m)

include h

/-- The model before it is annotated has its indices. -/
theorem indexed_withCalls : Indexed m.withTargets.markAllMaps.withCalls :=
  h.of_sameOutline (((sameSource_withTargets m).trans (sameSource_markAllMaps _)).trans
    (sameSource_withCalls _)).toSameOutline

/-- Assembling a model assembles every field of an indexed message. -/
theorem fields_assembled {r : MessageRef} (hr : r ∈ m.indexedMessages) :
    (m.assembled.message r).fields = (m.message r).fields.map (m.assembledField r) := by
  have htargets := sameSource_withTargets m
  have hmaps := htargets.trans (sameSource_markAllMaps _)
  have hcalls := hmaps.trans (sameSource_withCalls _)
  have hlinked : m.withTargets.message r = m.linkedMessage (m.message r) :=
    messageArena.get_map_of_mem m hr (fun _ => m.linkedMessage) rfl
  have hmarked : m.withTargets.markAllMaps.message r =
      m.withTargets.markedMessage (m.withTargets.message r) := by
    have hindexed := h.of_sameOutline htargets.toSameOutline
    rw [markAllMaps_eq hindexed.nodup_indexedMessages]
    exact messageArena.get_map_of_mem _ (htargets.indexedMessages ▸ hr)
      (fun _ => m.withTargets.markedMessage) rfl
  have hfields : (m.withTargets.markAllMaps.withCalls.message r).fields =
      (m.message r).fields.map fun f => m.withTargets.markedField (m.linkedField f) := by
    change (m.withTargets.markAllMaps.message r).fields = _
    rw [hmarked, hlinked, markedMessage, linkedMessage, List.map_map]
    rfl
  rw [assembled, fields_annotate (indexed_withCalls h) (hcalls.indexedMessages ▸ hr), hfields,
    List.map_map]
  rfl

/-- Assembling a model links every indexed method, and changes nothing else of methods but their
pages. -/
theorem withoutPages_assembled {r : MethodRef} (hholds : methodArena.Holds m r) :
    (m.assembled.method r).withoutPages =
      (if r ∈ m.indexedMethods then m.linkedMethod (m.method r)
        else m.method r).withoutPages := by
  have htargets := sameSource_withTargets m
  have hmaps := htargets.trans (sameSource_markAllMaps _)
  have hsame : m.withTargets.markAllMaps.method r = m.method r := by
    have hindexed := h.of_sameOutline htargets.toSameOutline
    rw [markAllMaps_eq hindexed.nodup_indexedMessages]
    rfl
  have hholds := (holds_method_iff hmaps.methodCount).2 hholds
  have hcalls := methodArena.get_map hholds fun r x =>
    if r ∈ m.withTargets.markAllMaps.indexedMethods then
      m.withTargets.markAllMaps.linkedMethod x
    else x
  have hcalls : m.withTargets.markAllMaps.withCalls.method r =
      if r ∈ m.withTargets.markAllMaps.indexedMethods then
        m.withTargets.markAllMaps.linkedMethod (m.withTargets.markAllMaps.method r)
      else m.withTargets.markAllMaps.method r := hcalls
  rw [assembled, withoutPages_annotate (indexed_withCalls h), hcalls, hmaps.indexedMethods, hsame,
    hmaps.linkedMethod]

end Assembled

/-- Assembly gives a settled model. -/
theorem settled_assembled (h : m.buildIndices = m) : Settled m.assembled := by
  have hindexed : Indexed m := h ▸ indexed_buildIndices m
  have hsame := sameSource_assembled m
  have hcalls := ((sameSource_withTargets m).trans (sameSource_markAllMaps _)).trans
    (sameSource_withCalls _)
  refine ⟨buildIndices_eq_self_of_sameSource h hsame, ?fields, ?maps, ?methods, ?recursive,
    ?numbers, ?pages⟩
  case fields =>
    intro r hr g hg _
    rw [fields_assembled hindexed (hsame.indexedMessages ▸ hr)] at hg
    obtain ⟨f, -, rfl⟩ := List.mem_map.1 hg
    rw [target_assembledField, hsame.namedType?]
    exact (markedField_keeps m.namedType? (fun _ => rfl) m.withTargets (m.linkedField f)).symm
  case maps =>
    intro r hr g hg hmap
    rw [fields_assembled hindexed (hsame.indexedMessages ▸ hr)] at hg
    obtain ⟨f, -, rfl⟩ := List.mem_map.1 hg
    have hlinked : m.withTargets.holdsMapEntry (m.linkedField f) := by
      rw [holdsMapEntry_congr (sameSource_withTargets m).isMap, ← holdsMapEntry_congr hsame.isMap,
        ← hmap]
      exact holdsMapEntry_of_target (target_assembledField r f).symm
    change (m.withTargets.markedField (m.linkedField f)).map = true ∧
      (m.withTargets.markedField (m.linkedField f)).repeated = false
    rw [markedField, if_pos hlinked]
    exact ⟨rfl, rfl⟩
  case methods =>
    intro r hr hholds _
    rw [hsame.indexedMethods] at hr
    have hholds := (holds_method_iff hsame.methodCount).1 hholds
    rw [hsame.linkedMethod]
    refine linkedMethod_eq_self_of_withoutPages (x := m.method r) ?_
    rw [withoutPages_assembled hindexed hholds, if_pos hr]
  case recursive =>
    intro r hr g hg
    rw [fields_assembled hindexed (hsame.indexedMessages ▸ hr)] at hg
    obtain ⟨f, -, rfl⟩ := List.mem_map.1 hg
    exact leadsBack_of_target rfl
  case numbers =>
    intro r hr
    rw [hsame.indexedEnums, ← hcalls.indexedEnums] at hr
    rw [assembled, enumeration_annotate (indexed_withCalls hindexed) hr]
    rfl
  case pages =>
    intro r hr
    rw [hsame.indexedMethods, ← hcalls.indexedMethods] at hr
    exact pagesNoted_annotate hr

/-- Assembly that comes to its end gives a settled model. -/
theorem settled_crossReference (h : m.crossReference.error? = none) :
    Settled m.crossReference.model := by
  rw [model_crossReference h]
  exact settled_assembled (buildIndices_buildIndices m)

end ApiModel.Model
