import ApiModel.Documentation
import ApiModel.Proofs.Assembly.Sources
import ApiModel.Proofs.Graph.Sound
import ApiModel.Proofs.Reduction

/-!
# Sound passes

Every pass over a model leaves a sound model sound, however far it gets: indexing finds only what is
listed, resolving gives only places from the indices, and all other passes keep what elements refer
to or drop some of it.
-/

namespace ApiModel.Model

variable {m other : Model}

namespace Sound

/-! ## Indexing -/

/-- The messages nested in an existing message exist. -/
theorem hasMessage_visitMessage (h : Sound m) {depth : Nat} {r s : MessageRef}
    (hr : m.extent.HasMessage r) (hs : s ∈ m.visitMessage depth r) : m.extent.HasMessage s := by
  induction depth generalizing r with
  | zero => exact absurd hs List.not_mem_nil
  | succ depth ih =>
    rw [visitMessage, List.mem_cons] at hs
    rcases hs with rfl | hs
    · exact hr
    · obtain ⟨c, hc, hs⟩ := List.mem_flatMap.1 hs
      obtain ⟨x, hx⟩ := hasMessage_iff.1 hr
      have hc := List.mem_reverse.1 hc
      rw [show m.message r = x from messageArena.get_of_find? hx] at hc
      obtain ⟨n, hslot⟩ := (h.message r x hx).messages c hc
      exact ih ⟨_, hslot⟩ hs

/-- The visited messages exist. -/
theorem hasMessage_visitedMessages (h : Sound m) {r : MessageRef} (hr : r ∈ m.visitedMessages) :
    m.extent.HasMessage r := by
  obtain ⟨root, hroot, hr⟩ := List.mem_flatMap.1 hr
  obtain ⟨n, hslot⟩ := h.roster.messages root (List.mem_reverse.1 hroot)
  exact h.hasMessage_visitMessage ⟨_, hslot⟩ hr

/-- The visited enumerations exist. -/
theorem hasEnum_visitedEnums (h : Sound m) {r : EnumRef} (hr : r ∈ m.visitedEnums) :
    m.extent.HasEnum r := by
  rcases List.mem_append.1 hr with hr | hr
  · exact ⟨none, h.roster.enums r hr⟩
  · obtain ⟨owner, howner, hr⟩ := List.mem_flatMap.1 hr
    obtain ⟨x, hx⟩ := hasMessage_iff.1 (h.hasMessage_visitedMessages howner)
    rw [show m.message owner = x from messageArena.get_of_find? hx] at hr
    exact ⟨_, (h.message owner x hx).enums r hr⟩

/-- The listed methods exist, and so do their services. -/
theorem of_mem_listedMethods (h : Sound m) {link : ServiceRef × MethodRef}
    (hlink : link ∈ m.listedMethods) :
    link.1 ∈ m.services ∧ ∃ x, serviceArena.find? m link.1 = some x ∧
    link.2 ∈ x.methods := by
  obtain ⟨s, hs, hlink⟩ := List.mem_flatMap.1 hlink
  obtain ⟨r, hr, rfl⟩ := List.mem_map.1 hlink
  have hfind := serviceArena.find?_of_holds (m := m) (r := s) (h.roster.services s hs)
  exact ⟨hs, _, hfind, hr⟩

/-- Indexing keeps the model sound. -/
theorem buildIndices (h : Sound m) : Sound m.buildIndices := by
  have hindexed : Sound m.withIndices := by
    refine h.withRoster rfl rfl rfl rfl { h.roster with
      indexedMessages := ?_, indexedEnums := ?_, indexedServices := ?_, indexedMethods := ?_ }
    · intro r hr
      obtain ⟨key, hkey⟩ := Index.mem_values.1 hr
      exact h.hasMessage_visitedMessages (of_get?_indexBy hkey).1
    · intro r hr
      obtain ⟨key, hkey⟩ := Index.mem_values.1 hr
      exact h.hasEnum_visitedEnums (of_get?_indexBy hkey).1
    · intro r hr
      obtain ⟨key, hkey⟩ := Index.mem_values.1 hr
      exact h.roster.services r (of_get?_indexBy hkey).1
    · intro r hr
      obtain ⟨key, hkey⟩ := Index.mem_values.1 hr
      obtain ⟨link, hlink, rfl⟩ := List.mem_map.1 (of_get?_indexBy hkey).1
      obtain ⟨-, x, hx, hmem⟩ := h.of_mem_listedMethods hlink
      exact (h.service _ x hx).methods _ hmem
  rw [buildIndices_eq]
  refine hindexed.mapMethods fun r x hx => ?_
  have hsound := hindexed.method r x hx
  refine { hsound with service := fun s hs => ?_ }
  change (lastOwner? m.listedMethods r).or x.service = some s at hs
  cases howner : lastOwner? m.listedMethods r with
  | none =>
    rw [howner, Option.none_or] at hs
    exact hsound.service s hs
  | some t =>
    rw [howner, Option.some_or] at hs
    obtain rfl := Option.some.inj hs
    exact h.roster.services t (h.of_mem_listedMethods (mem_of_lastOwner? howner)).1

/-! ## Resolving -/

/-- A message that is found exists. -/
theorem hasMessage_messageRef? (h : Sound m) {id : String} {r : MessageRef}
    (hr : m.messageRef? id = some r) : m.extent.HasMessage r :=
  h.roster.indexedMessages r (Index.mem_values.2 ⟨id, hr⟩)

/-- What the type of a field names exists. -/
theorem hasType_namedType? (h : Sound m) {f : Field} {t : TypeRef} (ht : m.namedType? f = some t) :
    m.extent.HasType t := by
  unfold namedType? at ht
  split at ht
  · obtain ⟨r, hr, rfl⟩ := Option.map_eq_some_iff.1 ht
    exact h.hasMessage_messageRef? hr
  · obtain ⟨r, hr, rfl⟩ := Option.map_eq_some_iff.1 ht
    exact h.hasMessage_messageRef? hr
  · obtain ⟨r, hr, rfl⟩ := Option.map_eq_some_iff.1 ht
    exact h.roster.indexedEnums r (Index.mem_values.2 ⟨f.typeId, hr⟩)
  · cases ht

/-- A message that may not be named exists if it is. -/
theorem hasMessage_optionalRef? (h : Sound m) {id : String} {r : MessageRef}
    (hr : m.optionalRef? id = some r) : m.extent.HasMessage r := by
  unfold optionalRef? at hr
  split at hr
  · cases hr
  · exact h.hasMessage_messageRef? hr

/-- Resolving the fields of messages keeps the model sound. -/
theorem resolveFields (h : Sound m) : Sound m.resolveFields.model := by
  refine Outcome.forEach_keeps (P := Sound) (fun k r y hy hk => ?_) _ h
  rw [resolveMessage_eq] at hy
  obtain ⟨x', hx', rfl⟩ := Attempt.map_eq_ok.1 hy
  obtain ⟨-, rfl⟩ := resolvedMessage_eq_ok.1 hx'
  refine hk.modifyMessage (fun x hx => ?_) (fun x hx => ?_)
  · rw [show k.message r = x from messageArena.get_of_find? hx, linkedMessage, Message.slot,
      List.length_map]
    rfl
  · rw [show k.message r = x from messageArena.get_of_find? hx]
    exact (hk.message r x hx).mapFields (fun _ => rfl) (fun _ => rfl)
      fun f _ t ht => hk.hasType_namedType? ht

/-- Resolving the names of methods keeps the model sound. -/
theorem resolveMethods (h : Sound m) : Sound m.resolveMethods.model := by
  refine Outcome.forEach_keeps (P := Sound) (fun k r y hy hk => ?_) _ h
  obtain ⟨x', hx', rfl⟩ := Attempt.map_eq_ok.1 hy
  obtain ⟨-, rfl⟩ := resolveMethodNames_eq_ok.1 hx'
  refine hk.modifyMethod fun x hx => ?_
  rw [show k.method r = x from methodArena.get_of_find? hx]
  have hsound := hk.method r x hx
  refine { hsound with inputType := ?_, outputType := ?_, operation := ?_ }
  · exact fun t ht => hk.hasMessage_messageRef? ht
  · exact fun t ht => hk.hasMessage_messageRef? ht
  · intro made hmade
    obtain ⟨info, hinfo, rfl⟩ := Option.map_eq_some_iff.1 hmade
    exact ⟨fun t ht => hk.hasMessage_optionalRef? ht, fun t ht => hk.hasMessage_optionalRef? ht⟩

/-! ## Annotating -/

/-- Marking maps keeps the model sound. -/
theorem markAllMaps (h : Sound m) : Sound m.markAllMaps := by
  refine foldl_keeps (P := Sound) (fun k r hk => ?_) _ h
  refine hk.modifyMessage (fun x hx => ?_) (fun x hx => ?_)
  · rw [Message.slot, List.length_map]
    rfl
  · refine (hk.message r x hx).mapFields (fun f => ?_) (fun f => ?_) (fun f hf t ht => ?_)
    · split <;> rfl
    · split <;> rfl
    · refine ((hk.message r x hx).fields f hf).target t ?_
      split at ht <;> exact ht

/-- Marking recursive fields keeps the model sound. -/
theorem markAllRecursive (h : Sound m) : Sound m.markAllRecursive := by
  rw [markAllRecursive_eq_foldl]
  refine foldl_keeps (P := Sound) (fun k r hk => ?_) _ h
  refine hk.modifyMessage (fun x hx => ?_) (fun x hx => ?_)
  · rw [recursiveMessage, Message.slot, List.length_map]
    rfl
  · exact (hk.message r x hx).mapFields (fun _ => rfl) (fun _ => rfl)
      fun f hf => ((hk.message r x hx).fields f hf).target

/-- The first positions of numbers lie within their list. -/
theorem lt_of_mem_firstPositions {seen numbers : List Int} {position i : Nat}
    (hi : i ∈ firstPositions seen position numbers) : i < position + numbers.length := by
  induction numbers generalizing seen position with
  | nil => cases hi
  | cons n rest ih =>
    rw [firstPositions] at hi
    rw [List.length_cons]
    split at hi
    · have hlt := ih hi
      omega
    · rcases List.mem_cons.1 hi with rfl | hi
      · omega
      · have hlt := ih hi
        omega

/-- Finding the first values of numbers keeps the model sound. -/
theorem findAllUniqueValues (h : Sound m) : Sound m.findAllUniqueValues := by
  refine foldl_keeps (P := Sound) (fun k r hk => ?_) _ h
  refine hk.modifyEnum (fun _ _ => rfl) fun x hx => ?_
  refine { hk.enumeration r x hx with numbers := fun i hi => ?_ }
  have hlt := lt_of_mem_firstPositions hi
  rw [List.length_map] at hlt
  change i < x.values.length
  omega

/-- A position that is found lies within the list. -/
theorem lt_of_findIdx? {α : Type} {p : α → Bool} {xs : List α} {i : Nat}
    (h : xs.findIdx? p = some i) : i < xs.length := by
  obtain ⟨hlt, -⟩ := List.findIdx?_eq_some_iff_getElem.1 h
  exact hlt

/-- The fields that drive pages exist. -/
theorem hasField_pages? {x : Method} {token : FieldRef} {response : MessageRef} {pages : Pagination}
    (h : m.pages? x = some (token, response, pages)) :
    m.extent.HasField token ∧ m.extent.HasField pages.nextPageToken ∧
      m.extent.HasField pages.pageableItem := by
  simp only [pages?, Option.bind_eq_bind, Option.bind_eq_some_iff] at h
  obtain ⟨input, -, output, -, position, hposition, next, hnext, item, hitem, h⟩ := h
  cases h
  refine ⟨hasField_iff.2 (lt_of_findIdx? hposition), hasField_iff.2 (lt_of_findIdx? hnext),
    hasField_iff.2 ?_⟩
  unfold Message.pageableItem? at hitem
  split at hitem
  · rename_i only honly
    obtain rfl := Option.some.inj hitem
    have hmem : only ∈ (m.message response).collections := by
      rw [honly]
      exact List.mem_cons_self
    exact List.mem_range.1 (List.mem_filter.1 hmem).1
  · cases hitem

/-- Noting pages keeps the model sound. -/
theorem markAllPages (h : Sound m) : Sound m.markAllPages := by
  refine foldl_keeps (P := Sound) (fun k r hk => ?_) _ h
  rw [markPages_eq]
  split
  · exact hk
  · rename_i token response pages hpages
    obtain ⟨htoken, hdriven⟩ := hasField_pages? hpages
    have hmethod : Sound (k.modifyMethod r fun x => { x with pagination := some token }) := by
      refine hk.modifyMethod fun x hx => { hk.method r x hx with pagination := fun f hf => ?_ }
      obtain rfl := Option.some.inj hf
      exact htoken
    have hextent : (k.modifyMethod r fun x => { x with pagination := some token }).extent =
        k.extent := by
      change (methodArena.modify k r _).extent = _
      rw [methodArena.modify_eq_map, extent_mapMethods]
    refine hmethod.modifyMessage (fun _ _ => rfl) fun x hx =>
      { hmethod.message response x hx with pagination := fun p hp => ?_ }
    obtain rfl := Option.some.inj hp
    rw [hextent]
    exact hdriven

/-! ## Assembly -/

/-- Assembly keeps the model sound, however far it gets. -/
theorem crossReference (h : Sound m) : Sound m.crossReference.model := by
  rw [Model.crossReference]
  refine Outcome.andThen_keeps (P := Sound) ?_ fun k hk => ?_
  · refine Outcome.andThen_keeps (P := Sound) ?_ fun k hk => ?_
    · refine Outcome.andThen_keeps (P := Sound) ?_ fun k hk => ?_
      · exact h.buildIndices.resolveFields
      · rw [model_checkMapEntries]
        exact hk
    · exact hk.markAllMaps.resolveMethods
  · exact hk.markAllRecursive.findAllUniqueValues.markAllPages

/-! ## Skipping -/

/-- Shorter lists keep the model sound. -/
theorem shorten (h : Sound m) {messages : List MessageRef} {enums : List EnumRef}
    {services : List ServiceRef} (hmessages : messages.Sublist m.messages)
    (henums : enums.Sublist m.enums) (hservices : services.Sublist m.services) :
    Sound { m with messages := messages, enums := enums, services := services } := by
  have htop : (messages ++ m.externalMessages).Sublist (m.messages ++ m.externalMessages) :=
    hmessages.append (List.Sublist.refl _)
  have htopEnums : (enums ++ m.externalEnums).Sublist (m.enums ++ m.externalEnums) :=
    henums.append (List.Sublist.refl _)
  have hroster := h.roster
  refine h.withRoster rfl rfl rfl rfl { hroster with
    messages := fun r hr => hroster.messages r (htop.subset hr)
    messagesOnce := hroster.messagesOnce.sublist htop
    enums := fun r hr => hroster.enums r (htopEnums.subset hr)
    enumsOnce := hroster.enumsOnce.sublist htopEnums
    services := fun r hr => hroster.services r (hservices.subset hr)
    servicesOnce := hroster.servicesOnce.sublist hservices }

/-- Pruning the lists keeps the model sound. -/
theorem prunedLists (h : Sound m) (s : Selection) : Sound (s.prunedLists m) := by
  have hshort : Sound { m with
      messages := m.messages.filter fun ref => s.keeps (m.message ref).id
      enums := m.enums.filter fun ref => s.keeps (m.enumeration ref).id
      services := m.services.filter fun ref => s.keepsService m (m.service ref) } :=
    h.shorten List.filter_sublist List.filter_sublist List.filter_sublist
  have hmap : m.store.messages.map (s.pruneMessage m) =
      m.store.messages.mapIdx fun _ x => s.pruneMessage m x := by
    refine Array.ext_getElem? fun i => ?_
    rw [Array.getElem?_map, Array.getElem?_mapIdx]
  have hnested : ∀ r x, messageArena.find? m r = some x →
      MessageSound m.extent r (s.pruneMessage m x) := fun r x hx =>
    (h.message r x hx).nesting List.filter_sublist List.filter_sublist
  have hpruned : Sound (messageArena.map _ fun _ => s.pruneMessage m) :=
    hshort.mapMessages (fun _ _ _ => rfl) hnested
  rw [Selection.prunedLists, hmap]
  exact hpruned

/-- Pruning the lists and then the services keeps the model sound. -/
theorem prunedServices (h : Sound m) (s : Selection) (services : List ServiceRef) :
    Sound (services.foldl s.pruneService (s.prunedLists m)) := by
  refine foldl_keeps (P := Sound) (fun k r hk => ?_) services (h.prunedLists s)
  exact hk.modifyService fun x => List.filter_sublist

/-- Skipping keeps the model sound. -/
theorem skipElements (h : Sound m) {options : SourceOptions}
    (hskip : m.skipElements options = .ok other) : Sound other := by
  rcases skipElements_eq_ok.1 hskip with ⟨-, rfl⟩ | ⟨-, -, rfl⟩
  · exact h
  · rw [Selection.apply_eq]
    exact (h.prunedServices _ _).buildIndices

/-! ## Documentation -/

/-- Documenting a message keeps it sound. -/
theorem documentMessage {e : Extent} {r : MessageRef} {x : Message} (hx : MessageSound e r x)
    (config : ServiceConfig) : MessageSound e r (config.documentMessage x) := by
  have hfields : MessageSound e r { x with
      fields := x.fields.map fun f =>
        { f with documentation := config.documented f.id f.documentation } } :=
    hx.mapFields (fun _ => rfl) (fun _ => rfl) fun f hf => (hx.fields f hf).target
  exact hfields.documented (config.documented x.id x.documentation)

/-- The rules of a configuration keep the model sound. -/
theorem applyRules (h : Sound m) (config : ServiceConfig) : Sound (m.applyRules config) := by
  unfold Model.applyRules
  split
  · exact h
  · refine foldl_keeps (P := Sound) (fun k r hk => ?_) _ ?_
    · exact hk.modifyMethod fun x hx => { hk.method r x hx with }
    refine foldl_keeps (P := Sound) (fun k r hk => ?_) _ ?_
    · exact hk.modifyService fun x => List.Sublist.refl _
    refine foldl_keeps (P := Sound) (fun k r hk => ?_) _ ?_
    · refine hk.modifyEnum (fun _ _ => rfl) fun x hx =>
        (hk.enumeration r x hx).withValues (List.length_map _) (fun w hw => ?_) _
      obtain ⟨v, hv, rfl⟩ := List.mem_map.1 hw
      exact ⟨v, hv, rfl⟩
    refine foldl_keeps (P := Sound) (fun k r hk => ?_) _ h
    refine hk.modifyMessage (fun x hx => ?_) fun x hx => ?_
    · rw [Message.slot, ServiceConfig.documentMessage, List.length_map]
      rfl
    · exact documentMessage (hk.message r x hx) config

/-- Every item of a list that is changed at one position was there or is what became of one. -/
theorem of_mem_modify {α : Type} {xs : List α} {i : Nat} {change : α → α} {y : α}
    (h : y ∈ xs.modify i change) : ∃ x ∈ xs, y = x ∨ y = change x := by
  obtain ⟨j, hj⟩ := List.mem_iff_getElem?.1 h
  rw [List.getElem?_modify] at hj
  obtain ⟨x, hx, hxy⟩ := Option.map_eq_some_iff.1 hj
  refine ⟨x, List.mem_iff_getElem?.2 ⟨j, hx⟩, ?_⟩
  split at hxy
  · exact .inr hxy.symm
  · exact .inl hxy.symm

/-- Setting the documentation of an element keeps the model sound. -/
theorem setDocumentation (h : Sound m) (text : String) (element : Documented) :
    Sound (m.setDocumentation text element) := by
  cases element with
  | message r =>
    exact h.modifyMessage (fun _ _ => rfl) fun x hx => (h.message r x hx).documented text
  | enumeration r =>
    exact h.modifyEnum (fun _ _ => rfl) fun x hx =>
      (h.enumeration r x hx).withValues rfl (fun w hw => ⟨w, hw, rfl⟩) text
  | service r => exact h.modifyService fun x => List.Sublist.refl _
  | method r => exact h.modifyMethod fun x hx => { h.method r x hx with }
  | field r position =>
    refine h.modifyMessage (fun x hx => ?_) fun x hx =>
      (h.message r x hx).withFields (List.length_modify ..) fun g hg => ?_
    · rw [Message.slot, List.length_modify]
      rfl
    · obtain ⟨f, hf, hfg⟩ := of_mem_modify hg
      refine ⟨f, hf, ?_⟩
      rcases hfg with rfl | rfl
      · exact ⟨rfl, rfl, ((h.message r x hx).fields g hf).target⟩
      · exact ⟨rfl, rfl, ((h.message r x hx).fields f hf).target⟩
  | oneOf r position =>
    refine h.modifyMessage (fun _ _ => rfl) fun x hx => ?_
    have hsound := h.message r x hx
    refine { hsound with fields := fun f hf => ?_, oneOfs := fun o ho => ?_ }
    · have hfield := hsound.fields f hf
      rw [List.length_modify]
      exact hfield
    · obtain ⟨o', ho', hoo⟩ := of_mem_modify ho
      rcases hoo with rfl | rfl
      · exact hsound.oneOfs o ho'
      · exact hsound.oneOfs o' ho'
  | enumValue r position =>
    refine h.modifyEnum (fun _ _ => rfl) fun x hx =>
      (h.enumeration r x hx).withValues (List.length_modify ..) (fun w hw => ?_) x.documentation
    obtain ⟨v, hv, hvw⟩ := of_mem_modify hw
    refine ⟨v, hv, ?_⟩
    rcases hvw with rfl | rfl
    · rfl
    · rfl

/-- Overrides keep the model sound, however far they get. -/
theorem patchAll (h : Sound m) (overrides : List DocumentationOverride) :
    Sound (m.patchAll overrides).model := by
  refine Outcome.forEach_keeps (P := Sound) (fun k item y hy hk => ?_) _ h
  unfold patch at hy
  split at hy
  · cases hy
  · split at hy
    · cases hy
    · obtain rfl := Except.ok.inj hy
      exact hk.setDocumentation _ _

end Sound

end ApiModel.Model
