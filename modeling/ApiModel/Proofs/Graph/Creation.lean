import ApiModel.Proofs.Graph.Closure

/-!
# Created models

A model that is created from a specification is closed if nothing is skipped, and else exactly if
the options retain everything that its indexed elements are linked to. They need not: an element
that is skipped goes on being referred to by those that are not.
-/

namespace ApiModel

open Model

variable {m other result : Model} {options : SourceOptions}

/-! ## Fresh models are linked by assembly -/

namespace Model

/-- No type of a field is resolved while a model is built. -/
theorem Built.target_eq_none {before : Nat → Nat → Prop} (h : Built before m) (r : MessageRef) :
    ∀ f ∈ (m.message r).fields, f.target = none := by
  change ∀ f ∈ (messageArena.get m r).fields, f.target = none
  by_cases hr : messageArena.Holds m r
  · exact h.targets r _ (messageArena.find?_of_holds hr)
  · rw [messageArena.get_of_not_holds hr]
    exact fun f hf => absurd hf List.not_mem_nil

/-- No type of a method is resolved while a model is built. -/
theorem Built.unresolved {before : Nat → Nat → Prop} (h : Built before m) (r : MethodRef) :
    Unresolved (m.method r) := by
  by_cases hr : methodArena.Holds m r
  · exact h.calls r _ (methodArena.find?_of_holds hr)
  · rw [method_of_not_holds hr]
    refine ⟨rfl, rfl, ?_, ?_⟩
    · rintro info ⟨⟩
    · rintro info ⟨⟩

/-- A method is unresolved if another is that differs in its service only. -/
theorem unresolved_of_unowned {x y : Method} (h : y.unowned = x.unowned) (hx : Unresolved x) :
    Unresolved y := by
  have hinput := congrArg Method.inputType h
  have houtput := congrArg Method.outputType h
  have hoperation := congrArg Method.operationInfo h
  exact hx.congr hinput houtput hoperation

/-- Assembly that comes to its end gives a built model no other places than those of its names. -/
theorem Built.linked_crossReference {before : Nat → Nat → Prop} (h : Built before m)
    (hnone : m.crossReference.error? = none) : Linked m.crossReference.model := by
  rw [model_crossReference hnone]
  refine linked_assembled (indexed_buildIndices m) (fun r f hf => ?_) fun r => ?_
  · rw [(reduction_buildIndices m).fields] at hf
    exact h.target_eq_none r f hf
  · exact unresolved_of_unowned ((reduction_buildIndices m).method r) (h.unresolved r)

/-- Assembly that comes to its end gives a closed model. -/
theorem Sound.closed_crossReference (h : Sound m) (hnone : m.crossReference.error? = none) :
    Closed m.crossReference.model := by
  have hrange : ∀ link ∈ m.listedMethods, link.2.index < m.store.methods.size := by
    intro link hlink
    obtain ⟨-, x, hx, hmem⟩ := h.of_mem_listedMethods hlink
    exact (h.service _ x hx).methods _ hmem
  obtain ⟨-, hexact, -⟩ := crossReference_exact hrange
  obtain ⟨-, hfields, hmethods⟩ := hexact hnone
  exact ⟨hfields, fun r hr => (hmethods r hr).toReferencesLinked⟩

/-! ## Skipping -/

/-- Skipping leaves an indexed model of what the options retain. -/
theorem leaves_skipElements (h : Sound m) {rank : MessageRef → Nat} (hrank : Ranked rank m)
    (hdepth : ∀ r, messageArena.Holds m r → rank r < m.store.messages.size)
    (hindices : m.buildIndices = m) (hskip : m.skipElements options = .ok other) :
    (Selection.ofOptions options).Leaves m other := by
  have hreduced := reduction_skipElements hskip
  have hafter := buildIndices_skipElements hskip hindices
  have hroots : ∀ r ∈ other.messages ++ other.externalMessages,
      rank r < other.store.messages.size := by
    intro r hr
    rw [hreduced.messageCount]
    obtain ⟨n, hslot⟩ := (h.skipElements hskip).roster.messages r hr
    exact hdepth r
      ((holds_message_iff hreduced.messageCount).1 (hasMessage_iff_holds.1 ⟨_, hslot⟩))
  exact {
    toReduction := hreduced
    indexed := hindices ▸ indexed_buildIndices m
    indexedAfter := hafter ▸ indexed_buildIndices other
    messagesOnce := h.nodup_visitedMessages hrank
    enumsOnce := h.nodup_visitedEnums hrank
    visited := fun t =>
      (Selection.filtered_skipElements hskip).visited_iff_retains
        (hrank.skipElements hskip) hroots }

/-! ## Documentation -/

/-- A linked field is linked in every model of the same outline. -/
theorem FieldLinked.of_sameOutline {f : Field} (hf : FieldLinked m f) (h : SameOutline m other) :
    FieldLinked other f where
  message htype := by
    rw [h.messageRef?]
    exact hf.message htype
  enumeration htype := by
    rw [h.enumRef?]
    exact hf.enumeration htype
  scalar := hf.scalar

/-- A linked name that may be empty is linked in every model of the same outline. -/
theorem OptionalLinked.of_sameOutline {id : String} {place : Option MessageRef}
    (hid : OptionalLinked m id place) (h : SameOutline m other) :
    OptionalLinked other id place where
  named hne := by
    rw [h.messageRef?]
    exact hid.named hne
  unnamed := hid.unnamed

/-- A linked method is linked in every model of the same outline. -/
theorem ReferencesLinked.of_sameOutline {x : Method} (hx : ReferencesLinked m x)
    (h : SameOutline m other) : ReferencesLinked other x where
  input := by
    rw [h.messageRef?]
    exact hx.input
  output := by
    rw [h.messageRef?]
    exact hx.output
  response info hinfo := (hx.response info hinfo).of_sameOutline h
  metadata info hinfo := (hx.metadata info hinfo).of_sameOutline h

/-- The link of a field does not depend on its documentation. -/
theorem fieldLinked_undocumented {f : Field} : FieldLinked m f.undocumented ↔ FieldLinked m f :=
  ⟨fun h => ⟨h.message, h.enumeration, h.scalar⟩, fun h =>
    ⟨h.message, h.enumeration, h.scalar⟩⟩

/-- The links of a method do not depend on its documentation. -/
theorem referencesLinked_undocumented {x : Method} :
    ReferencesLinked m x.undocumented ↔ ReferencesLinked m x :=
  ⟨fun h => ⟨h.input, h.output, h.response, h.metadata⟩,
    fun h => ⟨h.input, h.output, h.response, h.metadata⟩⟩

/-- A closed model stays closed when its documentation changes. -/
theorem Closed.of_sameButTexts (hclosed : Closed m) (h : SameButTexts m other) : Closed other where
  fields r hr f hf := by
    rw [h.indexedMessages] at hr
    have hmem : f.undocumented ∈ (m.message r).fields.map Field.undocumented := by
      rw [← h.fields]
      exact List.mem_map_of_mem hf
    obtain ⟨g, hg, hgf⟩ := List.mem_map.1 hmem
    have hlinked := (hclosed.fields r hr g hg).of_sameOutline h.toSameOutline
    rw [← fieldLinked_undocumented, hgf, fieldLinked_undocumented] at hlinked
    exact hlinked
  methods r hr := by
    rw [h.indexedMethods] at hr
    have hlinked := (hclosed.methods r hr).of_sameOutline h.toSameOutline
    rw [← referencesLinked_undocumented, ← h.methodText,
      referencesLinked_undocumented] at hlinked
    exact hlinked

/-- Whether a model is closed does not depend on its documentation. -/
theorem SameButTexts.closed_iff (h : SameButTexts m other) : Closed other ↔ Closed m :=
  ⟨fun hclosed => hclosed.of_sameButTexts h.symm, fun hclosed => hclosed.of_sameButTexts h⟩

end Model

/-- What a selection leaves retains links as long as the same elements are indexed. -/
theorem Selection.RetainsLinks.of_sameOutline {s : Selection} (hretained : s.RetainsLinks m other)
    (h : SameOutline other result) : s.RetainsLinks m result where
  fields r hr := by
    rw [h.indexedMessages] at hr
    exact hretained.fields r hr
  methods r hr := by
    rw [h.indexedMethods] at hr
    exact hretained.methods r hr

/-! ## The whole way -/

namespace ModelConfig

variable {config : ModelConfig} {service : Option ServiceConfig}

/-- A model that is created is what documentation makes of an assembled and reduced one. -/
theorem finish_eq_ok (h : config.finish service m = .ok result) :
    ∃ b, (config.rename m).crossReference.error? = none ∧
      (config.rename m).crossReference.model.skipElements config.options = .ok b ∧
      SameButTexts b result := by
  obtain ⟨last, hrefine, h⟩ := Attempt.bind_eq_ok.1 h
  obtain rfl := Except.ok.inj h
  obtain ⟨a, hassembled, hrefine⟩ := Attempt.bind_eq_ok.1 hrefine
  obtain ⟨hnone, rfl⟩ := Outcome.result_eq_ok.1 hassembled
  obtain ⟨b, hskip, hrefine⟩ := Attempt.bind_eq_ok.1 hrefine
  dsimp only at hrefine
  obtain ⟨c, hpatched, hrefine⟩ := Attempt.bind_eq_ok.1 hrefine
  obtain ⟨valid, -, hrefine⟩ := Attempt.bind_eq_ok.1 hrefine
  obtain rfl := Except.ok.inj hrefine
  obtain ⟨-, rfl⟩ := Outcome.result_eq_ok.1 hpatched
  refine ⟨b, hnone, hskip, ?_⟩
  have hpackage : ∀ (k : Model) (package : String),
      SameButTexts k { k with packageName := package } :=
    fun k package => { SameButTexts.refl k with }
  refine SameButTexts.trans ?_ (hpackage _ _)
  refine SameButTexts.trans ?_ (sameButTexts_patchAll _ config.overrides)
  cases service with
  | none => exact .refl b
  | some service => exact sameButTexts_applyRules b service

/-- A model that was read stays built when it is renamed. -/
theorem built_rename {before : Nat → Nat → Prop} (h : Built before m) :
    Built before (config.rename m) :=
  h.relist rfl h.roster

/-- A created model is closed exactly if the options retain everything that its indexed elements are
linked to, and so it is if they select nothing. -/
theorem closed_finish_iff (h : Parsed m) (hfinish : config.finish service m = .ok result) :
    (Closed result ↔ (Selection.ofOptions config.options).RetainsLinks
      (config.rename m).crossReference.model result) ∧
    ((Selection.ofOptions config.options).isEmpty → Closed result) := by
  obtain ⟨b, hnone, hskip, hsame⟩ := finish_eq_ok hfinish
  obtain ⟨⟨before, hbuilt⟩, rank, hrank, hdepth⟩ := h.built
  have hrenamed : Built before (config.rename m) := built_rename hbuilt
  have hsound := hrenamed.toSound.crossReference
  have hcount := (sameListing_buildIndices (config.rename m)).trans
    (sameSource_crossReference (config.rename m)).toSameListing
  have hleaves : (Selection.ofOptions config.options).Leaves
      (config.rename m).crossReference.model b := by
    refine leaves_skipElements hsound (Ranked.crossReference hrank) (fun r hr => ?_)
      (settled_crossReference hnone).indices hskip
    rw [hcount.count]
    exact hdepth r ((holds_message_iff hcount.count).1 hr)
  refine ⟨?_, fun hempty => ?_⟩
  · rw [hsame.closed_iff, hleaves.closed_iff (hrenamed.linked_crossReference hnone)]
    exact ⟨fun hretained => hretained.of_sameOutline hsame.toSameOutline,
      fun hretained => hretained.of_sameOutline hsame.toSameOutline.symm⟩
  · rcases skipElements_eq_ok.1 hskip with ⟨-, rfl⟩ | ⟨hfull, -⟩
    · exact hsame.closed_iff.2 (hrenamed.toSound.closed_crossReference hnone)
    · rw [hempty] at hfull
      cases hfull

/-- A document of two schemas, of which the second refers to the first. -/
def library : Discovery.Document :=
  { name := "library"
    schemas :=
      [("Book", ⟨"object", "", "", "", [], none, none, false⟩),
        ("Shelf", ⟨"object", "", "", "",
          [("top", ⟨"", "", "", "Book", [], none, none, false⟩)], none, none, false⟩)] }

/-- The configuration that skips the given full names. -/
def skipping (ids : String) : ModelConfig :=
  { format := .discovery
    source := "library.json"
    options := Index.empty.insert SourceOptions.skippedIds ids }

/-- What is created from the document while the given full names are skipped. -/
def shortened (ids : String) : Except Error Model :=
  (library.model none).bind ((skipping ids).finish none)

/-- What is created comes from a model that was read. -/
theorem shortened_eq_ok {ids : String} (h : shortened ids = .ok result) :
    ∃ m, library.model none = .ok m ∧ (skipping ids).finish none m = .ok result :=
  Attempt.bind_eq_ok.1 h

/-- If nothing is skipped, the model that is created is closed, and everything it is linked to is
retained. -/
theorem closed_finish_iff_library :
    ∃ m result, library.model none = .ok m ∧ (skipping "").finish none m = .ok result ∧
      Closed result ∧ (Selection.ofOptions (skipping "").options).RetainsLinks
        ((skipping "").rename m).crossReference.model result := by
  have hok : (shortened "").isOk = true := by decide +kernel
  cases hresult : shortened "" with
  | error e =>
    rw [hresult] at hok
    cases hok
  | ok result =>
    obtain ⟨m, hm, hfinish⟩ := shortened_eq_ok hresult
    obtain ⟨hiff, hempty⟩ := closed_finish_iff (.discovery hm) hfinish
    have hclosed := hempty (by decide +kernel)
    exact ⟨m, result, hm, hfinish, hclosed, hiff.1 hclosed⟩

/-- If the schema that the other one of the library refers to is skipped, the model that is created
is not closed. -/
theorem not_closed_library :
    ∃ m result, library.model none = .ok m ∧ (skipping ".Book").finish none m = .ok result ∧
      ¬Closed result := by
  have hdangling : (shortened ".Book").toOption.any (fun result =>
      result.indexedMessages.any fun r => (result.message r).fields.any fun f =>
        f.type == .message && (result.messageRef? f.typeId).isNone) = true := by decide +kernel
  cases hresult : shortened ".Book" with
  | error e =>
    rw [hresult] at hdangling
    cases hdangling
  | ok result =>
    obtain ⟨m, hm, hfinish⟩ := shortened_eq_ok hresult
    refine ⟨m, result, hm, hfinish, fun hclosed => ?_⟩
    rw [hresult] at hdangling
    obtain ⟨r, hr, hfields⟩ := List.any_eq_true.1 hdangling
    obtain ⟨f, hf, hmissing⟩ := List.any_eq_true.1 hfields
    rw [Bool.and_eq_true, beq_iff_eq, Option.isNone_iff_eq_none] at hmissing
    obtain ⟨place, hfound, -⟩ := (hclosed.fields r hr f hf).message (.inl hmissing.1)
    rw [hmissing.2] at hfound
    cases hfound

end ModelConfig

end ApiModel
