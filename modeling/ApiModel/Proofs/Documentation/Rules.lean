import ApiModel.Proofs.Documentation.Texts

/-!
# What rules document

The rules of a service configuration document the indexed messages and enumerations, with their
fields and values, and the indexed services and methods. Each takes the text that is said of its own
full name, and keeps its own where nothing is said of it. Groups of alternatives and elements that
are not indexed stay as they are, and rules that were applied change nothing when they are applied
again.
-/

namespace ApiModel

/-! ## Passes that document -/

namespace Arena

variable {ref element : Type} [DecidableEq ref] (a : Arena ref element) {m : Model}
  {places : List ref}
  {r : ref}

/-- A pass whose change can be repeated without effect changes each element of its places once, in
whatever order it comes to them and however often. -/
theorem foldl_modify_eq_map {change : element → element}
    (hagain : ∀ x, change (change x) = change x) (places : List ref) (m : Model) :
    places.foldl (fun m r => a.modify m r change) m =
      a.map m fun r x => if r ∈ places then change x else x := by
  induction places generalizing m with
  | nil =>
    refine (a.map_eq_self fun r _ => ?_).symm
    exact if_neg List.not_mem_nil
  | cons r rest ih =>
    rw [List.foldl_cons, ih, a.modify_eq_map, a.map_map]
    refine a.map_congr fun s _ => ?_
    by_cases hs : s = r
    · subst hs
      simp only [hagain, ite_self, reduceIte, List.mem_cons_self]
    · simp only [List.mem_cons, hs, false_or, reduceIte]

/-- A map that changes some places changes the elements that stand there. -/
theorem get_map_at (hr : r ∈ places) (hheld : a.Holds m r)
    (change : ref → element → element) :
    a.get (a.map m fun r x => if r ∈ places then change r x else x) r = change r (a.get m r) := by
  rw [a.get_map hheld, if_pos hr]

/-- A map that changes some places leaves the elements that stand elsewhere. -/
theorem get_map_elsewhere (h : ¬(r ∈ places ∧ a.Holds m r))
    (change : ref → element → element) :
    a.get (a.map m fun r x => if r ∈ places then change r x else x) r = a.get m r := by
  by_cases hheld : a.Holds m r
  · rw [a.get_map hheld, if_neg fun hr => h ⟨hr, hheld⟩]
  · rw [a.get_of_not_holds hheld, a.get_of_not_holds (mt (a.holds_map m _ r).1 hheld)]

omit [DecidableEq ref] in
/-- Where an element has a part, there is an element. -/
theorem holds_of_part {part : Type} (parts : element → List part)
    (hblank : parts a.blank = []) {p : Nat} {y : part} (hy : (parts (a.get m r))[p]? = some y) :
    a.Holds m r := by
  by_contra hmissing
  rw [a.get_of_not_holds hmissing, hblank] at hy
  cases hy

end Arena

namespace ServiceConfig

variable (config : ServiceConfig)

/-- Taking the text of a full name from the rules again changes nothing. -/
theorem documented_documented (id text : String) :
    config.documented id (config.documented id text) = config.documented id text := by
  unfold documented
  cases config.documentationFor? id <;> rfl

/-- Documenting a message again changes nothing. -/
theorem documentMessage_again (x : Message) :
    config.documentMessage (config.documentMessage x) = config.documentMessage x := by
  simp only [documentMessage, documented_documented, List.map_map, Function.comp_def]

/-- Documenting an enumeration again changes nothing. -/
theorem documentEnum_again (x : Enumeration) :
    config.documentEnum (config.documentEnum x) = config.documentEnum x := by
  simp only [documentEnum, documented_documented, List.map_map, Function.comp_def]

/-- Documenting a service again changes nothing. -/
theorem documentService_again (x : Service) :
    config.documentService (config.documentService x) = config.documentService x := by
  simp only [documentService, documented_documented]

/-- Documenting a method again changes nothing. -/
theorem documentMethod_again (x : Method) :
    config.documentMethod (config.documentMethod x) = config.documentMethod x := by
  simp only [documentMethod, documented_documented]

end ServiceConfig

namespace Model

variable {m other : Model} {config : ServiceConfig}

/-- Whether rules document an element, under a full name: an indexed one, or a field or value of
one. -/
inductive RuledBy (m : Model) : Documented → String → Prop
  /-- An indexed message. -/
  | message {r : MessageRef} (hr : r ∈ m.indexedMessages) (hheld : messageArena.Holds m r) :
    RuledBy m (.message r) (m.message r).id
  /-- A field of an indexed message. -/
  | field {r : MessageRef} {p : Nat} {f : Field} (hr : r ∈ m.indexedMessages)
    (hf : (m.message r).fields[p]? = some f) : RuledBy m (.field r p) f.id
  /-- An indexed enumeration. -/
  | enumeration {r : EnumRef} (hr : r ∈ m.indexedEnums) (hheld : enumArena.Holds m r) :
    RuledBy m (.enumeration r) (m.enumeration r).id
  /-- A value of an indexed enumeration. -/
  | enumValue {r : EnumRef} {p : Nat} {v : EnumValue} (hr : r ∈ m.indexedEnums)
    (hv : (m.enumeration r).values[p]? = some v) : RuledBy m (.enumValue r p) v.id
  /-- An indexed service. -/
  | service {r : ServiceRef} (hr : r ∈ m.indexedServices) (hheld : serviceArena.Holds m r) :
    RuledBy m (.service r) (m.service r).id
  /-- An indexed method. -/
  | method {r : MethodRef} (hr : r ∈ m.indexedMethods) (hheld : methodArena.Holds m r) :
    RuledBy m (.method r) (m.method r).id

/-- The model with all indexed elements documented. -/
def documentIndexed (m : Model) (config : ServiceConfig) : Model :=
  let messages := messageArena.map m fun r x =>
    if r ∈ m.indexedMessages then config.documentMessage x else x
  let enums := enumArena.map messages fun r x =>
    if r ∈ m.indexedEnums then config.documentEnum x else x
  let services := serviceArena.map enums fun r x =>
    if r ∈ m.indexedServices then config.documentService x else x
  methodArena.map services fun r x => if r ∈ m.indexedMethods then config.documentMethod x else x

/-- Documenting a model documents its indexed messages. -/
theorem message_documentIndexed {r : MessageRef} (hr : r ∈ m.indexedMessages)
    (hheld : messageArena.Holds m r) :
    (m.documentIndexed config).message r = config.documentMessage (m.message r) :=
  messageArena.get_map_at hr hheld fun _ => config.documentMessage

/-- Documenting a model leaves messages that are not indexed. -/
theorem message_documentIndexed_of_not {r : MessageRef}
    (h : ¬(r ∈ m.indexedMessages ∧ messageArena.Holds m r)) :
    (m.documentIndexed config).message r = m.message r :=
  messageArena.get_map_elsewhere h fun _ => config.documentMessage

/-- Documenting a model documents its indexed enumerations. -/
theorem enumeration_documentIndexed {r : EnumRef} (hr : r ∈ m.indexedEnums)
    (hheld : enumArena.Holds m r) :
    (m.documentIndexed config).enumeration r = config.documentEnum (m.enumeration r) :=
  enumArena.get_map_at hr hheld fun _ => config.documentEnum

/-- Documenting a model leaves enumerations that are not indexed. -/
theorem enumeration_documentIndexed_of_not {r : EnumRef}
    (h : ¬(r ∈ m.indexedEnums ∧ enumArena.Holds m r)) :
    (m.documentIndexed config).enumeration r = m.enumeration r :=
  enumArena.get_map_elsewhere h fun _ => config.documentEnum

/-- Documenting a model documents its indexed services. -/
theorem service_documentIndexed {r : ServiceRef} (hr : r ∈ m.indexedServices)
    (hheld : serviceArena.Holds m r) :
    (m.documentIndexed config).service r = config.documentService (m.service r) :=
  serviceArena.get_map_at hr hheld fun _ => config.documentService

/-- Documenting a model leaves services that are not indexed. -/
theorem service_documentIndexed_of_not {r : ServiceRef}
    (h : ¬(r ∈ m.indexedServices ∧ serviceArena.Holds m r)) :
    (m.documentIndexed config).service r = m.service r :=
  serviceArena.get_map_elsewhere h fun _ => config.documentService

/-- Documenting a model documents its indexed methods. -/
theorem method_documentIndexed {r : MethodRef} (hr : r ∈ m.indexedMethods)
    (hheld : methodArena.Holds m r) :
    (m.documentIndexed config).method r = config.documentMethod (m.method r) :=
  methodArena.get_map_at hr hheld fun _ => config.documentMethod

/-- Documenting a model leaves methods that are not indexed. -/
theorem method_documentIndexed_of_not {r : MethodRef}
    (h : ¬(r ∈ m.indexedMethods ∧ methodArena.Holds m r)) :
    (m.documentIndexed config).method r = m.method r :=
  methodArena.get_map_elsewhere h fun _ => config.documentMethod

/-- An element that rules are about takes what they say of it. -/
theorem RuledBy.documentation_documentIndexed {element : Documented} {id : String}
    (h : m.RuledBy element id) (config : ServiceConfig) :
    (m.documentIndexed config).documentation element =
      config.documented id (m.documentation element) := by
  cases h with
  | message hr hheld => exact congrArg Message.documentation (message_documentIndexed hr hheld)
  | enumeration hr hheld =>
      exact congrArg Enumeration.documentation (enumeration_documentIndexed hr hheld)
  | service hr hheld => exact congrArg Service.documentation (service_documentIndexed hr hheld)
  | method hr hheld => exact congrArg Method.documentation (method_documentIndexed hr hheld)
  | @field r p f hr hf =>
    have hheld : messageArena.Holds m r := messageArena.holds_of_part Message.fields rfl hf
    rw [documentation_field, documentation_field, message_documentIndexed hr hheld, hf,
      ServiceConfig.documentMessage, List.getElem?_map, hf]
    rfl
  | @enumValue r p v hr hv =>
    have hheld : enumArena.Holds m r := enumArena.holds_of_part Enumeration.values rfl hv
    rw [documentation_enumValue, documentation_enumValue, enumeration_documentIndexed hr hheld, hv,
      ServiceConfig.documentEnum, List.getElem?_map, hv]
    rfl

/-- An element that rules are not about keeps its documentation. -/
theorem documentation_documentIndexed_of_not {element : Documented}
    (h : ∀ id, ¬m.RuledBy element id) (config : ServiceConfig) :
    (m.documentIndexed config).documentation element = m.documentation element := by
  cases element with
  | message r =>
    have hother : ¬(r ∈ m.indexedMessages ∧ messageArena.Holds m r) :=
      fun hr => h _ (.message hr.1 hr.2)
    exact congrArg Message.documentation (message_documentIndexed_of_not hother)
  | enumeration r =>
    have hother : ¬(r ∈ m.indexedEnums ∧ enumArena.Holds m r) :=
      fun hr => h _ (.enumeration hr.1 hr.2)
    exact congrArg Enumeration.documentation (enumeration_documentIndexed_of_not hother)
  | service r =>
    have hother : ¬(r ∈ m.indexedServices ∧ serviceArena.Holds m r) :=
      fun hr => h _ (.service hr.1 hr.2)
    exact congrArg Service.documentation (service_documentIndexed_of_not hother)
  | method r =>
    have hother : ¬(r ∈ m.indexedMethods ∧ methodArena.Holds m r) :=
      fun hr => h _ (.method hr.1 hr.2)
    exact congrArg Method.documentation (method_documentIndexed_of_not hother)
  | field r p =>
    by_cases hr : r ∈ m.indexedMessages ∧ messageArena.Holds m r
    · have hnone : (m.message r).fields[p]? = none :=
        Option.eq_none_iff_forall_ne_some.2 fun f hf => h _ (.field hr.1 hf)
      rw [documentation_field, documentation_field, message_documentIndexed hr.1 hr.2, hnone,
        ServiceConfig.documentMessage, List.getElem?_map, hnone]
      rfl
    · rw [documentation, message_documentIndexed_of_not hr]
      rfl
  | oneOf r p =>
    by_cases hr : r ∈ m.indexedMessages ∧ messageArena.Holds m r
    · rw [documentation, message_documentIndexed hr.1 hr.2]
      rfl
    · rw [documentation, message_documentIndexed_of_not hr]
      rfl
  | enumValue r p =>
    by_cases hr : r ∈ m.indexedEnums ∧ enumArena.Holds m r
    · have hnone : (m.enumeration r).values[p]? = none :=
        Option.eq_none_iff_forall_ne_some.2 fun v hv => h _ (.enumValue hr.1 hv)
      rw [documentation_enumValue, documentation_enumValue,
        enumeration_documentIndexed hr.1 hr.2, hnone, ServiceConfig.documentEnum,
        List.getElem?_map, hnone]
      rfl
    · rw [documentation, enumeration_documentIndexed_of_not hr]
      rfl

/-- Documenting a model changes nothing but documentation. -/
theorem undocumented_documentIndexed (m : Model) (config : ServiceConfig) :
    (m.documentIndexed config).undocumented = m.undocumented := by
  have hmessages :
    ∀ r x, (if r ∈ m.indexedMessages then config.documentMessage x else x).undocumented =
      x.undocumented := fun r x => by
    rw [apply_ite Message.undocumented, undocumented_documentMessage, ite_self]
  have henums : ∀ r x, (if r ∈ m.indexedEnums then config.documentEnum x else x).undocumented =
      x.undocumented := fun r x => by
    rw [apply_ite Enumeration.undocumented, undocumented_documentEnum, ite_self]
  have hservices :
    ∀ r x, (if r ∈ m.indexedServices then config.documentService x else x).undocumented =
      x.undocumented := fun r x => by
    rw [apply_ite Service.undocumented]
    exact ite_self _
  have hmethods :
    ∀ r x, (if r ∈ m.indexedMethods then config.documentMethod x else x).undocumented =
      x.undocumented := fun r x => by
    rw [apply_ite Method.undocumented]
    exact ite_self _
  calc (m.documentIndexed config).undocumented = _ := sameRest_methods.map hmethods
    _ = _ := sameRest_services.map hservices
    _ = _ := sameRest_enums.map henums
    _ = m.undocumented := sameRest_messages.map hmessages

/-- Where nothing is said of any name, documenting changes nothing. -/
theorem documentIndexed_of_silent (h : ∀ id, config.documentationFor? id = none) :
    m.documentIndexed config = m := by
  refine eq_of_texts (undocumented_documentIndexed m config) fun element => ?_
  by_cases hruled : ∃ id, m.RuledBy element id
  · obtain ⟨id, hruled⟩ := hruled
    rw [hruled.documentation_documentIndexed, ServiceConfig.documented, h, Option.getD_none]
  · exact documentation_documentIndexed_of_not (not_exists.1 hruled) config

/-- Rules document all indexed elements. -/
theorem applyRules_eq (m : Model) (config : ServiceConfig) :
    m.applyRules config = m.documentIndexed config := by
  unfold applyRules
  split
  · rename_i hempty
    refine (documentIndexed_of_silent fun id => ?_).symm
    unfold ServiceConfig.documentationFor?
    rw [List.isEmpty_iff.1 hempty]
    rfl
  · have hmessages : ∀ (refs : List MessageRef) k,
        refs.foldl (fun k r => modifyMessage k r config.documentMessage) k =
        messageArena.map k fun r x => if r ∈ refs then config.documentMessage x else x :=
      messageArena.foldl_modify_eq_map config.documentMessage_again
    have henums : ∀ (refs : List EnumRef) k,
      refs.foldl (fun k r => modifyEnum k r config.documentEnum) k =
        enumArena.map k fun r x => if r ∈ refs then config.documentEnum x else x :=
      enumArena.foldl_modify_eq_map config.documentEnum_again
    have hservices : ∀ (refs : List ServiceRef) k,
        refs.foldl (fun k r => modifyService k r config.documentService) k =
        serviceArena.map k fun r x => if r ∈ refs then config.documentService x else x :=
      serviceArena.foldl_modify_eq_map config.documentService_again
    have hmethods : ∀ (refs : List MethodRef) k,
      refs.foldl (fun k r => modifyMethod k r config.documentMethod) k =
        methodArena.map k fun r x => if r ∈ refs then config.documentMethod x else x :=
      methodArena.foldl_modify_eq_map config.documentMethod_again
    simp only [hmessages, henums, hservices, hmethods]
    rfl

/-- Documentation does not count for what rules are about. -/
theorem RuledBy.of_undocumented {element : Documented} {id : String} (h : m.RuledBy element id)
    (hsame : other.undocumented = m.undocumented) : other.RuledBy element id := by
  have htexts : SameButTexts m other := sameButTexts_of_undocumented hsame
  cases h with
  | message hr hheld =>
    rw [← htexts.messageId]
    exact .message (htexts.indexedMessages ▸ hr) ((messageArena.holds_congr htexts.count).2 hheld)
  | enumeration hr hheld =>
    have hsize := size_of_views (congrArg (·.store.enums) hsame)
    rw [← htexts.enumeration]
    exact .enumeration (htexts.indexedEnums ▸ hr) ((enumArena.holds_congr hsize).2 hheld)
  | service hr hheld =>
    have hsize := size_of_views (congrArg (·.store.services) hsame)
    rw [← htexts.serviceId]
    exact .service (htexts.indexedServices ▸ hr) ((serviceArena.holds_congr hsize).2 hheld)
  | method hr hheld =>
    have hsize := size_of_views (congrArg (·.store.methods) hsame)
    rw [← htexts.method]
    exact .method (htexts.indexedMethods ▸ hr) ((methodArena.holds_congr hsize).2 hheld)
  | @field r p f hr hf =>
    have hfields := congrArg (·[p]?) (htexts.fields r)
    simp only [List.getElem?_map, hf, Option.map_some] at hfields
    obtain ⟨g, hg, hrest⟩ := Option.map_eq_some_iff.1 hfields
    have hid : g.undocumented.id = f.undocumented.id := congrArg Field.id hrest
    change g.id = f.id at hid
    rw [← hid]
    exact .field (htexts.indexedMessages ▸ hr) hg
  | @enumValue r p v hr hv =>
    have hvalues := congrArg (fun x : Enumeration => x.values[p]?) (htexts.enumText r)
    simp only [Enumeration.undocumented, List.getElem?_map, hv, Option.map_some] at hvalues
    obtain ⟨w, hw, hrest⟩ := Option.map_eq_some_iff.1 hvalues
    have hid : w.undocumented.id = v.undocumented.id := congrArg EnumValue.id hrest
    change w.id = v.id at hid
    rw [← hid]
    exact .enumValue (htexts.indexedEnums ▸ hr) hw

/-- An element that rules are about takes what they say of its full name, if they say something, and
else keeps its documentation, as all other elements do. Nothing but documentation changes, and
applying the rules again changes nothing. -/
theorem applyRules_exact (m : Model) (config : ServiceConfig) :
    (∀ element id, m.RuledBy element id →
      (m.applyRules config).documentation element =
        (config.documentationFor? id).getD (m.documentation element)) ∧
    (∀ element, (∀ id, ¬m.RuledBy element id) →
      (m.applyRules config).documentation element = m.documentation element) ∧
    (m.applyRules config).undocumented = m.undocumented ∧
    (m.applyRules config).applyRules config = m.applyRules config := by
  simp only [applyRules_eq]
  have hrest := undocumented_documentIndexed m config
  refine ⟨fun element id h => h.documentation_documentIndexed config,
    fun element h => documentation_documentIndexed_of_not h config, hrest, ?_⟩
  refine eq_of_texts (undocumented_documentIndexed _ config) fun element => ?_
  by_cases hruled : ∃ id, m.RuledBy element id
  · obtain ⟨id, hruled⟩ := hruled
    rw [(hruled.of_undocumented hrest).documentation_documentIndexed,
      hruled.documentation_documentIndexed, config.documented_documented]
  · refine documentation_documentIndexed_of_not (fun id h => hruled ⟨id, ?_⟩) config
    exact h.of_undocumented hrest.symm

end Model

end ApiModel
