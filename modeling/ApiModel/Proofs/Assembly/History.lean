import ApiModel.Proofs.Assembly.Pages
import ApiModel.Proofs.Assembly.Twins

/-!
# Assembling again

A model that was assembled before, and perhaps edited since, still has what the earlier run derived.
Two models of one fresh form can be assembled or not alike, and then have the same indices and the
same indexed elements, up to the noted pages: every pass but the last writes what it derives at
every element that it visits, the last one only where it finds pages. So pages that were noted
earlier stay where none are found any more.
-/

namespace ApiModel.Model

/-- Whether two models have the same indices, and the same indexed elements as far as they are
viewed. -/
structure Agree {α β : Type} (viewMessage : Message → α) (viewMethod : Method → β)
    (m other : Model) :
    Prop where
  /-- The same index of messages. -/
  messageById : other.store.messageById = m.store.messageById
  /-- The same index of enumerations. -/
  enumById : other.store.enumById = m.store.enumById
  /-- The same index of services. -/
  serviceById : other.store.serviceById = m.store.serviceById
  /-- The same index of methods. -/
  methodById : other.store.methodById = m.store.methodById
  /-- The same messages. -/
  message : ∀ r ∈ m.indexedMessages, viewMessage (other.message r) = viewMessage (m.message r)
  /-- The same enumerations. -/
  enumeration : ∀ r ∈ m.indexedEnums, other.enumeration r = m.enumeration r
  /-- The same services. -/
  service : ∀ r ∈ m.indexedServices, other.service r = m.service r
  /-- The same methods. -/
  method : ∀ r ∈ m.indexedMethods, viewMethod (other.method r) = viewMethod (m.method r)

/-- Whether pages are found between the request of a method and a response. -/
def PagesTo (m : Model) (r : MethodRef) (output : MessageRef) : Prop :=
  ∃ input token next item, (m.method r).inputType = some input ∧
    (m.method r).outputType = some output ∧
    m.PagedAt input output token next item

/-- Whether the same pages are noted in two models wherever none are found in an assembled one. -/
structure SameOldPages (a m other : Model) : Prop where
  /-- The same in indexed methods that have no pages. -/
  method : ∀ r ∈ a.indexedMethods, (∀ output, ¬a.PagesTo r output) →
    (other.method r).pagination = (m.method r).pagination
  /-- The same in indexed messages that no indexed method has pages to. -/
  message : ∀ r ∈ a.indexedMessages, (∀ s ∈ a.indexedMethods, ¬a.PagesTo s r) →
    (other.message r).pagination = (m.message r).pagination

variable {m other : Model}

/-! ## Views of elements -/

/-- Messages of one source with the same fields are the same but for their pages. -/
theorem withoutPages_of_source {x y : Message} (hsource : y.source = x.source)
    (hfields : y.fields = x.fields) : y.withoutPages = x.withoutPages := by
  have hsplit : ∀ z : Message, z.withoutPages = { z.source with fields := z.fields } :=
    fun _ => rfl
  rw [hsplit, hsplit, hsource, hfields]

/-- Messages that are the same but for their pages have the same fields. -/
theorem fields_of_withoutPages {x y : Message} (h : y.withoutPages = x.withoutPages) :
    y.fields = x.fields := by
  have hfields := congrArg Message.fields h
  exact hfields

/-- Methods that are the same but for their pages have the same request and response. -/
theorem types_of_withoutPages {x y : Method} (h : y.withoutPages = x.withoutPages) :
    y.inputType = x.inputType ∧ y.outputType = x.outputType := by
  have hinput := congrArg Method.inputType h
  have houtput := congrArg Method.outputType h
  exact ⟨hinput, houtput⟩

/-- The places of a method's types are told by its source, and so is the method but for its
pages. -/
theorem withoutPages_linkedMethod_of_source {x y : Method} (h : y.source = x.source) :
    (m.linkedMethod y).withoutPages = (m.linkedMethod x).withoutPages := by
  have hsplit : ∀ z : Method, (m.linkedMethod z).withoutPages =
      (m.linkedMethod z.source).withoutPages := by
    intro z
    rw [linkedMethod, linkedMethod, Method.source, Option.map_map]
    rfl
  rw [hsplit, hsplit x, h]

/-- Messages are the same if they are so but for their pages, and have the same pages. -/
theorem message_eq_iff {x y : Message} :
    y = x ↔ y.withoutPages = x.withoutPages ∧ y.pagination = x.pagination := by
  constructor
  · rintro rfl
    exact ⟨rfl, rfl⟩
  · rintro ⟨hbody, hpages⟩
    have hsplit : ∀ z : Message, z = { z.withoutPages with pagination := z.pagination } :=
      fun _ => rfl
    rw [hsplit y, hsplit x, hbody, hpages]

/-- Methods are the same if they are so but for their pages, and have the same pages. -/
theorem method_eq_iff {x y : Method} :
    y = x ↔ y.withoutPages = x.withoutPages ∧ y.pagination = x.pagination := by
  constructor
  · rintro rfl
    exact ⟨rfl, rfl⟩
  · rintro ⟨hcall, hpages⟩
    have hsplit : ∀ z : Method, z = { z.withoutPages with pagination := z.pagination } :=
      fun _ => rfl
    rw [hsplit y, hsplit x, hcall, hpages]

/-- Models that agree up to pages agree if and only if the same pages are noted in their indexed
elements. -/
theorem Agree.iff_of_withoutPages {a b : Model}
    (hagree : Agree Message.withoutPages Method.withoutPages a b) :
    Agree id id a b ↔
      (∀ r ∈ a.indexedMethods, (b.method r).pagination = (a.method r).pagination) ∧
        ∀ r ∈ a.indexedMessages, (b.message r).pagination = (a.message r).pagination := by
  constructor
  · intro hsame
    exact ⟨fun r hr => (method_eq_iff.1 (hsame.method r hr)).2,
      fun r hr => (message_eq_iff.1 (hsame.message r hr)).2⟩
  · rintro ⟨hmethods, hmessages⟩
    exact {
      hagree with
      message := fun r hr => message_eq_iff.2 ⟨hagree.message r hr, hmessages r hr⟩
      method := fun r hr => method_eq_iff.2 ⟨hagree.method r hr, hmethods r hr⟩ }

/-! ## Pages that are found -/

/-- Pages are found between the request of a method and a response if and only if the search finds
some. -/
theorem pagesTo_iff {r : MethodRef} {output : MessageRef} :
    m.PagesTo r output ↔ ∃ token pages, m.pages? (m.method r) =
      some (token, output, pages) := by
  constructor
  · rintro ⟨input, token, next, item, hinput, houtput, hpaged⟩
    exact ⟨_, _,
      pages?_eq_some.2 ⟨input, token, next, item, hinput, houtput, hpaged, rfl, rfl⟩⟩
  · rintro ⟨token, pages, hfound⟩
    obtain ⟨input, token, next, item, hinput, houtput, hpaged, -⟩ := pages?_eq_some.1 hfound
    exact ⟨input, token, next, item, hinput, houtput, hpaged⟩

/-- A method has no pages if and only if no response has them. -/
theorem pages?_eq_none_iff {r : MethodRef} :
    m.pages? (m.method r) = none ↔ ∀ output, ¬m.PagesTo r output := by
  constructor
  · intro hnone output hpages
    obtain ⟨token, pages, hfound⟩ := pagesTo_iff.1 hpages
    rw [hnone] at hfound
    cases hfound
  · intro hnone
    cases hfound : m.pages? (m.method r) with
    | none => rfl
    | some found =>
      obtain ⟨token, output, pages⟩ := found
      exact absurd (pagesTo_iff.2 ⟨token, pages, hfound⟩) (hnone output)

/-- A pass keeps what is noted in a method for which no pages are found. -/
theorem pagination_foldl_of_none (items : List MethodRef) {r : MethodRef}
    (h : m.pages? (m.method r) = none) :
    ((items.foldl markPages m).method r).pagination = (m.method r).pagination := by
  induction items generalizing m with
  | nil => rfl
  | cons s rest ih =>
    have hstep : ((m.markPages s).method r).pagination = (m.method r).pagination := by
      rw [markPages_eq]
      cases hs : m.pages? (m.method s) with
      | none => rfl
      | some found =>
        have hne : r ≠ s := by
          rintro rfl
          rw [h] at hs
          cases hs
        exact congrArg Method.pagination (method_notePages_of_ne hne)
    rw [List.foldl_cons, ih ((sameButPages_markPages m s).pages? r ▸ h), hstep]

/-- A pass keeps what is noted in a message to which no pages are found. -/
theorem responsePagination_foldl_of_none (items : List MethodRef) {output : MessageRef}
    (h : ∀ s ∈ items, ¬m.PagesTo s output) :
    ((items.foldl markPages m).message output).pagination = (m.message output).pagination := by
  induction items generalizing m with
  | nil => rfl
  | cons s rest ih =>
    obtain ⟨hs, hrest⟩ := List.forall_mem_cons.1 h
    have hstep : ((m.markPages s).message output).pagination = (m.message output).pagination := by
      rw [markPages_eq]
      cases hfound : m.pages? (m.method s) with
      | none => rfl
      | some found =>
        obtain ⟨token, response, pages⟩ := found
        have hne : output ≠ response := by
          rintro rfl
          exact hs (pagesTo_iff.2 ⟨token, pages, hfound⟩)
        exact congrArg Message.pagination (message_notePages_of_ne hne)
    rw [List.foldl_cons, ih fun t ht hpages => hrest t ht ?_, hstep]
    obtain ⟨token, pages, hfound⟩ := pagesTo_iff.1 hpages
    rw [(sameButPages_markPages m s).pages? t] at hfound
    exact pagesTo_iff.2 ⟨token, pages, hfound⟩

/-- The pages of a method are told by the fields of its request and its response. -/
theorem pages?_congr_of_types {x y : Method} {input output : MessageRef}
    (hy : y.inputType = some input) (hx : x.inputType = some input)
    (hy' : y.outputType = some output) (hx' : x.outputType = some output)
    (hin : (other.message input).fields = (m.message input).fields)
    (hout : (other.message output).fields = (m.message output).fields) :
    other.pages? y = m.pages? x := by
  unfold pages? Message.pageToken? Message.nextPageToken? Message.pageableItem? Message.collections
  rw [hy, hx, hy', hx']
  simp only [Option.bind_eq_bind, Option.bind_some, hin, hout]

/-- A method without a request has no pages. -/
theorem pages?_of_inputType_eq_none {x : Method} (h : x.inputType = none) : m.pages? x = none := by
  rw [pages?, h]
  rfl

/-- In a settled model the pages that are found for an indexed method are noted. -/
theorem Settled.noted (hm : Settled m) {r : MethodRef} (hr : r ∈ m.indexedMethods)
    {token : FieldRef} {response : MessageRef} {pages : Pagination}
    (hfound : m.pages? (m.method r) = some (token, response, pages)) :
    (m.method r).pagination = some token ∧ (m.message response).pagination = some pages := by
  obtain ⟨hmethod, hresponse⟩ := holds_of_pages? hfound
  obtain ⟨htoken, hpages⟩ := hm.pages r hr token response pages hfound
  exact ⟨htoken hmethod, hpages hresponse⟩

/-! ## Pages that are kept -/

section CrossReference

variable (hm : m.crossReference.error? = none)

include hm

/-- Assembly keeps what is noted in a method for which no pages are found. -/
theorem pagination_crossReference_of_none {r : MethodRef}
    (h : ∀ output, ¬m.crossReference.model.PagesTo r output) :
    (m.crossReference.model.method r).pagination = (m.method r).pagination := by
  rw [← pages?_eq_none_iff, model_crossReference_eq_markAllPages hm,
    (sameButPages_markAllPages m.beforePages).pages? r] at h
  rw [model_crossReference_eq_markAllPages hm]
  exact (pagination_foldl_of_none m.beforePages.indexedMethods h).trans
    ((samePages_beforePages m).method r)

/-- Assembly keeps what is noted in a message to which no pages are found. -/
theorem responsePagination_crossReference_of_none {output : MessageRef}
    (h : ∀ s ∈ m.crossReference.model.indexedMethods,
      ¬m.crossReference.model.PagesTo s output) :
    (m.crossReference.model.message output).pagination = (m.message output).pagination := by
  have hsame := sameButPages_markAllPages m.beforePages
  rw [model_crossReference_eq_markAllPages hm] at h ⊢
  have hnone : ∀ s ∈ m.beforePages.indexedMethods, ¬m.beforePages.PagesTo s output := by
    intro s hs hpages
    rw [← hsame.indexedMethods] at hs
    obtain ⟨token, pages, hfound⟩ := pagesTo_iff.1 hpages
    rw [← hsame.pages? s] at hfound
    exact h s hs (pagesTo_iff.2 ⟨token, pages, hfound⟩)
  exact (responsePagination_foldl_of_none m.beforePages.indexedMethods hnone).trans
    ((samePages_beforePages m).message output)

end CrossReference

/-! ## Models of one fresh form -/

section SameFresh

variable (h : other.fresh = m.fresh)

include h

/-- Of two models of one fresh form, one is assembled without an error if and only if the other is.
-/
theorem error?_crossReference_iff :
    other.crossReference.error? = none ↔ m.crossReference.error? = none := by
  have htwins := twins_buildIndices h
  constructor
  · intro hother
    exact error?_of_resolvable (htwins.symm.resolvable (resolvable_of_crossReference hother))
  · intro hm
    exact error?_of_resolvable (htwins.resolvable (resolvable_of_crossReference hm))

/-- Models of one fresh form have the same outline after assembly. -/
theorem sameOutline_crossReference_of_fresh :
    SameOutline m.crossReference.model other.crossReference.model :=
  ((sameSource_crossReference m).toSameOutline.symm.trans
    (twins_buildIndices h).toSameOutline).trans
    (sameSource_crossReference other).toSameOutline

variable (hm : m.crossReference.error? = none)

include hm

/-- Models of one fresh form have the same indexed messages after assembly, but for their pages. -/
theorem withoutPages_message_of_fresh {r : MessageRef}
    (hr : r ∈ m.crossReference.model.indexedMessages) :
    (other.crossReference.model.message r).withoutPages =
      (m.crossReference.model.message r).withoutPages := by
  have htwins := twins_buildIndices h
  have hother := (error?_crossReference_iff h).2 hm
  have hsource : (other.crossReference.model.message r).source =
      (m.crossReference.model.message r).source := by
    rw [(sameSource_crossReference other).messageSource,
      (sameSource_crossReference m).messageSource, ← source_fresh, htwins.messageFresh,
      source_fresh]
  rw [(sameSource_crossReference m).indexedMessages] at hr
  have hfields := htwins.fields_assembled (indexed_buildIndices m) (indexed_buildIndices other) hr
  rw [← model_crossReference hm, ← model_crossReference hother] at hfields
  exact withoutPages_of_source hsource hfields

/-- Models of one fresh form have the same indexed enumerations after assembly. -/
theorem enumeration_of_fresh {r : EnumRef} (hr : r ∈ m.crossReference.model.indexedEnums) :
    other.crossReference.model.enumeration r = m.crossReference.model.enumeration r := by
  have hother := (error?_crossReference_iff h).2 hm
  have hsource : (other.crossReference.model.enumeration r).source =
      (m.crossReference.model.enumeration r).source := by
    rw [(sameSource_crossReference other).enumSource, (sameSource_crossReference m).enumSource,
      (twins_buildIndices h).enumSource]
  have hsplit : ∀ x : Enumeration, numberedEnum x = numberedEnum x.source := fun _ => rfl
  have hindexed := (sameOutline_crossReference_of_fresh h).indexedEnums ▸ hr
  rw [← (settled_crossReference hother).numbers r hindexed, hsplit, hsource, ← hsplit,
    (settled_crossReference hm).numbers r hr]

/-- Models of one fresh form have the same indexed methods after assembly, but for their pages. -/
theorem withoutPages_method_of_fresh {r : MethodRef}
    (hr : r ∈ m.crossReference.model.indexedMethods) :
    (other.crossReference.model.method r).withoutPages =
      (m.crossReference.model.method r).withoutPages := by
  have htwins := twins_buildIndices h
  have hother := (error?_crossReference_iff h).2 hm
  have hsm := sameSource_crossReference m
  have hso := sameSource_crossReference other
  have houtline := sameOutline_crossReference_of_fresh h
  have hindexed := houtline.indexedMethods ▸ hr
  have hcount : other.crossReference.model.store.methods.size =
      m.crossReference.model.store.methods.size :=
    (hso.methodCount.trans htwins.methodCount).trans hsm.methodCount.symm
  have hsource : (other.crossReference.model.method r).source =
      (m.crossReference.model.method r).source := by
    rw [hso.methodSource, hsm.methodSource, htwins.methodSource r (hsm.indexedMethods ▸ hr)]
  by_cases hholds : methodArena.Holds m.crossReference.model r
  · have hlinked := (settled_crossReference hm).methods r hr hholds
      (((resolvable_of_crossReference hm).of_sameSource hsm).methods r hr)
    have hlinked' := (settled_crossReference hother).methods r hindexed
      ((holds_method_iff hcount).2 hholds)
      (((resolvable_of_crossReference hother).of_sameSource hso).methods r hindexed)
    rw [← hlinked', houtline.linkedMethod, withoutPages_linkedMethod_of_source hsource, hlinked]
  · rw [method_of_not_holds hholds, method_of_not_holds (mt (holds_method_iff hcount).1 hholds)]

/-- Models of one fresh form agree after assembly up to pages. -/
theorem agree_withoutPages :
    Agree Message.withoutPages Method.withoutPages m.crossReference.model
      other.crossReference.model where
  messageById := (sameOutline_crossReference_of_fresh h).messageById
  enumById := (sameOutline_crossReference_of_fresh h).enumById
  serviceById := (sameOutline_crossReference_of_fresh h).serviceById
  methodById := (sameOutline_crossReference_of_fresh h).methodById
  message _ hr := withoutPages_message_of_fresh h hm hr
  enumeration _ hr := enumeration_of_fresh h hm hr
  service r _ := by
    rw [(sameSource_crossReference other).serviceSource,
      (sameSource_crossReference m).serviceSource, (twins_buildIndices h).serviceSame]
  method _ hr := withoutPages_method_of_fresh h hm hr

/-- Models of one fresh form have the same pages for indexed methods. -/
theorem pages?_of_fresh {r : MethodRef} (hr : r ∈ m.crossReference.model.indexedMethods) :
    other.crossReference.model.pages? (other.crossReference.model.method r) =
      m.crossReference.model.pages? (m.crossReference.model.method r) := by
  obtain ⟨hinput, houtput⟩ := types_of_withoutPages (withoutPages_method_of_fresh h hm hr)
  have hindexed : ∀ {id : String} {s : MessageRef},
    m.crossReference.model.messageRef? id = some s →
      (other.crossReference.model.message s).fields =
        (m.crossReference.model.message s).fields := by
    intro id s hs
    exact fields_of_withoutPages
      (withoutPages_message_of_fresh h hm (Index.mem_values.2 ⟨id, hs⟩))
  by_cases hheld : methodArena.Holds m.crossReference.model r
  · obtain ⟨input, output, hin, hout, hinId, houtId⟩ := exists_types_crossReference hm hr hheld
    exact pages?_congr_of_types (hinput.trans hin) hin (houtput.trans hout) hout (hindexed hinId)
      (hindexed houtId)
  · have hblank : (m.crossReference.model.method r).inputType = none := by
      rw [method_of_not_holds hheld]
      rfl
    rw [pages?_of_inputType_eq_none hblank, pages?_of_inputType_eq_none (hinput.trans hblank)]

/-- Models of one fresh form have pages between the same elements. -/
theorem pagesTo_of_fresh {r : MethodRef} (hr : r ∈ m.crossReference.model.indexedMethods)
    (output : MessageRef) :
    other.crossReference.model.PagesTo r output ↔ m.crossReference.model.PagesTo r output := by
  rw [pagesTo_iff, pagesTo_iff, pages?_of_fresh h hm hr]

/-- Models of one fresh form have the same token noted in an indexed method that has pages. -/
theorem pagination_of_fresh {r : MethodRef} {output : MessageRef}
    (hr : r ∈ m.crossReference.model.indexedMethods)
    (hpages : m.crossReference.model.PagesTo r output) :
    (other.crossReference.model.method r).pagination =
    (m.crossReference.model.method r).pagination ∧
      (other.crossReference.model.message output).pagination =
        (m.crossReference.model.message output).pagination := by
  have hother := (error?_crossReference_iff h).2 hm
  obtain ⟨token, pages, hfound⟩ := pagesTo_iff.1 hpages
  have hfound' := (pages?_of_fresh h hm hr).trans hfound
  rw [← (sameOutline_crossReference_of_fresh h).indexedMethods] at hr
  obtain ⟨htoken, hresponse⟩ := (settled_crossReference hother).noted hr hfound'
  rw [(sameOutline_crossReference_of_fresh h).indexedMethods] at hr
  obtain ⟨htoken', hresponse'⟩ := (settled_crossReference hm).noted hr hfound
  exact ⟨htoken.trans htoken'.symm, hresponse.trans hresponse'.symm⟩

/-- Models of one fresh form have the same pages noted in all indexed elements after assembly if and
only if the same were noted before where none are found. -/
theorem samePages_iff_sameOldPages :
    ((∀ r ∈ m.crossReference.model.indexedMethods,
        (other.crossReference.model.method r).pagination =
        (m.crossReference.model.method r).pagination) ∧
      ∀ r ∈ m.crossReference.model.indexedMessages,
        (other.crossReference.model.message r).pagination =
          (m.crossReference.model.message r).pagination) ↔
      SameOldPages m.crossReference.model m other := by
  have hother := (error?_crossReference_iff h).2 hm
  have hmethod : ∀ r ∈ m.crossReference.model.indexedMethods,
      (∀ output, ¬m.crossReference.model.PagesTo r output) →
      (m.crossReference.model.method r).pagination = (m.method r).pagination ∧
        (other.crossReference.model.method r).pagination = (other.method r).pagination := by
    intro r hr hnone
    refine ⟨pagination_crossReference_of_none hm hnone,
      pagination_crossReference_of_none hother fun output hpages => hnone output ?_⟩
    exact (pagesTo_of_fresh h hm hr output).1 hpages
  have hmessage : ∀ r, (∀ s ∈ m.crossReference.model.indexedMethods,
      ¬m.crossReference.model.PagesTo s r) →
      (m.crossReference.model.message r).pagination = (m.message r).pagination ∧
        (other.crossReference.model.message r).pagination = (other.message r).pagination := by
    intro r hnone
    refine ⟨responsePagination_crossReference_of_none hm hnone,
      responsePagination_crossReference_of_none hother fun s hs hpages => ?_⟩
    rw [(sameOutline_crossReference_of_fresh h).indexedMethods] at hs
    exact hnone s hs ((pagesTo_of_fresh h hm hs r).1 hpages)
  constructor
  · rintro ⟨hmethods, hmessages⟩
    refine ⟨fun r hr hnone => ?_, fun r hr hnone => ?_⟩
    · obtain ⟨hkept, hkept'⟩ := hmethod r hr hnone
      rw [← hkept, ← hkept', hmethods r hr]
    · obtain ⟨hkept, hkept'⟩ := hmessage r hnone
      rw [← hkept, ← hkept', hmessages r hr]
  · intro hold
    refine ⟨fun r hr => ?_, fun r hr => ?_⟩
    · by_cases hnone : ∀ output, ¬m.crossReference.model.PagesTo r output
      · obtain ⟨hkept, hkept'⟩ := hmethod r hr hnone
        rw [hkept, hkept', hold.method r hr hnone]
      · obtain ⟨output, hpages⟩ := not_forall_not.1 hnone
        exact (pagination_of_fresh h hm hr hpages).1
    · by_cases hnone : ∀ s ∈ m.crossReference.model.indexedMethods,
        ¬m.crossReference.model.PagesTo s r
      · obtain ⟨hkept, hkept'⟩ := hmessage r hnone
        rw [hkept, hkept', hold.message r hr hnone]
      · push Not at hnone
        obtain ⟨s, hs, hpages⟩ := hnone
        exact (pagination_of_fresh h hm hs hpages).2
omit hm in

/-- Of two models that are the same but for what assembly derives, both can be assembled or neither.
If they can, the same is derived in them, up to pages; and the same pages too if and only if the
same were noted before wherever none are found. -/
theorem agree_crossReference_iff :
    (other.crossReference.error? = none ↔ m.crossReference.error? = none) ∧
    (m.crossReference.error? = none →
      Agree Message.withoutPages Method.withoutPages m.crossReference.model
        other.crossReference.model ∧
      (Agree id id m.crossReference.model other.crossReference.model ↔
        SameOldPages m.crossReference.model m other)) := by
  refine ⟨error?_crossReference_iff h, fun hm => ?_⟩
  have hagree := agree_withoutPages h hm
  exact ⟨hagree, hagree.iff_of_withoutPages.trans (samePages_iff_sameOldPages h hm)⟩

end SameFresh

/-- The shelving, assembled and then edited: the list request has lost its page token. -/
def edited : Model :=
  shelving.crossReference.model.modifyMessage ⟨0⟩ fun x => { x with fields := x.fields.take 1 }

/-- The edited shelving and its fresh form are the same but for what was derived, and both can be
assembled. They agree up to pages then, and not in these: the token that was noted in the list
method before the edit is noted still. -/
theorem agree_crossReference_edited :
    edited.fresh = edited.fresh.fresh ∧ edited.fresh.crossReference.error? = none ∧
    edited.crossReference.error? = none ∧
    Agree Message.withoutPages Method.withoutPages edited.fresh.crossReference.model
      edited.crossReference.model ∧
    (Agree id id edited.fresh.crossReference.model edited.crossReference.model ↔
      SameOldPages edited.fresh.crossReference.model edited.fresh edited) ∧
    ¬SameOldPages edited.fresh.crossReference.model edited.fresh edited := by
  have hfresh : edited.fresh = edited.fresh.fresh := edited.fresh_fresh.symm
  have hend : edited.fresh.crossReference.error? = none := by decide +kernel
  obtain ⟨herror, hagree⟩ := agree_crossReference_iff hfresh
  refine ⟨hfresh, hend, herror.2 hend, (hagree hend).1, (hagree hend).2, fun hold => ?_⟩
  have hlist : ⟨0⟩ ∈ edited.fresh.crossReference.model.indexedMethods := by decide +kernel
  have hnone : edited.fresh.crossReference.model.pages?
      (edited.fresh.crossReference.model.method ⟨0⟩) = none := by decide +kernel
  have hkept := hold.method ⟨0⟩ hlist (pages?_eq_none_iff.1 hnone)
  have hdiffer : (edited.method ⟨0⟩).pagination ≠
      (edited.fresh.method ⟨0⟩).pagination := by
    decide +kernel
  exact hdiffer hkept

/-- Assembling the edited shelving again leaves the page token of a list method whose request no
longer has one, while assembling its fresh form notes nothing. -/
theorem not_agree_edited :
    edited.fresh = edited.fresh.fresh ∧ edited.fresh.crossReference.error? = none ∧
    edited.crossReference.error? = none ∧
    ⟨0⟩ ∈ edited.crossReference.model.indexedMethods ∧
    (edited.crossReference.model.method ⟨0⟩).pagination = some ⟨⟨0⟩, 1⟩ ∧
    (edited.crossReference.model.message ⟨0⟩).fields.length = 1 ∧
    (edited.fresh.crossReference.model.method ⟨0⟩).pagination = none ∧
    ¬Agree id id edited.fresh.crossReference.model edited.crossReference.model := by
  have hlist : ⟨0⟩ ∈ edited.fresh.crossReference.model.indexedMethods := by decide +kernel
  have hstale : (edited.crossReference.model.method ⟨0⟩).pagination =
    some ⟨⟨0⟩, 1⟩ := by decide +kernel
  have hnone : (edited.fresh.crossReference.model.method ⟨0⟩).pagination = none := by
    decide +kernel
  refine ⟨edited.fresh_fresh.symm, by decide +kernel, by decide +kernel, by decide +kernel,
    hstale, by decide +kernel, hnone, fun hagree => ?_⟩
  have hsame := congrArg Method.pagination (hagree.method ⟨0⟩ hlist)
  rw [id, id, hstale, hnone] at hsame
  cases hsame

end ApiModel.Model
