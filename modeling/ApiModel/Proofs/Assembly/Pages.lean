import ApiModel.Proofs.Assembly.Settled
import ApiModel.Proofs.First

/-!
# Pages

A method is paged if its request has a page token, its response a token for the next page, and
exactly one field of its response is a list or a map. Several methods may share a request or a
response, and every one of them notes its pages there; what two of them note in one response is the
same. So on a model without pages, assembly notes in every indexed method and in every message
exactly the pages that are there.
-/

namespace ApiModel

/-- Whether a field is a single text under one of two names. -/
def Field.IsToken (f : Field) (name jsonName : String) : Prop :=
  f.type = .string ∧ f.repeated = false ∧ (f.name = name ∨ f.jsonName = jsonName)

/-- Whether a field is the page token of a request. -/
def Field.IsPageToken (f : Field) : Prop := f.IsToken "page_token" "pageToken"

/-- Whether a field is the token for the next page of a response. -/
def Field.IsNextPageToken (f : Field) : Prop := f.IsToken "next_page_token" "nextPageToken"

/-- Whether a field is a list or a map. -/
def Field.IsCollection (f : Field) : Prop := f.repeated = true ∨ f.map = true

/-- Whether a position is the only one of a list whose item has a property. -/
def OnlyAt {α : Type} (p : α → Prop) (items : List α) (i : Nat) : Prop :=
  ∀ j, (∃ x ∈ items[j]?, p x) ↔ j = i

/-- The test of a token compares its type, its shape and its names. -/
theorem Field.isToken_iff {f : Field} {name jsonName : String} :
    f.isToken name jsonName = true ↔ f.IsToken name jsonName := by
  rw [isToken, IsToken, Bool.and_eq_true, Bool.and_eq_true, Bool.or_eq_true, beq_iff_eq,
    Bool.not_eq_true', beq_iff_eq, beq_iff_eq, and_assoc]

namespace Message

variable {x : Message} {i : Nat}

/-- The page token is found at its first position. -/
theorem pageToken?_eq_some : x.pageToken? = some i ↔ FirstAt Field.IsPageToken x.fields i :=
  findIdx?_eq_some_iff_firstAt fun _ => Field.isToken_iff

/-- The token for the next page is found at its first position. -/
theorem nextPageToken?_eq_some : x.nextPageToken? = some i ↔
    FirstAt Field.IsNextPageToken x.fields i :=
  findIdx?_eq_some_iff_firstAt fun _ => Field.isToken_iff

/-- The collections are the positions of lists and maps. -/
theorem mem_collections : i ∈ x.collections ↔ ∃ f ∈ x.fields[i]?, f.IsCollection := by
  rw [collections, List.mem_filter, List.mem_range]
  constructor
  · rintro ⟨hi, hcollection⟩
    refine ⟨x.fields[i], List.getElem?_eq_getElem hi, ?_⟩
    rwa [List.getElem?_eq_getElem hi, Bool.or_eq_true] at hcollection
  · rintro ⟨f, hf, hcollection⟩
    obtain ⟨hi, -⟩ := List.getElem?_eq_some_iff.1 hf
    refine ⟨hi, ?_⟩
    rw [Option.mem_def.1 hf]
    exact Bool.or_eq_true_iff.2 hcollection

/-- No collection is counted twice. -/
theorem nodup_collections (x : Message) : x.collections.Nodup :=
  List.nodup_range.filter _

/-- A single collection is found at the only position of one. -/
theorem pageableItem?_eq_some : x.pageableItem? = some i ↔
    OnlyAt Field.IsCollection x.fields i := by
  have hsingle : x.pageableItem? = some i ↔ x.collections = [i] := by
    unfold pageableItem?
    split
    · rename_i item hitem
      rw [hitem, Option.some.injEq, List.cons.injEq, and_iff_left rfl]
    · rename_i hmany
      exact iff_of_false (fun h => by cases h) (hmany i)
  rw [hsingle, ← List.perm_singleton,
    List.perm_ext_iff_of_nodup x.nodup_collections (List.nodup_singleton i)]
  exact forall_congr' fun j => by rw [mem_collections, List.mem_singleton]

end Message

namespace Model

/-- Whether a request and a response are paged: where the first tokens and the only collection
are. -/
structure PagedAt (m : Model) (input output : MessageRef) (token next item : Nat) : Prop where
  /-- The first page token of the request. -/
  token : FirstAt Field.IsPageToken (m.message input).fields token
  /-- The first token for the next page of the response. -/
  next : FirstAt Field.IsNextPageToken (m.message output).fields next
  /-- The only list or map of the response. -/
  item : OnlyAt Field.IsCollection (m.message output).fields item

variable {m : Model} {x : Method} {r s : MethodRef} {ref : FieldRef} {response : MessageRef}
  {pages : Pagination}

/-- The pages of a method are found if and only if its request and its response are paged. -/
theorem pages?_eq_some :
    m.pages? x = some (ref, response, pages) ↔
      ∃ input token next item, x.inputType = some input ∧ x.outputType = some response ∧
        m.PagedAt input response token next item ∧ ref = ⟨input, token⟩ ∧
        pages = ⟨⟨response, next⟩, ⟨response, item⟩⟩ := by
  simp only [pages?, Option.bind_eq_bind, Option.bind_eq_some_iff]
  constructor
  · rintro ⟨input, hinput, output, houtput, token, htoken, next, hnext, item, hitem, h⟩
    cases h
    exact ⟨input, token, next, item, hinput, houtput, ⟨Message.pageToken?_eq_some.1 htoken,
      Message.nextPageToken?_eq_some.1 hnext, Message.pageableItem?_eq_some.1 hitem⟩, rfl, rfl⟩
  · rintro ⟨input, token, next, item, hinput, houtput, hpaged, rfl, rfl⟩
    exact ⟨input, hinput, response, houtput, token,
      Message.pageToken?_eq_some.2 hpaged.token, next, Message.nextPageToken?_eq_some.2 hpaged.next,
      item, Message.pageableItem?_eq_some.2 hpaged.item, rfl⟩

/-- A page token is found for a method if and only if its request and its response are paged. -/
theorem exists_pages?_iff_token :
    (∃ response pages, m.pages? x = some (ref, response, pages)) ↔
      ∃ input output token next item, x.inputType = some input ∧ x.outputType = some output ∧
        m.PagedAt input output token next item ∧ ref = ⟨input, token⟩ := by
  constructor
  · rintro ⟨response, pages, hfound⟩
    obtain ⟨input, token, next, item, hinput, houtput, hpaged, rfl, -⟩ :=
      pages?_eq_some.1 hfound
    exact ⟨input, response, token, next, item, hinput, houtput, hpaged, rfl⟩
  · rintro ⟨input, output, token, next, item, hinput, houtput, hpaged, rfl⟩
    exact ⟨output, _,
      pages?_eq_some.2 ⟨input, token, next, item, hinput, houtput, hpaged, rfl, rfl⟩⟩

/-- Pages of a response are found for a method if and only if its request and that response are
paged. -/
theorem exists_pages?_iff_response :
    (∃ ref, m.pages? x = some (ref, response, pages)) ↔
      ∃ input token next item, x.inputType = some input ∧ x.outputType = some response ∧
        m.PagedAt input response token next item ∧
        pages = ⟨⟨response, next⟩, ⟨response, item⟩⟩ := by
  constructor
  · rintro ⟨ref, hfound⟩
    obtain ⟨input, token, next, item, hinput, houtput, hpaged, -, rfl⟩ :=
      pages?_eq_some.1 hfound
    exact ⟨input, token, next, item, hinput, houtput, hpaged, rfl⟩
  · rintro ⟨input, token, next, item, hinput, houtput, hpaged, rfl⟩
    exact ⟨_,
      pages?_eq_some.2 ⟨input, token, next, item, hinput, houtput, hpaged, rfl, rfl⟩⟩

/-! ## Where noted pages come from -/

/-- A method with pages had them before a step, or the step found them. -/
theorem of_pagination_markPages (h : ((m.markPages r).method s).pagination = some ref) :
    (m.method s).pagination = some ref ∨
      s = r ∧ ∃ response pages, m.pages? (m.method s) = some (ref, response, pages) := by
  rw [markPages_eq] at h
  cases hfound : m.pages? (m.method r) with
  | none =>
    rw [hfound] at h
    exact .inl h
  | some found =>
    obtain ⟨token, response, pages⟩ := found
    rw [hfound] at h
    by_cases hs : s = r
    · subst hs
      by_cases hheld : methodArena.Holds m s
      · rw [pagination_notePages hheld] at h
        exact .inr ⟨rfl, response, pages, Option.some.inj h ▸ hfound⟩
      · have hlast : ¬methodArena.Holds (m.notePages s token response pages) s :=
          mt holds_notePages_method.1 hheld
        rw [method_of_not_holds hlast] at h
        cases h
    · rw [method_notePages_of_ne hs] at h
      exact .inl h

/-- A message with pages had them before a step, or the step found them. -/
theorem of_responsePagination_markPages
    (h : ((m.markPages r).message response).pagination = some pages) :
    (m.message response).pagination = some pages ∨
      ∃ ref, m.pages? (m.method r) = some (ref, response, pages) := by
  rw [markPages_eq] at h
  cases hfound : m.pages? (m.method r) with
  | none =>
    rw [hfound] at h
    exact .inl h
  | some found =>
    obtain ⟨token, output, noted⟩ := found
    rw [hfound] at h
    by_cases hs : response = output
    · subst hs
      by_cases hheld : messageArena.Holds m response
      · rw [responsePagination_notePages hheld] at h
        exact .inr ⟨token, by rw [Option.some.inj h]⟩
      · have hlast : ¬messageArena.Holds (m.notePages r token response noted) response :=
          mt holds_notePages_message.1 hheld
        have hblank : (m.notePages r token response noted).message response = default :=
          messageArena.get_of_not_holds hlast
        rw [hblank] at h
        cases h
    · rw [message_notePages_of_ne hs] at h
      exact .inl h

/-- A method with pages had them before a pass, or the pass found them. -/
theorem of_pagination_foldl {items : List MethodRef}
    (h : ((items.foldl markPages m).method s).pagination = some ref) :
    (m.method s).pagination = some ref ∨
      s ∈ items ∧ ∃ response pages, m.pages? (m.method s) = some (ref, response, pages) := by
  induction items generalizing m with
  | nil => exact .inl h
  | cons r rest ih =>
    rcases ih h with hstep | ⟨hmem, hfound⟩
    · rcases of_pagination_markPages hstep with hbefore | ⟨rfl, hfound⟩
      · exact .inl hbefore
      · exact .inr ⟨List.mem_cons_self, hfound⟩
    · rw [(sameButPages_markPages m r).pages? s] at hfound
      exact .inr ⟨List.mem_cons_of_mem r hmem, hfound⟩

/-- A message with pages had them before a pass, or the pass found them. -/
theorem of_responsePagination_foldl {items : List MethodRef}
    (h : ((items.foldl markPages m).message response).pagination = some pages) :
    (m.message response).pagination = some pages ∨
      ∃ s ∈ items, ∃ ref, m.pages? (m.method s) = some (ref, response, pages) := by
  induction items generalizing m with
  | nil => exact .inl h
  | cons r rest ih =>
    rcases ih h with hstep | ⟨s, hmem, ref, hfound⟩
    · rcases of_responsePagination_markPages hstep with hbefore | hfound
      · exact .inl hbefore
      · exact .inr ⟨r, List.mem_cons_self, hfound⟩
    · rw [(sameButPages_markPages m r).pages? s] at hfound
      exact .inr ⟨s, List.mem_cons_of_mem r hmem, ref, hfound⟩

/-! ## Models without pages -/

/-- Whether no pages are noted in a model. -/
structure Unpaged (m : Model) : Prop where
  /-- None in messages. -/
  messages : ∀ x ∈ m.store.messages, x.pagination = none
  /-- None in methods. -/
  methods : ∀ x ∈ m.store.methods, x.pagination = none

/-- Whether the same pages are noted in two models. -/
structure SamePages (m other : Model) : Prop where
  /-- The same in messages. -/
  message : ∀ r, (other.message r).pagination = (m.message r).pagination
  /-- The same in methods. -/
  method : ∀ r, (other.method r).pagination = (m.method r).pagination

namespace SamePages

variable {other last : Model}

/-- Every model has its own pages. -/
theorem refl (m : Model) : SamePages m m :=
  ⟨fun _ => rfl, fun _ => rfl⟩

/-- Having the same pages is passed on. -/
theorem trans (h : SamePages m other) (h' : SamePages other last) : SamePages m last where
  message r := (h'.message r).trans (h.message r)
  method r := (h'.method r).trans (h.method r)

/-- A change of messages that keeps their noted pages gives a model with the same pages. -/
theorem seenThrough_messages : messageArena.SeenThrough Message.pagination SamePages :=
  fun _ _ _ h => ⟨h, fun _ => rfl⟩

/-- A change of methods that keeps their noted pages gives a model with the same pages. -/
theorem seenThrough_methods : methodArena.SeenThrough Method.pagination SamePages :=
  fun _ _ _ h => ⟨fun _ => rfl, h⟩

end SamePages

/-- Assembly as far as pages are marked. -/
def beforePages (m : Model) : Model :=
  m.buildIndices.withTargets.markAllMaps.withCalls.markAllRecursive.findAllUniqueValues

/-- The first passes of assembly keep the pages. -/
theorem samePages_beforePages (m : Model) : SamePages m m.beforePages := by
  have hindices : SamePages m m.buildIndices := by
    rw [buildIndices_eq]
    have howned : ∀ r x, (owned m.listedMethods r x).pagination = x.pagination := fun _ _ => rfl
    exact ⟨fun _ => rfl,
      methodArena.get_map_keeps (m := m.withIndices) Method.pagination howned⟩
  have htargets (k : Model) : SamePages k k.withTargets :=
    SamePages.seenThrough_messages.map fun r x => by
      split
      · rfl
      · rfl
  have hmaps (k : Model) : SamePages k k.markAllMaps :=
    foldl_relates SamePages.refl SamePages.trans
      (fun k r => SamePages.seenThrough_messages.modify (r := r) rfl) _ k
  have hcalls (k : Model) : SamePages k k.withCalls :=
    SamePages.seenThrough_methods.map fun r x => by
      split
      · rfl
      · rfl
  have hrecursive (k : Model) : SamePages k k.markAllRecursive := by
    rw [markAllRecursive_eq_foldl]
    exact foldl_relates SamePages.refl SamePages.trans
      (fun k r => SamePages.seenThrough_messages.modify (r := r) rfl) _ k
  have hnumber (k : Model) (r : EnumRef) : SamePages k (k.findUniqueValues r) :=
    ⟨fun _ => rfl, fun _ => rfl⟩
  have hnumbers (k : Model) : SamePages k k.findAllUniqueValues :=
    foldl_relates SamePages.refl SamePages.trans hnumber _ k
  exact ((((hindices.trans (htargets _)).trans (hmaps _)).trans (hcalls _)).trans
    (hrecursive _)).trans
    (hnumbers _)

/-- Assembly that comes to its end marks pages last. -/
theorem model_crossReference_eq_markAllPages (h : m.crossReference.error? = none) :
    m.crossReference.model = m.beforePages.markAllPages :=
  model_crossReference h

/-- Pages are found between elements that the arrays have. -/
theorem holds_of_pages? (h : m.pages? (m.method r) = some (ref, response, pages)) :
    methodArena.Holds m r ∧ messageArena.Holds m response := by
  obtain ⟨input, token, next, item, hinput, -, hpaged, -⟩ := pages?_eq_some.1 h
  constructor
  · by_contra hmissing
    have hblank : m.method r = default := methodArena.get_of_not_holds hmissing
    rw [hblank] at hinput
    cases hinput
  · by_contra hmissing
    have hblank : m.message response = default := messageArena.get_of_not_holds hmissing
    obtain ⟨⟨f, hf, -⟩, -⟩ := hpaged.next
    rw [hblank] at hf
    cases hf

section MarkAllPages

variable (hmessages : ∀ r, (m.message r).pagination = none)
  (hmethods : ∀ r, (m.method r).pagination = none)

include hmethods in
/-- Where no pages are noted yet, marking notes in an indexed method the token that is found for
it. -/
theorem pagination_markAllPages (hr : r ∈ m.indexedMethods) :
    (m.markAllPages.method r).pagination = some ref ↔
      ∃ response pages, m.pages? (m.method r) = some (ref, response, pages) := by
  constructor
  · intro h
    rcases of_pagination_foldl h with hbefore | ⟨-, hfound⟩
    · rw [hmethods] at hbefore
      cases hbefore
    · exact hfound
  · rintro ⟨response, pages, hfound⟩
    have hnoted : PagesNoted m.markAllPages r := pagesNoted_foldl (.inr hr)
    rw [← (sameButPages_markAllPages m).pages? r] at hfound
    exact (hnoted ref response pages hfound).1 (holds_of_pages? hfound).1

include hmessages in
/-- Where no pages are noted yet, marking notes in a message the pages that are found for an indexed
method. -/
theorem responsePagination_markAllPages :
    (m.markAllPages.message response).pagination = some pages ↔
      ∃ r ∈ m.indexedMethods, ∃ ref, m.pages? (m.method r) = some (ref, response, pages) := by
  constructor
  · intro h
    rcases of_responsePagination_foldl h with hbefore | hfound
    · rw [hmessages] at hbefore
      cases hbefore
    · exact hfound
  · rintro ⟨r, hr, ref, hfound⟩
    have hnoted : PagesNoted m.markAllPages r := pagesNoted_foldl (.inr hr)
    rw [← (sameButPages_markAllPages m).pages? r] at hfound
    exact (hnoted ref response pages hfound).2 (holds_of_pages? hfound).2

end MarkAllPages

/-- After assembly that comes to its end, an indexed method has the request and the response that
its names resolve to. -/
theorem exists_types_crossReference (h : m.crossReference.error? = none)
    (hr : r ∈ m.crossReference.model.indexedMethods)
    (hheld : r.index < m.crossReference.model.store.methods.size) :
    let a := m.crossReference.model
    ∃ input output, (a.method r).inputType = some input ∧
      (a.method r).outputType = some output ∧
      a.messageRef? (a.method r).inputTypeId = some input ∧
      a.messageRef? (a.method r).outputTypeId = some output := by
  intro a
  have hresolves : a.MethodResolves (a.method r) :=
    ((resolvable_of_crossReference h).of_sameSource (sameSource_crossReference m)).methods r hr
  have hlinked : a.linkedMethod (a.method r) = a.method r :=
    (settled_crossReference h).methods r hr hheld hresolves
  obtain ⟨hinput, houtput, -⟩ := methodResolves_iff.1 hresolves
  obtain ⟨input, hinput⟩ := Option.isSome_iff_exists.1 hinput
  obtain ⟨output, houtput⟩ := Option.isSome_iff_exists.1 houtput
  have hinputType : a.messageRef? (a.method r).inputTypeId = (a.method r).inputType :=
    congrArg Method.inputType hlinked
  have houtputType : a.messageRef? (a.method r).outputTypeId = (a.method r).outputType :=
    congrArg Method.outputType hlinked
  exact ⟨input, output, hinputType ▸ hinput, houtputType ▸ houtput, hinput, houtput⟩

/-- On a model without pages, assembly that comes to its end notes in an indexed method its first
page token, if its request and its response are paged, and in a message the first token for the next
page and the only list or map, if it is the response of such a method; and nothing else. The request
and the response are what the names that the method gives resolve to. -/
theorem pagination_crossReference (hunpaged : Unpaged m) (h : m.crossReference.error? = none) :
    let a := m.crossReference.model
    (∀ r ∈ a.indexedMethods, ∀ ref, (a.method r).pagination = some ref ↔
      ∃ input output token next item, (a.method r).inputType = some input ∧
        (a.method r).outputType = some output ∧ a.PagedAt input output token next item ∧
        ref = ⟨input, token⟩) ∧
    (∀ response pages, (a.message response).pagination = some pages ↔
      ∃ r ∈ a.indexedMethods, ∃ input token next item, (a.method r).inputType = some input ∧
        (a.method r).outputType = some response ∧ a.PagedAt input response token next item ∧
        pages = ⟨⟨response, next⟩, ⟨response, item⟩⟩) ∧
    ∀ r ∈ a.indexedMethods, r.index < a.store.methods.size →
      ∃ input output, (a.method r).inputType = some input ∧
        (a.method r).outputType = some output ∧
        a.messageRef? (a.method r).inputTypeId = some input ∧
        a.messageRef? (a.method r).outputTypeId = some output := by
  intro a
  let before := m.beforePages
  have hend : a = before.markAllPages := model_crossReference_eq_markAllPages h
  have hsame : SameButPages before a := hend ▸ sameButPages_markAllPages before
  have hmessages : ∀ r, (before.message r).pagination = none := fun r =>
    ((samePages_beforePages m).message r).trans
      (messageArena.forall_get (P := fun x => x.pagination = none) rfl hunpaged.messages r)
  have hmethods : ∀ r, (before.method r).pagination = none := fun r =>
    ((samePages_beforePages m).method r).trans
      (methodArena.forall_get (P := fun x => x.pagination = none) rfl hunpaged.methods r)
  refine ⟨fun r hr ref => ?_, fun response pages => ?_, fun r hr =>
    exists_types_crossReference h hr⟩
  · rw [hsame.indexedMethods] at hr
    rw [hend, pagination_markAllPages hmethods hr, ← hend, ← hsame.pages? r]
    exact exists_pages?_iff_token
  · rw [hend, responsePagination_markAllPages hmessages, ← hend, ← hsame.indexedMethods]
    refine exists_congr fun r => and_congr_right fun _ => ?_
    rw [← hsame.pages? r]
    exact exists_pages?_iff_response

/-- A model with two methods that share a response, whose shelves are a map. Only the request of the
first has a page token. -/
def shelving : Model :=
  { services := [⟨0⟩]
    messages := [⟨0⟩, ⟨1⟩, ⟨3⟩]
    store :=
      { messages :=
          #[{ id := ".p.ListRequest"
              fields := [{ name := "filter" }, { name := "token", jsonName := "pageToken" }] },
            { id := ".p.ListResponse"
              messages := [⟨2⟩]
              fields := [
                { name := "next_page_token" },
                { name := "shelves", type := .message, typeId := ".p.Entry", repeated := true }] },
            { id := ".p.Entry"
              isMap := true
              parent := some ⟨1⟩
              fields := [{ name := "key" }, { name := "value" }] },
            { id := ".p.PeekRequest", fields := [{ name := "filter" }] }]
        services := #[{ id := ".p.Library", methods := [⟨0⟩, ⟨1⟩] }]
        methods :=
          #[{ id := ".p.Library.List", inputTypeId := ".p.ListRequest"
              outputTypeId := ".p.ListResponse" },
            { id := ".p.Library.Peek", inputTypeId := ".p.PeekRequest"
              outputTypeId := ".p.ListResponse" }] } }

/-- In the model of the shelving the first method is paged, by the second field of its request and
by the two fields of its response; the second method is not. -/
theorem pagination_crossReference_shelving :
    Unpaged shelving ∧ shelving.crossReference.error? = none ∧
    (shelving.crossReference.model.method ⟨0⟩).pagination = some ⟨⟨0⟩, 1⟩ ∧
    (shelving.crossReference.model.message ⟨1⟩).pagination =
      some ⟨⟨⟨1⟩, 0⟩, ⟨⟨1⟩, 1⟩⟩ ∧
    ∀ ref, (shelving.crossReference.model.method ⟨1⟩).pagination ≠ some ref := by
  have hunpaged : Unpaged shelving := ⟨by decide, by decide⟩
  have hend : shelving.crossReference.error? = none := by decide +kernel
  obtain ⟨hmethod, hmessage, -⟩ := pagination_crossReference hunpaged hend
  have hlist : ⟨0⟩ ∈ shelving.crossReference.model.indexedMethods := by decide +kernel
  have hpeek : ⟨1⟩ ∈ shelving.crossReference.model.indexedMethods := by decide +kernel
  have hpaged : shelving.crossReference.model.PagedAt ⟨0⟩ ⟨1⟩ 1 0 1 :=
    ⟨Message.pageToken?_eq_some.1 (by decide +kernel),
      Message.nextPageToken?_eq_some.1 (by decide +kernel),
      Message.pageableItem?_eq_some.1 (by decide +kernel)⟩
  refine ⟨hunpaged, hend, ?_, ?_, fun ref h => ?_⟩
  · exact (hmethod ⟨0⟩ hlist _).2
      ⟨⟨0⟩, ⟨1⟩, 1, 0, 1, by decide +kernel, by decide +kernel, hpaged, rfl⟩
  · exact (hmessage ⟨1⟩ _).2
      ⟨⟨0⟩, hlist, ⟨0⟩, 1, 0, 1, by decide +kernel, by decide +kernel, hpaged, rfl⟩
  · obtain ⟨input, output, token, next, item, hinput, -, hpaged, -⟩ :=
      (hmethod ⟨1⟩ hpeek ref).1 h
    have hrequest : (shelving.crossReference.model.method ⟨1⟩).inputType = some ⟨3⟩ := by
      decide +kernel
    have hnone : (shelving.crossReference.model.message ⟨3⟩).pageToken? = none := by
      decide +kernel
    obtain rfl := Option.some.inj (hinput.symm.trans hrequest)
    rw [Message.pageToken?_eq_some.2 hpaged.token] at hnone
    cases hnone

end Model

end ApiModel
