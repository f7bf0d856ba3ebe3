import ApiModel.Assembly.CrossReference
import ApiModel.Proofs.Assembly.Indices
import ApiModel.Proofs.Outcome

/-!
# Annotation

What the last passes of assembly write. Every pass visits indexed elements once and reads nothing
that it writes, so it is one map over the array of its elements; pages are noted in two arrays at
once, and every later step notes the same at a place that an earlier one has noted.
-/

namespace ApiModel

/-- The message without the fields that drive its pages. -/
def Message.withoutPages (x : Message) : Message :=
  { x with pagination := none }

/-- The method without the field that drives its pages. -/
def Method.withoutPages (x : Method) : Method :=
  { x with pagination := none }

namespace Model

/-- The field, made into a map if it holds a map entry. -/
def markedField (m : Model) (f : Field) : Field :=
  if m.holdsMapEntry f then { f with map := true, repeated := false } else f

/-- The message with its map fields marked. -/
def markedMessage (m : Model) (x : Message) : Message :=
  { x with fields := x.fields.map m.markedField }

/-- Whether a message can be reached from another. -/
def reaches (m : Model) (start goal : MessageRef) : Bool :=
  (m.reachableMessages start).getD goal.index false

/-- Whether the type of a field leads back to a message. -/
def leadsBack (m : Model) (owner : MessageRef) (f : Field) : Bool :=
  match f.target with
  | some (.message target) => m.reaches target owner
  | _ => false

/-- The message at a place with its recursive fields marked. -/
def recursiveMessage (m : Model) (r : MessageRef) (x : Message) : Message :=
  { x with fields := x.fields.map fun f => { f with recursive := m.leadsBack r f } }

/-- The enumeration with the first value of each number. -/
def numberedEnum (x : Enumeration) : Enumeration :=
  { x with uniqueNumberValues := firstPositions [] 0 (x.values.map EnumValue.number) }

variable {m other last : Model}

/-! ## Maps -/

/-- Whether two models have the same outline and the same map entries. -/
structure SameEntries (m other : Model) : Prop extends SameOutline m other where
  /-- The same messages are map entries. -/
  isMap : ∀ r, (other.message r).isMap = (m.message r).isMap

/-- Models with the same map entries find them in the same fields. -/
theorem holdsMapEntry_congr (h : ∀ r, (other.message r).isMap = (m.message r).isMap) (f : Field) :
    other.holdsMapEntry f = m.holdsMapEntry f := by
  unfold holdsMapEntry
  cases f.target with
  | none => rfl
  | some target =>
    cases target with
    | message r => exact h r
    | enumeration r => rfl

/-- Models with the same map entries make the same fields into maps. -/
theorem SameEntries.markedField (h : SameEntries m other) : other.markedField = m.markedField := by
  funext f
  rw [Model.markedField, Model.markedField, holdsMapEntry_congr h.isMap]

/-- Marking the maps of all indexed messages is one map. -/
theorem markAllMaps_eq (hindexed : m.indexedMessages.Nodup) :
    m.markAllMaps =
      messageArena.map m fun r x => if r ∈ m.indexedMessages then m.markedMessage x else x := by
  have hstep : ∀ k r, SameEntries m k →
      k.markMaps r = messageArena.modify k r (m.markedMessage) := by
    intro k r hk
    have hmarked : k.markedMessage = m.markedMessage := by
      funext x
      rw [markedMessage, markedMessage, hk.markedField]
    rw [← hmarked]
    rfl
  have hkeep : ∀ k r, SameEntries m k →
      SameEntries m (messageArena.modify k r m.markedMessage) := by
    intro k r hk
    refine ⟨hk.toSameOutline.trans (sameOutline_messages.modify rfl), fun s => ?_⟩
    exact (messageArena.get_modify_keeps Message.isMap k r s rfl).trans (hk.isMap s)
  exact messageArena.foldl_eq_map hstep hkeep hindexed ⟨SameOutline.refl m, fun _ => rfl⟩

/-! ## Recursive fields -/

/-- Whether two models have the same outline and fields of the same types. -/
structure SameGraph (m other : Model) : Prop extends SameOutline m other where
  /-- The fields of a message hold the same messages. -/
  fieldMessages : ∀ r, other.fieldMessages r = m.fieldMessages r

/-- Having the same graph is passed on. -/
theorem SameGraph.trans (h : SameGraph m other) (h' : SameGraph other last) : SameGraph m last where
  toSameOutline := h.toSameOutline.trans h'.toSameOutline
  fieldMessages r := (h'.fieldMessages r).trans (h.fieldMessages r)

/-- What can be reached depends on the types of fields only. -/
theorem reachableMessages_congr (hcount : other.store.messages.size = m.store.messages.size)
    (hfields : ∀ r, other.fieldMessages r = m.fieldMessages r) :
    other.reachableMessages = m.reachableMessages := by
  funext start
  simp only [reachableMessages, hcount, hfields]

/-- What leads back depends on the types of fields only. -/
theorem leadsBack_congr (hcount : other.store.messages.size = m.store.messages.size)
    (hfields : ∀ r, other.fieldMessages r = m.fieldMessages r) :
    other.leadsBack = m.leadsBack := by
  funext owner f
  unfold leadsBack reaches
  rw [reachableMessages_congr hcount hfields]

/-- Changing only the marks of fields keeps what they hold. -/
theorem fieldMessages_of_targets {x y : Message}
    (h : y.fields.map Field.target = x.fields.map Field.target) :
    (y.fields.filterMap fun f => f.target.bind TypeRef.message?) =
      x.fields.filterMap fun f => f.target.bind TypeRef.message? := by
  have hsplit : ∀ fields : List Field,
    (fields.filterMap fun f => f.target.bind TypeRef.message?) =
      (fields.map Field.target).filterMap fun target => target.bind TypeRef.message? := by
    intro fields
    rw [List.filterMap_map]
    rfl
  rw [hsplit, hsplit, h]

/-- Marking the recursive fields of a message keeps the graph. -/
theorem sameGraph_recursiveMessage (m other : Model) (r : MessageRef) :
    SameGraph m (messageArena.modify m r (other.recursiveMessage r)) := by
  refine ⟨sameOutline_messages.modify rfl, fun s => ?_⟩
  refine messageArena.get_modify_keeps
    (fun x : Message => x.fields.filterMap fun f => f.target.bind TypeRef.message?) m r s ?_
  refine fieldMessages_of_targets ?_
  rw [recursiveMessage, List.map_map]
  rfl

/-- Whether each closure that is known is what can be reached in a model. -/
def Closures.Exact (m : Model) (closures : Closures) : Prop :=
  ∀ start marks, closures.known.lookup start = some marks → marks = m.reachableMessages start

/-- Searching from a message keeps the closures exact. -/
theorem Closures.Exact.search {closures : Closures} (h : closures.Exact m) (start : MessageRef) :
    (closures.search m start).Exact m := by
  unfold Closures.search
  split
  · exact h
  · intro s marks hmarks
    rw [List.lookup_cons] at hmarks
    split at hmarks
    · rename_i hs
      rw [beq_iff_eq.1 hs]
      exact (Option.some.inj hmarks).symm
    · exact h s marks hmarks

/-- After a search it is known what can be reached. -/
theorem Closures.Exact.reach_search {closures : Closures} (h : closures.Exact m)
    (start goal : MessageRef) :
    (closures.search m start).reach start goal = m.reaches start goal := by
  have hknown : (closures.search m start).known.lookup start =
      some (m.reachableMessages start) := by
    unfold Closures.search
    cases hfound : closures.known.lookup start with
    | some marks => exact hfound.trans (congrArg some (h start marks hfound))
    | none => exact List.lookup_cons_self
  rw [Closures.reach, hknown]
  rfl

/-- Each field in turn is found to be recursive if its type leads back, and the closures stay
exact. -/
theorem FieldMarks.foldl_next {owner : MessageRef} (fields : List Field) {found : FieldMarks}
    (h : found.closures.Exact m) :
    (fields.foldl (FieldMarks.next m owner) found).marks =
        found.marks ++ fields.map (m.leadsBack owner) ∧
      (fields.foldl (FieldMarks.next m owner) found).closures.Exact m := by
  induction fields generalizing found with
  | nil => exact ⟨(List.append_nil _).symm, h⟩
  | cons f rest ih =>
    have hnext : (found.next m owner f).marks = found.marks ++ [m.leadsBack owner f] ∧
        (found.next m owner f).closures.Exact m := by
      unfold FieldMarks.next leadsBack
      rcases f.target with _ | (target | target)
      · exact ⟨rfl, h⟩
      · exact ⟨congrArg (fun mark => found.marks ++ [mark]) (h.reach_search target owner),
          h.search target⟩
      · exact ⟨rfl, h⟩
    obtain ⟨hmarks, hexact⟩ := ih hnext.2
    exact ⟨by rw [List.foldl_cons, hmarks, hnext.1, List.append_assoc]; rfl, hexact⟩

/-- A step marks the recursive fields of its message. -/
theorem Marking.model_message {state : Marking} (h : state.closures.Exact state.model)
    (r : MessageRef) :
    (state.message r).model =
      messageArena.modify state.model r (state.model.recursiveMessage r) := by
  have hfields : ∀ fields : List Field,
      List.zipWith (fun (f : Field) mark => { f with recursive := mark }) fields
          ([] ++ fields.map (state.model.leadsBack r)) =
        fields.map fun f => { f with recursive := state.model.leadsBack r f } := by
    intro fields
    rw [List.nil_append, List.zipWith_map_right, List.zipWith_self]
  refine messageArena.modify_congr fun _ => ?_
  rw [(FieldMarks.foldl_next _ h).1]
  exact congrArg (fun fields => { messageArena.get state.model r with fields := fields })
    (hfields _)

/-- A step keeps the closures exact, since marks are no part of what can be reached. -/
theorem Marking.exact_message {state : Marking} (h : state.closures.Exact state.model)
    (r : MessageRef) : (state.message r).closures.Exact (state.message r).model := by
  have hgraph := sameGraph_recursiveMessage state.model state.model r
  intro start marks hmarks
  rw [Marking.model_message h, reachableMessages_congr hgraph.count hgraph.fieldMessages]
  exact (FieldMarks.foldl_next _ h).2 start marks hmarks

/-- Marking with the closures that are known is marking each message by what leads back to it. -/
theorem markAllRecursive_eq_foldl (m : Model) :
    m.markAllRecursive =
      m.indexedMessages.foldl (fun k r => messageArena.modify k r (k.recursiveMessage r)) m := by
  have hrun : ∀ (refs : List MessageRef) (state : Marking), state.closures.Exact state.model →
      (refs.foldl Marking.message state).model =
        refs.foldl (fun k r => messageArena.modify k r (k.recursiveMessage r)) state.model := by
    intro refs
    induction refs with
    | nil => exact fun _ _ => rfl
    | cons r rest ih =>
      intro state h
      rw [List.foldl_cons, ih _ (Marking.exact_message h r), Marking.model_message h,
        List.foldl_cons]
  exact hrun m.indexedMessages { model := m } fun _ _ h => by cases h

/-- Marking the recursive fields of all indexed messages is one map. -/
theorem markAllRecursive_eq (hindexed : m.indexedMessages.Nodup) :
    m.markAllRecursive =
      messageArena.map m fun r x => if r ∈ m.indexedMessages then m.recursiveMessage r x
        else x := by
  have hstep : ∀ k r, SameGraph m k →
      messageArena.modify k r (k.recursiveMessage r) =
        messageArena.modify k r (m.recursiveMessage r) := by
    intro k r hk
    have hback : k.recursiveMessage r = m.recursiveMessage r := by
      funext x
      rw [recursiveMessage, recursiveMessage, leadsBack_congr hk.count hk.fieldMessages]
    rw [hback]
  have hkeep : ∀ k r, SameGraph m k →
      SameGraph m (messageArena.modify k r (m.recursiveMessage r)) :=
    fun k r hk => hk.trans (sameGraph_recursiveMessage k m r)
  rw [markAllRecursive_eq_foldl]
  exact messageArena.foldl_eq_map hstep hkeep hindexed ⟨SameOutline.refl m, fun _ => rfl⟩

/-! ## Unique numbers -/

/-- Finding the first values of all indexed enumerations is one map. -/
theorem findAllUniqueValues_eq (hindexed : m.indexedEnums.Nodup) :
    m.findAllUniqueValues =
      enumArena.map m fun r x => if r ∈ m.indexedEnums then numberedEnum x else x := by
  have hstep : ∀ k r, True → findUniqueValues k r = enumArena.modify k r numberedEnum :=
    fun _ _ _ => rfl
  exact enumArena.foldl_eq_map hstep (fun _ _ _ => trivial) hindexed trivial

/-! ## Pages -/

/-- The fields of a response that drive its pages. -/
def responsePages? (m : Model) (output : MessageRef) : Option Pagination := do
  let nextPageToken ← (m.message output).nextPageToken?
  let pageableItem ← (m.message output).pageableItem?
  return ⟨⟨output, nextPageToken⟩, ⟨output, pageableItem⟩⟩

/-- The pages of a method are told by its types and by the fields of messages. -/
theorem pages?_congr {x y : Method} (hinput : y.inputType = x.inputType)
    (houtput : y.outputType = x.outputType)
    (hfields : ∀ r, (other.message r).fields = (m.message r).fields) :
    other.pages? y = m.pages? x := by
  unfold pages? Message.pageToken? Message.nextPageToken? Message.pageableItem? Message.collections
  simp only [hinput, houtput, hfields]

/-- Whether the pages of a method are noted in it and in its response, as far as these exist. -/
def PagesNoted (m : Model) (r : MethodRef) : Prop :=
  ∀ token response pages, m.pages? (m.method r) = some (token, response, pages) →
    (methodArena.Holds m r → (m.method r).pagination = some token) ∧
      (messageArena.Holds m response → (m.message response).pagination = some pages)

/-- Whether two models differ at most in the noted pages. -/
structure SameButPages (m other : Model) : Prop extends SameOutline m other where
  /-- The messages are the same but for their pages. -/
  body : ∀ r, (other.message r).withoutPages = (m.message r).withoutPages
  /-- The enumerations are the same. -/
  enumeration_eq : ∀ r, other.enumeration r = m.enumeration r
  /-- The methods are the same but for their pages. -/
  call : ∀ r, (other.method r).withoutPages = (m.method r).withoutPages

namespace SameButPages

/-- Every model differs in nothing from itself. -/
theorem refl (m : Model) : SameButPages m m :=
  ⟨SameOutline.refl m, fun _ => rfl, fun _ => rfl, fun _ => rfl⟩

/-- Differing at most in the noted pages is passed on. -/
theorem trans (h : SameButPages m other) (h' : SameButPages other last) : SameButPages m last where
  toSameOutline := h.toSameOutline.trans h'.toSameOutline
  body r := (h'.body r).trans (h.body r)
  enumeration_eq r := (h'.enumeration_eq r).trans (h.enumeration_eq r)
  call r := (h'.call r).trans (h.call r)

/-- Models that differ at most in the noted pages have the same fields in every message. -/
theorem fields (h : SameButPages m other) (r : MessageRef) :
    (other.message r).fields = (m.message r).fields := by
  have hbody := congrArg Message.fields (h.body r)
  exact hbody

/-- In models that differ at most in the noted pages, the same pages are found for a method. -/
theorem pages? (h : SameButPages m other) (r : MethodRef) :
    other.pages? (other.method r) = m.pages? (m.method r) := by
  have hinput := congrArg Method.inputType (h.call r)
  have houtput := congrArg Method.outputType (h.call r)
  exact pages?_congr hinput houtput h.fields

end SameButPages

/-- What is noted in a response depends on that response only. -/
theorem responsePages?_of_pages? {x : Method} {token : FieldRef} {response : MessageRef}
    {pages : Pagination} (h : m.pages? x = some (token, response, pages)) :
    m.responsePages? response = some pages := by
  simp only [pages?, Option.bind_eq_bind, Option.bind_eq_some_iff] at h
  obtain ⟨input, -, output, -, position, -, next, hnext, item, hitem, h⟩ := h
  cases h
  simp only [responsePages?, hnext, hitem]
  rfl

/-- The model with what drives the pages of a method noted in it and in its response. -/
def notePages (m : Model) (r : MethodRef) (token : FieldRef) (response : MessageRef)
    (pages : Pagination) : Model :=
  (m.modifyMethod r fun x => { x with pagination := some token }).modifyMessage response fun x =>
    { x with pagination := some pages }

/-- A step of pagination notes the pages that it finds, if it finds some. -/
theorem markPages_eq (m : Model) (r : MethodRef) :
    m.markPages r =
      match m.pages? (m.method r) with
      | none => m
      | some (token, response, pages) => m.notePages r token response pages := rfl

section Noted

variable {r : MethodRef} {token : FieldRef} {response : MessageRef} {pages : Pagination}

/-- Noting pages notes the token in the method. -/
theorem pagination_notePages (h : methodArena.Holds m r) :
    ((m.notePages r token response pages).method r).pagination = some token :=
  congrArg Method.pagination (methodArena.get_modify_self h _)

/-- Noting pages keeps all other methods. -/
theorem method_notePages_of_ne {s : MethodRef} (h : s ≠ r) :
    (m.notePages r token response pages).method s = m.method s :=
  methodArena.get_modify_of_ne m h _

/-- Noting pages notes their fields in the response of the method. -/
theorem responsePagination_notePages (h : messageArena.Holds m response) :
    ((m.notePages r token response pages).message response).pagination = some pages :=
  congrArg Message.pagination (messageArena.get_modify_self
    (m := m.modifyMethod r fun x => { x with pagination := some token }) h _)

/-- Noting pages keeps all other messages. -/
theorem message_notePages_of_ne {s : MessageRef} (h : s ≠ response) :
    (m.notePages r token response pages).message s = m.message s :=
  messageArena.get_modify_of_ne (m.modifyMethod r fun x => { x with pagination := some token }) h _

/-- Noting pages keeps the places of methods. -/
theorem holds_notePages_method {s : MethodRef} :
    methodArena.Holds (m.notePages r token response pages) s ↔ methodArena.Holds m s :=
  methodArena.holds_modify m r s _

/-- Noting pages keeps the places of messages. -/
theorem holds_notePages_message {s : MessageRef} :
    messageArena.Holds (m.notePages r token response pages) s ↔ messageArena.Holds m s :=
  messageArena.holds_modify (m.modifyMethod r fun x => { x with pagination := some token })
    response s _

/-- Noting pages that are noted changes nothing. -/
theorem notePages_eq_self (hcall : methodArena.Holds m r → (m.method r).pagination = some token)
    (hbody : messageArena.Holds m response → (m.message response).pagination = some pages) :
    m.notePages r token response pages = m := by
  have hmethod : m.modifyMethod r (fun x => { x with pagination := some token }) = m := by
    refine methodArena.modify_eq_self fun hr => ?_
    change { m.method r with pagination := some token } = m.method r
    rw [← hcall hr]
  rw [notePages, hmethod]
  refine messageArena.modify_eq_self fun hr => ?_
  change { m.message response with pagination := some pages } = m.message response
  rw [← hbody hr]

/-- Noting pages changes nothing but the noted pages. -/
theorem sameButPages_notePages : SameButPages m (m.notePages r token response pages) where
  toSameOutline := (sameOutline_methods.modify rfl).trans (sameOutline_messages.modify rfl)
  body s := messageArena.get_modify_keeps Message.withoutPages
    (m.modifyMethod r fun x => { x with pagination := some token }) response s rfl
  enumeration_eq _ := rfl
  call s := methodArena.get_modify_keeps Method.withoutPages m r s rfl

end Noted

/-- A step of pagination changes nothing but the noted pages. -/
theorem sameButPages_markPages (m : Model) (r : MethodRef) : SameButPages m (m.markPages r) := by
  rw [markPages_eq]
  split
  · exact SameButPages.refl m
  · exact sameButPages_notePages

/-- A step notes the pages of its method and keeps those that are noted: two methods of one response
have the same fields there. -/
theorem pagesNoted_markPages {r s : MethodRef} (h : PagesNoted m s ∨ s = r) :
    PagesNoted (m.markPages r) s := by
  intro token response pages hpages
  rw [(sameButPages_markPages m r).pages? s] at hpages
  rw [markPages_eq]
  cases hr : m.pages? (m.method r) with
  | none =>
    rcases h with h | rfl
    · exact h token response pages hpages
    · rw [hr] at hpages
      cases hpages
  | some found =>
    obtain ⟨token', response', pages'⟩ := found
    have hself : s = r → token' = token ∧ response' = response := by
      rintro rfl
      rw [hr] at hpages
      obtain ⟨htoken, hrest⟩ := Prod.mk.inj (Option.some.inj hpages)
      exact ⟨htoken, (Prod.mk.inj hrest).1⟩
    constructor
    · intro hs
      have hs := holds_notePages_method.1 hs
      by_cases hsr : s = r
      · rw [hsr, pagination_notePages (hsr ▸ hs), (hself hsr).1]
      · rw [method_notePages_of_ne hsr]
        exact (h.resolve_right hsr token response pages hpages).1 hs
    · intro hresponse
      have hresponse := holds_notePages_message.1 hresponse
      by_cases heq : response = response'
      · have hsame : some pages' = some pages := by
          rw [← responsePages?_of_pages? hr, ← responsePages?_of_pages? hpages, heq]
        rw [heq, responsePagination_notePages (heq ▸ hresponse), hsame]
      · rw [message_notePages_of_ne heq]
        have hsr : s ≠ r := fun hsr => heq (hself hsr).2.symm
        exact (h.resolve_right hsr token response pages hpages).2 hresponse

/-- Noting the pages of all methods changes nothing else. -/
theorem sameButPages_markAllPages (m : Model) : SameButPages m m.markAllPages :=
  foldl_relates SameButPages.refl SameButPages.trans sameButPages_markPages _ m

/-- Steps for all methods of a list note the pages of each of them. -/
theorem pagesNoted_foldl {items : List MethodRef} {s : MethodRef}
    (h : PagesNoted m s ∨ s ∈ items) :
    PagesNoted (items.foldl markPages m) s := by
  induction items generalizing m with
  | nil => exact h.resolve_right List.not_mem_nil
  | cons r rest ih =>
    refine ih ?_
    rcases h with h | h
    · exact .inl (pagesNoted_markPages (.inl h))
    · rcases List.mem_cons.1 h with rfl | h
      · exact .inl (pagesNoted_markPages (.inr rfl))
      · exact .inr h

/-- A step of pagination changes nothing where the pages that it finds are noted. -/
theorem markPages_eq_self {r : MethodRef} (h : PagesNoted m r) : m.markPages r = m := by
  rw [markPages_eq]
  cases hr : m.pages? (m.method r) with
  | none => rfl
  | some found =>
    obtain ⟨token, response, pages⟩ := found
    obtain ⟨hcall, hbody⟩ := h token response pages hr
    exact notePages_eq_self hcall hbody

end Model

end ApiModel
