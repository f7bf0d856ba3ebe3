import ApiModel.Proofs.Assembly.Exactness
import ApiModel.Proofs.Graph.Visits

/-!
# Which message a full name finds

Several messages may have one full name. The index keeps the one that is visited last, and the roots
are visited from the last to the first, each before what is nested in it. So among the roots the
first one of a name is found, unless a nested message has the name too.
-/

namespace ApiModel.Model

variable {m : Model} {key : String}

/-- What the descent comes to behind its start is nested in something. -/
theorem exists_nestedIn_of_mem_tail {depth : Nat} {r s : MessageRef}
    (hs : s ∈ (m.visitMessage depth r).tail) : ∃ p, m.NestedIn s p := by
  cases depth with
  | zero => simp [visitMessage] at hs
  | succ depth =>
    obtain ⟨c, hc, hsc⟩ := List.mem_flatMap.1 hs
    have hnested : Relation.ReflTransGen m.NestedIn s c := nestedIn_of_mem_visitMessage hsc
    rcases Relation.ReflTransGen.cases_head hnested with rfl | ⟨p, hp, -⟩
    · exact ⟨r, List.mem_reverse.1 hc⟩
    · exact ⟨p, hp⟩

/-- A full name is found at the first root that has it or something nested that has it, and there at
what is visited last. -/
theorem get?_visitedMessages_eq_findSome? :
    (indexBy (fun r => (m.message r).id) m.visitedMessages).get? key =
      (m.messages ++ m.externalMessages).findSome? fun r =>
        (m.visitMessage m.store.messages.size r).reverse.find? fun s =>
        (m.message s).id == key := by
  rw [get?_indexBy, visitedMessages, List.reverse_flatMap, List.reverse_reverse, List.find?_flatMap]
  rfl

/-- A full name that no nested message has finds the first root that has it. -/
theorem get?_visitedMessages (hsize : m.store.messages.size ≠ 0)
    (h : ∀ s p, m.NestedIn s p → (m.message s).id ≠ key) :
    (indexBy (fun r => (m.message r).id) m.visitedMessages).get? key =
      (m.messages ++ m.externalMessages).find? fun r => (m.message r).id == key := by
  obtain ⟨depth, hdepth⟩ := Nat.exists_eq_succ_of_ne_zero hsize
  have hvisit : ∀ r, ((m.visitMessage m.store.messages.size r).reverse.find? fun s =>
      (m.message s).id == key) = if (m.message r).id == key then some r else none := by
    intro r
    have htail : ((m.visitMessage m.store.messages.size r).tail.reverse.find? fun s =>
        (m.message s).id == key) = none := by
      rw [List.find?_eq_none]
      intro s hs
      obtain ⟨p, hp⟩ := exists_nestedIn_of_mem_tail (List.mem_reverse.1 hs)
      simpa using h s p hp
    rw [hdepth] at htail ⊢
    rw [visitMessage, List.reverse_cons, List.find?_append]
    exact (congrArg (Option.or · _) htail).trans (Option.none_or.trans List.find?_singleton)
  rw [get?_visitedMessages_eq_findSome?]
  induction m.messages ++ m.externalMessages with
  | nil => rfl
  | cons r roots ih =>
    rw [List.findSome?_cons, List.find?_cons, hvisit, ih]
    cases (m.message r).id == key with
    | true => rfl
    | false => rfl

/-- What an index that is built finds is told by what is visited. -/
theorem messageRef?_buildIndices (m : Model) (key : String) :
    m.buildIndices.messageRef? key =
      (indexBy (fun r => (m.message r).id) m.visitedMessages).get? key := by
  have hlisting : SameListing m m.buildIndices := sameListing_buildIndices m
  have hindex := (indexed_buildIndices m).messages
  rw [hlisting.visitedMessages] at hindex
  have hnames : indexBy (fun r => (m.buildIndices.message r).id) m.visitedMessages =
      indexBy (fun r => (m.message r).id) m.visitedMessages :=
    indexBy_congr fun r _ => hlisting.messageId r
  rw [messageRef?, hindex, hnames]

/-- After assembly, a full name that no nested message has finds the first root that has it. -/
theorem messageRef?_crossReference (hsize : m.store.messages.size ≠ 0)
    (h : ∀ s p, m.NestedIn s p → (m.message s).id ≠ key) :
    m.crossReference.model.messageRef? key =
      (m.messages ++ m.externalMessages).find? fun r => (m.message r).id == key := by
  rw [(sameSource_crossReference m).messageRef?, messageRef?_buildIndices]
  exact get?_visitedMessages hsize h

/-! ## Methods that are all found -/

/-- Assembly keeps what names the request of a method. -/
theorem inputTypeId_crossReference (m : Model) (r : MethodRef) :
    (m.crossReference.model.method r).inputTypeId = (m.method r).inputTypeId := by
  have hsource := congrArg Method.inputTypeId ((sameSource_crossReference m).methodSource r)
  have hkept : ∀ r x, (owned m.listedMethods r x).inputTypeId = x.inputTypeId := fun _ _ => rfl
  have hindices : (m.buildIndices.method r).inputTypeId = (m.method r).inputTypeId := by
    rw [buildIndices_eq]
    exact methodArena.get_map_keeps (m := m.withIndices) Method.inputTypeId hkept r
  exact hsource.trans hindices

/-- Assembly keeps the full names of methods. -/
theorem methodId_crossReference (m : Model) (r : MethodRef) :
    (m.crossReference.model.method r).id = (m.method r).id :=
  ((sameSource_crossReference m).method r).trans ((sameListing_buildIndices m).method r)

/-- Assembly keeps the number of methods. -/
theorem methodCount_crossReference (m : Model) :
    m.crossReference.model.store.methods.size = m.store.methods.size := by
  rw [(sameSource_crossReference m).methodCount, buildIndices_eq]
  exact Array.size_mapIdx

/-- Assembly keeps the full names of all methods, in order. -/
theorem methodIds_crossReference (m : Model) :
    m.crossReference.model.store.methods.toList.map Method.id =
      m.store.methods.toList.map Method.id := by
  have hcount := methodCount_crossReference m
  refine List.ext_getElem (by simpa using hcount) fun i hi hi' => ?_
  have hlinked : i < m.crossReference.model.store.methods.size := by simpa using hi
  have hgiven : i < m.store.methods.size := by simpa using hi'
  have hid := methodId_crossReference m ⟨i⟩
  unfold method at hid
  simpa [Array.getElem?_eq_getElem, hlinked, hgiven] using hid

/-- If listed methods differ in their full names, all of them are indexed. -/
theorem mem_indexedMethods_crossReference {r : MethodRef} (hr : r ∈ m.listedMethods.map Prod.snd)
    (hids : ∀ r ∈ m.listedMethods.map Prod.snd, ∀ s ∈ m.listedMethods.map Prod.snd,
      (m.method r).id = (m.method s).id → r = s) :
      r ∈ m.crossReference.model.indexedMethods := by
  have hlisting : SameListing m m.buildIndices := sameListing_buildIndices m
  have hindexed : Indexed m.buildIndices := indexed_buildIndices m
  rw [(sameSource_crossReference m).indexedMethods, hindexed.mem_indexedMethods, methodRef?,
    hindexed.methods, hlisting.listedMethods]
  refine get?_indexBy_of_injective (fun r hr s hs hname => ?_) hr
  exact hids r hr s hs (by rwa [← hlisting.method r, ← hlisting.method s])

/-- A listed method in range whose full name no other has is linked to the first root that has the
full name of its request, unless a nested message has that name too. -/
theorem inputType_crossReference (hlinked : m.crossReference.error? = none)
    (hrange : ∀ link ∈ m.listedMethods, link.2.index < m.store.methods.size)
    (hids : ∀ r ∈ m.listedMethods.map Prod.snd, ∀ s ∈ m.listedMethods.map Prod.snd,
      (m.method r).id = (m.method s).id → r = s)
    {r : MethodRef} (hr : r ∈ m.listedMethods.map Prod.snd) (hsize : m.store.messages.size ≠ 0)
    (hnested : ∀ s p, m.NestedIn s p → (m.message s).id ≠ (m.method r).inputTypeId) :
    (m.crossReference.model.method r).inputType =
      (m.messages ++ m.externalMessages).find? fun s =>
      (m.message s).id == (m.method r).inputTypeId := by
  have hindexed := mem_indexedMethods_crossReference hr hids
  have hfound := (resolvable_of_crossReference hlinked).of_sameSource (sameSource_crossReference m)
  have hsettled := settled_crossReference hlinked
  have hlinks : MethodLinked m.crossReference.model (m.crossReference.model.method r) :=
    MethodLinked.of_linkedMethod (hfound.methods r hindexed)
      (hsettled.methods r hindexed (holds_indexedMethods hrange hindexed)
        (hfound.methods r hindexed))
  obtain ⟨s, hs, hinput⟩ := hlinks.input
  rw [hinput, ← hs, inputTypeId_crossReference]
  exact messageRef?_crossReference hsize hnested

end ApiModel.Model
