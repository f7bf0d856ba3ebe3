import ApiModel.Proofs.Listing

/-!
# Built indices

Indexing puts the four indices of the listing into the model and tells every listed method its
service. It reads nothing that it writes, so a model whose indices are those of its listing and
whose methods know their services is left as it is.
-/

namespace ApiModel.Model

/-- The model with the four indices of its listing. -/
def withIndices (m : Model) : Model :=
  { m with
    store :=
      { m.store with
        messageById := indexBy (fun ref => (m.message ref).id) m.visitedMessages
        enumById := indexBy (fun ref => (m.enumeration ref).id) m.visitedEnums
        serviceById := indexBy (fun ref => (m.service ref).id) m.services
        methodById := indexBy (fun ref => (m.method ref).id) (m.listedMethods.map Prod.snd) } }

/-- Whether the indices of a model are those of its listing. -/
structure Indexed (m : Model) : Prop where
  /-- The index of messages. -/
  messages : m.store.messageById = indexBy (fun ref => (m.message ref).id) m.visitedMessages
  /-- The index of enumerations. -/
  enums : m.store.enumById = indexBy (fun ref => (m.enumeration ref).id) m.visitedEnums
  /-- The index of services. -/
  services : m.store.serviceById = indexBy (fun ref => (m.service ref).id) m.services
  /-- The index of methods. -/
  methods :
    m.store.methodById = indexBy (fun ref => (m.method ref).id) (m.listedMethods.map Prod.snd)

/-- The service that is the last to list a method. -/
def lastOwner? (links : List (ServiceRef × MethodRef)) (r : MethodRef) : Option ServiceRef :=
  links.foldl (fun found link => if r = link.2 then some link.1 else found) none

/-- The method with the service that is the last to list it, if there is one. -/
def owned (links : List (ServiceRef × MethodRef)) (r : MethodRef) (x : Method) : Method :=
  { x with service := (lastOwner? links r).or x.service }

variable {m other : Model}

/-- One more link makes its service the last owner of its method, and of no other. -/
theorem lastOwner?_concat (links : List (ServiceRef × MethodRef)) (link : ServiceRef × MethodRef)
    (r : MethodRef) :
    lastOwner? (links ++ [link]) r = if r = link.2 then some link.1 else lastOwner? links r := by
  rw [lastOwner?, List.foldl_append]
  rfl

/-- Only a service that lists a method is its last owner. -/
theorem mem_of_lastOwner? {links : List (ServiceRef × MethodRef)} {r : MethodRef} {s : ServiceRef}
    (h : lastOwner? links r = some s) : (s, r) ∈ links := by
  induction links using List.reverseRecOn with
  | nil => cases h
  | append_singleton links link ih =>
    rw [lastOwner?_concat] at h
    split at h
    · rename_i hr
      obtain rfl := Option.some.inj h
      rw [hr]
      exact List.mem_append_right _ List.mem_cons_self
    · exact List.mem_append_left _ (ih h)

/-- A method that is listed has a last owner. -/
theorem exists_lastOwner? {links : List (ServiceRef × MethodRef)} {r : MethodRef}
    (h : r ∈ links.map Prod.snd) : ∃ s, lastOwner? links r = some s := by
  induction links using List.reverseRecOn with
  | nil => exact absurd h List.not_mem_nil
  | append_singleton links link ih =>
    rw [lastOwner?_concat]
    split
    · exact ⟨_, rfl⟩
    · rename_i hr
      rw [List.map_append, List.mem_append, List.map_singleton, List.mem_singleton] at h
      exact ih (h.resolve_right hr)

/-- A method belongs to the service of its last link, and keeps the rest from the links before. -/
theorem owned_concat (links : List (ServiceRef × MethodRef)) (link : ServiceRef × MethodRef)
    (r : MethodRef) (x : Method) :
    owned (links ++ [link]) r x =
      if r = link.2 then { owned links r x with service := some link.1 } else owned links r x := by
  rw [owned, lastOwner?_concat]
  by_cases hr : r = link.2
  · rw [if_pos hr, if_pos hr]
    rfl
  · rw [if_neg hr, if_neg hr]
    rfl

/-- A method is left as it is if and only if it knows its service. -/
theorem owned_eq_self {links : List (ServiceRef × MethodRef)} {r : MethodRef} {x : Method} :
    owned links r x = x ↔ (lastOwner? links r).or x.service = x.service := by
  constructor
  · intro h
    exact congrArg Method.service h
  · intro h
    rw [owned, h]

/-- Linking methods one after the other is one map, which gives each its last owner. -/
theorem foldl_linkMethod (links : List (ServiceRef × MethodRef)) (m : Model) :
    links.foldl linkMethod m = methodArena.map m (owned links) := by
  induction links using List.reverseRecOn with
  | nil => exact (methodArena.map_eq_self fun r _ => rfl).symm
  | append_singleton links link ih =>
    rw [List.foldl_append, ih]
    change methodArena.modify _ link.2 _ = _
    rw [methodArena.modify_eq_map, methodArena.map_map]
    exact methodArena.map_congr fun r _ => (owned_concat links link r _).symm

/-- Indexing puts in the indices and then links the methods. -/
theorem buildIndices_eq (m : Model) :
    m.buildIndices = methodArena.map m.withIndices (owned m.listedMethods) :=
  foldl_linkMethod m.listedMethods m.withIndices

/-- Indexing keeps the messages. -/
theorem message_buildIndices (m : Model) (r : MessageRef) :
    m.buildIndices.message r = m.message r := by
  rw [buildIndices_eq]
  rfl

/-- Indexing keeps the enumerations. -/
theorem enumeration_buildIndices (m : Model) (r : EnumRef) :
    m.buildIndices.enumeration r = m.enumeration r := by
  rw [buildIndices_eq]
  rfl

/-- Indexing keeps the listing. -/
theorem sameListing_buildIndices (m : Model) : SameListing m m.buildIndices := by
  have hid : ∀ r x, (owned m.listedMethods r x).id = x.id := fun _ _ => rfl
  rw [buildIndices_eq]
  exact {
    SameListing.refl m with
    method := fun r => methodArena.get_map_keeps (m := m.withIndices) Method.id hid r }

namespace Indexed

/-- The indices are those of the listing wherever the outline is the same. -/
theorem of_sameOutline (h : Indexed m) (hsame : SameOutline m other) : Indexed other where
  messages := by
    rw [hsame.messageById, hsame.visitedMessages, h.messages]
    exact indexBy_congr fun r _ => (hsame.messageId r).symm
  enums := by
    rw [hsame.enumById, hsame.visitedEnums, h.enums]
    exact indexBy_congr fun r _ => (hsame.enumeration r).symm
  services := by
    rw [hsame.serviceById, hsame.services, h.services]
    exact indexBy_congr fun r _ => (hsame.serviceId r).symm
  methods := by
    rw [hsame.methodById, hsame.listedMethods, h.methods]
    exact indexBy_congr fun r _ => (hsame.method r).symm

/-- Putting in the indices that are there changes nothing. -/
theorem withIndices (h : Indexed m) : m.withIndices = m := by
  rw [Model.withIndices, ← h.messages, ← h.enums, ← h.services, ← h.methods]

/-- Indexed messages are visited, and found under their names. -/
theorem mem_indexedMessages (h : Indexed m) {r : MessageRef} :
    r ∈ m.indexedMessages ↔ m.messageRef? (m.message r).id = some r := by
  rw [indexedMessages, messageRef?, h.messages, mem_values_indexBy]

/-- Indexed enumerations are found under their names. -/
theorem mem_indexedEnums (h : Indexed m) {r : EnumRef} :
    r ∈ m.indexedEnums ↔ m.enumRef? (m.enumeration r).id = some r := by
  rw [indexedEnums, enumRef?, h.enums, mem_values_indexBy]

/-- Indexed methods are found under their names. -/
theorem mem_indexedMethods (h : Indexed m) {r : MethodRef} :
    r ∈ m.indexedMethods ↔ m.methodRef? (m.method r).id = some r := by
  rw [indexedMethods, methodRef?, h.methods, mem_values_indexBy]

/-- A message that is found is visited and has the name. -/
theorem of_messageRef? (h : Indexed m) {id : String} {r : MessageRef}
    (hr : m.messageRef? id = some r) : r ∈ m.visitedMessages ∧ (m.message r).id = id := by
  rw [messageRef?, h.messages] at hr
  exact of_get?_indexBy hr

/-- An enumeration that is found is visited and has the name. -/
theorem of_enumRef? (h : Indexed m) {id : String} {r : EnumRef}
    (hr : m.enumRef? id = some r) : r ∈ m.visitedEnums ∧ (m.enumeration r).id = id := by
  rw [enumRef?, h.enums] at hr
  exact of_get?_indexBy hr

/-- A method that is found is listed and has the name. -/
theorem of_methodRef? (h : Indexed m) {id : String} {r : MethodRef}
    (hr : m.methodRef? id = some r) :
    r ∈ m.listedMethods.map Prod.snd ∧ (m.method r).id = id := by
  rw [methodRef?, h.methods] at hr
  exact of_get?_indexBy hr

/-- No message is indexed twice. -/
theorem nodup_indexedMessages (h : Indexed m) : m.indexedMessages.Nodup := by
  rw [indexedMessages, h.messages]
  exact nodup_values_indexBy _ _

/-- No enumeration is indexed twice. -/
theorem nodup_indexedEnums (h : Indexed m) : m.indexedEnums.Nodup := by
  rw [indexedEnums, h.enums]
  exact nodup_values_indexBy _ _

/-- No method is indexed twice. -/
theorem nodup_indexedMethods (h : Indexed m) : m.indexedMethods.Nodup := by
  rw [indexedMethods, h.methods]
  exact nodup_values_indexBy _ _

/-- Indexing leaves a model as it is whose methods know their services. -/
theorem buildIndices_eq_self (h : Indexed m)
    (hlinks : ∀ r, methodArena.Holds m r → owned m.listedMethods r (m.method r) = m.method r) :
    m.buildIndices = m := by
  rw [buildIndices_eq, h.withIndices]
  exact methodArena.map_eq_self hlinks

end Indexed

/-- Indexing gives a model the indices of its listing. -/
theorem indexed_buildIndices (m : Model) : Indexed m.buildIndices := by
  have hsame := sameListing_buildIndices m
  rw [buildIndices_eq] at hsame ⊢
  constructor
  · rw [hsame.visitedMessages]
    rfl
  · rw [hsame.visitedEnums]
    rfl
  · rw [hsame.services]
    rfl
  · rw [hsame.listedMethods]
    exact indexBy_congr fun r _ => (hsame.method r).symm

/-- Where indexing changes nothing, methods know their services. -/
theorem owned_of_buildIndices_eq (h : m.buildIndices = m) {r : MethodRef}
    (hr : methodArena.Holds m r) : owned m.listedMethods r (m.method r) = m.method r := by
  have hget := methodArena.get_map (m := m.withIndices) hr (owned m.listedMethods)
  rw [← buildIndices_eq, h] at hget
  exact hget.symm

/-- Indexing again changes nothing. -/
theorem buildIndices_buildIndices (m : Model) : m.buildIndices.buildIndices = m.buildIndices := by
  refine (indexed_buildIndices m).buildIndices_eq_self fun r hr => ?_
  rw [(sameListing_buildIndices m).listedMethods]
  have hget : m.buildIndices.method r = owned m.listedMethods r (m.method r) := by
    rw [buildIndices_eq] at hr ⊢
    exact methodArena.get_map ((methodArena.holds_map _ _ r).1 hr) _
  rw [hget, owned, owned]
  cases lastOwner? m.listedMethods r with
  | none => rfl
  | some s => rfl

end ApiModel.Model
