import ApiModel.Proofs.Arena
import ApiModel.Proofs.Index

/-!
# Listings

The listing of a model is what its indices are built from: the lists of top-level and nested
elements and the full names. Models of one listing have the same visited elements, and so their
indices would be the same if they were built anew. Most passes keep the listing, and the indices
with it.
-/

namespace ApiModel.Model

/-- What of a message belongs to the listing. -/
def messageListing (x : Message) : String × List MessageRef × List EnumRef :=
  (x.id, x.messages, x.enums)

/-- What of a service belongs to the listing. -/
def serviceListing (x : Service) : String × List MethodRef :=
  (x.id, x.methods)

/-- The descent from a message is told by what is nested in messages. -/
theorem visitMessage_congr {m other : Model}
    (h : ∀ r, (other.message r).messages = (m.message r).messages) (depth : Nat)
    (r : MessageRef) : other.visitMessage depth r = m.visitMessage depth r := by
  induction depth generalizing r with
  | zero => rfl
  | succ depth ih =>
    rw [visitMessage, visitMessage, h r]
    exact congrArg (r :: ·) (List.flatMap_congr fun s _ => ih s)

/-- Whether two models list the same elements under the same full names. -/
structure SameListing (m other : Model) : Prop where
  /-- The same generated messages. -/
  messages : other.messages = m.messages
  /-- The same generated enumerations. -/
  enums : other.enums = m.enums
  /-- The same services. -/
  services : other.services = m.services
  /-- The same external messages. -/
  externalMessages : other.externalMessages = m.externalMessages
  /-- The same external enumerations. -/
  externalEnums : other.externalEnums = m.externalEnums
  /-- As many messages, so that the descent is bounded alike. -/
  count : other.store.messages.size = m.store.messages.size
  /-- The same nesting and names of messages. -/
  message : ∀ r, messageListing (other.message r) = messageListing (m.message r)
  /-- The same names of enumerations. -/
  enumeration : ∀ r, (other.enumeration r).id = (m.enumeration r).id
  /-- The same methods and names of services. -/
  service : ∀ r, serviceListing (other.service r) = serviceListing (m.service r)
  /-- The same names of methods. -/
  method : ∀ r, (other.method r).id = (m.method r).id

namespace SameListing

variable {m other last : Model}

/-- Every model has its own listing. -/
theorem refl (m : Model) : SameListing m m :=
  ⟨rfl, rfl, rfl, rfl, rfl, rfl, fun _ => rfl, fun _ => rfl, fun _ => rfl, fun _ => rfl⟩

/-- Having the same listing goes both ways. -/
theorem symm (h : SameListing m other) : SameListing other m where
  messages := h.messages.symm
  enums := h.enums.symm
  services := h.services.symm
  externalMessages := h.externalMessages.symm
  externalEnums := h.externalEnums.symm
  count := h.count.symm
  message r := (h.message r).symm
  enumeration r := (h.enumeration r).symm
  service r := (h.service r).symm
  method r := (h.method r).symm

/-- Having the same listing is passed on. -/
theorem trans (h : SameListing m other) (h' : SameListing other last) : SameListing m last where
  messages := h'.messages.trans h.messages
  enums := h'.enums.trans h.enums
  services := h'.services.trans h.services
  externalMessages := h'.externalMessages.trans h.externalMessages
  externalEnums := h'.externalEnums.trans h.externalEnums
  count := h'.count.trans h.count
  message r := (h'.message r).trans (h.message r)
  enumeration r := (h'.enumeration r).trans (h.enumeration r)
  service r := (h'.service r).trans (h.service r)
  method r := (h'.method r).trans (h.method r)

/-- Models of one listing have the same full names of messages. -/
theorem messageId (h : SameListing m other) (r : MessageRef) :
    (other.message r).id = (m.message r).id :=
  congrArg Prod.fst (h.message r)

/-- Models of one listing nest the same messages in each message. -/
theorem nestedMessages (h : SameListing m other) (r : MessageRef) :
    (other.message r).messages = (m.message r).messages :=
  congrArg (fun listing => listing.2.1) (h.message r)

/-- Models of one listing nest the same enumerations in each message. -/
theorem nestedEnums (h : SameListing m other) (r : MessageRef) :
    (other.message r).enums = (m.message r).enums :=
  congrArg (fun listing => listing.2.2) (h.message r)

/-- Models of one listing have the same full names of services. -/
theorem serviceId (h : SameListing m other) (r : ServiceRef) :
    (other.service r).id = (m.service r).id :=
  congrArg Prod.fst (h.service r)

/-- Models of one listing list the same methods in each service. -/
theorem methods (h : SameListing m other) (r : ServiceRef) :
    (other.service r).methods = (m.service r).methods :=
  congrArg Prod.snd (h.service r)

/-- Models of one listing descend alike from each message. -/
theorem visitMessage (h : SameListing m other) (depth : Nat) (r : MessageRef) :
    other.visitMessage depth r = m.visitMessage depth r :=
  visitMessage_congr h.nestedMessages depth r

/-- Models of one listing visit the same messages. -/
theorem visitedMessages (h : SameListing m other) : other.visitedMessages = m.visitedMessages := by
  rw [Model.visitedMessages, Model.visitedMessages, h.messages, h.externalMessages, h.count]
  exact List.flatMap_congr fun s _ => h.visitMessage _ s

/-- Models of one listing visit the same enumerations. -/
theorem visitedEnums (h : SameListing m other) : other.visitedEnums = m.visitedEnums := by
  rw [Model.visitedEnums, Model.visitedEnums, h.enums, h.externalEnums, h.visitedMessages]
  exact congrArg (_ ++ ·) (List.flatMap_congr fun s _ => h.nestedEnums s)

/-- Models of one listing list the same methods with their services. -/
theorem listedMethods (h : SameListing m other) : other.listedMethods = m.listedMethods := by
  rw [Model.listedMethods, Model.listedMethods, h.services]
  exact List.flatMap_congr fun s _ => by rw [h.methods s]

end SameListing

/-! ## Outlines -/

/-- Whether two models have the same listing and the same indices. -/
structure SameOutline (m other : Model) : Prop extends SameListing m other where
  /-- The same index of messages. -/
  messageById : other.store.messageById = m.store.messageById
  /-- The same index of enumerations. -/
  enumById : other.store.enumById = m.store.enumById
  /-- The same index of services. -/
  serviceById : other.store.serviceById = m.store.serviceById
  /-- The same index of methods. -/
  methodById : other.store.methodById = m.store.methodById

namespace SameOutline

variable {m other last : Model}

/-- Every model has its own outline. -/
theorem refl (m : Model) : SameOutline m m :=
  ⟨SameListing.refl m, rfl, rfl, rfl, rfl⟩

/-- Having the same outline goes both ways. -/
theorem symm (h : SameOutline m other) : SameOutline other m where
  toSameListing := h.toSameListing.symm
  messageById := h.messageById.symm
  enumById := h.enumById.symm
  serviceById := h.serviceById.symm
  methodById := h.methodById.symm

/-- Having the same outline is passed on. -/
theorem trans (h : SameOutline m other) (h' : SameOutline other last) : SameOutline m last where
  toSameListing := h.toSameListing.trans h'.toSameListing
  messageById := h'.messageById.trans h.messageById
  enumById := h'.enumById.trans h.enumById
  serviceById := h'.serviceById.trans h.serviceById
  methodById := h'.methodById.trans h.methodById

/-- Models of one outline find the same message under each full name. -/
theorem messageRef? (h : SameOutline m other) (id : String) :
    other.messageRef? id = m.messageRef? id := by
  rw [Model.messageRef?, Model.messageRef?, h.messageById]

/-- Models of one outline find the same enumeration under each full name. -/
theorem enumRef? (h : SameOutline m other) (id : String) : other.enumRef? id = m.enumRef? id := by
  rw [Model.enumRef?, Model.enumRef?, h.enumById]

/-- Models of one outline index the same messages. -/
theorem indexedMessages (h : SameOutline m other) : other.indexedMessages = m.indexedMessages := by
  rw [Model.indexedMessages, Model.indexedMessages, h.messageById]

/-- Models of one outline index the same enumerations. -/
theorem indexedEnums (h : SameOutline m other) : other.indexedEnums = m.indexedEnums := by
  rw [Model.indexedEnums, Model.indexedEnums, h.enumById]

/-- Models of one outline index the same services. -/
theorem indexedServices (h : SameOutline m other) : other.indexedServices = m.indexedServices := by
  rw [Model.indexedServices, Model.indexedServices, h.serviceById]

/-- Models of one outline index the same methods. -/
theorem indexedMethods (h : SameOutline m other) : other.indexedMethods = m.indexedMethods := by
  rw [Model.indexedMethods, Model.indexedMethods, h.methodById]

end SameOutline

/-- A change of messages that keeps their full names and what is nested in them keeps the outline.
-/
theorem sameOutline_messages : messageArena.SeenThrough messageListing SameOutline :=
  fun m _ hsize h =>
    ⟨{ SameListing.refl m with count := hsize, message := h }, rfl, rfl, rfl, rfl⟩

/-- A change of enumerations that keeps their full names keeps the outline. -/
theorem sameOutline_enums : enumArena.SeenThrough Enumeration.id SameOutline :=
  fun m _ _ h => ⟨{ SameListing.refl m with enumeration := h }, rfl, rfl, rfl, rfl⟩

/-- A change of services that keeps their full names and methods keeps the outline. -/
theorem sameOutline_services : serviceArena.SeenThrough serviceListing SameOutline :=
  fun m _ _ h => ⟨{ SameListing.refl m with service := h }, rfl, rfl, rfl, rfl⟩

/-- A change of methods that keeps their full names keeps the outline. -/
theorem sameOutline_methods : methodArena.SeenThrough Method.id SameOutline :=
  fun m _ _ h => ⟨{ SameListing.refl m with method := h }, rfl, rfl, rfl, rfl⟩

end ApiModel.Model
