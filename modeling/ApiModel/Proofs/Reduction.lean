import ApiModel.Proofs.Assembly.Indices
import ApiModel.Proofs.Outcome
import ApiModel.Skip
import Mathlib.Data.List.Flatten

/-!
# Reduced models

Skipping elements takes them off the lists and leaves everything else where it was: the elements
that are no longer listed stay in the store, and links to them stay too.
-/

namespace ApiModel

/-- The message without what is nested in it. -/
def Message.unnested (x : Message) : Message :=
  { x with messages := [], enums := [] }

/-- The service without its methods. -/
def Service.bare (x : Service) : Service :=
  { x with methods := [] }

/-- The method without its service. -/
def Method.unowned (x : Method) : Method :=
  { x with service := none }

namespace Model

/-- Whether another model lists a part of what a model lists, in the same order, and has the same
elements. -/
structure Reduction (m other : Model) : Prop where
  /-- Fewer generated messages. -/
  messages : other.messages.Sublist m.messages
  /-- Fewer generated enumerations. -/
  enums : other.enums.Sublist m.enums
  /-- Fewer services. -/
  services : other.services.Sublist m.services
  /-- The same external messages. -/
  externalMessages : other.externalMessages = m.externalMessages
  /-- The same external enumerations. -/
  externalEnums : other.externalEnums = m.externalEnums
  /-- As many messages in the store. -/
  messageCount : other.store.messages.size = m.store.messages.size
  /-- As many enumerations in the store. -/
  enumCount : other.store.enums.size = m.store.enums.size
  /-- As many services in the store. -/
  serviceCount : other.store.services.size = m.store.services.size
  /-- As many methods in the store. -/
  methodCount : other.store.methods.size = m.store.methods.size
  /-- The same messages but for what is nested in them. -/
  message : ∀ r, (other.message r).unnested = (m.message r).unnested
  /-- Fewer nested messages. -/
  nestedMessages : ∀ r, (other.message r).messages.Sublist (m.message r).messages
  /-- Fewer nested enumerations. -/
  nestedEnums : ∀ r, (other.message r).enums.Sublist (m.message r).enums
  /-- The same enumerations. -/
  enumeration : ∀ r, other.enumeration r = m.enumeration r
  /-- The same services but for their methods. -/
  service : ∀ r, (other.service r).bare = (m.service r).bare
  /-- Fewer methods. -/
  methods : ∀ r, (other.service r).methods.Sublist (m.service r).methods
  /-- The same methods but for their services. -/
  method : ∀ r, (other.method r).unowned = (m.method r).unowned

variable {m other last : Model}

namespace Reduction

/-- Every model reduces to itself. -/
theorem refl (m : Model) : Reduction m m where
  messages := List.Sublist.refl _
  enums := List.Sublist.refl _
  services := List.Sublist.refl _
  externalMessages := rfl
  externalEnums := rfl
  messageCount := rfl
  enumCount := rfl
  serviceCount := rfl
  methodCount := rfl
  message _ := rfl
  nestedMessages _ := List.Sublist.refl _
  nestedEnums _ := List.Sublist.refl _
  enumeration _ := rfl
  service _ := rfl
  methods _ := List.Sublist.refl _
  method _ := rfl

/-- A model can be reduced in steps. -/
theorem trans (h : Reduction m other) (h' : Reduction other last) : Reduction m last where
  messages := h'.messages.trans h.messages
  enums := h'.enums.trans h.enums
  services := h'.services.trans h.services
  externalMessages := h'.externalMessages.trans h.externalMessages
  externalEnums := h'.externalEnums.trans h.externalEnums
  messageCount := h'.messageCount.trans h.messageCount
  enumCount := h'.enumCount.trans h.enumCount
  serviceCount := h'.serviceCount.trans h.serviceCount
  methodCount := h'.methodCount.trans h.methodCount
  message r := (h'.message r).trans (h.message r)
  nestedMessages r := (h'.nestedMessages r).trans (h.nestedMessages r)
  nestedEnums r := (h'.nestedEnums r).trans (h.nestedEnums r)
  enumeration r := (h'.enumeration r).trans (h.enumeration r)
  service r := (h'.service r).trans (h.service r)
  methods r := (h'.methods r).trans (h.methods r)
  method r := (h'.method r).trans (h.method r)

/-- A reduced model has the same full names of messages. -/
theorem messageId (h : Reduction m other) (r : MessageRef) :
    (other.message r).id = (m.message r).id := by
  have hmessage := congrArg Message.id (h.message r)
  exact hmessage

/-- A reduced model has the same fields in every message. -/
theorem fields (h : Reduction m other) (r : MessageRef) :
    (other.message r).fields = (m.message r).fields := by
  have hmessage := congrArg Message.fields (h.message r)
  exact hmessage

/-- A reduced model has the same map entries. -/
theorem isMap (h : Reduction m other) (r : MessageRef) :
    (other.message r).isMap = (m.message r).isMap := by
  have hmessage := congrArg Message.isMap (h.message r)
  exact hmessage

/-- A reduced model has the same full names of methods. -/
theorem methodId (h : Reduction m other) (r : MethodRef) :
    (other.method r).id = (m.method r).id := by
  have hmethod := congrArg Method.id (h.method r)
  exact hmethod

/-- A reduced model descends from a message to a part of what it did, in order. -/
theorem visitMessage (h : Reduction m other) (depth : Nat) (r : MessageRef) :
    (other.visitMessage depth r).Sublist (m.visitMessage depth r) := by
  induction depth generalizing r with
  | zero => exact List.Sublist.refl _
  | succ depth ih =>
    rw [Model.visitMessage, Model.visitMessage]
    have hnested := (h.nestedMessages r).reverse.flatMap (other.visitMessage depth)
    exact (hnested.trans (List.Sublist.flatMap_right _ fun s _ => ih s)).cons_cons r

/-- A reduced model visits a part of the messages, in order. -/
theorem visitedMessages (h : Reduction m other) :
    other.visitedMessages.Sublist m.visitedMessages := by
  rw [Model.visitedMessages, Model.visitedMessages, h.externalMessages, h.messageCount]
  have hroots := (h.messages.append (List.Sublist.refl m.externalMessages)).reverse.flatMap
    (other.visitMessage m.store.messages.size)
  exact hroots.trans (List.Sublist.flatMap_right _ fun s _ => h.visitMessage _ s)

/-- A reduced model visits a part of the enumerations, in order. -/
theorem visitedEnums (h : Reduction m other) : other.visitedEnums.Sublist m.visitedEnums := by
  rw [Model.visitedEnums, Model.visitedEnums, h.externalEnums]
  have hnested := h.visitedMessages.flatMap fun r => (other.message r).enums
  exact (h.enums.append (List.Sublist.refl m.externalEnums)).append
    (hnested.trans (List.Sublist.flatMap_right _ fun s _ => h.nestedEnums s))

/-- A reduced model lists a part of the methods, in order. -/
theorem listedMethods (h : Reduction m other) : other.listedMethods.Sublist m.listedMethods := by
  rw [Model.listedMethods, Model.listedMethods]
  have hservices := h.services.flatMap fun s => (other.service s).methods.map fun r => (s, r)
  exact hservices.trans (List.Sublist.flatMap_right _ fun s _ => (h.methods s).map _)

end Reduction

/-- Indexing takes nothing off the lists. -/
theorem reduction_buildIndices (m : Model) : Reduction m m.buildIndices := by
  have hkeeps : ∀ r x, (owned m.listedMethods r x).unowned = x.unowned := fun _ _ => rfl
  rw [buildIndices_eq]
  exact {
    Reduction.refl m with
    methodCount := Array.size_mapIdx
    method := fun r => methodArena.get_map_keeps (m := m.withIndices) Method.unowned hkeeps r }

end Model

namespace Selection

open Model

/-- Pruning a service takes methods off its list. -/
theorem reduction_pruneService (s : Selection) (m : Model) (r : ServiceRef) :
    Reduction m (s.pruneService m r) where
  __ := Reduction.refl m
  serviceCount := Array.size_modify
  service t := serviceArena.get_modify_keeps Service.bare m r t rfl
  methods t := serviceArena.get_modify_relates
    (R := fun x y => x.methods.Sublist y.methods) (fun _ => List.Sublist.refl _) m r t
    List.filter_sublist

/-- The model without the lists of what is skipped, before its services are pruned. -/
def prunedLists (s : Selection) (m : Model) : Model :=
  { m with
    messages := m.messages.filter fun ref => s.keeps (m.message ref).id
    enums := m.enums.filter fun ref => s.keeps (m.enumeration ref).id
    services := m.services.filter fun ref => s.keepsService m (m.service ref)
    store := { m.store with messages := m.store.messages.map (s.pruneMessage m) } }

/-- Skipping prunes the lists, then the services that stay, and indexes what is left. -/
theorem apply_eq (s : Selection) (m : Model) :
    s.apply m = ((s.prunedLists m).services.foldl s.pruneService (s.prunedLists m)).buildIndices :=
  rfl

/-- Pruning the lists prunes every message. -/
theorem message_prunedLists (s : Selection) (m : Model) (r : MessageRef) :
    (s.prunedLists m).message r = s.pruneMessage m (m.message r) := by
  rw [Model.message, Model.message, Array.getD_eq_getD_getElem?, Array.getD_eq_getD_getElem?]
  change ((m.store.messages.map (s.pruneMessage m))[r.index]?).getD default = _
  rw [Array.getElem?_map]
  cases m.store.messages[r.index]? with
  | none => rfl
  | some x => rfl

/-- Pruning the lists takes elements off them. -/
theorem reduction_prunedLists (s : Selection) (m : Model) : Reduction m (s.prunedLists m) where
  __ := Reduction.refl m
  messages := List.filter_sublist
  enums := List.filter_sublist
  services := List.filter_sublist
  messageCount := Array.size_map
  message r := by
    rw [message_prunedLists]
    rfl
  nestedMessages r := by
    rw [message_prunedLists]
    exact List.filter_sublist
  nestedEnums r := by
    rw [message_prunedLists]
    exact List.filter_sublist

/-- Skipping takes elements off the lists. -/
theorem reduction_apply (s : Selection) (m : Model) : Reduction m (s.apply m) := by
  rw [apply_eq]
  have hservices := foldl_relates (R := Reduction) Reduction.refl Reduction.trans
    s.reduction_pruneService (s.prunedLists m).services (s.prunedLists m)
  exact ((s.reduction_prunedLists m).trans hservices).trans (reduction_buildIndices _)

end Selection

namespace Model

variable {m other : Model} {options : SourceOptions}

/-- Skipping succeeds if nothing is selected, and changes nothing then, or if all patterns are full
names. -/
theorem skipElements_eq_ok :
    m.skipElements options = .ok other ↔
      (Selection.ofOptions options).isEmpty = true ∧ other = m ∨
      (Selection.ofOptions options).isEmpty = false ∧
        (Selection.ofOptions options).fault? = none ∧
        other = (Selection.ofOptions options).apply m := by
  unfold skipElements
  generalize Selection.ofOptions options = s
  dsimp only
  cases s.isEmpty with
  | true =>
    rw [if_pos rfl, Except.ok.injEq]
    constructor
    · intro h
      exact .inl ⟨rfl, h.symm⟩
    · rintro (⟨-, h⟩ | ⟨h, -⟩)
      · exact h.symm
      · cases h
  | false =>
    rw [if_neg Bool.false_ne_true]
    cases s.fault? with
    | none =>
      constructor
      · intro h
        exact .inr ⟨rfl, rfl, (Except.ok.inj h).symm⟩
      · rintro (⟨h, -⟩ | ⟨-, -, rfl⟩)
        · cases h
        · rfl
    | some e =>
      constructor
      · intro h
        cases h
      · rintro (⟨h, -⟩ | ⟨-, h, -⟩)
        · cases h
        · cases h

/-- Skipping takes elements off the lists, if anything. -/
theorem reduction_skipElements (h : m.skipElements options = .ok other) : Reduction m other := by
  rcases skipElements_eq_ok.1 h with ⟨-, rfl⟩ | ⟨-, -, rfl⟩
  · exact Reduction.refl _
  · exact (Selection.ofOptions options).reduction_apply m

/-- Skipping leaves an indexed model indexed. -/
theorem buildIndices_skipElements (h : m.skipElements options = .ok other)
    (hindices : m.buildIndices = m) : other.buildIndices = other := by
  rcases skipElements_eq_ok.1 h with ⟨-, rfl⟩ | ⟨-, -, rfl⟩
  · exact hindices
  · exact buildIndices_buildIndices _

end Model

end ApiModel
