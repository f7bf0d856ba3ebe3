import ApiModel.Proofs.Assembly.Indices
import ApiModel.Proofs.Graph.Extent

/-!
# Sound models

A model is sound if all of its elements refer to what there is, what is listed at the top is nested
in nothing, no list has an element twice, and no method belongs to two services. A pass that changes
sound elements into sound ones, and keeps what others rely on, leaves the model sound.
-/

namespace ApiModel

/-- What a model lists at the top and what its indices hold. -/
structure Roster where
  /-- The generated messages and the external ones. -/
  messages : List MessageRef
  /-- The generated enumerations and the external ones. -/
  enums : List EnumRef
  /-- The services. -/
  services : List ServiceRef
  /-- The indexed messages. -/
  indexedMessages : List MessageRef
  /-- The indexed enumerations. -/
  indexedEnums : List EnumRef
  /-- The indexed services. -/
  indexedServices : List ServiceRef
  /-- The indexed methods. -/
  indexedMethods : List MethodRef

/-- Whether everything in the lists exists. -/
structure RosterSound (e : Extent) (l : Roster) : Prop where
  /-- Messages at the top are nested in nothing. -/
  messages : ∀ r ∈ l.messages, e.HasRoot r
  /-- No message is at the top twice. -/
  messagesOnce : l.messages.Nodup
  /-- Enumerations at the top are nested in nothing. -/
  enums : ∀ r ∈ l.enums, e.enumeration r = some none
  /-- No enumeration is at the top twice. -/
  enumsOnce : l.enums.Nodup
  /-- The listed services exist. -/
  services : ∀ r ∈ l.services, e.HasService r
  /-- No service is listed twice. -/
  servicesOnce : l.services.Nodup
  /-- The indexed messages exist. -/
  indexedMessages : ∀ r ∈ l.indexedMessages, e.HasMessage r
  /-- The indexed enumerations exist. -/
  indexedEnums : ∀ r ∈ l.indexedEnums, e.HasEnum r
  /-- The indexed services exist. -/
  indexedServices : ∀ r ∈ l.indexedServices, e.HasService r
  /-- The indexed methods exist. -/
  indexedMethods : ∀ r ∈ l.indexedMethods, e.HasMethod r

/-- Lists that exist go on existing. -/
theorem RosterSound.mono {e other : Extent} (h : e.Within other) {l : Roster}
    (hl : RosterSound e l) (hroots : ∀ r ∈ l.messages, e.HasRoot r → other.HasRoot r) :
    RosterSound other l where
  messages r hr := hroots r hr (hl.messages r hr)
  messagesOnce := hl.messagesOnce
  enums r hr := h.enumeration (hl.enums r hr)
  enumsOnce := hl.enumsOnce
  services r hr := h.hasService (hl.services r hr)
  servicesOnce := hl.servicesOnce
  indexedMessages r hr := h.hasMessage (hl.indexedMessages r hr)
  indexedEnums r hr := h.hasEnum (hl.indexedEnums r hr)
  indexedServices r hr := h.hasService (hl.indexedServices r hr)
  indexedMethods r hr := h.hasMethod (hl.indexedMethods r hr)

namespace Model

/-- What a model lists at the top and what its indices hold. -/
def roster (m : Model) : Roster where
  messages := m.messages ++ m.externalMessages
  enums := m.enums ++ m.externalEnums
  services := m.services
  indexedMessages := m.indexedMessages
  indexedEnums := m.indexedEnums
  indexedServices := m.indexedServices
  indexedMethods := m.indexedMethods

/-- Whether everything that a model refers to exists and belongs to what refers to it. -/
structure Sound (m : Model) : Prop where
  /-- The messages are sound. -/
  message : ∀ r x, messageArena.find? m r = some x → MessageSound m.extent r x
  /-- The enumerations are sound. -/
  enumeration : ∀ r x, enumArena.find? m r = some x → EnumSound m.extent r x
  /-- The services are sound. -/
  service : ∀ r x, serviceArena.find? m r = some x → ServiceSound m.extent x
  /-- The methods are sound. -/
  method : ∀ r x, methodArena.find? m r = some x → MethodSound m.extent x
  /-- No method belongs to two services. -/
  oneService : ∀ r s x y k, serviceArena.find? m r = some x →
    serviceArena.find? m s = some y →
    k ∈ x.methods → k ∈ y.methods → r = s
  /-- The lists are sound. -/
  roster : RosterSound m.extent m.roster

variable {m other : Model}

/-! ## Changing elements -/

/-- A change of messages that keeps what others rely on keeps the extent. -/
theorem extent_mapMessages {change : MessageRef → Message → Message}
    (h : ∀ r x, messageArena.find? m r = some x → (change r x).slot = x.slot) :
    (messageArena.map m change).extent = m.extent := by
  have hmessage : (messageArena.map m change).extent.message = m.extent.message := by
    funext r
    change (messageArena.find? (messageArena.map m change) r).map Message.slot =
      (messageArena.find? m r).map Message.slot
    rw [messageArena.find?_map]
    cases hx : messageArena.find? m r with
    | none => rfl
    | some x => exact congrArg some (h r x hx)
  exact congrArg (fun slots => { m.extent with message := slots }) hmessage

/-- A change of enumerations that keeps what is around them keeps the extent. -/
theorem extent_mapEnums {change : EnumRef → Enumeration → Enumeration}
    (h : ∀ r x, enumArena.find? m r = some x → (change r x).parent = x.parent) :
    (enumArena.map m change).extent = m.extent := by
  have henum : (enumArena.map m change).extent.enumeration = m.extent.enumeration := by
    funext r
    change (enumArena.find? (enumArena.map m change) r).map Enumeration.parent =
      (enumArena.find? m r).map Enumeration.parent
    rw [enumArena.find?_map]
    cases hx : enumArena.find? m r with
    | none => rfl
    | some x => exact congrArg some (h r x hx)
  exact congrArg (fun parents => { m.extent with enumeration := parents }) henum

/-- A change of services keeps the extent. -/
theorem extent_mapServices (m : Model) (change : ServiceRef → Service → Service) :
    (serviceArena.map m change).extent = m.extent := by
  have hcount : (serviceArena.map m change).store.services.size = m.store.services.size :=
    Array.size_mapIdx
  exact congrArg (fun count => { m.extent with services := count }) hcount

/-- A change of methods keeps the extent. -/
theorem extent_mapMethods (m : Model) (change : MethodRef → Method → Method) :
    (methodArena.map m change).extent = m.extent := by
  have hcount : (methodArena.map m change).store.methods.size = m.store.methods.size :=
    Array.size_mapIdx
  exact congrArg (fun count => { m.extent with methods := count }) hcount

namespace Sound

/-- A change of messages that keeps them sound keeps the model sound. -/
theorem mapMessages (h : Sound m) {change : MessageRef → Message → Message}
    (hslot : ∀ r x, messageArena.find? m r = some x → (change r x).slot = x.slot)
    (hsound : ∀ r x, messageArena.find? m r = some x → MessageSound m.extent r (change r x)) :
    Sound (messageArena.map m change) := by
  have hextent := extent_mapMessages hslot
  constructor
  case message =>
    intro r y hy
    rw [messageArena.find?_map] at hy
    obtain ⟨x, hx, rfl⟩ := Option.map_eq_some_iff.1 hy
    rw [hextent]
    exact hsound r x hx
  case oneService => exact h.oneService
  all_goals rw [hextent]
  case enumeration => exact h.enumeration
  case service => exact h.service
  case method => exact h.method
  case roster => exact h.roster

/-- A change of enumerations that keeps them sound keeps the model sound. -/
theorem mapEnums (h : Sound m) {change : EnumRef → Enumeration → Enumeration}
    (hparent : ∀ r x, enumArena.find? m r = some x → (change r x).parent = x.parent)
    (hsound : ∀ r x, enumArena.find? m r = some x → EnumSound m.extent r (change r x)) :
    Sound (enumArena.map m change) := by
  have hextent := extent_mapEnums hparent
  constructor
  case enumeration =>
    intro r y hy
    rw [enumArena.find?_map] at hy
    obtain ⟨x, hx, rfl⟩ := Option.map_eq_some_iff.1 hy
    rw [hextent]
    exact hsound r x hx
  case oneService => exact h.oneService
  all_goals rw [hextent]
  case message => exact h.message
  case service => exact h.service
  case method => exact h.method
  case roster => exact h.roster

/-- A change of services that takes no new methods keeps the model sound. -/
theorem mapServices (h : Sound m) {change : ServiceRef → Service → Service}
    (hmethods : ∀ r x, serviceArena.find? m r = some x →
      (change r x).methods.Sublist x.methods) :
    Sound (serviceArena.map m change) := by
  have hextent := extent_mapServices m change
  constructor
  case service =>
    intro r y hy
    rw [serviceArena.find?_map] at hy
    obtain ⟨x, hx, rfl⟩ := Option.map_eq_some_iff.1 hy
    rw [hextent]
    have hsound := h.service r x hx
    have hfewer := hmethods r x hx
    exact ⟨fun k hk => hsound.methods k (hfewer.subset hk), hsound.methodsOnce.sublist hfewer⟩
  case oneService =>
    intro r s x' y' k hx' hy' hkx hky
    rw [serviceArena.find?_map] at hx' hy'
    obtain ⟨x, hx, rfl⟩ := Option.map_eq_some_iff.1 hx'
    obtain ⟨y, hy, rfl⟩ := Option.map_eq_some_iff.1 hy'
    exact h.oneService r s x y k hx hy ((hmethods r x hx).subset hkx) ((hmethods s y hy).subset hky)
  all_goals rw [hextent]
  case message => exact h.message
  case enumeration => exact h.enumeration
  case method => exact h.method
  case roster => exact h.roster

/-- A change of methods that keeps them sound keeps the model sound. -/
theorem mapMethods (h : Sound m) {change : MethodRef → Method → Method}
    (hsound : ∀ r x, methodArena.find? m r = some x → MethodSound m.extent (change r x)) :
    Sound (methodArena.map m change) := by
  have hextent := extent_mapMethods m change
  constructor
  case method =>
    intro r y hy
    rw [methodArena.find?_map] at hy
    obtain ⟨x, hx, rfl⟩ := Option.map_eq_some_iff.1 hy
    rw [hextent]
    exact hsound r x hx
  case oneService => exact h.oneService
  all_goals rw [hextent]
  case message => exact h.message
  case enumeration => exact h.enumeration
  case service => exact h.service
  case roster => exact h.roster

/-- A change of one message that keeps it sound keeps the model sound. -/
theorem modifyMessage (h : Sound m) {r : MessageRef} {change : Message → Message}
    (hslot : ∀ x, messageArena.find? m r = some x → (change x).slot = x.slot)
    (hsound : ∀ x, messageArena.find? m r = some x → MessageSound m.extent r (change x)) :
    Sound (m.modifyMessage r change) := by
  change Sound (messageArena.modify m r change)
  rw [messageArena.modify_eq_map]
  refine h.mapMessages ?slot ?sound
  case slot =>
    exact messageArena.forall_modified (fun _ x y => y.slot = x.slot) hslot fun _ _ _ => rfl
  case sound =>
    exact messageArena.forall_modified (fun s _ y => MessageSound m.extent s y) hsound h.message

/-- A change of one enumeration that keeps it sound keeps the model sound. -/
theorem modifyEnum (h : Sound m) {r : EnumRef} {change : Enumeration → Enumeration}
    (hparent : ∀ x, enumArena.find? m r = some x → (change x).parent = x.parent)
    (hsound : ∀ x, enumArena.find? m r = some x → EnumSound m.extent r (change x)) :
    Sound (m.modifyEnum r change) := by
  change Sound (enumArena.modify m r change)
  rw [enumArena.modify_eq_map]
  refine h.mapEnums ?parent ?sound
  case parent =>
    exact enumArena.forall_modified (fun _ x y => y.parent = x.parent) hparent fun _ _ _ => rfl
  case sound =>
    exact enumArena.forall_modified (fun s _ y => EnumSound m.extent s y) hsound h.enumeration

/-- A change of one service that takes no new methods keeps the model sound. -/
theorem modifyService (h : Sound m) {r : ServiceRef} {change : Service → Service}
    (hmethods : ∀ x, (change x).methods.Sublist x.methods) :
    Sound (m.modifyService r change) := by
  change Sound (serviceArena.modify m r change)
  rw [serviceArena.modify_eq_map]
  exact h.mapServices (serviceArena.forall_modified (fun _ x y => y.methods.Sublist x.methods)
    (fun x _ => hmethods x) fun _ x _ => List.Sublist.refl x.methods)

/-- A change of one method that keeps it sound keeps the model sound. -/
theorem modifyMethod (h : Sound m) {r : MethodRef} {change : Method → Method}
    (hsound : ∀ x, methodArena.find? m r = some x → MethodSound m.extent (change x)) :
    Sound (m.modifyMethod r change) := by
  change Sound (methodArena.modify m r change)
  rw [methodArena.modify_eq_map]
  exact h.mapMethods
    (methodArena.forall_modified (fun _ _ y => MethodSound m.extent y) hsound h.method)

/-! ## Changing lists -/

/-- Other lists of what exists keep the model sound. -/
theorem withRoster (h : Sound m) (hmessages : other.store.messages = m.store.messages)
    (henums : other.store.enums = m.store.enums)
    (hservices : other.store.services = m.store.services)
    (hmethods : other.store.methods = m.store.methods)
    (hroster : RosterSound m.extent other.roster) : Sound other := by
  have hfindMessage : ∀ r, messageArena.find? other r = messageArena.find? m r :=
    fun r => congrArg (fun xs => xs[r.index]?) hmessages
  have hfindEnum : ∀ r, enumArena.find? other r = enumArena.find? m r :=
    fun r => congrArg (fun xs => xs[r.index]?) henums
  have hfindService : ∀ r, serviceArena.find? other r = serviceArena.find? m r :=
    fun r => congrArg (fun xs => xs[r.index]?) hservices
  have hfindMethod : ∀ r, methodArena.find? other r = methodArena.find? m r :=
    fun r => congrArg (fun xs => xs[r.index]?) hmethods
  have hextent : other.extent = m.extent := by
    rw [extent, extent, hservices, hmethods]
    simp only [hfindMessage, hfindEnum]
  constructor
  case oneService =>
    simp only [hfindService]
    exact h.oneService
  all_goals rw [hextent]
  case message =>
    simp only [hfindMessage]
    exact h.message
  case enumeration =>
    simp only [hfindEnum]
    exact h.enumeration
  case service =>
    simp only [hfindService]
    exact h.service
  case method =>
    simp only [hfindMethod]
    exact h.method
  case roster => exact hroster

end Sound

end Model

end ApiModel
