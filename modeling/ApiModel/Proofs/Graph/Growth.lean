import ApiModel.Proofs.Graph.Sound

/-!
# Growing models

Readers of specifications build a model by adding elements and listing them. While they do, the
model stays sound and fresh: nothing has been resolved in it, and messages are nested in one
direction of the store.
-/

namespace ApiModel

/-- The message with its fields owned by a place. -/
def Message.ownedBy (r : MessageRef) (x : Message) : Message :=
  { x with fields := x.fields.map fun f => { f with parent := some r } }

/-- The enumeration with its values owned by a place. -/
def Enumeration.ownedBy (r : EnumRef) (x : Enumeration) : Enumeration :=
  { x with values := x.values.map fun v => { v with parent := some r } }

/-- Whether a message can be added: nothing is nested in it and nothing is resolved. -/
structure NewMessage (e : Extent) (x : Message) : Prop where
  /-- No type is resolved. -/
  target : ∀ f ∈ x.fields, f.target = none
  /-- Its fields belong to its groups of alternatives. -/
  group : ∀ f ∈ x.fields, ∀ g ∈ f.group, g < x.oneOfs.length
  /-- The alternatives are among its fields. -/
  oneOfs : ∀ o ∈ x.oneOfs, ∀ i ∈ o.fields, i < x.fields.length
  /-- No message is nested in it. -/
  messages : x.messages = []
  /-- No enumeration is nested in it. -/
  enums : x.enums = []
  /-- The message around it exists. -/
  parent : ∀ p ∈ x.parent, e.HasMessage p
  /-- No pages are noted. -/
  pagination : x.pagination = none

/-- A new message is sound where it is added. -/
theorem NewMessage.sound {e : Extent} {x : Message} (hx : NewMessage e x) (r : MessageRef) :
    MessageSound e r (x.ownedBy r) where
  fields g hg := by
    obtain ⟨f, hf, rfl⟩ := List.mem_map.1 hg
    refine ⟨fun t ht => ?_, hx.group f hf, rfl⟩
    rw [Option.mem_def, hx.target f hf] at ht
    cases ht
  oneOfs o ho i hi := by
    have hlt := hx.oneOfs o ho i hi
    rwa [Message.ownedBy, List.length_map]
  messages c hc := by
    change c ∈ x.messages at hc
    rw [hx.messages] at hc
    cases hc
  messagesOnce := by
    change x.messages.Nodup
    rw [hx.messages]
    exact List.nodup_nil
  enums c hc := by
    change c ∈ x.enums at hc
    rw [hx.enums] at hc
    cases hc
  enumsOnce := by
    change x.enums.Nodup
    rw [hx.enums]
    exact List.nodup_nil
  parent := hx.parent
  pagination p hp := by
    change x.pagination = some p at hp
    rw [hx.pagination] at hp
    cases hp

/-- Whether an enumeration can be added. -/
structure NewEnum (e : Extent) (x : Enumeration) : Prop where
  /-- No first values are found. -/
  numbers : x.uniqueNumberValues = []
  /-- The message around it exists. -/
  parent : ∀ p ∈ x.parent, e.HasMessage p

/-- A new enumeration is sound where it is added. -/
theorem NewEnum.sound {e : Extent} {x : Enumeration} (hx : NewEnum e x) (r : EnumRef) :
    EnumSound e r (x.ownedBy r) where
  values w hw := by
    obtain ⟨v, -, rfl⟩ := List.mem_map.1 hw
    rfl
  numbers i hi := by
    change i ∈ x.uniqueNumberValues at hi
    rw [hx.numbers] at hi
    cases hi
  parent := hx.parent

/-- Whether a method has no place of a type. -/
structure Unresolved (x : Method) : Prop where
  /-- No request. -/
  inputType : x.inputType = none
  /-- No response. -/
  outputType : x.outputType = none
  /-- No response of a long-running operation. -/
  responseType : ∀ info ∈ x.operationInfo, info.responseType = none
  /-- No metadata of a long-running operation. -/
  metadataType : ∀ info ∈ x.operationInfo, info.metadataType = none

/-- A method is unresolved if one with the same places of types is. -/
theorem Unresolved.congr {x y : Method} (hx : Unresolved x) (hinput : y.inputType = x.inputType)
    (houtput : y.outputType = x.outputType) (hoperation : y.operationInfo = x.operationInfo) :
    Unresolved y := by
  refine ⟨hinput.trans hx.inputType, houtput.trans hx.outputType, ?_, ?_⟩
  · rw [hoperation]
    exact hx.responseType
  · rw [hoperation]
    exact hx.metadataType

/-- Whether a method can be added: nothing is resolved, and the fields that clients fill in
exist. -/
structure NewMethod (e : Extent) (x : Method) : Prop extends Unresolved x where
  /-- No pages are noted. -/
  pagination : x.pagination = none
  /-- The fields that clients fill in exist. -/
  autoPopulated : ∀ f ∈ x.autoPopulated, e.HasField f
  /-- It belongs to no service. -/
  service : x.service = none

/-- A new method is sound. -/
theorem NewMethod.sound {e : Extent} {x : Method} (hx : NewMethod e x) : MethodSound e x where
  inputType r hr := by
    rw [Option.mem_def, hx.inputType] at hr
    cases hr
  outputType r hr := by
    rw [Option.mem_def, hx.outputType] at hr
    cases hr
  operation info hinfo := by
    refine ⟨fun r hr => ?_, fun r hr => ?_⟩
    · rw [Option.mem_def, hx.responseType info hinfo] at hr
      cases hr
    · rw [Option.mem_def, hx.metadataType info hinfo] at hr
      cases hr
  pagination f hf := by
    rw [Option.mem_def, hx.pagination] at hf
    cases hf
  autoPopulated := hx.autoPopulated
  service s hs := by
    rw [Option.mem_def, hx.service] at hs
    cases hs

namespace Model

/-- Whether a model is one that is being built: sound, unresolved, and nested in one direction. -/
structure Built (before : Nat → Nat → Prop) (m : Model) : Prop extends Sound m where
  /-- Messages are nested in one direction of the store. -/
  order : ∀ r x, messageArena.find? m r = some x → ∀ c ∈ x.messages, before r.index c.index
  /-- No type of a field is resolved. -/
  targets : ∀ r x, messageArena.find? m r = some x → ∀ f ∈ x.fields, f.target = none
  /-- No type of a method is resolved. -/
  calls : ∀ r x, methodArena.find? m r = some x → Unresolved x

variable {before : Nat → Nat → Prop} {m other : Model}

/-! ## Adding elements -/

/-- Adding a message puts it at the next place. -/
theorem model_addMessage (m : Model) (x : Message) :
    (m.addMessage x).model = messageArena.push m (x.ownedBy (messageArena.next m)) := rfl

/-- A message that is added is at its place. -/
theorem find?_addMessage (m : Model) (x : Message) :
    messageArena.find? (m.addMessage x).model (m.addMessage x).ref =
      some (x.ownedBy (m.addMessage x).ref) :=
  (messageArena.find?_push m _ _).trans (if_pos rfl)

/-- Adding an enumeration puts it at the next place. -/
theorem model_addEnum (m : Model) (x : Enumeration) :
    (m.addEnum x).model = enumArena.push m (x.ownedBy (enumArena.next m)) := rfl

/-- What is there stays there when a message is added. -/
theorem within_pushMessage (m : Model) (x : Message) :
    m.extent.Within (messageArena.push m x).extent := by
  refine Extent.Within.of_slots (fun r slot hr => ?_) (fun _ _ h => h) (Nat.le_refl _)
    (Nat.le_refl _)
  obtain ⟨y, hy, rfl⟩ := Option.map_eq_some_iff.1 hr
  exact extent_message (messageArena.find?_push_of_find? hy x)

/-- What is there stays there when an enumeration is added. -/
theorem within_pushEnum (m : Model) (x : Enumeration) :
    m.extent.Within (enumArena.push m x).extent := by
  refine Extent.Within.of_slots (fun _ _ h => h) (fun r p hr => ?_) (Nat.le_refl _) (Nat.le_refl _)
  obtain ⟨y, hy, rfl⟩ := Option.map_eq_some_iff.1 hr
  exact congrArg (Option.map Enumeration.parent) (enumArena.find?_push_of_find? hy x)

/-- What is there stays there when a service is added. -/
theorem within_pushService (m : Model) (x : Service) :
    m.extent.Within (serviceArena.push m x).extent := by
  refine Extent.Within.of_slots (fun _ _ h => h) (fun _ _ h => h) ?_ (Nat.le_refl _)
  change m.store.services.size ≤ (m.store.services.push x).size
  rw [Array.size_push]
  exact Nat.le_succ _

/-- What is there stays there when a method is added. -/
theorem within_pushMethod (m : Model) (x : Method) :
    m.extent.Within (methodArena.push m x).extent := by
  refine Extent.Within.of_slots (fun _ _ h => h) (fun _ _ h => h) (Nat.le_refl _) ?_
  change m.store.methods.size ≤ (m.store.methods.push x).size
  rw [Array.size_push]
  exact Nat.le_succ _

/-- An element that is found after one is added was there or is the new one. -/
theorem of_find?_push {ref element : Type} [DecidableEq ref] (a : Arena ref element) {x y : element}
    {r : ref} (h : a.find? (a.push m x) r = some y) :
    a.find? m r = some y ∨ r = a.next m ∧ y = x := by
  rw [a.find?_push] at h
  split at h
  · rename_i hr
    exact .inr ⟨hr, (Option.some.inj h).symm⟩
  · exact .inl h

namespace Built

/-- Adding a new message goes on building. -/
theorem addMessage (h : Built before m) {x : Message} (hx : NewMessage m.extent x) :
    Built before (m.addMessage x).model := by
  have hwithin := within_pushMessage m (x.ownedBy (messageArena.next m))
  rw [model_addMessage]
  refine ⟨⟨?message, ?enumeration, ?service, ?method, ?oneService, ?roster⟩, ?order,
    ?targets, ?calls⟩
  case message =>
    intro r y hy
    rcases of_find?_push messageArena hy with hy | ⟨rfl, rfl⟩
    · exact (h.message r y hy).mono hwithin
    · exact (hx.sound _).mono hwithin
  case enumeration => exact fun r y hy => (h.enumeration r y hy).mono hwithin
  case service => exact fun r y hy => (h.service r y hy).mono hwithin
  case method => exact fun r y hy => (h.method r y hy).mono hwithin
  case oneService => exact h.oneService
  case roster =>
    refine h.roster.mono hwithin ?_
    rintro r - ⟨n, hslot⟩
    obtain ⟨y, hy, hyslot⟩ := Option.map_eq_some_iff.1 hslot
    exact ⟨n, hyslot ▸ extent_message (messageArena.find?_push_of_find? hy _)⟩
  case order =>
    intro r y hy c hc
    rcases of_find?_push messageArena hy with hy | ⟨rfl, rfl⟩
    · exact h.order r y hy c hc
    · change c ∈ x.messages at hc
      rw [hx.messages] at hc
      cases hc
  case targets =>
    intro r y hy g hg
    rcases of_find?_push messageArena hy with hy | ⟨rfl, rfl⟩
    · exact h.targets r y hy g hg
    · obtain ⟨f, hf, rfl⟩ := List.mem_map.1 hg
      exact hx.target f hf
  case calls => exact h.calls

/-- Adding a new enumeration goes on building. -/
theorem addEnum (h : Built before m) {x : Enumeration} (hx : NewEnum m.extent x) :
    Built before (m.addEnum x).model := by
  have hwithin := within_pushEnum m (x.ownedBy (enumArena.next m))
  rw [model_addEnum]
  refine ⟨⟨?message, ?enumeration, ?service, ?method, ?oneService, ?roster⟩, ?order,
    ?targets, ?calls⟩
  case enumeration =>
    intro r y hy
    rcases of_find?_push enumArena hy with hy | ⟨rfl, rfl⟩
    · exact (h.enumeration r y hy).mono hwithin
    · exact (hx.sound _).mono hwithin
  case message => exact fun r y hy => (h.message r y hy).mono hwithin
  case service => exact fun r y hy => (h.service r y hy).mono hwithin
  case method => exact fun r y hy => (h.method r y hy).mono hwithin
  case oneService => exact h.oneService
  case roster => exact h.roster.mono hwithin fun _ _ hr => hr
  case order => exact h.order
  case targets => exact h.targets
  case calls => exact h.calls

/-- Adding a new method goes on building. -/
theorem addMethod (h : Built before m) {x : Method} (hx : NewMethod m.extent x) :
    Built before (m.addMethod x).model := by
  have hwithin := within_pushMethod m x
  change Built before (methodArena.push m x)
  refine ⟨⟨?message, ?enumeration, ?service, ?method, ?oneService, ?roster⟩, ?order,
    ?targets, ?calls⟩
  case method =>
    intro r y hy
    rcases of_find?_push methodArena hy with hy | ⟨rfl, rfl⟩
    · exact (h.method r y hy).mono hwithin
    · exact hx.sound.mono hwithin
  case message => exact fun r y hy => (h.message r y hy).mono hwithin
  case enumeration => exact fun r y hy => (h.enumeration r y hy).mono hwithin
  case service => exact fun r y hy => (h.service r y hy).mono hwithin
  case oneService => exact h.oneService
  case roster => exact h.roster.mono hwithin fun _ _ hr => hr
  case order => exact h.order
  case targets => exact h.targets
  case calls =>
    intro r y hy
    rcases of_find?_push methodArena hy with hy | ⟨rfl, rfl⟩
    · exact h.calls r y hy
    · exact hx.toUnresolved

/-- Adding a service whose methods belong to no other goes on building. -/
theorem addService (h : Built before m) {x : Service} (hx : ServiceSound m.extent x)
    (hfree : ∀ r y k, serviceArena.find? m r = some y → k ∈ y.methods → k ∉ x.methods) :
    Built before (m.addService x).model := by
  have hwithin := within_pushService m x
  change Built before (serviceArena.push m x)
  refine ⟨⟨?message, ?enumeration, ?service, ?method, ?oneService, ?roster⟩, ?order,
    ?targets, ?calls⟩
  case service =>
    intro r y hy
    rcases of_find?_push serviceArena hy with hy | ⟨rfl, rfl⟩
    · exact (h.service r y hy).mono hwithin
    · exact hx.mono hwithin
  case oneService =>
    intro r s y z k hy hz hky hkz
    rcases of_find?_push serviceArena hy with hr | ⟨hr, hyx⟩
    · rcases of_find?_push serviceArena hz with hs | ⟨-, hzx⟩
      · exact h.oneService r s y z k hr hs hky hkz
      · exact absurd (hzx ▸ hkz) (hfree r y k hr hky)
    · rcases of_find?_push serviceArena hz with hs | ⟨hs, -⟩
      · exact absurd (hyx ▸ hky) (hfree s z k hs hkz)
      · exact hr.trans hs.symm
  case message => exact fun r y hy => (h.message r y hy).mono hwithin
  case enumeration => exact fun r y hy => (h.enumeration r y hy).mono hwithin
  case method => exact fun r y hy => (h.method r y hy).mono hwithin
  case roster => exact h.roster.mono hwithin fun _ _ hr => hr
  case order => exact h.order
  case targets => exact h.targets
  case calls => exact h.calls

/-! ## Changing what was added -/

/-- A change of a message that keeps the model sound goes on building. -/
theorem modifyMessage (h : Built before m) {r : MessageRef} {change : Message → Message}
    (hsound : Sound (m.modifyMessage r change))
    (horder : ∀ x, messageArena.find? m r = some x →
      ∀ c ∈ (change x).messages, before r.index c.index)
    (htargets : ∀ x, messageArena.find? m r = some x →
      ∀ f ∈ (change x).fields, f.target = none) :
    Built before (m.modifyMessage r change) := by
  refine ⟨hsound, fun s y hy => ?_, fun s y hy => ?_, h.calls⟩
  · rw [find?_modifyMessage] at hy
    obtain ⟨x, hx, rfl⟩ := Option.map_eq_some_iff.1 hy
    exact messageArena.forall_modified
      (fun s _ y => ∀ c ∈ y.messages, before s.index c.index) horder
      h.order s x hx
  · rw [find?_modifyMessage] at hy
    obtain ⟨x, hx, rfl⟩ := Option.map_eq_some_iff.1 hy
    exact messageArena.forall_modified (fun _ _ y => ∀ f ∈ y.fields, f.target = none) htargets
      h.targets s x hx

/-- Nesting elements in the message around them goes on building. -/
theorem nest (h : Built before m) {r : MessageRef} {messages : List MessageRef}
    {enums : List EnumRef} (hmessages : ∀ c ∈ messages, m.extent.HasChild r c)
    (horder : ∀ c ∈ messages, before r.index c.index) (hmessagesOnce : messages.Nodup)
    (henums : ∀ c ∈ enums, m.extent.enumeration c = some (some r)) (henumsOnce : enums.Nodup) :
    Built before (m.modifyMessage r fun x => { x with messages := messages, enums := enums }) := by
  refine h.modifyMessage (h.toSound.modifyMessage (fun _ _ => rfl) fun x hx => ?_)
    (fun x hx => horder) fun x hx => h.targets r x hx
  exact { h.message r x hx with
    messages := hmessages
    messagesOnce := hmessagesOnce
    enums := henums
    enumsOnce := henumsOnce }

/-- What was there is there when a message becomes nested in another. -/
theorem within_adopt {c p : MessageRef} (hc : m.extent.HasRoot c) :
    m.extent.Within (m.modifyMessage c fun x => { x with parent := some p }).extent := by
  obtain ⟨n, hslot⟩ := hc
  have hmessage : ∀ r slot, m.extent.message r = some slot →
      (m.modifyMessage c fun x => { x with parent := some p }).extent.message r =
        some (if r = c then { slot with parent := some p } else slot) := by
    intro r slot hr
    obtain ⟨x, hx, rfl⟩ := Option.map_eq_some_iff.1 hr
    change (messageArena.find? (m.modifyMessage c _) r).map Message.slot = _
    rw [find?_modifyMessage, hx]
    change some (if r = c then { x with parent := some p } else x).slot = _
    split
    · rfl
    · rfl
  refine ⟨?_, ?_, ?_, fun h => h, Nat.le_refl _, Nat.le_refl _⟩
  · rintro r ⟨slot, hr⟩
    exact ⟨_, hmessage r slot hr⟩
  · rintro q r ⟨k, hr⟩
    have hne : r ≠ c := by
      rintro rfl
      rw [hslot] at hr
      cases hr
    refine ⟨k, ?_⟩
    rw [hmessage r _ hr, if_neg hne]
  · rintro f ⟨slot, hr, hlt⟩
    refine ⟨_, hmessage f.message slot hr, ?_⟩
    split
    · exact hlt
    · exact hlt

/-- Giving a message that is nested in nothing and not listed to another goes on building. -/
theorem adopt (h : Built before m) {c p : MessageRef} (hc : m.extent.HasRoot c)
    (hfree : c ∉ m.roster.messages) (hp : m.extent.HasMessage p) :
    Built before (m.modifyMessage c fun x => { x with parent := some p }) := by
  have hwithin := within_adopt (p := p) hc
  have hfind :
    ∀ r, messageArena.find? (m.modifyMessage c fun x => { x with parent := some p }) r =
      (messageArena.find? m r).map fun y => if r = c then { y with parent := some p } else y :=
    fun r => find?_modifyMessage m c r _
  refine h.modifyMessage ?_ (fun x hx => h.order c x hx) fun x hx => h.targets c x hx
  constructor
  case message =>
    intro r y hy
    rw [hfind] at hy
    obtain ⟨x, hx, rfl⟩ := Option.map_eq_some_iff.1 hy
    have hsound := (h.message r x hx).mono hwithin
    split
    · refine { hsound with parent := fun q hq => ?_ }
      obtain rfl := Option.some.inj hq
      exact hwithin.hasMessage hp
    · exact hsound
  case enumeration => exact fun r y hy => (h.enumeration r y hy).mono hwithin
  case service => exact fun r y hy => (h.service r y hy).mono hwithin
  case method => exact fun r y hy => (h.method r y hy).mono hwithin
  case oneService => exact h.oneService
  case roster =>
    refine h.roster.mono hwithin fun r hr hroot => ?_
    obtain ⟨x, hx, hxp⟩ := hasRoot_iff.1 hroot
    refine hasRoot_iff.2 ⟨x, ?_, hxp⟩
    rw [hfind, hx, Option.map_some, if_neg]
    exact fun hrc => hfree (hrc ▸ hr)

/-! ## Listing what was added -/

/-- Other lists of what is there go on building. -/
theorem relist (h : Built before m) (hstore : other.store = m.store)
    (hroster : RosterSound m.extent other.roster) : Built before other := by
  have hfindMessage : ∀ r, messageArena.find? other r = messageArena.find? m r :=
    fun r => congrArg (fun store => store.messages[r.index]?) hstore
  have hfindMethod : ∀ r, methodArena.find? other r = methodArena.find? m r :=
    fun r => congrArg (fun store => store.methods[r.index]?) hstore
  refine ⟨h.toSound.withRoster (congrArg Store.messages hstore) (congrArg Store.enums hstore)
    (congrArg Store.services hstore) (congrArg Store.methods hstore) hroster, ?_, ?_, ?_⟩
  · simp only [hfindMessage]
    exact h.order
  · simp only [hfindMessage]
    exact h.targets
  · simp only [hfindMethod]
    exact h.calls

/-- New items behind a list without repetitions leave it without. -/
theorem nodup_behind {α : Type} {xs ys zs : List α} (hperm : zs.Perm (xs ++ ys)) (hxs : xs.Nodup)
    (hys : ys.Nodup) (hfree : ∀ y ∈ ys, y ∉ xs) : zs.Nodup := by
  refine hperm.nodup_iff.2 (List.nodup_append.2 ⟨hxs, hys, fun x hx y hy hxy => ?_⟩)
  exact hfree y hy (hxy ▸ hx)

/-- Listing elements that are nested in nothing goes on building. -/
theorem list (h : Built before m) (hstore : other.store = m.store) {messages : List MessageRef}
    {enums : List EnumRef} {services : List ServiceRef}
    (hmessages : other.roster.messages.Perm (m.roster.messages ++ messages))
    (henums : other.roster.enums.Perm (m.roster.enums ++ enums))
    (hservices : other.roster.services.Perm (m.roster.services ++ services))
    (hroots : ∀ r ∈ messages, m.extent.HasRoot r ∧ r ∉ m.roster.messages)
    (hrootsOnce : messages.Nodup)
    (hrootEnums : ∀ r ∈ enums, m.extent.enumeration r = some none ∧ r ∉ m.roster.enums)
    (hrootEnumsOnce : enums.Nodup)
    (hlisted : ∀ r ∈ services, m.extent.HasService r ∧ r ∉ m.roster.services)
    (hlistedOnce : services.Nodup) : Built before other := by
  have hroster := h.roster
  refine h.relist hstore ⟨fun r hr => ?_, ?_, fun r hr => ?_, ?_, fun r hr => ?_, ?_,
    ?_, ?_, ?_, ?_⟩
  · rcases List.mem_append.1 (hmessages.subset hr) with hr | hr
    · exact hroster.messages r hr
    · exact (hroots r hr).1
  · exact nodup_behind hmessages hroster.messagesOnce hrootsOnce fun r hr => (hroots r hr).2
  · rcases List.mem_append.1 (henums.subset hr) with hr | hr
    · exact hroster.enums r hr
    · exact (hrootEnums r hr).1
  · exact nodup_behind henums hroster.enumsOnce hrootEnumsOnce fun r hr => (hrootEnums r hr).2
  · rcases List.mem_append.1 (hservices.subset hr) with hr | hr
    · exact hroster.services r hr
    · exact (hlisted r hr).1
  · exact nodup_behind hservices hroster.servicesOnce hlistedOnce fun r hr => (hlisted r hr).2
  · have hindex : other.roster.indexedMessages = m.roster.indexedMessages :=
      congrArg (fun store => store.messageById.values) hstore
    rw [hindex]
    exact hroster.indexedMessages
  · have hindex : other.roster.indexedEnums = m.roster.indexedEnums :=
      congrArg (fun store => store.enumById.values) hstore
    rw [hindex]
    exact hroster.indexedEnums
  · have hindex : other.roster.indexedServices = m.roster.indexedServices :=
      congrArg (fun store => store.serviceById.values) hstore
    rw [hindex]
    exact hroster.indexedServices
  · have hindex : other.roster.indexedMethods = m.roster.indexedMethods :=
      congrArg (fun store => store.methodById.values) hstore
    rw [hindex]
    exact hroster.indexedMethods

end Built

end Model

end ApiModel
