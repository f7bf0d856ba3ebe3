import ApiModel.Proofs.Graph.Sound

/-!
# Forests

In a sound model no element has two owners. If messages are moreover nested by descending rank,
which no pass changes as nested lists only get shorter, ownership is a forest.
-/

namespace ApiModel.Model

variable {m other : Model}

/-- The messages of all lists: the generated and external ones, and all that are nested. -/
def ownedMessages (m : Model) : List MessageRef :=
  m.messages ++ m.externalMessages ++ m.store.messages.toList.flatMap Message.messages

/-- The enumerations of all lists: the generated and external ones, and all that are nested. -/
def ownedEnums (m : Model) : List EnumRef :=
  m.enums ++ m.externalEnums ++ m.store.messages.toList.flatMap Message.enums

/-- The methods of all services. -/
def ownedMethods (m : Model) : List MethodRef :=
  m.store.services.toList.flatMap Service.methods

/-- Whether ownership is a forest. -/
structure Forest (m : Model) : Prop where
  /-- No message is listed twice. -/
  messages : m.ownedMessages.Nodup
  /-- No enumeration is listed twice. -/
  enums : m.ownedEnums.Nodup
  /-- No method is listed twice. -/
  methods : m.ownedMethods.Nodup
  /-- The messages at the top are nested in nothing. -/
  rootMessages : ∀ r ∈ m.messages ++ m.externalMessages, (m.message r).parent = none
  /-- The enumerations at the top are nested in nothing. -/
  rootEnums : ∀ r ∈ m.enums ++ m.externalEnums, (m.enumeration r).parent = none
  /-- A nested message knows the message that lists it. -/
  nestedMessages : ∀ r, ∀ c ∈ (m.message r).messages, (m.message c).parent = some r
  /-- A nested enumeration knows the message that lists it. -/
  nestedEnums : ∀ r, ∀ c ∈ (m.message r).enums, (m.enumeration c).parent = some r
  /-- No message is nested in itself, at any depth. -/
  acyclic : WellFounded fun c r => c ∈ (m.message r).messages

/-- Whether messages are nested by descending rank. -/
def Ranked (rank : MessageRef → Nat) (m : Model) : Prop :=
  ∀ r, ∀ c ∈ (m.message r).messages, rank c < rank r

/-- Where messages are nested by descending rank, none is nested in itself. -/
theorem Ranked.wellFounded {rank : MessageRef → Nat} (h : Ranked rank m) :
    WellFounded fun c r => c ∈ (m.message r).messages :=
  Subrelation.wf (fun {c r} hc => h r c hc) (InvImage.wf rank Nat.lt_wfRel.wf)

/-- Lists of which no two have an item in common have no item twice together. -/
theorem nodup_flatMap {α β : Type} {xs : Array α} {items : α → List β}
    (honce : ∀ (i : Nat) x, xs[i]? = some x → (items x).Nodup)
    (happart : ∀ (i j : Nat) x y b, xs[i]? = some x → xs[j]? = some y → b ∈ items x →
      b ∈ items y →
      i = j) : (xs.toList.flatMap items).Nodup := by
  refine List.nodup_flatMap.2
    ⟨fun x hx => ?_, List.pairwise_iff_getElem.2 fun i j hi hj hij => ?_⟩
  · obtain ⟨i, hi⟩ := List.mem_iff_getElem?.1 hx
    exact honce i x (by rw [← Array.getElem?_toList, hi])
  · intro b hb hb'
    refine Nat.ne_of_lt hij (happart i j _ _ b ?_ ?_ hb hb')
    · rw [← Array.getElem?_toList, List.getElem?_eq_getElem hi]
    · rw [← Array.getElem?_toList, List.getElem?_eq_getElem hj]

/-- Lists whose items know their list have no item twice together, also behind items that know of
none. -/
theorem nodup_owned {α β : Type} {xs : Array α} {items : α → List β} {roots : List β}
    {owner : β → Option MessageRef} (hroots : ∀ b ∈ roots, owner b = none)
    (hrootsOnce : roots.Nodup) (honce : ∀ (i : Nat) x, xs[i]? = some x → (items x).Nodup)
    (hitems : ∀ (i : Nat) x, xs[i]? = some x → ∀ b ∈ items x, owner b = some ⟨i⟩) :
    (roots ++ xs.toList.flatMap items).Nodup := by
  refine List.nodup_append.2 ⟨hrootsOnce, nodup_flatMap honce fun i j x y b hx hy hbx hby => ?_,
    fun b hb c hc => ?_⟩
  · have howner := (hitems i x hx b hbx).symm.trans (hitems j y hy b hby)
    exact congrArg MessageRef.index (Option.some.inj howner)
  · rintro rfl
    obtain ⟨x, hx, hbx⟩ := List.mem_flatMap.1 hc
    obtain ⟨i, hi⟩ := List.mem_iff_getElem?.1 hx
    have howner := hitems i x (by rw [← Array.getElem?_toList, hi]) b hbx
    rw [hroots b hb] at howner
    cases howner

namespace Sound

/-- An enumeration in the extent knows what is around it. -/
theorem parent_of_extent {r : EnumRef} {p : Option MessageRef}
    (hr : m.extent.enumeration r = some p) :
    (m.enumeration r).parent = p := by
  obtain ⟨x, hx, hxp⟩ := Option.map_eq_some_iff.1 hr
  change (enumArena.get m r).parent = p
  rw [enumArena.get_of_find? hx, hxp]

/-- A message in the extent knows what is around it. -/
theorem parent_of_slot {r : MessageRef} {n : Nat} {p : Option MessageRef}
    (hr : m.extent.message r = some ⟨n, p⟩) : (m.message r).parent = p := by
  obtain ⟨x, hx, hxp⟩ := Option.map_eq_some_iff.1 hr
  change (messageArena.get m r).parent = p
  rw [messageArena.get_of_find? hx]
  exact (Slot.mk.inj hxp).2

/-- The message at a place is sound. -/
theorem messageSound (h : Sound m) (r : MessageRef) : MessageSound m.extent r (m.message r) := by
  change MessageSound m.extent r (messageArena.get m r)
  by_cases hr : messageArena.Holds m r
  · exact h.message r _ (messageArena.find?_of_holds hr)
  · rw [messageArena.get_of_not_holds hr]
    constructor
    case messagesOnce => exact List.nodup_nil
    case enumsOnce => exact List.nodup_nil
    case parent => rintro p ⟨⟩
    case pagination => rintro p ⟨⟩
    all_goals exact fun _ hx => absurd hx List.not_mem_nil

/-- In a sound model whose messages are nested by descending rank, ownership is a forest. -/
theorem forest (h : Sound m) {rank : MessageRef → Nat} (hrank : Ranked rank m) : Forest m := by
  have hrootMessages : ∀ r ∈ m.messages ++ m.externalMessages, (m.message r).parent = none := by
    intro r hr
    obtain ⟨n, hslot⟩ := h.roster.messages r hr
    exact parent_of_slot hslot
  have hnestedMessages : ∀ r x, messageArena.find? m r = some x →
      ∀ c ∈ x.messages, (m.message c).parent = some r := by
    intro r x hx c hc
    obtain ⟨n, hslot⟩ := (h.message r x hx).messages c hc
    exact parent_of_slot hslot
  have hrootEnums : ∀ r ∈ m.enums ++ m.externalEnums, (m.enumeration r).parent = none :=
    fun r hr => parent_of_extent (h.roster.enums r hr)
  have hnestedEnums : ∀ r x, messageArena.find? m r = some x →
      ∀ c ∈ x.enums, (m.enumeration c).parent = some r :=
    fun r x hx c hc => parent_of_extent ((h.message r x hx).enums c hc)
  constructor
  case messages =>
    exact nodup_owned hrootMessages h.roster.messagesOnce
      (fun i x hx => (h.message ⟨i⟩ x hx).messagesOnce) fun i x hx =>
        hnestedMessages ⟨i⟩ x hx
  case enums =>
    exact nodup_owned hrootEnums h.roster.enumsOnce
      (fun i x hx => (h.message ⟨i⟩ x hx).enumsOnce) fun i x hx => hnestedEnums ⟨i⟩ x hx
  case methods =>
    refine nodup_flatMap (fun i x hx => (h.service ⟨i⟩ x hx).methodsOnce)
      fun i j x y k hx hy hkx hky => ?_
    exact congrArg ServiceRef.index (h.oneService ⟨i⟩ ⟨j⟩ x y k hx hy hkx hky)
  case rootMessages => exact hrootMessages
  case rootEnums => exact hrootEnums
  case nestedMessages =>
    intro r c hc
    obtain ⟨n, hslot⟩ := (h.messageSound r).messages c hc
    exact parent_of_slot hslot
  case nestedEnums => exact fun r c hc => parent_of_extent ((h.messageSound r).enums c hc)
  case acyclic => exact hrank.wellFounded

end Sound

end ApiModel.Model
