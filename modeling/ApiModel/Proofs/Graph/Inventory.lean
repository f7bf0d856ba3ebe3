import ApiModel.Proofs.Graph.Liveness

/-!
# No element is lost

The readers put elements into the store first and into lists later. While they read, every element
of the store is at the top, nested in a message, or one of those that are still to be listed. In the
end none of these is left, and as nesting is finite also upwards, the lists lead to every element:
all of them are live.
-/

namespace ApiModel.Model

open Relation

/-- Whether a message is at the top or nested in another. -/
def ListedMessage (m : Model) (r : MessageRef) : Prop :=
  r ∈ m.messages ++ m.externalMessages ∨ ∃ p, m.NestedIn r p

/-- Whether an enumeration is at the top or nested in a message. -/
def ListedEnum (m : Model) (r : EnumRef) : Prop :=
  r ∈ m.enums ++ m.externalEnums ∨ ∃ p, r ∈ (m.message p).enums

/-- Whether a model lists all that another lists. -/
structure ListsMore (m other : Model) : Prop where
  /-- The messages at the top. -/
  messages : m.messages ++ m.externalMessages ⊆ other.messages ++ other.externalMessages
  /-- The enumerations at the top. -/
  enums : m.enums ++ m.externalEnums ⊆ other.enums ++ other.externalEnums
  /-- The nested messages. -/
  nestedMessages : ∀ p, (m.message p).messages ⊆ (other.message p).messages
  /-- The nested enumerations. -/
  nestedEnums : ∀ p, (m.message p).enums ⊆ (other.message p).enums

/-- Whether every element of the store is listed or one of those that are still to be listed. -/
structure Inventoried (m : Model) (messages : List MessageRef) (enums : List EnumRef) : Prop where
  /-- The messages. -/
  message : ∀ r, messageArena.Holds m r → r ∈ messages ∨ m.ListedMessage r
  /-- The enumerations. -/
  enumeration : ∀ r, enumArena.Holds m r → r ∈ enums ∨ m.ListedEnum r

variable {m other : Model} {messages nested : List MessageRef} {enums nestedEnums : List EnumRef}

namespace ListsMore

/-- A model that keeps the messages and the lists of another lists all that it lists. -/
theorem of_keeps (hkept : messageArena.Keeps m other)
    (hmessages : m.messages ++ m.externalMessages ⊆ other.messages ++ other.externalMessages)
    (henums : m.enums ++ m.externalEnums ⊆ other.enums ++ other.externalEnums) :
    ListsMore m other := by
  have hnested (p : MessageRef) : other.message p = m.message p ∨ m.message p = default := by
    by_cases hp : messageArena.Holds m p
    · have hfound := hkept p _ (messageArena.find?_of_holds hp)
      exact .inl (messageArena.get_of_find? hfound)
    · exact .inr (messageArena.get_of_not_holds hp)
  constructor
  case messages => exact hmessages
  case enums => exact henums
  case nestedMessages =>
    intro p
    rcases hnested p with hp | hp
    · rw [hp]
      exact List.Subset.refl _
    · rw [hp]
      exact List.nil_subset _
  case nestedEnums =>
    intro p
    rcases hnested p with hp | hp
    · rw [hp]
      exact List.Subset.refl _
    · rw [hp]
      exact List.nil_subset _

/-- A model with the lists of another whose messages have its nested lists lists all that it
lists. -/
theorem of_same (hmessages : other.messages = m.messages)
    (hexternal : other.externalMessages = m.externalMessages) (henums : other.enums = m.enums)
    (hexternalEnums : other.externalEnums = m.externalEnums)
    (hnested : ∀ p, (other.message p).messages = (m.message p).messages ∧
      (other.message p).enums = (m.message p).enums) : ListsMore m other := by
  constructor
  case messages =>
    rw [hmessages, hexternal]
    exact List.Subset.refl _
  case enums =>
    rw [henums, hexternalEnums]
    exact List.Subset.refl _
  case nestedMessages =>
    intro p
    rw [(hnested p).1]
    exact List.Subset.refl _
  case nestedEnums =>
    intro p
    rw [(hnested p).2]
    exact List.Subset.refl _

variable (h : ListsMore m other)

include h

/-- A message that is listed in a model is listed in every one that lists more. -/
theorem message {r : MessageRef} (hr : m.ListedMessage r) : other.ListedMessage r :=
  hr.imp (fun hroot => h.messages hroot) fun ⟨p, hp⟩ => ⟨p, h.nestedMessages p hp⟩

/-- An enumeration that is listed in a model is listed in every one that lists more. -/
theorem enumeration {r : EnumRef} (hr : m.ListedEnum r) : other.ListedEnum r :=
  hr.imp (fun hroot => h.enums hroot) fun ⟨p, hp⟩ => ⟨p, h.nestedEnums p hp⟩

end ListsMore

namespace Inventoried

/-- A store without elements is inventoried. -/
theorem of_empty (hstore : m.store = {}) : Inventoried m [] [] := by
  constructor
  case message =>
    intro r hr
    change r.index < m.store.messages.size at hr
    rw [hstore] at hr
    exact absurd hr (Nat.not_lt_zero _)
  case enumeration =>
    intro r hr
    change r.index < m.store.enums.size at hr
    rw [hstore] at hr
    exact absurd hr (Nat.not_lt_zero _)

variable (h : Inventoried m messages enums)

include h

/-- With the same places in the store, only the lists and what is still to be listed count. -/
theorem relist {still : List MessageRef} {stillEnums : List EnumRef} (hmore : ListsMore m other)
    (hcount : other.store.messages.size = m.store.messages.size)
    (hcountEnums : other.store.enums.size = m.store.enums.size)
    (hlisted : ∀ r ∈ messages, r ∈ still ∨ other.ListedMessage r)
    (hlistedEnums : ∀ r ∈ enums, r ∈ stillEnums ∨ other.ListedEnum r) :
    Inventoried other still stillEnums := by
  constructor
  case message =>
    intro r hr
    have hheld : messageArena.Holds m r := (holds_message_iff hcount).1 hr
    exact (h.message r hheld).elim (hlisted r) fun hold => .inr (hmore.message hold)
  case enumeration =>
    intro r hr
    have hheld : enumArena.Holds m r := by
      change r.index < m.store.enums.size
      rw [← hcountEnums]
      exact hr
    exact (h.enumeration r hheld).elim (hlistedEnums r) fun hold => .inr (hmore.enumeration hold)

/-- A model with the places and lists of another is inventoried as that one is. -/
theorem later (hmore : ListsMore m other)
    (hcount : other.store.messages.size = m.store.messages.size)
    (hcountEnums : other.store.enums.size = m.store.enums.size) :
    Inventoried other messages enums :=
  h.relist hmore hcount hcountEnums (fun _ hr => .inl hr) fun _ hr => .inl hr

/-- When what is still to be listed is put behind the lists, nothing is. -/
theorem list (hstore : other.store = m.store)
    (hmessages : other.roster.messages.Perm (m.roster.messages ++ messages))
    (henums : other.roster.enums.Perm (m.roster.enums ++ enums)) : Inventoried other [] [] := by
  have hall := hmessages.symm.subset
  have hallEnums := henums.symm.subset
  have hmore : ListsMore m other :=
    .of_keeps (messageArena.keeps_of_eq (congrArg Store.messages hstore))
      (fun r hr => hall (List.mem_append_left _ hr)) fun r hr =>
        hallEnums (List.mem_append_left _ hr)
  refine h.relist hmore (by rw [hstore]) (by rw [hstore]) (fun r hr => ?_) fun r hr => ?_
  · exact .inr (.inl (hall (List.mem_append_right _ hr)))
  · exact .inr (.inl (hallEnums (List.mem_append_right _ hr)))

/-- A message that is added is still to be listed. -/
theorem addMessage (x : Message) :
    Inventoried (m.addMessage x).model (messages ++ [(m.addMessage x).ref]) enums := by
  have hkept : messageArena.Keeps m (m.addMessage x).model := messageArena.keeps_push m _
  have hmore : ListsMore m (m.addMessage x).model :=
    .of_keeps hkept (List.Subset.refl _) (List.Subset.refl _)
  constructor
  case message =>
    intro r hr
    rcases (messageArena.holds_push (x := x.ownedBy (messageArena.next m))).1 hr with hold | hnew
    · exact (h.message r hold).imp (List.mem_append_left _) hmore.message
    · exact .inl (List.mem_append_right _ (List.mem_singleton.2 hnew))
  case enumeration => exact fun r hr => (h.enumeration r hr).imp_right hmore.enumeration

/-- An enumeration that is added is still to be listed. -/
theorem addEnum (x : Enumeration) :
    Inventoried (m.addEnum x).model messages (enums ++ [(m.addEnum x).ref]) := by
  have hmore : ListsMore m (m.addEnum x).model :=
    .of_keeps (messageArena.keeps_of_eq rfl) (List.Subset.refl _) (List.Subset.refl _)
  constructor
  case message => exact fun r hr => (h.message r hr).imp_right hmore.message
  case enumeration =>
    intro r hr
    rcases (enumArena.holds_push (x := x.ownedBy (enumArena.next m))).1 hr with hold | hnew
    · exact (h.enumeration r hold).imp (List.mem_append_left _) hmore.enumeration
    · exact .inl (List.mem_append_right _ (List.mem_singleton.2 hnew))

end Inventoried

/-- Elements that are nested in a message in which nothing was nested are listed. -/
theorem Inventoried.nest (h : Inventoried m (messages ++ nested) (enums ++ nestedEnums))
    {r : MessageRef} {x : Message} (hx : messageArena.find? m r = some x)
    (hmessages : x.messages = []) (henums : x.enums = []) :
    Inventoried (m.modifyMessage r fun x => { x with messages := nested, enums := nestedEnums })
      messages enums := by
  have hbefore : m.message r = x := messageArena.get_of_find? hx
  have hfind := find?_modifyMessage m r r fun x =>
    { x with messages := nested, enums := nestedEnums }
  rw [hx, Option.map_some, if_pos rfl] at hfind
  have hat :
    (m.modifyMessage r fun x => { x with messages := nested, enums := nestedEnums }).message r =
      { x with messages := nested, enums := nestedEnums } := messageArena.get_of_find? hfind
  have hmore : ListsMore m
      (m.modifyMessage r fun x => { x with messages := nested, enums := nestedEnums }) := by
    have hothers (p : MessageRef) (hp : p ≠ r) :
        (m.modifyMessage r fun x => { x with messages := nested, enums := nestedEnums }).message p =
          m.message p := messageArena.get_modify_of_ne m hp _
    constructor
    case messages => exact List.Subset.refl _
    case enums => exact List.Subset.refl _
    case nestedMessages =>
      intro p
      by_cases hp : p = r
      · simp [hp, hbefore, hmessages]
      · simp [hothers p hp]
    case nestedEnums =>
      intro p
      by_cases hp : p = r
      · simp [hp, hbefore, henums]
      · simp [hothers p hp]
  refine h.relist hmore (Array.size_modify ..) rfl (fun s hs => ?_) fun s hs => ?_
  · refine (List.mem_append.1 hs).imp_right fun hs => .inr ⟨r, ?_⟩
    rw [NestedIn, hat]
    exact hs
  · refine (List.mem_append.1 hs).imp_right fun hs => .inr ⟨r, ?_⟩
    rw [hat]
    exact hs

/-- The well-known types are added as external ones, and so listed. -/
theorem Inventoried.register (h : Inventoried m [] []) :
    Inventoried (WellKnown.register m) [] [] := by
  refine WellKnown.register_keeps (P := fun k => Inventoried k [] []) (fun k name hk => ?_)
    (fun k hk => ?_) h
  · unfold WellKnown.registerMessage
    split
    · exact hk
    · refine (hk.addMessage _).list rfl (List.Perm.of_eq (List.append_assoc _ _ _).symm) ?_
      exact List.Perm.of_eq (List.append_nil _).symm
  · unfold WellKnown.registerEnum
    split
    · exact hk
    · refine (hk.addEnum _).list rfl (List.Perm.of_eq (List.append_nil _).symm) ?_
      exact List.Perm.of_eq (List.append_assoc _ _ _).symm

/-! ## Everything is live -/

namespace Inventoried

variable (h : Inventoried m [] [])

include h

/-- If messages have ranks that grow upwards and are bounded, the lists lead to every message. -/
theorem liveMessage {rank : MessageRef → Nat} (hrank : Ranked rank m)
    (hbound : ∀ r, messageArena.Holds m r → rank r < m.store.messages.size) {r : MessageRef}
    (hr : messageArena.Holds m r) : m.LiveMessage r := by
  -- upwards, from a message to the one around it
  induction hdistance : m.store.messages.size - rank r using Nat.strong_induction_on
    generalizing r with
  | _ distance ih =>
    rcases (h.message r hr).resolve_left List.not_mem_nil with hroot | ⟨p, hp⟩
    · exact ⟨r, hroot, .refl⟩
    · have hheld : messageArena.Holds m p := messageArena.holds_of_find? (find?_of_mem_messages hp)
      have hlt := hrank p r hp
      have hsize := hbound p hheld
      have hlive : m.LiveMessage p := ih _ (by omega) hheld rfl
      exact hlive.nested hp

/-- If messages have ranks that grow upwards and are bounded, the lists lead to every enumeration.
-/
theorem liveEnum {rank : MessageRef → Nat} (hrank : Ranked rank m)
    (hbound : ∀ r, messageArena.Holds m r → rank r < m.store.messages.size) {r : EnumRef}
    (hr : enumArena.Holds m r) : m.LiveEnum r := by
  rcases (h.enumeration r hr).resolve_left List.not_mem_nil with hroot | ⟨p, hp⟩
  · exact .inl hroot
  · have hheld : messageArena.Holds m p := messageArena.holds_of_find? (find?_of_mem_enums hp)
    exact .inr ⟨p, h.liveMessage hrank hbound hheld, hp⟩

end Inventoried

end ApiModel.Model
