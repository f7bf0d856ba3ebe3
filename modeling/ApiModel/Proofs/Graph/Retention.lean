import ApiModel.Proofs.Graph.Visits
import ApiModel.Proofs.Reduction

/-!
# What skipping retains

A selection retains the generated elements that it keeps and all external ones, and of what is
nested in a retained message whatever is not skipped. After skipping exactly that is visited.
-/

namespace ApiModel

open Model

/-- A list of no full names covers none. -/
theorem IdFilter.covers_of_isEmpty {filter : IdFilter} (h : filter.isEmpty = true) (id : String) :
    filter.covers id = false := by
  rw [IdFilter.isEmpty, List.isEmpty_iff] at h
  rw [IdFilter.covers, h]
  rfl

/-- Whether the descent comes to a type. -/
def Model.Visited (m : Model) : TypeRef → Prop
  | .message r => r ∈ m.visitedMessages
  | .enumeration r => r ∈ m.visitedEnums

namespace Selection

/-- Whether a selection retains a type of a model. -/
inductive Retains (s : Selection) (m : Model) : TypeRef → Prop
  /-- A generated message stays if it is kept. -/
  | message {r : MessageRef} (hr : r ∈ m.messages) (hkept : s.keeps (m.message r).id = true) :
    Retains s m (.message r)
  /-- An external message stays. -/
  | externalMessage {r : MessageRef} (hr : r ∈ m.externalMessages) : Retains s m (.message r)
  /-- A message that is nested in one that stays stays if it is not skipped. -/
  | nestedMessage {p r : MessageRef} (hp : Retains s m (.message p))
    (hr : r ∈ (m.message p).messages) (hkept : s.skipped.covers (m.message r).id = false) :
    Retains s m (.message r)
  /-- A generated enumeration stays if it is kept. -/
  | enumeration {r : EnumRef} (hr : r ∈ m.enums) (hkept : s.keeps (m.enumeration r).id = true) :
    Retains s m (.enumeration r)
  /-- An external enumeration stays. -/
  | externalEnum {r : EnumRef} (hr : r ∈ m.externalEnums) : Retains s m (.enumeration r)
  /-- An enumeration that is nested in a message that stays stays if it is not skipped. -/
  | nestedEnum {p : MessageRef} {r : EnumRef} (hp : Retains s m (.message p))
    (hr : r ∈ (m.message p).enums) (hkept : s.skipped.covers (m.enumeration r).id = false) :
    Retains s m (.enumeration r)

/-- Whether the lists of a model are those of another without what a selection drops. -/
structure Filtered (s : Selection) (m other : Model) : Prop where
  /-- The generated messages. -/
  messages : other.messages = m.messages.filter fun r => s.keeps (m.message r).id
  /-- The external messages. -/
  externalMessages : other.externalMessages = m.externalMessages
  /-- The nested messages. -/
  nestedMessages : ∀ r, (other.message r).messages =
    (m.message r).messages.filter fun c => !s.skipped.covers (m.message c).id
  /-- The generated enumerations. -/
  enums : other.enums = m.enums.filter fun r => s.keeps (m.enumeration r).id
  /-- The external enumerations. -/
  externalEnums : other.externalEnums = m.externalEnums
  /-- The nested enumerations. -/
  nestedEnums : ∀ r, (other.message r).enums =
    (m.message r).enums.filter fun c => !s.skipped.covers (m.enumeration c).id

variable {s : Selection} {m other : Model} {rank : MessageRef → Nat} {options : SourceOptions}

/-! ## Filtered lists -/

/-- Pruning services leaves the messages and the other lists as they are. -/
theorem keeps_pruneServices (s : Selection) (services : List ServiceRef) (m : Model) :
    let last := services.foldl s.pruneService m
    last.messages = m.messages ∧ last.externalMessages = m.externalMessages ∧
      last.enums = m.enums ∧ last.externalEnums = m.externalEnums ∧
      last.store.messages = m.store.messages := by
  induction services generalizing m with
  | nil => exact ⟨rfl, rfl, rfl, rfl, rfl⟩
  | cons r rest ih => exact ih (s.pruneService m r)

/-- Applying a selection filters the lists. -/
theorem filtered_apply (s : Selection) (m : Model) : Filtered s m (s.apply m) := by
  have hsame :=
    sameListing_buildIndices ((s.prunedLists m).services.foldl s.pruneService (s.prunedLists m))
  obtain ⟨hmessages, hexternal, henums, hexternalEnums, hstore⟩ :=
    keeps_pruneServices s (s.prunedLists m).services (s.prunedLists m)
  have hmessage :
    ∀ r, ((s.prunedLists m).services.foldl s.pruneService (s.prunedLists m)).message r =
      s.pruneMessage m (m.message r) := by
    intro r
    rw [← message_prunedLists, Model.message, Model.message, hstore]
  rw [apply_eq]
  exact {
    messages := hsame.messages.trans hmessages
    externalMessages := hsame.externalMessages.trans hexternal
    nestedMessages := fun r => by rw [hsame.nestedMessages, hmessage, pruneMessage]
    enums := hsame.enums.trans henums
    externalEnums := hsame.externalEnums.trans hexternalEnums
    nestedEnums := fun r => by rw [hsame.nestedEnums, hmessage, pruneMessage] }

/-- An empty selection keeps everything. -/
theorem keeps_of_isEmpty (h : s.isEmpty = true) (id : String) : s.keeps id = true := by
  obtain ⟨hskipped, hincluded⟩ := Bool.and_eq_true_iff.1 h
  rw [keeps, includes, IdFilter.covers_of_isEmpty hskipped, hincluded]
  rfl

/-- Filtering by an empty selection leaves the lists as they are. -/
theorem filtered_of_isEmpty (h : s.isEmpty = true) (m : Model) : Filtered s m m := by
  have hkeeps : ∀ {ref : Type} (id : ref → String) (refs : List ref),
      refs = refs.filter fun r => s.keeps (id r) := by
    intro ref id refs
    exact (List.filter_eq_self.2 fun r _ => keeps_of_isEmpty h (id r)).symm
  have hcovers : ∀ {ref : Type} (id : ref → String) (refs : List ref),
      refs = refs.filter fun r => !s.skipped.covers (id r) := by
    intro ref id refs
    refine (List.filter_eq_self.2 fun r _ => ?_).symm
    rw [IdFilter.covers_of_isEmpty (Bool.and_eq_true_iff.1 h).1]
    rfl
  exact ⟨hkeeps _ _, rfl, fun r => hcovers _ _, hkeeps _ _, rfl, fun r => hcovers _ _⟩

/-- Skipping filters the lists. -/
theorem filtered_skipElements (h : m.skipElements options = .ok other) :
    Filtered (ofOptions options) m other := by
  rcases skipElements_eq_ok.1 h with ⟨hempty, rfl⟩ | ⟨-, -, rfl⟩
  · exact filtered_of_isEmpty hempty _
  · exact filtered_apply _ m

/-! ## Retained elements -/

namespace Filtered

variable (h : Filtered s m other)

include h

/-- What is nested in a retained message of filtered lists is retained. -/
theorem retains_nested {p r : MessageRef} (hp : s.Retains m (.message p))
    (hr : r ∈ (other.message p).messages) : s.Retains m (.message r) := by
  rw [h.nestedMessages] at hr
  obtain ⟨hr, hkept⟩ := List.mem_filter.1 hr
  exact .nestedMessage hp hr ((Bool.not_eq_true' _).mp hkept)

/-- What the descent from a retained message comes to is retained. -/
theorem retains_visitMessage {depth : Nat} {r x : MessageRef} (hr : s.Retains m (.message r))
    (hx : x ∈ other.visitMessage depth r) : s.Retains m (.message x) := by
  induction depth generalizing r with
  | zero => exact absurd hx List.not_mem_nil
  | succ depth ih =>
    rcases List.mem_cons.1 hx with rfl | hx
    · exact hr
    · obtain ⟨c, hc, hx⟩ := List.mem_flatMap.1 hx
      exact ih (h.retains_nested hr (List.mem_reverse.1 hc)) hx

/-- Visited messages are retained. -/
theorem retains_visitedMessages {x : MessageRef} (hx : x ∈ other.visitedMessages) :
    s.Retains m (.message x) := by
  obtain ⟨r, hr, hx⟩ := List.mem_flatMap.1 hx
  refine h.retains_visitMessage ?_ hx
  rcases List.mem_append.1 (List.mem_reverse.1 hr) with hr | hr
  · rw [h.messages] at hr
    obtain ⟨hr, hkept⟩ := List.mem_filter.1 hr
    exact .message hr hkept
  · exact .externalMessage (h.externalMessages ▸ hr)

/-- Exactly what is retained is visited, if the descent is deep enough. -/
theorem visited_iff_retains (hrank : Ranked rank other)
    (hroots : ∀ r ∈ other.messages ++ other.externalMessages, rank r <
      other.store.messages.size)
    {t : TypeRef} : other.Visited t ↔ s.Retains m t := by
  constructor
  · intro ht
    cases t with
    | message r => exact h.retains_visitedMessages ht
    | enumeration r =>
      rcases List.mem_append.1 ht with ht | ht
      · rcases List.mem_append.1 ht with ht | ht
        · rw [h.enums] at ht
          obtain ⟨ht, hkept⟩ := List.mem_filter.1 ht
          exact .enumeration ht hkept
        · exact .externalEnum (h.externalEnums ▸ ht)
      · obtain ⟨p, hp, ht⟩ := List.mem_flatMap.1 ht
        rw [h.nestedEnums] at ht
        obtain ⟨ht, hkept⟩ := List.mem_filter.1 ht
        exact .nestedEnum (h.retains_visitedMessages hp) ht ((Bool.not_eq_true' _).mp hkept)
  · intro ht
    induction ht with
    | message hr hkept =>
      refine Ranked.mem_visitedMessages_of_root hroots (List.mem_append_left _ ?_)
      rw [h.messages]
      exact List.mem_filter.2 ⟨hr, hkept⟩
    | externalMessage hr =>
      refine Ranked.mem_visitedMessages_of_root hroots (List.mem_append_right _ ?_)
      rw [h.externalMessages]
      exact hr
    | nestedMessage _ hr hkept ih =>
      refine hrank.mem_visitedMessages hroots ih ?_
      rw [h.nestedMessages]
      exact List.mem_filter.2 ⟨hr, (Bool.not_eq_true' _).mpr hkept⟩
    | enumeration hr hkept =>
      refine List.mem_append_left _ (List.mem_append_left _ ?_)
      rw [h.enums]
      exact List.mem_filter.2 ⟨hr, hkept⟩
    | externalEnum hr =>
      refine List.mem_append_left _ (List.mem_append_right _ ?_)
      rw [h.externalEnums]
      exact hr
    | nestedEnum _ hr hkept ih =>
      refine List.mem_append_right _ (List.mem_flatMap.2 ⟨_, ih, ?_⟩)
      rw [h.nestedEnums]
      exact List.mem_filter.2 ⟨hr, (Bool.not_eq_true' _).mpr hkept⟩

end Filtered

end Selection

end ApiModel
