import ApiModel.Proofs.Graph.Forest
import Mathlib.Logic.Relation

/-!
# Visits

In a forest the descent from the roots comes to every nested element exactly once: its depth is
bounded by the number of messages, no message is nested deeper, and no two subtrees have a message
in common.
-/

namespace ApiModel.Model

open Relation

/-- Whether a message is nested directly in another. -/
def NestedIn (m : Model) (c p : MessageRef) : Prop := c ∈ (m.message p).messages

variable {m : Model} {rank : MessageRef → Nat}

/-! ## Depth -/

/-- What the descent comes to is nested in its start, at some depth. -/
theorem nestedIn_of_mem_visitMessage {depth : Nat} {r s : MessageRef}
    (hs : s ∈ m.visitMessage depth r) : ReflTransGen (NestedIn m) s r := by
  induction depth generalizing r with
  | zero => exact absurd hs List.not_mem_nil
  | succ depth ih =>
    rcases List.mem_cons.1 hs with rfl | hs
    · exact .refl
    · obtain ⟨c, hc, hs⟩ := List.mem_flatMap.1 hs
      exact (ih hs).tail (List.mem_reverse.1 hc)

namespace Ranked

variable (h : Ranked rank m)

include h

/-- No message ranks above one that it is nested in. -/
theorem le_of_nestedIn {r s : MessageRef} (hs : ReflTransGen (NestedIn m) s r) :
    rank s ≤ rank r := by
  induction hs with
  | refl => exact Nat.le_refl _
  | tail _ hstep ih => exact Nat.le_trans ih (Nat.le_of_lt (h _ _ hstep))

/-- A descent that is deep enough comes to what is nested in what it comes to. -/
theorem mem_visitMessage {depth : Nat} {r p c : MessageRef} (hr : rank r < depth)
    (hp : p ∈ m.visitMessage depth r) (hc : c ∈ (m.message p).messages) :
    c ∈ m.visitMessage depth r := by
  induction depth generalizing r with
  | zero => exact absurd hp List.not_mem_nil
  | succ depth ih =>
    refine List.mem_cons_of_mem r (List.mem_flatMap.2 ?_)
    rcases List.mem_cons.1 hp with rfl | hp
    · have hlt : rank c < depth := Nat.lt_of_lt_of_le (h p c hc) (Nat.le_of_lt_succ hr)
      refine ⟨c, List.mem_reverse.2 hc, ?_⟩
      cases depth with
      | zero => exact absurd hlt (Nat.not_lt_zero _)
      | succ depth => exact List.mem_cons_self
    · obtain ⟨d, hd, hp⟩ := List.mem_flatMap.1 hp
      have hlt : rank d < depth :=
        Nat.lt_of_lt_of_le (h r d (List.mem_reverse.1 hd)) (Nat.le_of_lt_succ hr)
      exact ⟨d, hd, ih hlt hp⟩

/-- What is nested in a visited message is visited. -/
theorem mem_visitedMessages (hroots : ∀ r ∈ m.messages ++ m.externalMessages,
    rank r < m.store.messages.size) {p c : MessageRef} (hp : p ∈ m.visitedMessages)
    (hc : c ∈ (m.message p).messages) : c ∈ m.visitedMessages := by
  obtain ⟨r, hr, hp⟩ := List.mem_flatMap.1 hp
  exact List.mem_flatMap.2 ⟨r, hr, h.mem_visitMessage (hroots r (List.mem_reverse.1 hr)) hp hc⟩

omit h in
/-- A message at the top of a ranked model is visited. -/
theorem mem_visitedMessages_of_root (hroots : ∀ r ∈ m.messages ++ m.externalMessages,
    rank r < m.store.messages.size) {r : MessageRef} (hr : r ∈ m.messages ++ m.externalMessages) :
    r ∈ m.visitedMessages := by
  refine List.mem_flatMap.2 ⟨r, List.mem_reverse.2 hr, ?_⟩
  have hlt := hroots r hr
  cases hsize : m.store.messages.size with
  | zero =>
    rw [hsize] at hlt
    exact absurd hlt (Nat.not_lt_zero _)
  | succ depth => exact List.mem_cons_self

end Ranked

/-! ## No repetition -/

namespace Sound

variable (h : Sound m) (hrank : Ranked rank m)

include h

/-- No message is nested directly in two. -/
theorem nestedIn_unique {c p q : MessageRef} (hp : m.NestedIn c p)
    (hq : m.NestedIn c q) : p = q := by
  obtain ⟨n, hslot⟩ := (h.messageSound p).messages c hp
  obtain ⟨k, hslot'⟩ := (h.messageSound q).messages c hq
  rw [hslot] at hslot'
  cases hslot'
  rfl

/-- A message at the top is nested in nothing. -/
theorem not_nestedIn_of_root {r p : MessageRef} (hr : r ∈ m.messages ++ m.externalMessages) :
    ¬m.NestedIn r p := by
  intro hp
  obtain ⟨n, hroot⟩ := h.roster.messages r hr
  obtain ⟨k, hchild⟩ := (h.messageSound p).messages r hp
  rw [hroot] at hchild
  cases hchild

include hrank

/-- Two messages with the same owner, if any, have nothing in common. -/
theorem eq_of_nestedIn {x c d : MessageRef} (hc : ReflTransGen (NestedIn m) x c)
    (hd : ReflTransGen (NestedIn m) x d) (hside : ∀ p, m.NestedIn c p ↔ m.NestedIn d p) :
    c = d := by
  have hunique : Relator.RightUnique (NestedIn m) := fun _ _ _ hp hq => h.nestedIn_unique hp hq
  have hbelow : ∀ {c d : MessageRef}, (∀ p, m.NestedIn c p → m.NestedIn d p) →
      ReflTransGen (NestedIn m) c d → c = d := by
    intro c d hside hcd
    rcases ReflTransGen.cases_head hcd with rfl | ⟨e, hce, hed⟩
    · rfl
    · have hlt := hrank e d (hside e hce)
      exact absurd hlt (Nat.not_lt_of_le (hrank.le_of_nestedIn hed))
  rcases ReflTransGen.total_of_right_unique hunique hc hd with hcd | hdc
  · exact hbelow (fun p => (hside p).1) hcd
  · exact (hbelow (fun p => (hside p).2) hdc).symm

/-- The descents from different messages with the same owner, if any, have nothing in common. -/
theorem nodup_flatMap_visitMessage {depth : Nat} {starts : List MessageRef} (honce : starts.Nodup)
    (hside : ∀ c ∈ starts, ∀ d ∈ starts, ∀ p, m.NestedIn c p → m.NestedIn d p)
    (heach : ∀ r ∈ starts, (m.visitMessage depth r).Nodup) :
    (starts.flatMap (m.visitMessage depth)).Nodup := by
  refine List.nodup_flatMap.2
    ⟨heach, honce.pairwise_of_forall_ne fun c hc d hd hne x hxc hxd => ?_⟩
  exact hne (h.eq_of_nestedIn hrank (nestedIn_of_mem_visitMessage hxc)
    (nestedIn_of_mem_visitMessage hxd) fun p => ⟨hside c hc d hd p, hside d hd c hc p⟩)

/-- The descent comes to no message twice. -/
theorem nodup_visitMessage (depth : Nat) (r : MessageRef) : (m.visitMessage depth r).Nodup := by
  induction depth generalizing r with
  | zero => exact List.nodup_nil
  | succ depth ih =>
    refine List.nodup_cons.2 ⟨fun hr => ?_, ?_⟩
    · obtain ⟨c, hc, hr⟩ := List.mem_flatMap.1 hr
      have hlt := hrank r c (List.mem_reverse.1 hc)
      exact absurd hlt (Nat.not_lt_of_le (hrank.le_of_nestedIn (nestedIn_of_mem_visitMessage hr)))
    · refine h.nodup_flatMap_visitMessage hrank
        (List.nodup_reverse.2 (h.messageSound r).messagesOnce)
        (fun c hc d hd p hp => ?_) fun c _ => ih c
      rw [h.nestedIn_unique hp (List.mem_reverse.1 hc)]
      exact List.mem_reverse.1 hd

/-- No message is visited twice. -/
theorem nodup_visitedMessages : m.visitedMessages.Nodup := by
  refine h.nodup_flatMap_visitMessage hrank (List.nodup_reverse.2 h.roster.messagesOnce)
    (fun c hc d hd p hp => ?_) fun r _ => h.nodup_visitMessage hrank _ r
  exact absurd hp (h.not_nestedIn_of_root (List.mem_reverse.1 hc))

/-- No enumeration is visited twice. -/
theorem nodup_visitedEnums : m.visitedEnums.Nodup := by
  have hnested : ∀ r, ∀ c ∈ (m.message r).enums, m.extent.enumeration c = some (some r) :=
    fun r => (h.messageSound r).enums
  refine List.nodup_append.2 ⟨h.roster.enumsOnce, List.nodup_flatMap.2
    ⟨fun r _ => (h.messageSound r).enumsOnce, ?_⟩, fun c hc d hd hcd => ?_⟩
  · refine (h.nodup_visitedMessages hrank).pairwise_of_forall_ne fun p _ q _ hne c hp hq => hne ?_
    have howner := (hnested p c hp).symm.trans (hnested q c hq)
    exact Option.some.inj (Option.some.inj howner)
  · obtain ⟨p, -, hd⟩ := List.mem_flatMap.1 hd
    have howner := (h.roster.enums c hc).symm.trans (hcd ▸ hnested p d hd)
    cases howner

end Sound

end ApiModel.Model
