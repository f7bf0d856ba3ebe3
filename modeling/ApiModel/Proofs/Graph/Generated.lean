import ApiModel.Model.Query
import ApiModel.Proofs.Graph.Liveness

/-!
# Generated elements

The messages to generate are the generated roots and all that is nested in them. Listing them goes
down from each root as deep as there are messages in the store, and if nesting is finite that is
deep enough.
-/

namespace ApiModel.Model

open Relation

/-- Whether a message is a generated root or nested in one, at any depth. -/
def Generated (m : Model) (r : MessageRef) : Prop :=
  ∃ root ∈ m.messages, ReflTransGen m.NestedIn r root

/-- Whether an enumeration is listed at the top, or nested in a generated message. -/
def GeneratedEnum (m : Model) (r : EnumRef) : Prop :=
  r ∈ m.enums ∨ ∃ p, m.Generated p ∧ r ∈ (m.message p).enums

variable {m : Model}

/-- A generated root is generated. -/
theorem generated_of_mem {r : MessageRef} (hr : r ∈ m.messages) : m.Generated r :=
  ⟨r, hr, .refl⟩

/-- What is nested in a generated message, at any depth, is generated. -/
theorem Generated.below {r p : MessageRef} (hp : m.Generated p) (hr : ReflTransGen m.NestedIn r p) :
    m.Generated r := by
  obtain ⟨root, hroot, hbelow⟩ := hp
  exact ⟨root, hroot, hr.trans hbelow⟩

/-- A generated message is live. -/
theorem Generated.live {r : MessageRef} (h : m.Generated r) : m.LiveMessage r := by
  obtain ⟨root, hroot, hbelow⟩ := h
  exact ⟨root, List.mem_append_left _ hroot, hbelow⟩

/-- Listing a subtree and the descent for indexing come to the same messages. -/
theorem mem_subtree {depth : Nat} {r s : MessageRef} :
    s ∈ m.subtree depth r ↔ s ∈ m.visitMessage depth r := by
  induction depth generalizing r with
  | zero => exact Iff.rfl
  | succ depth ih =>
      simp only [subtree, visitMessage, List.mem_cons, List.mem_flatMap, List.mem_reverse, ih]

/-- What is listed below a message is nested in it, at some depth. -/
theorem nestedIn_of_mem_subtree {depth : Nat} {r s : MessageRef} (hs : s ∈ m.subtree depth r) :
    ReflTransGen m.NestedIn s r :=
  nestedIn_of_mem_visitMessage (mem_subtree.1 hs)

/-- What is listed for generation is generated. -/
theorem generated_of_mem_allMessages {r : MessageRef} (hr : r ∈ m.allMessages) :
    m.Generated r := by
  obtain ⟨root, hroot, hlisted⟩ := List.mem_flatMap.1 hr
  exact ⟨root, hroot, nestedIn_of_mem_subtree hlisted⟩

/-- If nesting is finite, exactly what is generated is listed for generation. -/
theorem FiniteNesting.mem_allMessages (h : FiniteNesting m) {r : MessageRef} :
    r ∈ m.allMessages ↔ m.Generated r := by
  refine ⟨generated_of_mem_allMessages, ?_⟩
  rintro ⟨root, hroot, hbelow⟩
  have hlive : m.LiveMessage root := (generated_of_mem hroot).live
  have hvisit := (h.mem_visitMessage_iff hlive).2 hbelow
  exact List.mem_flatMap.2 ⟨root, hroot, mem_subtree.2 hvisit⟩

end ApiModel.Model
