import ApiModel.Proofs.Graph.Generated

/-!
# The order of generated messages

Messages are walked in preorder: one comes before all that is nested in it, and that before the
messages behind it. How deep a walk goes is not bounded, so there is one only if nesting ends, and
then only one. It is how the messages to generate are listed, whatever is nested in the external
ones.
-/

namespace ApiModel.Model

open Relation

/-- Whether walking a list of messages and all that is nested in them comes to an end, in this
order. -/
inductive Walk (m : Model) : List MessageRef → List MessageRef → Prop
  /-- There is nothing to walk. -/
  | nil : Walk m [] []
  /-- The first message comes before all that is nested in it, and that before the others. -/
  | cons {r : MessageRef} {rest inner others : List MessageRef}
    (hinner : Walk m (m.message r).messages inner) (hothers : Walk m rest others) :
    Walk m (r :: rest) (r :: (inner ++ others))

variable {m other : Model}

namespace Walk

/-- A walk of a list comes to one order only. -/
theorem unique {roots xs ys : List MessageRef} (h : m.Walk roots xs) (h' : m.Walk roots ys) :
    xs = ys := by
  induction h generalizing ys with
  | nil =>
    cases h'
    rfl
  | cons _ _ ihinner ihothers =>
    cases h' with
    | cons hinner hothers => rw [ihinner hinner, ihothers hothers]

/-- A walk of one list and then of another is a walk of both together. -/
theorem append {roots behind xs ys : List MessageRef} (h : m.Walk roots xs)
    (h' : m.Walk behind ys) :
    m.Walk (roots ++ behind) (xs ++ ys) := by
  induction h with
  | nil => exact h'
  | @cons r rest inner others hinner _ _ ihothers =>
    have hwalk := Walk.cons hinner ihothers
    rwa [← List.append_assoc] at hwalk

/-- Walks of each message of a list in turn are a walk of the list. -/
theorem flatMap {roots : List MessageRef} {f : MessageRef → List MessageRef}
    (h : ∀ r ∈ roots, m.Walk [r] (f r)) : m.Walk roots (roots.flatMap f) := by
  induction roots with
  | nil => exact .nil
  | cons r rest ih =>
    obtain ⟨hfirst, hrest⟩ := List.forall_mem_cons.1 h
    exact hfirst.append (ih hrest)

/-- A message is walked by walking what is nested in it. -/
theorem single {r : MessageRef} {inner : List MessageRef}
    (h : m.Walk (m.message r).messages inner) :
    m.Walk [r] (r :: inner) := by
  have hwalk := Walk.cons h .nil
  rwa [List.append_nil] at hwalk

/-- A walk is one in every model that nests the same messages. -/
theorem of_nested {roots order : List MessageRef} (h : m.Walk roots order)
    (hnested : ∀ r, (other.message r).messages = (m.message r).messages) :
    other.Walk roots order := by
  induction h with
  | nil => exact .nil
  | cons _ _ ihinner ihothers => exact .cons (hnested _ ▸ ihinner) ihothers

end Walk

/-! ## The messages to generate are walked -/

/-- Listing deep enough walks a live message. -/
theorem FiniteNesting.walk_subtree (h : FiniteNesting m) {depth : Nat} {r : MessageRef}
    (hr : m.LiveMessage r) (hdepth : (below m r).card < depth) :
    m.Walk [r] (m.subtree depth r) := by
  induction depth generalizing r with
  | zero => exact absurd hdepth (Nat.not_lt_zero _)
  | succ depth ih =>
    refine Walk.single (Walk.flatMap fun c hc => ih (hr.nested hc) ?_)
    have hfewer := h.card_below_lt hr hc
    omega

/-- If nesting is finite, the messages to generate are the walk of the generated roots. -/
theorem FiniteNesting.walk_allMessages (h : FiniteNesting m) : m.Walk m.messages m.allMessages := by
  refine Walk.flatMap fun r hr => ?_
  have hlive : m.LiveMessage r := (generated_of_mem hr).live
  exact h.walk_subtree hlive (h.card_below_lt_size hlive)

/-! ## External messages do not count -/

/-- Whether generated messages exist and each has finitely many levels of messages nested in it. -/
structure FiniteGeneration (m : Model) : Prop where
  /-- Generated messages exist. -/
  held : ∀ r, m.Generated r → messageArena.Holds m r
  /-- Nesting ends below the generated roots. -/
  ends : ∀ r ∈ m.messages, Acc m.NestedIn r

/-- A model with other external elements. -/
def withExternal (m : Model) (messages : List MessageRef) (enums : List EnumRef) : Model :=
  { m with externalMessages := messages, externalEnums := enums }

/-- External elements do not count for what is listed below a message. -/
theorem subtree_withExternal (messages : List MessageRef) (enums : List EnumRef) (depth : Nat)
    (r : MessageRef) : (m.withExternal messages enums).subtree depth r = m.subtree depth r := by
  induction depth generalizing r with
  | zero => rfl
  | succ depth ih => exact congrArg (r :: ·) (List.flatMap_congr fun c _ => ih c)

/-- External elements do not count for what is listed for generation. -/
theorem allMessages_withExternal (messages : List MessageRef) (enums : List EnumRef) :
    (m.withExternal messages enums).allMessages = m.allMessages :=
  List.flatMap_congr fun r _ => subtree_withExternal messages enums _ r

/-- Finite nesting is finite below the generated roots. -/
theorem FiniteNesting.generation (h : FiniteNesting m) : FiniteGeneration m where
  held r hr := h.held r hr.live
  ends r hr := h.ends r (List.mem_append_left _ hr)

namespace FiniteGeneration

variable (h : FiniteGeneration m)

include h

/-- Without its external messages, a model has the nesting of the generated ones. -/
theorem finiteNesting : FiniteNesting (m.withExternal [] []) := by
  have hroots :
      (m.withExternal [] []).messages ++ (m.withExternal [] []).externalMessages = m.messages :=
    List.append_nil m.messages
  constructor
  · rintro r ⟨root, hroot, hbelow⟩
    rw [hroots] at hroot
    exact h.held r ⟨root, hroot, hbelow⟩
  · intro r hr
    rw [hroots] at hr
    exact h.ends r hr

/-- If what is generated is nested finitely, exactly that is listed for generation. -/
theorem mem_allMessages {r : MessageRef} : r ∈ m.allMessages ↔ m.Generated r := by
  have hmem := h.finiteNesting.mem_allMessages (r := r)
  rwa [allMessages_withExternal] at hmem

/-- If what is generated is nested finitely, the messages to generate are the walk of the roots. -/
theorem walk_allMessages : m.Walk m.messages m.allMessages := by
  have hwalk : m.Walk m.messages (m.withExternal [] []).allMessages :=
    h.finiteNesting.walk_allMessages.of_nested fun _ => rfl
  rwa [allMessages_withExternal] at hwalk

end FiniteGeneration

end ApiModel.Model
