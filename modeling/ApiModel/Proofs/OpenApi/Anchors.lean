import ApiModel.Proofs.Graph.Liveness
import ApiModel.Proofs.OpenApi.Catalog

/-!
# No message of an interface description is lost

Every message that the reader puts into the store can be come by: it lists the messages of component
schemas and of requests, nests the entries of maps in the message whose fields need them, and takes
the well-known types as external ones. So all of them are live.
-/

namespace ApiModel.OpenApi

open Model

/-- Whether every message is at the top or nested in one that is listed. -/
def Anchored (m : Model) : Prop :=
  ∀ r x, messageArena.find? m r = some x →
    r ∈ m.messages ++ m.externalMessages ∨
      ∃ p ∈ m.messages, ∃ y, messageArena.find? m p = some y ∧ r ∈ y.messages

variable {m k : Model}

/-- Adding messages one by one tells the places of all new ones. -/
theorem mem_of_addMessages {elements : List Message} {found refs : List MessageRef}
    (h : elements.foldl
      (fun (state : List MessageRef × Model) element =>
        (state.1 ++ [(state.2.addMessage element).ref], (state.2.addMessage element).model))
      (found, m) = (refs, k)) :
    found ⊆ refs ∧ ∀ r x, messageArena.find? k r = some x →
    messageArena.find? m r = some x ∨ r ∈ refs := by
  induction elements generalizing m found with
  | nil =>
    obtain ⟨rfl, rfl⟩ := Prod.mk.inj h
    exact ⟨List.Subset.refl _, fun r x hx => .inl hx⟩
  | cons e rest ih =>
    obtain ⟨hfound, hnew⟩ := ih h
    refine ⟨fun r hr => hfound (List.mem_append_left _ hr), fun r x hx => ?_⟩
    rcases hnew r x hx with hpushed | hr
    · rw [model_addMessage, messageArena.find?_push] at hpushed
      split at hpushed
      · rename_i hnext
        exact .inr (hfound (List.mem_append_right _ (List.mem_singleton.2 hnext)))
      · exact .inl hpushed
    · exact .inr hr

namespace Anchored

/-- A message that is added behind its entries anchors them. -/
theorem addListed (h : Anchored m) {element : Message} {entries : List Message}
    {nested : List MessageRef} (helement : element.Alone) (hnested : Nested m entries nested k) :
    Anchored (OpenApi.addListed m element entries) := by
  have hfind := find?_addListed helement hnested
  obtain ⟨xs, hrest⟩ := rest_addListed helement hnested
  have hmessages : (OpenApi.addListed m element entries).messages =
      m.messages ++ [messageArena.next k] := by
    rw [hrest]
  have hexternal : (OpenApi.addListed m element entries).externalMessages = m.externalMessages := by
    rw [hrest]
    rfl
  intro r x hx
  rw [hmessages, hexternal]
  rw [hfind] at hx
  split at hx
  · rename_i hr
    simp [hr]
  · obtain ⟨y, hy, -⟩ := Option.map_eq_some_iff.1 hx
    rcases (mem_of_addMessages hnested.added).2 r y hy with hold | hr
    · rcases h r y hold with hroot | ⟨p, hp, z, hz, hr⟩
      · left
        simp only [List.mem_append] at hroot ⊢
        tauto
      · -- the message around it is older than the new ones, and keeps what is nested in it
        have hkept : messageArena.find? k p = some z := hnested.extends.kept p z hz
        have hne : p ≠ messageArena.next k := by
          rintro rfl
          rw [messageArena.find?_next] at hkept
          cases hkept
        refine .inr ⟨p, List.mem_append_left _ hp,
          adopted (messageArena.next k) nested p z, ?_, ?_⟩
        · rw [hfind, if_neg hne, hkept, Option.map_some]
        · unfold adopted
          split <;> exact hr
    · exact .inr ⟨messageArena.next k, List.mem_append_right _ List.mem_cons_self,
        { element.ownedBy (messageArena.next k) with messages := nested, enums := [] },
        by rw [hfind, if_pos rfl], hr⟩

/-- A model with one more message, which is at the top, is anchored. -/
theorem push (h : Anchored m) {x : Message} {other : Model}
    (hfind : ∀ r, messageArena.find? other r =
      if r = messageArena.next m then some x else messageArena.find? m r)
    (hmessages : m.messages ⊆ other.messages)
    (hexternal : m.externalMessages ⊆ other.externalMessages)
    (hlisted : messageArena.next m ∈ other.messages ++ other.externalMessages) :
    Anchored other := by
  intro r y hy
  rw [hfind] at hy
  split at hy
  · rename_i hr
    exact .inl (hr ▸ hlisted)
  · rcases h r y hy with hroot | ⟨p, hp, z, hz, hr⟩
    · exact .inl (List.append_subset.2
        ⟨List.subset_append_of_subset_left _ hmessages,
          List.subset_append_of_subset_right _ hexternal⟩
        hroot)
    · refine .inr ⟨p, hmessages hp, z, ?_, hr⟩
      have hne : p ≠ messageArena.next m := by
        rintro rfl
        rw [messageArena.find?_next] at hz
        cases hz
      rw [hfind, if_neg hne, hz]

/-- A message without entries is anchored by being listed. -/
theorem addRequest (h : Anchored m) {x : Message} (hx : x.messages = []) :
    Anchored (OpenApi.addListed m x []) := by
  rw [addListed_nil m hx]
  exact h.push (fun r => messageArena.find?_push m _ r) (List.subset_append_left ..)
    (List.Subset.refl _) (List.mem_append_left _ (List.mem_append_right _ List.mem_cons_self))

/-- Adding the well-known types, as external ones, keeps a model anchored. -/
theorem register (h : Anchored m) : Anchored (WellKnown.register m) := by
  refine WellKnown.register_keeps (P := Anchored) (fun m name h => ?_) (fun m h => ?_) h
  · unfold WellKnown.registerMessage
    split
    · exact h
    · exact h.push (fun r => messageArena.find?_push m _ r) (List.Subset.refl _)
        (List.subset_append_left ..)
        (List.mem_append_right _ (List.mem_append_right _ List.mem_cons_self))
  · unfold WellKnown.registerEnum
    split <;> exact h

/-- In an anchored model every message is live. -/
theorem live (h : Anchored m) {r : MessageRef} (hr : messageArena.Holds m r) : m.LiveMessage r := by
  rcases h r _ (messageArena.find?_of_holds hr) with hroot | ⟨p, hp, y, hy, hr⟩
  · exact ⟨r, hroot, .refl⟩
  · have hnested : m.NestedIn r p := by
      change r ∈ (messageArena.get m p).messages
      rwa [messageArena.get_of_find? hy]
    exact ⟨p, List.mem_append_left _ hp, .single hnested⟩

end Anchored

/-- Adding the messages of a component schema keeps a model anchored. -/
theorem anchored_addSchema (hbuilt : Built (fun parent child => child < parent) m) (h : Anchored m)
    {component : String × Schema} (hadd : addSchema m component = .ok k) : Anchored k := by
  obtain ⟨made, hmade, rfl⟩ := of_addSchema hadd
  obtain ⟨helement, hentries⟩ := alone_componentMessage hmade
  obtain ⟨nested, last, hnested⟩ := exists_nested hbuilt hentries
  exact h.addListed helement hnested

/-- Adding the methods with their request messages keeps a model anchored. -/
theorem anchored_addMethods {made : List MadeMethod}
    (hmade : ∀ x ∈ made, x.request.messages = []) (h : Anchored m) {found refs : List MethodRef}
    (hadd : made.foldl addMethod (found, m) = (refs, k)) :
    Anchored k := by
  induction made generalizing m found with
  | nil =>
    obtain ⟨-, rfl⟩ := Prod.mk.inj hadd
    exact h
  | cons x rest ih =>
    have hnext : Anchored ((addListed m x.request []).addMethod x.method).model :=
      h.addRequest (hmade x List.mem_cons_self)
    exact ih (fun y hy => hmade y (List.mem_cons_of_mem x hy)) hnext hadd

/-- The model of a document is anchored. -/
theorem anchored_model {d : Document} {config : Option ServiceConfig} (h : d.model config = .ok m) :
    Anchored m := by
  obtain ⟨schemas, hschemas, h⟩ := Attempt.bind_eq_ok.1 h
  obtain ⟨last, hservice, h⟩ := Attempt.bind_eq_ok.1 h
  obtain rfl := Except.ok.inj h
  have hempty : Built (fun parent child => child < parent) (d.identity config) ∧
      Anchored (d.identity config) := by
    refine ⟨.of_empty rfl rfl rfl rfl rfl rfl, ?_⟩
    rintro r x ⟨⟩
  obtain ⟨-, hanchored⟩ := Attempt.foldlM_keeps
    (P := fun m => Built (fun parent child => child < parent) m ∧ Anchored m)
    (fun _ _ _ hm hadd => ⟨built_addSchema hm.1 hadd, anchored_addSchema hm.1 hm.2 hadd⟩)
      hempty hschemas
  refine Anchored.register ?_
  unfold addService at hservice
  obtain ⟨made, hmade, hservice⟩ := Attempt.bind_eq_ok.1 hservice
  split at hservice
  · obtain rfl := Except.ok.inj hservice
    exact hanchored
  · split at hservice
    rename_i refs k hfold
    obtain rfl := Except.ok.inj hservice
    have hmethods : Anchored k := anchored_addMethods (fun x hx => ?_) hanchored hfold
    · exact hmethods
    obtain ⟨c, -, hc⟩ := Attempt.mapM_forall_right hmade x hx
    exact (alone_makeMethod hc).2.messages

end ApiModel.OpenApi
