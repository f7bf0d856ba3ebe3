import ApiModel.Proofs.Descriptor.Conversion
import ApiModel.Proofs.Descriptor.Steps
import ApiModel.Proofs.Graph.DescriptorSets
import ApiModel.Proofs.Graph.Inventory

/-!
# No type of a descriptor set is lost

While the types of a file are added, those that are still to be listed are the ones whose places the
reader has in its hands. It nests them in the message around them, or lists them when the file is
done.
-/

namespace ApiModel.Descriptor

open Model

variable {m k : Model} {messages : List MessageRef} {enums : List EnumRef}

/-! ## Types -/

/-- Enumerations that are added are still to be listed. -/
theorem inventoried_addEnums (h : Inventoried m messages enums) (context : FileContext)
    (scope : String) (parent : Option MessageRef) (placeOf : Nat → Place)
    (sources : List Enumeration) :
    Inventoried (addEnums context scope parent placeOf m sources).model messages
      (enums ++ (addEnums context scope parent placeOf m sources).refs) := by
  have hall : ∀ (entries : List (Enumeration × Nat)) (state : AddedAll EnumRef),
      Inventoried state.model messages (enums ++ state.refs) →
      let last := entries.foldl
        (fun state entry =>
          let added :=
            state.model.addEnum (convertEnum context scope parent (placeOf entry.2) entry.1)
          (⟨state.refs ++ [added.ref], added.model⟩ : AddedAll EnumRef)) state
      Inventoried last.model messages (enums ++ last.refs) := by
    intro entries
    induction entries with
    | nil => exact fun _ hstate => hstate
    | cons entry rest ih =>
      intro state hstate
      have hnext := hstate.addEnum (convertEnum context scope parent (placeOf entry.2) entry.1)
      rw [List.append_assoc] at hnext
      exact ih _ hnext
  exact hall sources.zipIdx ⟨[], m⟩ (by rwa [List.append_nil])

mutual

/-- After a message is added with what is nested in it, only the message itself is still to be
listed. -/
theorem inventoried_addMessageTree {m : Model} {messages : List MessageRef} {context : FileContext}
    {scope : String} {parent : Option MessageRef} {place : Place} {added : Added MessageRef}
    (hbuilt : Built (· < ·) m) (hparent : ∀ p ∈ parent, m.extent.HasMessage p)
    (source : Message) (h : Inventoried m messages enums)
    (hadd : addMessageTree context scope parent place m source = .ok added) :
    Inventoried added.model (messages ++ [added.ref]) enums := by
  match source with
  | .mk name fields nestedSources enumSources options oneofs =>
    rw [addMessageTree] at hadd
    obtain ⟨element, helement, hadd⟩ := Attempt.bind_eq_ok.1 hadd
    obtain ⟨nested, hnested, hadd⟩ := Attempt.bind_eq_ok.1 hadd
    obtain rfl := Except.ok.inj hadd
    obtain ⟨hnew, -⟩ := new_convertMessage hparent helement
    have hgrown : Grown (· < ·) m (m.addMessage element).model := .addMessage hbuilt hnew
    have hpush := find?_addMessage m element
    have howner : ∀ p ∈ some (m.addMessage element).ref,
        (m.addMessage element).model.extent.HasMessage p := by
      rintro p ⟨⟩
      exact hasMessage_iff.2 ⟨_, hpush⟩
    -- the message stays as it was added until its nested types are put into it
    obtain ⟨hmessages, -⟩ := grown_addMessageTrees hgrown.toBuilt howner nestedSources hnested
    obtain ⟨henums, -⟩ := grown_addEnums context element.id place.nestedEnum hmessages.toBuilt
      (fun p hp => hmessages.within.hasMessage (howner p hp)) enumSources
    have hfound := henums.messages _ _ (hmessages.messages _ _ hpush)
    have hinner := inventoried_addMessageTrees hgrown.toBuilt howner nestedSources
      (h.addMessage element) hnested
    have hall := inventoried_addEnums hinner context element.id (some (m.addMessage element).ref)
      place.nestedEnum enumSources
    exact hall.nest hfound hnew.messages hnew.enums

/-- After messages are added with what is nested in them, only they themselves are still to be
listed. -/
theorem inventoried_addMessageTrees {m : Model} {messages : List MessageRef} {context : FileContext}
    {scope : String} {parent : Option MessageRef} {placeOf : Nat → Place} {position : Nat}
    {added : AddedAll MessageRef} (hbuilt : Built (· < ·) m)
    (hparent : ∀ p ∈ parent, m.extent.HasMessage p) (sources : List Message)
    (h : Inventoried m messages enums)
    (hadd : addMessageTrees context scope parent placeOf position m sources = .ok added) :
    Inventoried added.model (messages ++ added.refs) enums := by
  match sources with
  | [] =>
    rw [addMessageTrees] at hadd
    obtain rfl := Except.ok.inj hadd
    rwa [List.append_nil]
  | source :: rest =>
    rw [addMessageTrees] at hadd
    obtain ⟨first, hfirst, hadd⟩ := Attempt.bind_eq_ok.1 hadd
    obtain ⟨others, hothers, hadd⟩ := Attempt.bind_eq_ok.1 hadd
    obtain rfl := Except.ok.inj hadd
    obtain ⟨hgrown, -⟩ := grown_addMessageTree hbuilt hparent source hfirst
    have hone := inventoried_addMessageTree hbuilt hparent source h hfirst
    have hall := inventoried_addMessageTrees hgrown.toBuilt
      (fun p hp => hgrown.within.hasMessage (hparent p hp)) rest hone hothers
    rwa [List.append_assoc, List.singleton_append] at hall

end

/-- When a file is done, nothing of it is still to be listed. -/
theorem inventoried_addTypes {selected : File → Bool} {file : File} (hbuilt : Built (· < ·) m)
    (h : Inventoried m [] []) (hadd : addTypes selected m file = .ok k) : Inventoried k [] [] := by
  unfold addTypes at hadd
  obtain ⟨added, hadded, hadd⟩ := Attempt.bind_eq_ok.1 hadd
  have hnone : ∀ p ∈ (none : Option MessageRef), m.extent.HasMessage p := by
    rintro p ⟨⟩
  have hmessages := inventoried_addMessageTrees hbuilt hnone file.messages h hadded
  have hall := inventoried_addEnums hmessages file.context (scopeOf file.packageName) none
    Place.fileEnum file.enums
  rw [List.nil_append, List.nil_append] at hall
  dsimp only at hadd
  split at hadd
  · obtain rfl := Except.ok.inj hadd
    exact hall.list rfl (perm_listed _ _ _) (perm_listed _ _ _)
  · obtain rfl := Except.ok.inj hadd
    exact hall.list rfl (List.Perm.of_eq (List.append_assoc _ _ _).symm)
      (List.Perm.of_eq (List.append_assoc _ _ _).symm)

/-! ## Services -/

/-- Marking a field that clients fill in leaves all types listed. -/
theorem inventoried_markAutoPopulated (h : Inventoried m messages enums) (f : FieldRef) :
    Inventoried (markAutoPopulated m f) messages enums := by
  refine h.later (.of_same rfl rfl rfl rfl fun p => ?_) (Array.size_modify ..) rfl
  exact ⟨messageArena.get_modify_keeps ApiModel.Message.messages m _ p rfl,
    messageArena.get_modify_keeps ApiModel.Message.enums m _ p rfl⟩

/-- Adding services leaves all types listed. -/
theorem keptByServices_inventoried (context : ServiceContext) :
    KeptByServices context fun k => Inventoried k messages enums where
  method {m _ _ _ _ x} _ hm := by
    have hmarked : Inventoried (x.autoPopulated.foldl markAutoPopulated m) messages enums :=
      List.foldlRecOn (motive := fun k => Inventoried k messages enums) x.autoPopulated _ hm
        fun _ hk f _ => inventoried_markAutoPopulated hk f
    exact hmarked.later (.of_same rfl rfl rfl rfl fun _ => ⟨rfl, rfl⟩) rfl rfl
  service _ _ hm := hm.later (.of_same rfl rfl rfl rfl fun _ => ⟨rfl, rfl⟩) rfl rfl

/-! ## The model of a set -/

/-- In the model of a set every type is listed. -/
theorem inventoried_model {set : FileSet} {config : Option ServiceConfig} {included : List String}
    (h : set.model config included = .ok m) : Inventoried m [] [] := by
  obtain ⟨types, htypes, h⟩ := Attempt.bind_eq_ok.1 h
  obtain ⟨k, hservices, h⟩ := Attempt.bind_eq_ok.1 h
  obtain rfl := Except.ok.inj h
  have hempty : Built (· < ·) (identity (set.packageName included) config) ∧
      Inventoried (identity (set.packageName included) config) [] [] :=
    ⟨.of_empty rfl rfl rfl rfl rfl rfl, .of_empty rfl⟩
  obtain ⟨-, htypesListed⟩ := Attempt.foldlM_keeps
    (P := fun m => Built (· < ·) m ∧ Inventoried m [] [])
    (fun _ _ _ hm hadd => ⟨(of_addTypes hm.1 hadd).1, inventoried_addTypes hm.1 hm.2 hadd⟩)
      hempty htypes
  have hlisted : Inventoried k [] [] :=
    (keptByServices_inventoried ⟨config, set.messagesById⟩).foldlM htypesListed hservices
  exact hlisted.register

end ApiModel.Descriptor
