import ApiModel.Proofs.Descriptor.Body
import ApiModel.Proofs.Graph.Documents
import ApiModel.Proofs.Graph.Passes

/-!
# Models of descriptor sets are built

The reader of descriptor sets adds a message before those nested in it, so messages are nested from
earlier places in later ones. What it builds is sound and fresh.
-/

namespace ApiModel.Descriptor

open Model

variable {before : Nat → Nat → Prop} {m k other : Model}

/-! ## New elements -/

/-- A converted message can be added, and is nested where it was declared. -/
theorem new_convertMessage {e : Extent} {context : FileContext} {scope : String}
    {parent : Option MessageRef} {place : Place} {message : Message} {x : ApiModel.Message}
    (hparent : ∀ p ∈ parent, e.HasMessage p)
    (h : convertMessage context scope parent place message = .ok x) :
    NewMessage e x ∧ x.parent = parent := by
  obtain ⟨fields, hfields, rfl⟩ := convertMessage_eq_ok.1 h
  have hfield : ∀ f ∈ fields, f.target = none ∧ ∀ g ∈ f.group,
      g < (keptGroups message.fields message.oneofs).length := by
    intro f hf
    obtain ⟨source, documentation, made, hmade, rfl⟩ := exists_convert_of_mem hfields f hf
    have hnew := convertsTo_convert hmade
    refine ⟨by rw [inGroup_eq]; exact hnew.target, fun g hg => ?_⟩
    rw [group_inGroup hnew.group] at hg
    obtain ⟨index, -, hfound⟩ := Option.bind_eq_some_iff.1 hg
    obtain ⟨entry, hlast, rfl⟩ := Option.map_eq_some_iff.1 hfound
    exact List.snd_lt_of_mem_zipIdx (List.mem_of_mem_filter (List.mem_of_getLast? hlast))
  refine ⟨⟨fun f hf => (hfield f hf).1, fun f hf g hg => ?_, fun o ho i hi => ?_, rfl, rfl,
    hparent, rfl⟩, rfl⟩
  · change g < (notedGroups _ fields).length
    rw [notedGroups, List.length_map, List.length_zipIdx, List.length_map]
    exact (hfield f hf).2 g hg
  · obtain ⟨entry, -, rfl⟩ := List.mem_map.1 ho
    exact List.mem_range.1 (List.mem_filter.1 hi).1

/-- A converted enumeration can be added. -/
theorem new_convertEnum {e : Extent} {context : FileContext} {scope : String}
    {parent : Option MessageRef} {place : Place} {source : Enumeration}
    (hparent : ∀ p ∈ parent, e.HasMessage p) :
    NewEnum e (convertEnum context scope parent place source) :=
  ⟨rfl, hparent⟩

/-! ## Adding types -/

/-- Adding enumerations gives a batch of them. -/
theorem grown_addEnums (context : FileContext) (scope : String) {parent : Option MessageRef}
    (placeOf : Nat → Place) (h : Built before m)
    (hparent : ∀ p ∈ parent, m.extent.HasMessage p) (enums : List Enumeration) :
    Grown before m (addEnums context scope parent placeOf m enums).model ∧
      Batch enumArena (fun x => x.parent = parent) m
        (addEnums context scope parent placeOf m enums).model
        (addEnums context scope parent placeOf m enums).refs := by
  have hall : ∀ (entries : List (Enumeration × Nat)) (state : AddedAll EnumRef),
      Grown before m state.model →
      Batch enumArena (fun x => x.parent = parent) m state.model state.refs →
      let last := entries.foldl
        (fun state entry =>
          let added :=
            state.model.addEnum (convertEnum context scope parent (placeOf entry.2) entry.1)
          (⟨state.refs ++ [added.ref], added.model⟩ : AddedAll EnumRef)) state
      Grown before m last.model ∧
        Batch enumArena (fun x => x.parent = parent) m last.model last.refs := by
    intro entries
    induction entries with
    | nil => exact fun state hgrown hbatch => ⟨hgrown, hbatch⟩
    | cons entry rest ih =>
      intro state hgrown hbatch
      have hnew : NewEnum state.model.extent
          (convertEnum context scope parent (placeOf entry.2) entry.1) :=
        new_convertEnum fun p hp => hgrown.within.hasMessage (hparent p hp)
      have hnext := Grown.addEnum hgrown.toBuilt hnew
      have hpush : Batch enumArena (fun x => x.parent = parent) state.model
          (state.model.addEnum (convertEnum context scope parent (placeOf entry.2) entry.1)).model
          [(state.model.addEnum
            (convertEnum context scope parent (placeOf entry.2) entry.1)).ref] :=
        .push rfl
      exact ih _ (hgrown.trans hnext) (hbatch.append hpush hgrown.enums hnext.enums)
  exact hall enums.zipIdx ⟨[], m⟩ (.refl h) .nil

/-- Adding a message, a batch of messages nested in it, and enumerations nested in it gives a new
message. -/
theorem grown_nested {context : FileContext} {scope : String} {parent : Option MessageRef}
    {placeOf : Nat → Place} (h : Built (· < ·) m) {element : ApiModel.Message}
    (hnew : NewMessage m.extent element) (hparent : element.parent = parent)
    {nested : AddedAll MessageRef}
    (hnested : Built (· < ·) (m.addMessage element).model →
      (∀ p ∈ some (m.addMessage element).ref,
        (m.addMessage element).model.extent.HasMessage p) →
      Grown (· < ·) (m.addMessage element).model nested.model ∧
        Batch messageArena (fun x => x.parent = some (m.addMessage element).ref)
          (m.addMessage element).model nested.model nested.refs) (enums : List Enumeration) :
    let r := (m.addMessage element).ref
    let all := addEnums context scope (some r) placeOf nested.model enums
    let last := all.model.modifyMessage r fun x =>
      { x with messages := nested.refs, enums := all.refs }
    Grown (· < ·) m last ∧ Batch messageArena (fun x => x.parent = parent) m last [r] := by
  intro r all last
  have hk : Grown (· < ·) m (m.addMessage element).model := .addMessage h hnew
  have hpush : messageArena.find? (m.addMessage element).model r = some (element.ownedBy r) :=
    find?_addMessage m element
  have hr : ∀ p ∈ some r, (m.addMessage element).model.extent.HasMessage p := by
    rintro p ⟨⟩
    exact hasMessage_iff.2 ⟨_, hpush⟩
  obtain ⟨hmessages, hbatch⟩ := hnested hk.toBuilt hr
  obtain ⟨henums, hbatchEnums⟩ := grown_addEnums context scope placeOf
    hmessages.toBuilt (fun p hp => hmessages.within.hasMessage (hr p hp)) enums
  have hall := hmessages.trans henums
  have hbuilt : Built (· < ·) last := by
    refine hall.toBuilt.nest (fun c hc => hasChild_iff.2 ((hbatch.later henums.messages).held c hc))
      (fun c hc => ?_) hbatch.once (fun c hc => Option.map_eq_some_iff.2 (hbatchEnums.held c hc))
      hbatchEnums.once
    refine Nat.lt_of_not_le fun hle => ?_
    have hheld : messageArena.Holds (m.addMessage element).model c := by
      change c.index < (m.store.messages.push _).size
      rw [Array.size_push]
      exact Nat.lt_succ_of_le hle
    have hfound := messageArena.find?_of_holds hheld
    rw [hbatch.free c hc] at hfound
    cases hfound
  let x : ApiModel.Message := { element.ownedBy r with messages := nested.refs, enums := all.refs }
  refine ⟨(hk.trans hall).modifyMessage (messageArena.find?_next m) hbuilt,
    .single (x := x) (messageArena.find?_next m) ?_ hparent⟩
  rw [find?_modifyMessage, hall.messages _ _ hpush, Option.map_some, if_pos rfl]

mutual

/-- Adding a message with what is nested in it gives a new message. -/
theorem grown_addMessageTree {m : Model} {context : FileContext} {scope : String}
    {parent : Option MessageRef} {place : Place} (h : Built (· < ·) m)
    (hparent : ∀ p ∈ parent, m.extent.HasMessage p)
    {added : Added MessageRef} (message : Message)
    (hadd : addMessageTree context scope parent place m message = .ok added) :
    Grown (· < ·) m added.model ∧
      Batch messageArena (fun x => x.parent = parent) m added.model [added.ref] := by
  match message with
  | .mk name fields messages enums options oneofs =>
    rw [addMessageTree] at hadd
    obtain ⟨element, helement, hadd⟩ := Attempt.bind_eq_ok.1 hadd
    obtain ⟨nested, hnested, hadd⟩ := Attempt.bind_eq_ok.1 hadd
    obtain rfl := Except.ok.inj hadd
    obtain ⟨hnew, hnewParent⟩ := new_convertMessage hparent helement
    exact grown_nested h hnew hnewParent
      (fun hk hp => grown_addMessageTrees hk hp messages hnested) enums

/-- Adding messages with what is nested in them gives a batch of them. -/
theorem grown_addMessageTrees {m : Model} {context : FileContext} {scope : String}
    {parent : Option MessageRef} {placeOf : Nat → Place} {position : Nat} (h : Built (· < ·) m)
    (hparent : ∀ p ∈ parent, m.extent.HasMessage p) {added : AddedAll MessageRef}
    (messages : List Message)
    (hadd : addMessageTrees context scope parent placeOf position m messages = .ok added) :
    Grown (· < ·) m added.model ∧
      Batch messageArena (fun x => x.parent = parent) m added.model added.refs := by
  match messages with
  | [] =>
    rw [addMessageTrees] at hadd
    obtain rfl := Except.ok.inj hadd
    exact ⟨.refl h, .nil⟩
  | message :: rest =>
    rw [addMessageTrees] at hadd
    obtain ⟨first, hfirst, hadd⟩ := Attempt.bind_eq_ok.1 hadd
    obtain ⟨others, hothers, hadd⟩ := Attempt.bind_eq_ok.1 hadd
    obtain rfl := Except.ok.inj hadd
    obtain ⟨hgrown, hbatch⟩ := grown_addMessageTree h hparent message hfirst
    obtain ⟨hgrownRest, hbatchRest⟩ := grown_addMessageTrees hgrown.toBuilt
      (fun p hp => hgrown.within.hasMessage (hparent p hp)) rest hothers
    exact ⟨hgrown.trans hgrownRest,
      hbatch.append hbatchRest hgrown.messages hgrownRest.messages⟩

end

/-- Adding the types of a file goes on building, and keeps the methods. -/
theorem of_addTypes {selected : File → Bool} (h : Built (· < ·) m) {file : File}
    (hadd : addTypes selected m file = .ok other) :
    Built (· < ·) other ∧ other.store.methods = m.store.methods := by
  unfold addTypes at hadd
  obtain ⟨messages, hmessages, hadd⟩ := Attempt.bind_eq_ok.1 hadd
  have hnone : ∀ k : Model, ∀ p ∈ (none : Option MessageRef), k.extent.HasMessage p := by
    rintro k p ⟨⟩
  obtain ⟨hgrown, hbatch⟩ := grown_addMessageTrees h (hnone m) file.messages hmessages
  obtain ⟨hgrownEnums, hbatchEnums⟩ := grown_addEnums file.context
    (scopeOf file.packageName) Place.fileEnum hgrown.toBuilt (hnone messages.model) file.enums
  have hall := hgrown.trans hgrownEnums
  have hlist := @Grown.list _ m _ other h hall _ _
    (hbatch.later hgrownEnums.messages) (hbatchEnums.earlier hgrown.enums)
  dsimp only at hadd
  split at hadd
  · obtain rfl := Except.ok.inj hadd
    exact ⟨hlist rfl (perm_listed _ _ _) (perm_listed _ _ _) rfl, hall.methods⟩
  · obtain rfl := Except.ok.inj hadd
    exact ⟨hlist rfl (List.Perm.of_eq (List.append_assoc _ _ _).symm)
      (List.Perm.of_eq (List.append_assoc _ _ _).symm) rfl, hall.methods⟩

/-! ## Adding services -/

/-- The request fields that clients fill in exist. -/
theorem hasField_autoPopulated {context : ServiceContext} {methodId inputTypeId : String}
    {f : FieldRef} (hf : f ∈ context.autoPopulated m methodId inputTypeId) :
    m.extent.HasField f := by
  unfold ServiceContext.autoPopulated at hf
  dsimp only at hf
  split at hf
  · obtain ⟨index, hindex, rfl⟩ := List.mem_map.1 hf
    obtain ⟨name, -, hname⟩ := List.mem_filterMap.1 (List.mem_filter.1 hindex).1
    exact hasField_iff.2 (Sound.lt_of_findIdx? hname)
  · exact absurd hf List.not_mem_nil

/-- A converted method can be added. -/
theorem new_convert {context : ServiceContext} {package serviceId documentation : String}
    {method : Method} {x : ApiModel.Method}
    (h : method.convert context m package serviceId documentation = .ok x) :
    NewMethod m.extent x := by
  unfold Method.convert at h
  obtain ⟨pathInfo, -, h⟩ := Attempt.bind_eq_ok.1 h
  obtain ⟨routing, -, h⟩ := Attempt.bind_eq_ok.1 h
  obtain rfl := Except.ok.inj h
  refine ⟨⟨rfl, rfl, fun info hinfo => ?_, fun info hinfo => ?_⟩, rfl,
    fun f hf => hasField_autoPopulated hf, rfl⟩
  · obtain ⟨source, -, rfl⟩ := Option.map_eq_some_iff.1 hinfo
    rfl
  · obtain ⟨source, -, rfl⟩ := Option.map_eq_some_iff.1 hinfo
    rfl

/-- Marking a field that clients fill in goes on building, and keeps the extent. -/
theorem extended_markAutoPopulated (h : Built before m) (f : FieldRef) :
    Extended before m (markAutoPopulated m f) ∧ (markAutoPopulated m f).extent = m.extent := by
  have hslot : ∀ r x, messageArena.find? m r = some x →
      (if r = f.message then
          { x with fields := x.fields.modify f.index fun f => { f with autoPopulated := true } }
        else x).slot = x.slot := by
    intro r x _
    split
    · rw [Message.slot, List.length_modify]
      rfl
    · rfl
  refine ⟨⟨h.modifyMessage (h.toSound.modifyMessage (fun x hx => ?_) fun x hx => ?_)
    (fun x hx => h.order f.message x hx) fun x hx g hg => ?_, rfl, rfl⟩, ?_⟩
  · rw [Message.slot, List.length_modify]
    rfl
  · refine (h.message f.message x hx).withFields (List.length_modify _ _ _) fun g hg => ?_
    obtain ⟨y, hy, hgy⟩ := Sound.of_mem_modify hg
    refine ⟨y, hy, ?_⟩
    have htarget := ((h.message f.message x hx).fields y hy).target
    rcases hgy with rfl | rfl
    · exact ⟨rfl, rfl, htarget⟩
    · exact ⟨rfl, rfl, htarget⟩
  · obtain ⟨y, hy, hgy⟩ := Sound.of_mem_modify hg
    have htarget := h.targets f.message x hx y hy
    rcases hgy with rfl | rfl
    · exact htarget
    · exact htarget
  · change (messageArena.modify m f.message _).extent = m.extent
    rw [messageArena.modify_eq_map]
    exact extent_mapMessages hslot

/-- Marking the fields that clients fill in goes on building, and keeps the extent. -/
theorem extended_markAllAutoPopulated (h : Built before m) (fields : List FieldRef) :
    Extended before m (fields.foldl markAutoPopulated m) ∧
      (fields.foldl markAutoPopulated m).extent = m.extent := by
  induction fields generalizing m with
  | nil => exact ⟨⟨h, rfl, rfl⟩, rfl⟩
  | cons f rest ih =>
    obtain ⟨hextended, hextent⟩ := extended_markAutoPopulated h f
    obtain ⟨hrest, hrestExtent⟩ := ih hextended.toBuilt
    exact ⟨⟨hrest.toBuilt, hrest.services.trans hextended.services,
      hrest.methods.trans hextended.methods⟩, hrestExtent.trans hextent⟩

/-- Adding methods gives a batch of them. -/
theorem served_addMethods {context : ServiceContext} {package serviceId : String}
    {comments : Comments} {placeOf : Nat → Place} {position : Nat} (h : Built before m)
    {methods : List Method} {added : AddedAll MethodRef}
    (hadd : addMethods context package serviceId comments placeOf position m methods = .ok added) :
    Served before m added.model added.refs := by
  induction methods generalizing m position added with
  | nil =>
    obtain rfl := Except.ok.inj hadd
    exact .refl h
  | cons method rest ih =>
    rw [addMethods] at hadd
    obtain ⟨x, hx, hadd⟩ := Attempt.bind_eq_ok.1 hadd
    obtain ⟨others, hothers, hadd⟩ := Attempt.bind_eq_ok.1 hadd
    obtain rfl := Except.ok.inj hadd
    obtain ⟨hextended, hextent⟩ := extended_markAllAutoPopulated h x.autoPopulated
    have hnew : NewMethod (x.autoPopulated.foldl markAutoPopulated m).extent x :=
      hextent ▸ new_convert hx
    have hfirst := Served.addMethod hextended hnew
    exact hfirst.append (ih hfirst.toBuilt hothers)

/-- Adding a service goes on building. -/
theorem built_addService {context : ServiceContext} {package : String} {comments : Comments}
    (h : Built before m) {entry : Service × Nat}
    (hadd : addService context package comments m entry = .ok other) : Built before other := by
  obtain ⟨methods, hmethods, hadd⟩ := Attempt.bind_eq_ok.1 hadd
  obtain rfl := Except.ok.inj hadd
  exact Served.addService h (served_addMethods h hmethods) rfl rfl rfl rfl rfl

/-- The model of a set of files is built. -/
theorem built_model {set : FileSet} {config : Option ServiceConfig} {included : List String}
    (h : set.model config included = .ok m) : Built (· < ·) m := by
  obtain ⟨types, htypes, h⟩ := Attempt.bind_eq_ok.1 h
  obtain ⟨services, hservices, h⟩ := Attempt.bind_eq_ok.1 h
  obtain rfl := Except.ok.inj h
  refine WellKnown.built_register ?_
  refine Attempt.foldlM_keeps (fun m file k hm hk => ?_) ?_ hservices
  · exact Attempt.foldlM_keeps (fun m entry k hm hk => built_addService hm hk) hm hk
  · refine Attempt.foldlM_keeps (fun m file k hm hk => (of_addTypes hm hk).1) ?_ htypes
    exact .of_empty rfl rfl rfl rfl rfl rfl

end ApiModel.Descriptor
