import ApiModel.Proofs.Documentation
import ApiModel.Proofs.OpenApi.Requests

/-!
# The messages of interface descriptions

Before the well-known types are added, the store holds for every component schema the entries of its
maps and then its own message, and behind those the request message of every call, in the order of
the document. The messages are compared without what tells their places: owners, nested messages,
and who owns a field.
-/

namespace ApiModel

/-- The message without what tells its place and that of others. -/
def Message.unplaced (x : Message) : Message :=
  { x with
    fields := x.fields.map fun f => { f with parent := none }
    messages := []
    parent := none }

namespace OpenApi

open Model

/-- The messages of the store without their places. -/
def contents (m : Model) : List Message :=
  m.store.messages.toList.map Message.unplaced

variable {m k other : Model}

/-! ## Adding messages -/

/-- A message that is pushed comes last. -/
theorem contents_push (m : Model) (x : Message) :
    contents (messageArena.push m x) = contents m ++ [x.unplaced] := by
  have hlist : (messageArena.push m x).store.messages.toList = m.store.messages.toList ++ [x] :=
    Array.toList_push
  rw [contents, hlist, List.map_append]
  rfl

/-- A message that owns its fields is the same but for places. -/
theorem unplaced_ownedBy (x : Message) (r : MessageRef) : (x.ownedBy r).unplaced = x.unplaced := by
  have hfields : ((x.ownedBy r).fields.map fun f => ({ f with parent := none } : Field)) =
      x.fields.map fun f => { f with parent := none } := by
    rw [Message.ownedBy, List.map_map]
    rfl
  rw [Message.unplaced, hfields]
  rfl

/-- Adding messages one by one adds them behind the others. -/
theorem contents_addMessages {elements : List Message} {found refs : List MessageRef}
    (h : elements.foldl
      (fun (state : List MessageRef × Model) element =>
        (state.1 ++ [(state.2.addMessage element).ref], (state.2.addMessage element).model))
      (found, m) = (refs, k)) : contents k = contents m ++ elements.map Message.unplaced := by
  induction elements generalizing m found with
  | nil =>
    obtain ⟨-, rfl⟩ := Prod.mk.inj h
    exact (List.append_nil _).symm
  | cons e rest ih =>
    have hrest := ih h
    rw [model_addMessage, contents_push, unplaced_ownedBy] at hrest
    rw [hrest, List.append_assoc]
    rfl

/-- Adopting messages leaves the contents as they are. -/
theorem contents_adopt (p : MessageRef) (children : List MessageRef) (m : Model) :
    contents
      (children.foldl (fun m child => m.modifyMessage child fun x =>
        { x with parent := some p }) m) =
      contents m := by
  induction children generalizing m with
  | nil => rfl
  | cons c rest ih =>
    have hparent : ∀ x : Message, ({ x with parent := some p } : Message).unplaced = x.unplaced :=
      fun _ => rfl
    rw [List.foldl_cons, ih]
    change (m.store.messages.modify c.index _).toList.map Message.unplaced = _
    rw [Array.toList_modify, map_modify hparent]
    rfl

/-- Adopting messages changes the messages of the store only. -/
theorem exists_adopt (p : MessageRef) (children : List MessageRef) (m : Model) :
    ∃ xs, children.foldl (fun m child => m.modifyMessage child fun x =>
      { x with parent := some p }) m =
      messageArena.replace m xs := by
  induction children generalizing m with
  | nil => exact ⟨_, rfl⟩
  | cons c rest ih =>
    obtain ⟨xs, hxs⟩ := ih (m.modifyMessage c fun x => { x with parent := some p })
    exact ⟨xs, hxs⟩

/-- A message is added behind the entries of its maps. -/
theorem contents_addListed (m : Model) (element : Message) (entries : List Message) :
    contents (addListed m element entries) =
      contents m ++ (entries ++ [element]).map Message.unplaced := by
  cases hadd : addMessages m entries with
  | mk nested k =>
    rw [addListed, hadd]
    change contents (List.foldl _ (k.addMessage { element with messages := nested }).model nested) =
      _
    rw [contents_adopt, model_addMessage, contents_push, unplaced_ownedBy,
      contents_addMessages hadd, List.map_append, List.append_assoc]
    rfl

/-- Adding a message behind its entries changes the messages of the store and the list of them
only. -/
theorem exists_addListed (m : Model) (element : Message) (entries : List Message) :
    ∃ xs refs, addListed m element entries =
      { messageArena.replace m xs with messages := refs } := by
  cases hadd : addMessages m entries with
  | mk nested k =>
    obtain ⟨ys, rfl⟩ := (extends_addMessages hadd).rest
    obtain ⟨xs, hxs⟩ := exists_adopt (messageArena.next (messageArena.replace m ys)) nested
      ((messageArena.replace m ys).addMessage { element with messages := nested }).model
    refine ⟨xs, m.messages ++ [messageArena.next (messageArena.replace m ys)], ?_⟩
    rw [addListed, hadd]
    exact congrArg (fun owned : Model =>
      { owned with messages := owned.messages ++ [messageArena.next (messageArena.replace m ys)] })
        hxs

/-! ## Component schemas -/

/-- Whether messages are what a component schema is made into: the entries of its maps and its own
message. -/
def ComponentBatch (package : String) (component : String × Schema)
    (batch : List Message) : Prop :=
  ∃ made, component.2.properties.mapM
      (fun property => makeField package (qualify package component.1) property.1 property.2) =
        .ok made ∧
    batch = made.filterMap MadeField.entry ++ [componentMessage package component made]

/-- What is so of every map entry and of the message of a component schema is so of all messages of
the component. -/
theorem ComponentBatch.forall_messages {package : String} {component : String × Schema}
    {batch : List Message} {Q : Message → Prop} (h : ComponentBatch package component batch)
    (hentry : ∀ id name values x, mapEntry package id name values = .ok x → Q x)
    (hown : ∀ made, component.2.properties.mapM
      (fun property => makeField package (qualify package component.1) property.1 property.2) =
        .ok made →
      Q (componentMessage package component made)) : ∀ x ∈ batch, Q x := by
  obtain ⟨made, hmade, rfl⟩ := h
  intro x hx
  rcases List.mem_append.1 hx with hx | hx
  · obtain ⟨field, hfield, hx⟩ := List.mem_filterMap.1 hx
    obtain ⟨property, -, hproperty⟩ := Attempt.mapM_forall_right hmade field hfield
    obtain ⟨values, hvalues⟩ := exists_mapEntry_of_makeField hproperty hx
    exact hentry _ _ values x hvalues
  · obtain rfl := List.mem_singleton.1 hx
    exact hown made hmade

/-- The messages of a component schema are added and its own is listed. -/
theorem exists_componentBatch {component : String × Schema}
    (hadd : addSchema m component = .ok other) :
    ∃ batch, ComponentBatch m.packageName component batch ∧
      contents other = contents m ++ batch.map Message.unplaced ∧
      ∃ xs refs, other = { messageArena.replace m xs with messages := refs } := by
  obtain ⟨made, hmade, rfl⟩ := of_addSchema hadd
  exact ⟨_, ⟨made, hmade, rfl⟩, contents_addListed _ _ _, exists_addListed _ _ _⟩

/-- The messages of all component schemas are added. -/
theorem exists_componentBatches {components : List (String × Schema)}
    (hadd : components.foldlM addSchema m = .ok other) :
    ∃ batches, List.Forall₂ (ComponentBatch m.packageName) components batches ∧
      contents other = contents m ++ batches.flatten.map Message.unplaced ∧
      ∃ xs refs, other = { messageArena.replace m xs with messages := refs } := by
  induction components generalizing m with
  | nil =>
    cases hadd
    exact ⟨[], .nil, by simp, _, _, rfl⟩
  | cons component rest ih =>
    rw [List.foldlM_cons, Attempt.bind_eq_ok] at hadd
    obtain ⟨k, hk, hrest⟩ := hadd
    obtain ⟨batch, hbatch, hcontents, xs, refs, rfl⟩ := exists_componentBatch hk
    obtain ⟨batches, hbatches, hmore, ys, others, rfl⟩ := ih hrest
    refine ⟨batch :: batches, .cons hbatch hbatches, ?_, ys, others, rfl⟩
    rw [hmore, hcontents, List.flatten_cons, List.map_append, List.append_assoc]

/-! ## The whole document -/

/-- The request messages of methods are added one by one. -/
theorem contents_addMethods {made : List MadeMethod} {found refs : List MethodRef}
    (hadd : made.foldl addMethod (found, m) = (refs, k)) :
    contents k = contents m ++ made.map (·.request.unplaced) ∧
      k.packageName = m.packageName ∧ k.store.enums = m.store.enums ∧
      k.store.services = m.store.services := by
  induction made generalizing m found with
  | nil =>
    obtain ⟨-, rfl⟩ := Prod.mk.inj hadd
    exact ⟨(List.append_nil _).symm, rfl, rfl, rfl⟩
  | cons x rest ih =>
    obtain ⟨hcontents, hpackage, henums, hservices⟩ := ih hadd
    obtain ⟨xs, messages, hlisted⟩ := exists_addListed m x.request []
    refine ⟨?_, hpackage.trans ?_, henums.trans ?_, hservices.trans ?_⟩
    · have hfirst := contents_addListed m x.request []
      have hmethod : contents ((addListed m x.request []).addMethod x.method).model =
          contents (addListed m x.request []) := rfl
      rw [hcontents, hmethod, hfirst, List.append_assoc]
      rfl
    · dsimp only
      rw [hlisted]
      rfl
    · dsimp only
      rw [hlisted]
      rfl
    · dsimp only
      rw [hlisted]
      rfl

/-- What the reader makes of a document before the well-known types are added. -/
structure DocumentContents (d : Document) (serviceName : String) (batches : List (List Message))
    (made : List MadeMethod) (k : Model) : Prop where
  /-- Every component schema is made into messages. -/
  components : List.Forall₂ (ComponentBatch k.packageName) d.schemas batches
  /-- Every call is made into a method and a request message. -/
  calls : d.calls.mapM (makeMethod k.packageName (qualify k.packageName serviceName)) = .ok made
  /-- The store holds those messages, in their order. -/
  contents : contents k = batches.flatten.map Message.unplaced ++ made.map (·.request.unplaced)
  /-- There is no enumeration. -/
  enums : k.store.enums = #[]
  /-- Every service is in the package of the model. -/
  services : ∀ x ∈ k.store.services, x.package = k.packageName

/-- What tells no place, and is so of the messages of all components and of the requests of all
calls, is so of every message that is read. -/
theorem DocumentContents.forall_messages {d : Document} {serviceName : String}
    {batches : List (List Message)} {made : List MadeMethod} {Q : Message → Prop}
    (h : DocumentContents d serviceName batches made k)
    (hplace : ∀ x : Message, Q x.unplaced ↔ Q x)
    (hcomponents : ∀ component ∈ d.schemas, ∀ batch ∈ batches,
      ComponentBatch k.packageName component batch →
      ∀ x ∈ batch, Q x)
    (hcalls : ∀ c ∈ d.calls, ∀ x,
      makeMethod k.packageName (qualify k.packageName serviceName) c = .ok x →
      Q x.request) : ∀ x ∈ k.store.messages, Q x := by
  intro x hx
  have hmem : x.unplaced ∈ OpenApi.contents k := List.mem_map_of_mem (Array.mem_toList_iff.2 hx)
  rw [h.contents] at hmem
  rw [← hplace]
  rcases List.mem_append.1 hmem with hmem | hmem
  · obtain ⟨y, hy, heq⟩ := List.mem_map.1 hmem
    obtain ⟨batch, hbatch, hy⟩ := List.mem_flatten.1 hy
    obtain ⟨component, hcomponent, hmade⟩ := Attempt.exists_mem_left h.components batch hbatch
    rw [← heq, hplace]
    exact hcomponents component hcomponent batch hbatch hmade y hy
  · obtain ⟨y, hy, heq⟩ := List.mem_map.1 hmem
    obtain ⟨c, hc, hmake⟩ := Attempt.mapM_forall_right h.calls y hy
    rw [← heq, hplace]
    exact hcalls c hc y hmake

/-- The service of a document is added behind its request messages. -/
theorem documentContents_addService {d : Document} {name : String} {batches : List (List Message)}
    (hcontents : OpenApi.contents m = batches.flatten.map Message.unplaced)
    (hcomponents : List.Forall₂ (ComponentBatch m.packageName) d.schemas batches)
    (henums : m.store.enums = #[]) (hservices : m.store.services = #[])
    (hadd : addService d name m = .ok k) :
    ∃ made, DocumentContents d name batches made k := by
  unfold addService at hadd
  obtain ⟨made, hmade, hadd⟩ := Attempt.bind_eq_ok.1 hadd
  have hcalls : d.calls.mapM (makeMethod m.packageName (qualify m.packageName name)) =
    .ok made := hmade
  split at hadd
  · rename_i hnone
    obtain rfl := Except.ok.inj hadd
    obtain rfl : made = [] := List.isEmpty_iff.1 hnone
    refine ⟨[], hcomponents, hcalls, by simpa using hcontents, henums, fun x hx => ?_⟩
    rw [hservices] at hx
    exact absurd hx (Array.not_mem_empty x)
  · split at hadd
    rename_i refs last hfold
    obtain rfl := Except.ok.inj hadd
    obtain ⟨hlast, hpackage, hnone, hstore⟩ := contents_addMethods hfold
    rw [hcontents] at hlast
    rw [← hpackage] at hcomponents hcalls
    refine ⟨made, hcomponents, hcalls, hlast, hnone.trans henums, fun x hx => ?_⟩
    have hpushed : x ∈ last.store.services.push _ := hx
    rw [hstore, hservices] at hpushed
    rcases Array.mem_push.1 hpushed with hx | rfl
    · exact absurd hx (Array.not_mem_empty x)
    · exact hpackage.symm

/-- Reading a document puts its messages into the store, and then adds the well-known types. -/
theorem exists_documentContents {d : Document} {config : Option ServiceConfig}
    (h : d.model config = .ok m) :
    ∃ k batches made, m = WellKnown.register k ∧
      DocumentContents d (d.serviceName config) batches made k := by
  obtain ⟨k, hschemas, h⟩ := Attempt.bind_eq_ok.1 h
  obtain ⟨last, hservice, h⟩ := Attempt.bind_eq_ok.1 h
  obtain rfl := Except.ok.inj h
  obtain ⟨batches, hbatches, hcontents, xs, refs, rfl⟩ := exists_componentBatches hschemas
  have hempty : contents (d.identity config) = [] := rfl
  rw [hempty, List.nil_append] at hcontents
  obtain ⟨made, hmade⟩ := documentContents_addService hcontents hbatches rfl rfl hservice
  exact ⟨last, batches, made, rfl, hmade⟩

end OpenApi

end ApiModel
