import ApiModel.Proofs.Descriptor.Correspondence
import ApiModel.Proofs.Documentation

/-!
# The messages of a descriptor set as they are converted

Every message of the model is one that was converted from its declaration, but for what is put into
it later: when it is added, it becomes the owner of its fields and gets the places of what is nested
in it, and when methods are added, fields that clients fill in are marked.
-/

namespace ApiModel

/-- The field without who owns it. -/
def Field.detached (f : Field) : Field := { f with parent := none }

/-- The field without the mark that clients fill it in. -/
def Field.unmarked (f : Field) : Field := { f with autoPopulated := false }

/-- The message without what adding it to a model puts into it: who owns its fields, and the places
of what is nested in it. -/
def Message.detached (x : Message) : Message :=
  { x with fields := x.fields.map Field.detached, messages := [], enums := [] }

/-- The message without the marks of fields that clients fill in. -/
def Message.unmarked (x : Message) : Message :=
  { x with fields := x.fields.map Field.unmarked }

/-- A message that owns its fields is the same once it is detached. -/
theorem Message.detached_ownedBy (x : Message) (r : MessageRef) :
    (x.ownedBy r).detached = x.detached := by
  rw [Message.detached, Message.ownedBy, List.map_map]
  rfl

/-- Marks and what adding puts into a message are left out in either order. -/
theorem Message.detached_unmarked (x : Message) : x.unmarked.detached = x.detached.unmarked := by
  rw [Message.detached, Message.unmarked, Message.unmarked, Message.detached, List.map_map,
    List.map_map]
  rfl

namespace Descriptor

open Model

variable {m k other : Model}

/-! ## Adding messages -/

/-- Changing a message at a place in a way that does not show leaves what shows of the messages. -/
theorem map_modifyMessage {κ : Type} {view : ApiModel.Message → κ}
    {change : ApiModel.Message → ApiModel.Message} (h : ∀ x, view (change x) = view x)
    (m : Model) (r : MessageRef) :
    (m.modifyMessage r change).store.messages.toList.map view =
      m.store.messages.toList.map view := by
  change (m.store.messages.modify r.index change).toList.map view = _
  rw [Array.toList_modify, map_modify h]

/-- Adding enumerations leaves the messages of the store. -/
theorem messages_addEnums (context : FileContext) (scope : String) (parent : Option MessageRef)
    (placeOf : Nat → Place) (m : Model) (enums : List Enumeration) :
    (addEnums context scope parent placeOf m enums).model.store.messages = m.store.messages :=
  List.foldlRecOn (motive := fun state : AddedAll EnumRef =>
    state.model.store.messages = m.store.messages)
    enums.zipIdx _ rfl fun _ hstate _ _ => hstate

/-- Whether a message is converted from a declared one. -/
def Declared.ConvertsTo (d : Declared Message) (x : ApiModel.Message) : Prop :=
  ∃ scope names place, IsScope scope d.file.packageName names ∧
    d.names = names ++ [d.source.name.getD ""] ∧
    convertMessage d.file.context scope (d.parent.map MessageRef.mk) place d.source = .ok x

/-- A message is converted from its declaration. -/
theorem convertsTo_convertMessage {file : File} {scope : String} {names : List String}
    (hscope : IsScope scope file.packageName names) {parent : Option Nat} {place : Place}
    {message : Message} {x : ApiModel.Message}
    (h : convertMessage file.context scope (parent.map MessageRef.mk) place message = .ok x) :
    Declared.ConvertsTo ⟨file, names ++ [message.name.getD ""], parent, message⟩ x :=
  ⟨scope, names, place, hscope, rfl, h⟩

/-- The fields of a converted message are owned by none and not marked. -/
theorem fields_convertMessage {context : FileContext} {scope : String} {parent : Option MessageRef}
    {place : Place} {message : Message} {x : ApiModel.Message}
    (h : convertMessage context scope parent place message = .ok x) :
    ∀ f ∈ x.fields, f.parent = none ∧ f.autoPopulated = false := by
  obtain ⟨fields, hfields, rfl⟩ := convertMessage_eq_ok.1 h
  intro f hf
  obtain ⟨source, documentation, made, hmade, rfl⟩ := exists_convert_of_mem hfields f hf
  have hnew := convertsTo_convert hmade
  rw [inGroup_eq]
  exact ⟨hnew.parent, hnew.autoPopulated⟩

namespace Declared.ConvertsTo

variable {d : Declared Message} {x : ApiModel.Message}

/-- The fields of a converted message are owned by none and not marked. -/
theorem fields (h : d.ConvertsTo x) : ∀ f ∈ x.fields, f.parent = none ∧
    f.autoPopulated = false := by
  obtain ⟨scope, names, place, -, -, hconvert⟩ := h
  exact fields_convertMessage hconvert

/-- A converted message has nothing of what is put into it when it is added. -/
theorem detached (h : d.ConvertsTo x) : x.detached = x := by
  have hfields : x.fields.map ApiModel.Field.detached = x.fields :=
    (List.map_congr_left
      fun f hf => by rw [ApiModel.Field.detached, ← (h.fields f hf).1]; rfl).trans
      x.fields.map_id
  obtain ⟨scope, names, place, -, -, hconvert⟩ := h
  obtain ⟨made, -, hconvert⟩ := Attempt.bind_eq_ok.1 hconvert
  obtain rfl := Except.ok.inj hconvert
  rw [Message.detached, hfields]

/-- A converted message has no marks. -/
theorem unmarked (h : d.ConvertsTo x) : x.unmarked = x := by
  have hfields : x.fields.map ApiModel.Field.unmarked = x.fields :=
    (List.map_congr_left
      fun f hf => by rw [ApiModel.Field.unmarked, ← (h.fields f hf).2]; rfl).trans
      x.fields.map_id
  rw [Message.unmarked, hfields]

/-- A message that was converted from a declared one is made from it, whatever is put into it
later. -/
theorem yields (h : d.ConvertsTo x.unmarked.detached) : MessageYields d x := by
  obtain ⟨file, names, parent, source⟩ := d
  obtain ⟨scope, outer, place, hscope, hnames, hconvert⟩ := h
  obtain rfl : names = outer ++ [source.name.getD ""] := hnames
  have hyields := messageYields_convertMessage hscope hconvert
  refine ⟨hyields.name, hyields.id, hyields.package, hyields.parent, ?_⟩
  have hfields := List.forall₂_map_right_iff.1 (List.forall₂_map_right_iff.1 hyields.fields)
  exact hfields.imp fun _ _ hf => ⟨hf.name, hf.id, hf.jsonName, hf.type, hf.typeId, hf.repeated⟩

end Declared.ConvertsTo

/-- Whether the messages of a model are, behind those of an earlier one, converted from declared
ones. -/
def AddsConverted (ds : List (Declared Message)) (m k : Model) : Prop :=
  ∃ made, k.store.messages.toList.map Message.detached =
    m.store.messages.toList.map Message.detached ++ made ∧
      List.Forall₂ Declared.ConvertsTo ds made

namespace AddsConverted

variable {ds ds' : List (Declared Message)}

/-- A model adds no messages to itself. -/
theorem refl (m : Model) : AddsConverted [] m m :=
  ⟨[], (List.append_nil _).symm, .nil⟩

/-- A model with the same messages has the same converted messages added. -/
theorem congr (h : AddsConverted ds m k) (hmessages : other.store.messages = k.store.messages) :
    AddsConverted ds m other := by
  rwa [AddsConverted, hmessages]

/-- The messages that are added in two runs are added by both together. -/
theorem append (h : AddsConverted ds m k) (h' : AddsConverted ds' k other) :
    AddsConverted (ds ++ ds') m other := by
  obtain ⟨made, hmade, hconverts⟩ := h
  obtain ⟨made', hmade', hconverts'⟩ := h'
  exact ⟨made ++ made', by rw [hmade', hmade, List.append_assoc],
    List.rel_append hconverts hconverts'⟩

/-- The messages of the store grow by as many as are added. -/
theorem size_messages (h : AddsConverted ds m k) :
    k.store.messages.size = m.store.messages.size + ds.length := by
  obtain ⟨made, hmade, hconverts⟩ := h
  have hlength := congrArg List.length hmade
  rwa [List.length_append, List.length_map, List.length_map, Array.length_toList,
    Array.length_toList, ← hconverts.length_eq] at hlength

/-- Adding a message that is converted from a declaration adds one of it. -/
theorem addMessage {d : Declared Message} {x : ApiModel.Message} (h : d.ConvertsTo x) (m : Model) :
    AddsConverted [d] m (m.addMessage x).model := by
  refine ⟨[x], ?_, .cons h .nil⟩
  rw [model_addMessage]
  change (m.store.messages.push (x.ownedBy _)).toList.map Message.detached = _
  rw [Array.toList_push, List.map_append, List.map_singleton, Message.detached_ownedBy, h.detached]

/-- Listing what is nested in a message leaves it as it was converted. -/
theorem nest (h : AddsConverted ds m k) (r : MessageRef) (nested : List MessageRef)
    (nestedEnums : List EnumRef) :
    AddsConverted ds m
      (k.modifyMessage r fun x => { x with messages := nested, enums := nestedEnums }) := by
  obtain ⟨made, hmade, hconverts⟩ := h
  have hview : ∀ x : ApiModel.Message,
      ({ x with messages := nested, enums := nestedEnums } : ApiModel.Message).detached =
        x.detached :=
    fun _ => rfl
  exact ⟨made, (map_modifyMessage hview k r).trans hmade, hconverts⟩

end AddsConverted

mutual

/-- Adding a message with what is nested in it adds what it declares as it is converted. -/
theorem addsConverted_addMessageTree {file : File} {scope : String} {names : List String}
    (hscope : IsScope scope file.packageName names) (parent : Option Nat)
    {place : Place} {m : Model} {added : Added MessageRef} (message : Message)
    (h : addMessageTree file.context scope (parent.map MessageRef.mk) place m message = .ok added) :
    AddsConverted (message.preorder file names parent m.store.messages.size) m added.model := by
  match message with
  | .mk name fields messages enums options oneofs =>
    rw [addMessageTree] at h
    obtain ⟨element, helement, h⟩ := Attempt.bind_eq_ok.1 h
    obtain ⟨nested, hnested, h⟩ := Attempt.bind_eq_ok.1 h
    obtain rfl := Except.ok.inj h
    have hid : element.id = scope ++ "." ++ name.getD "" :=
      (messageYields_convertMessage hscope helement).id.trans (hscope _).symm
    have hinner : IsScope element.id file.packageName (names ++ [name.getD ""]) :=
      hid ▸ hscope.append (name.getD "")
    have hfirst : AddsConverted _ m (m.addMessage element).model :=
      .addMessage (convertsTo_convertMessage hscope helement) m
    have hmessages :=
      addsConverted_addMessageTrees hinner (some m.store.messages.size) messages hnested
    rw [hfirst.size_messages] at hmessages
    rw [Message.preorder]
    exact ((hfirst.append hmessages).congr (messages_addEnums ..)).nest _ _ _

/-- Adding messages with what is nested in them adds what they declare as it is converted. -/
theorem addsConverted_addMessageTrees {file : File} {scope : String} {names : List String}
    (hscope : IsScope scope file.packageName names) (parent : Option Nat) {placeOf : Nat → Place}
    {position : Nat} {m : Model} {added : AddedAll MessageRef} (messages : List Message)
    (h : addMessageTrees file.context scope (parent.map MessageRef.mk) placeOf position m messages =
      .ok added) :
    AddsConverted (Message.preorderAll file names parent m.store.messages.size messages) m
      added.model := by
  match messages with
  | [] =>
    rw [addMessageTrees] at h
    obtain rfl := Except.ok.inj h
    exact .refl _
  | message :: rest =>
    rw [addMessageTrees] at h
    obtain ⟨first, hfirst, h⟩ := Attempt.bind_eq_ok.1 h
    obtain ⟨others, hothers, h⟩ := Attempt.bind_eq_ok.1 h
    obtain rfl := Except.ok.inj h
    have hadds := addsConverted_addMessageTree hscope parent message hfirst
    have haddsRest := addsConverted_addMessageTrees hscope parent rest hothers
    rw [hadds.size_messages, Message.length_preorder] at haddsRest
    exact hadds.append haddsRest

end

/-- Adding the types of a file adds its messages as they are converted. -/
theorem AddsConverted.addTypes {selected : File → Bool} {file : File}
    (h : Descriptor.addTypes selected m file = .ok other) :
    AddsConverted (Message.preorderAll file [] none m.store.messages.size file.messages)
      m other := by
  obtain ⟨trees, htrees, h⟩ := Attempt.bind_eq_ok.1 h
  have hadds :=
    addsConverted_addMessageTrees (isScope_scopeOf file.packageName) none file.messages htrees
  refine hadds.congr ?_
  split at h <;> obtain rfl := Except.ok.inj h
  · exact messages_addEnums ..
  · exact messages_addEnums ..

/-- Adding the types of files adds their messages as they are converted. -/
theorem AddsConverted.foldlM {selected : File → Bool} {files : List File}
    (h : files.foldlM (Descriptor.addTypes selected) m = .ok other) :
    AddsConverted (File.preorderAll m.store.messages.size files) m other := by
  induction files generalizing m with
  | nil =>
    obtain rfl := Except.ok.inj h
    exact .refl _
  | cons file rest ih =>
    rw [List.foldlM_cons] at h
    obtain ⟨k, hk, hrest⟩ := Attempt.bind_eq_ok.1 h
    have hfile := AddsConverted.addTypes hk
    have hfiles := ih hrest
    rw [hfile.size_messages, Message.length_preorderAll] at hfiles
    exact hfile.append hfiles

/-! ## Adding services -/

/-- Whether what is done for the services of a set keeps a property of the model. -/
structure KeptByServices (context : ServiceContext) (P : Model → Prop) : Prop where
  /-- A method is added that was converted before, and the fields that it fills in are marked. -/
  method : ∀ {m package serviceId documentation source x},
    Method.convert context m package serviceId documentation source = .ok x → P m →
      P ((x.autoPopulated.foldl markAutoPopulated m).addMethod x).model
  /-- A service is added and listed. -/
  service : ∀ {m} x services, P m → P { (m.addService x).model with services := services }

namespace KeptByServices

variable {context : ServiceContext} {P : Model → Prop}

/-- Adding methods keeps what is kept. -/
theorem addMethods (h : KeptByServices context P) {package serviceId : String} {comments : Comments}
    {placeOf : Nat → Place} {position : Nat} {methods : List Method}
    {added : AddedAll MethodRef} (hm : P m)
    (hadd : Descriptor.addMethods context package serviceId comments placeOf position m methods =
      .ok added) :
    P added.model := by
  induction methods generalizing m position added with
  | nil =>
    obtain rfl := Except.ok.inj hadd
    exact hm
  | cons method rest ih =>
    rw [Descriptor.addMethods] at hadd
    obtain ⟨x, hx, hadd⟩ := Attempt.bind_eq_ok.1 hadd
    obtain ⟨others, hothers, hadd⟩ := Attempt.bind_eq_ok.1 hadd
    obtain rfl := Except.ok.inj hadd
    have hrest : P others.model := ih (h.method hx hm) hothers
    exact hrest

/-- Adding the services of files keeps what is kept. -/
theorem foldlM (h : KeptByServices context P) {files : List File} (hm : P m)
    (hadd : files.foldlM (addServices context) m = .ok k) : P k := by
  refine Attempt.foldlM_keeps (fun _ _ _ hm hk => ?_) hm hadd
  refine Attempt.foldlM_keeps (fun _ _ _ hm hk => ?_) hm hk
  obtain ⟨methods, hmethods, hk⟩ := Attempt.bind_eq_ok.1 hk
  obtain rfl := Except.ok.inj hk
  exact h.service _ _ (h.addMethods hm hmethods)

end KeptByServices

/-- What shows of the messages of a model when fields that clients fill in are not marked. -/
def unmarkedMessages (m : Model) : List ApiModel.Message :=
  m.store.messages.toList.map Message.unmarked

/-- Marking a field that clients fill in leaves the messages but for the marks. -/
theorem unmarkedMessages_markAutoPopulated (m : Model) (ref : FieldRef) :
    unmarkedMessages (markAutoPopulated m ref) = unmarkedMessages m := by
  have hfield : ∀ f : ApiModel.Field, { f with autoPopulated := true }.unmarked = f.unmarked :=
    fun _ => rfl
  refine map_modifyMessage (fun x => ?_) m ref.message
  rw [Message.unmarked, Message.unmarked, map_modify hfield]

/-- Marking fields that clients fill in leaves the messages but for the marks. -/
theorem unmarkedMessages_markAllAutoPopulated (m : Model) (fields : List FieldRef) :
    unmarkedMessages (fields.foldl markAutoPopulated m) = unmarkedMessages m :=
  List.foldlRecOn (motive := fun k => unmarkedMessages k = unmarkedMessages m) fields _ rfl
    fun k hk ref _ => (unmarkedMessages_markAutoPopulated k ref).trans hk

/-- What is done for the services leaves the messages but for the marks. -/
theorem keptByServices_unmarkedMessages (context : ServiceContext) (types : Model) :
    KeptByServices context fun k => unmarkedMessages k = unmarkedMessages types where
  method _ hm := (unmarkedMessages_markAllAutoPopulated _ _).trans hm
  service _ _ hm := hm

/-! ## The model of a set -/

/-- The model of a set has, before the well-known types are added, whatever holds without methods
and marks and is kept while services are added. Its messages are converted from the declarations,
one for each and in order, but for what is put into them later. -/
theorem KeptByServices.exists_model {set : FileSet} {config : Option ServiceConfig}
    {included : List String} {P : Model → Prop}
    (hkept : KeptByServices ⟨config, set.messagesById⟩ P)
    (hstart : ∀ types : Model, types.store.methods = #[] →
      (∀ x ∈ types.store.messages, ∀ f ∈ x.fields, f.autoPopulated = false) → P types)
    (h : set.model config included = .ok m) :
    ∃ k, m = WellKnown.register k ∧ P k ∧
      List.Forall₂ (fun d (x : ApiModel.Message) => d.ConvertsTo x.unmarked.detached) set.preorder
        k.store.messages.toList := by
  obtain ⟨types, htypes, h⟩ := Attempt.bind_eq_ok.1 h
  obtain ⟨k, hk, h⟩ := Attempt.bind_eq_ok.1 h
  have hmethods : types.store.methods = #[] :=
    Attempt.foldlM_keeps (P := fun m => m.store.methods = #[])
      (fun m file k hm hk => (services_addTypes hk).2.2.trans hm) rfl htypes
  have hconverts : List.Forall₂ Declared.ConvertsTo set.preorder
      (types.store.messages.toList.map Message.detached) := by
    obtain ⟨made, hmade, hconverts⟩ := AddsConverted.foldlM htypes
    rw [hmade]
    exact hconverts
  have hmarks : ∀ x ∈ types.store.messages, ∀ f ∈ x.fields, f.autoPopulated = false := by
    intro x hx f hf
    obtain ⟨d, -, hd⟩ :=
      Attempt.exists_mem_left hconverts _ (List.mem_map_of_mem (Array.mem_toList_iff.2 hx))
    exact (hd.fields _ (List.mem_map_of_mem hf)).2
  have hunmarked : unmarkedMessages k = unmarkedMessages types :=
    (keptByServices_unmarkedMessages _ types).foldlM rfl hk
  have hviews : (unmarkedMessages k).map Message.detached =
      (types.store.messages.toList.map Message.detached).map Message.unmarked := by
    rw [hunmarked, unmarkedMessages, List.map_map, List.map_map]
    exact List.map_congr_left fun x _ => x.detached_unmarked
  have hall : List.Forall₂ Declared.ConvertsTo set.preorder
      ((unmarkedMessages k).map Message.detached) := by
    rw [hviews, List.forall₂_map_right_iff]
    exact hconverts.imp fun d x hx => hx.unmarked.symm ▸ hx
  rw [unmarkedMessages, List.forall₂_map_right_iff, List.forall₂_map_right_iff] at hall
  exact ⟨k, (Except.ok.inj h).symm, hkept.foldlM (hstart types hmethods hmarks) hk, hall⟩

/-- The messages of the model of a set are converted from its declarations, but for what is put into
them later and for the well-known types behind them. -/
theorem convertsTo_model {set : FileSet} {config : Option ServiceConfig} {included : List String}
    (h : set.model config included = .ok m) :
    ∃ k, m = WellKnown.register k ∧
      List.Forall₂ (fun d (x : ApiModel.Message) => d.ConvertsTo x.unmarked.detached) set.preorder
        k.store.messages.toList := by
  have hkept : ∀ context, KeptByServices context fun _ => True :=
    fun _ => ⟨fun _ _ => trivial, fun _ _ _ => trivial⟩
  obtain ⟨k, hm, -, hall⟩ := (hkept _).exists_model (fun _ _ _ => trivial) h
  exact ⟨k, hm, hall⟩

end Descriptor

end ApiModel
