import ApiModel.Proofs.Descriptor.Body
import ApiModel.Proofs.Descriptor.Declarations
import ApiModel.Proofs.Graph.Growth

/-!
# The structure of the model of a descriptor set

Before the well-known types are added, the messages and enumerations of the model are those that the
files declare, one for each and in the order of the declarations; each has the full name, the
package, the parent and the fields or values of its declaration. The lists of the model hold what
stands at the top of the files, and the services are those of the selected files.
-/

namespace ApiModel.Descriptor

open Model

variable {m k other : Model}

/-! ## What is made from a descriptor -/

/-- The type of a field, if it has one that is known. -/
def Field.fieldType? (f : Field) : Option FieldType :=
  f.type.bind fun number => FieldType.ofNumber? number.toInt

/-- What a field of the message of a full name is made into. -/
structure Field.Yields (messageId : String) (f : Field) (x : ApiModel.Field) : Prop where
  /-- The name stays. -/
  name : x.name = f.name.getD ""
  /-- The full name is that of the message with the name behind it. -/
  id : x.id = messageId ++ "." ++ x.name
  /-- The name in JSON stays, or is the name. -/
  jsonName : x.jsonName = f.jsonName.getD x.name
  /-- The type is known and stays. -/
  type : f.fieldType? = some x.type
  /-- A message or an enumeration stays under its full name. -/
  typeId : x.typeId = if namesType x.type then f.typeName.getD "" else ""
  /-- A list stays a list. -/
  repeated : x.repeated = (f.label.getD Field.optionalLabel == Field.repeatedLabel)

/-- What a declared message is made into. -/
structure MessageYields (d : Declared Message) (x : ApiModel.Message) : Prop where
  /-- The name stays. -/
  name : x.name = d.source.name.getD ""
  /-- The full name is that of the declaration. -/
  id : x.id = d.id
  /-- The package is that of the file. -/
  package : x.package = d.file.packageName
  /-- The parent is what stands for the message around it. -/
  parent : x.parent = d.parent.map MessageRef.mk
  /-- There is one field for each, in order. -/
  fields : List.Forall₂ (Field.Yields d.id) d.source.fields x.fields

/-- What a value of the enumeration of a full name is made into. -/
structure EnumValue.Yields (enumId : String) (v : EnumValue) (x : ApiModel.EnumValue) : Prop where
  /-- The name stays. -/
  name : x.name = v.name.getD ""
  /-- The full name is that of the enumeration with the name behind it. -/
  id : x.id = enumId ++ "." ++ x.name
  /-- The number stays. -/
  number : x.number = (v.number.getD 0).toInt

/-- What a declared enumeration is made into. -/
structure EnumYields (d : Declared Enumeration) (x : ApiModel.Enumeration) : Prop where
  /-- The name stays. -/
  name : x.name = d.source.name.getD ""
  /-- The full name is that of the declaration. -/
  id : x.id = d.id
  /-- The package is that of the file. -/
  package : x.package = d.file.packageName
  /-- The parent is what stands for the message around it. -/
  parent : x.parent = d.parent.map MessageRef.mk
  /-- There is one value for each, in order. -/
  values : List.Forall₂ (EnumValue.Yields d.id) d.source.values x.values

/-- A converted field is made from its descriptor. -/
theorem yields_convert {context : FileContext} {messageId documentation : String} {f : Field}
    {x : ApiModel.Field} (h : f.convert context messageId documentation = .ok x) :
    f.Yields messageId x := by
  unfold Field.convert at h
  dsimp only at h
  split at h
  · rename_i type htype
    obtain rfl := Except.ok.inj h
    exact ⟨rfl, rfl, rfl, htype, rfl, rfl⟩
  · cases h

/-- A converted message is made from its declaration. -/
theorem messageYields_convertMessage {file : File} {scope : String} {names : List String}
    (hscope : IsScope scope file.packageName names) {parent : Option Nat} {place : Place}
    {message : Message} {x : ApiModel.Message}
    (h : convertMessage file.context scope (parent.map MessageRef.mk) place message = .ok x) :
    MessageYields ⟨file, names ++ [message.name.getD ""], parent, message⟩ x := by
  have hid := hscope (message.name.getD "")
  obtain ⟨fields, hfields, rfl⟩ := convertMessage_eq_ok.1 h
  refine ⟨rfl, hid, rfl, rfl, ?_⟩
  have hyields : List.Forall₂
      (fun entry field => entry.1.Yields (scope ++ "." ++ message.name.getD "") field)
      message.fields.zipIdx fields := by
    refine (forall₂_convertFields hfields).imp ?_
    rintro entry _ ⟨made, hmade, rfl⟩
    have hmade := yields_convert hmade
    -- belonging to a group is no part of what is compared
    rw [inGroup_eq]
    exact ⟨hmade.name, hmade.id, hmade.jsonName, hmade.type, hmade.typeId, hmade.repeated⟩
  have hfirst := List.forall₂_map_left_iff.2 hyields
  rw [List.zipIdx_map_fst, hid] at hfirst
  exact hfirst

/-- A converted enumeration is made from its declaration. -/
theorem enumYields_convertEnum {file : File} {scope : String} {names : List String}
    (hscope : IsScope scope file.packageName names) (parent : Option Nat) (place : Place)
    (e : Enumeration) :
    EnumYields ⟨file, names ++ [e.name.getD ""], parent, e⟩
      (convertEnum file.context scope (parent.map MessageRef.mk) place e) := by
  have hid := hscope (e.name.getD "")
  refine ⟨rfl, hid, rfl, rfl, ?_⟩
  change List.Forall₂ _ e.values (e.values.zipIdx.map _)
  rw [List.forall₂_map_right_iff, ← List.zipIdx_map_fst 0 e.values, List.forall₂_map_left_iff,
    List.zipIdx_map_fst, List.forall₂_same]
  exact fun entry _ => ⟨rfl, congrArg (· ++ "." ++ entry.1.name.getD "") hid, rfl⟩

/-- Owning its fields changes nothing that is compared. -/
theorem MessageYields.ownedBy {d : Declared Message} {x : ApiModel.Message} (h : MessageYields d x)
    (r : MessageRef) : MessageYields d (x.ownedBy r) where
  name := h.name
  id := h.id
  package := h.package
  parent := h.parent
  fields := List.forall₂_map_right_iff.2 <| h.fields.imp fun _ _ hf =>
    ⟨hf.name, hf.id, hf.jsonName, hf.type, hf.typeId, hf.repeated⟩

/-- Owning its values changes nothing that is compared. -/
theorem EnumYields.ownedBy {d : Declared Enumeration} {x : ApiModel.Enumeration}
    (h : EnumYields d x) (r : EnumRef) : EnumYields d (x.ownedBy r) where
  name := h.name
  id := h.id
  package := h.package
  parent := h.parent
  values := List.forall₂_map_right_iff.2 <| h.values.imp fun _ _ hv =>
    ⟨hv.name, hv.id, hv.number⟩

/-- Changing an element in a way that keeps a relation keeps it for the whole list. -/
theorem forall₂_modify {α β : Type} {R : α → β → Prop} {xs : List α} {ys : List β}
    (h : List.Forall₂ R xs ys) (i : Nat) {change : β → β}
    (hchange : ∀ x y, R x y → R x (change y)) :
    List.Forall₂ R xs (ys.modify i change) := by
  induction h generalizing i with
  | nil => simp
  | cons hxy hrest ih =>
    cases i with
    | zero => exact .cons (hchange _ _ hxy) hrest
    | succ i => exact .cons hxy (ih i)

/-- An item of a list stands for the item at the same place of a related list. -/
theorem exists_getElem?_of_forall₂ {α β : Type} {R : α → β → Prop} {xs : List α}
    {ys : List β} (h : List.Forall₂ R xs ys) {i : Nat} {y : β} (hy : ys[i]? = some y) :
    ∃ x, xs[i]? = some x ∧ R x y := by
  obtain ⟨hi, rfl⟩ := List.getElem?_eq_some_iff.1 hy
  have hlt : i < xs.length := h.length_eq ▸ hi
  exact ⟨xs[i], List.getElem?_eq_getElem hlt, h.get hlt hi⟩

/-- Changing an element behind a list leaves the list as it is. -/
theorem modify_length_add {α : Type} (xs ys : List α) (i : Nat) (change : α → α) :
    (xs ++ ys).modify (xs.length + i) change = xs ++ ys.modify i change := by
  induction xs with
  | nil => rw [List.length_nil, Nat.zero_add, List.nil_append, List.nil_append]
  | cons x xs ih =>
    rw [List.cons_append, List.length_cons, Nat.add_right_comm, List.modify_succ_cons, ih,
      List.cons_append]

/-! ## Adding types -/

/-- What of a model stays while types are added: all but the messages and enumerations of the
store. -/
structure Frame where
  /-- The messages to generate. -/
  messages : List MessageRef
  /-- The enumerations to generate. -/
  enums : List EnumRef
  /-- The external messages. -/
  externalMessages : List MessageRef
  /-- The external enumerations. -/
  externalEnums : List EnumRef
  /-- The services to generate. -/
  services : List ServiceRef
  /-- The services of the store. -/
  storedServices : Array ApiModel.Service
  /-- The methods of the store. -/
  storedMethods : Array ApiModel.Method

/-- What of a model stays while types are added. -/
def frame (m : Model) : Frame :=
  ⟨m.messages, m.enums, m.externalMessages, m.externalEnums, m.services, m.store.services,
    m.store.methods⟩

/-- Whether a model has, behind the messages and enumerations of an earlier one, those made from
declarations. -/
structure AddsTypes (messages : List (Declared Message)) (enums : List (Declared Enumeration))
    (m k : Model) : Prop where
  /-- The messages that are added. -/
  messages : ∃ made, k.store.messages.toList = m.store.messages.toList ++ made ∧
    List.Forall₂ MessageYields messages made
  /-- The enumerations that are added. -/
  enums : ∃ made, k.store.enums.toList = m.store.enums.toList ++ made ∧
    List.Forall₂ EnumYields enums made
  /-- The rest stays. -/
  kept : frame k = frame m

namespace AddsTypes

variable {messages messages' : List (Declared Message)} {enums enums' : List (Declared Enumeration)}

/-- A model adds no types to itself. -/
theorem refl (m : Model) : AddsTypes [] [] m m :=
  ⟨⟨[], by simp, .nil⟩, ⟨[], by simp, .nil⟩, rfl⟩

/-- The types that are added in two runs are added by both together. -/
theorem append (h : AddsTypes messages enums m k) (h' : AddsTypes messages' enums' k other) :
    AddsTypes (messages ++ messages') (enums ++ enums') m other := by
  obtain ⟨made, hmade, hyields⟩ := h.messages
  obtain ⟨made', hmade', hyields'⟩ := h'.messages
  obtain ⟨madeEnums, hmadeEnums, hyieldsEnums⟩ := h.enums
  obtain ⟨madeEnums', hmadeEnums', hyieldsEnums'⟩ := h'.enums
  exact ⟨⟨made ++ made', by rw [hmade', hmade, List.append_assoc],
    List.rel_append hyields hyields'⟩,
    ⟨madeEnums ++ madeEnums', by rw [hmadeEnums', hmadeEnums, List.append_assoc],
      List.rel_append hyieldsEnums hyieldsEnums'⟩,
    h'.kept.trans h.kept⟩

/-- The messages of the store grow by as many as are added. -/
theorem size_messages (h : AddsTypes messages enums m k) :
    k.store.messages.size = m.store.messages.size + messages.length := by
  obtain ⟨made, hmade, hyields⟩ := h.messages
  rw [← Array.length_toList, hmade, List.length_append, Array.length_toList, hyields.length_eq]

/-- The enumerations of the store grow by as many as are added. -/
theorem size_enums (h : AddsTypes messages enums m k) :
    k.store.enums.size = m.store.enums.size + enums.length := by
  obtain ⟨made, hmade, hyields⟩ := h.enums
  rw [← Array.length_toList, hmade, List.length_append, Array.length_toList, hyields.length_eq]

/-- Adding a message that a declaration yields adds one of it. -/
theorem addMessage {d : Declared Message} {x : ApiModel.Message} (h : MessageYields d x)
    (m : Model) :
    AddsTypes [d] [] m (m.addMessage x).model :=
  ⟨⟨[x.ownedBy ⟨m.store.messages.size⟩], Array.toList_push, .cons (h.ownedBy _) .nil⟩,
    ⟨[], (List.append_nil _).symm, .nil⟩, rfl⟩

/-- Adding an enumeration that a declaration yields adds one of it. -/
theorem addEnum {d : Declared Enumeration} {x : ApiModel.Enumeration} (h : EnumYields d x)
    (m : Model) :
    AddsTypes [] [d] m (m.addEnum x).model :=
  ⟨⟨[], (List.append_nil _).symm, .nil⟩,
    ⟨[x.ownedBy ⟨m.store.enums.size⟩], Array.toList_push, .cons (h.ownedBy _) .nil⟩, rfl⟩

/-- Listing what is nested in an added message leaves it made from its declaration. -/
theorem nest (h : AddsTypes messages enums m k) {r : MessageRef}
    (hr : m.store.messages.size ≤ r.index) (nested : List MessageRef)
    (nestedEnums : List EnumRef) :
    AddsTypes messages enums m
      (k.modifyMessage r fun x => { x with messages := nested, enums := nestedEnums }) := by
  obtain ⟨made, hmade, hyields⟩ := h.messages
  obtain ⟨i, hi⟩ := Nat.exists_eq_add_of_le hr
  refine ⟨⟨made.modify i fun x => { x with messages := nested, enums := nestedEnums }, ?_,
    forall₂_modify hyields i fun d x hx =>
      ⟨hx.name, hx.id, hx.package, hx.parent, hx.fields⟩⟩,
    h.enums, h.kept⟩
  change (k.store.messages.modify r.index _).toList = _
  rw [Array.toList_modify, hmade, hi, ← Array.length_toList, modify_length_add]

end AddsTypes

/-- Adding enumerations adds those of their declarations, at places in a row. -/
theorem addsTypes_addEnums {file : File} {scope : String} {names : List String}
    (hscope : IsScope scope file.packageName names) (parent : Option Nat) (placeOf : Nat → Place)
    (m : Model) (enums : List Enumeration) :
    AddsTypes [] (declaredEnums file names parent enums) m
        (addEnums file.context scope (parent.map MessageRef.mk) placeOf m enums).model ∧
      (addEnums file.context scope (parent.map MessageRef.mk) placeOf m enums).refs.map
        EnumRef.index =
        List.range' m.store.enums.size enums.length := by
  -- the induction is over the enumerations still to come, behind those that are already there
  suffices hall : ∀ (entries : List (Enumeration × Nat)) (state : AddedAll EnumRef),
      let last := entries.foldl
        (fun state entry =>
          let added := state.model.addEnum
            (convertEnum file.context scope (parent.map MessageRef.mk) (placeOf entry.2) entry.1)
          (⟨state.refs ++ [added.ref], added.model⟩ : AddedAll EnumRef)) state
      AddsTypes [] (declaredEnums file names parent (entries.map Prod.fst)) state.model
        last.model ∧
        last.refs.map EnumRef.index =
          state.refs.map EnumRef.index ++ List.range' state.model.store.enums.size entries.length by
    have h := hall enums.zipIdx ⟨[], m⟩
    rw [List.zipIdx_map_fst, List.length_zipIdx] at h
    exact h
  intro entries
  induction entries with
  | nil => exact fun state => ⟨.refl _, by simp⟩
  | cons entry rest ih =>
    intro state
    let x := convertEnum file.context scope (parent.map MessageRef.mk) (placeOf entry.2) entry.1
    have hfirst : AddsTypes [] _ state.model (state.model.addEnum x).model :=
      .addEnum (enumYields_convertEnum hscope parent (placeOf entry.2) entry.1) state.model
    obtain ⟨hrest, hrefs⟩ :=
      ih ⟨state.refs ++ [(state.model.addEnum x).ref], (state.model.addEnum x).model⟩
    refine ⟨hfirst.append hrest, hrefs.trans ?_⟩
    rw [hfirst.size_enums, List.map_append, List.append_assoc]
    rfl

mutual

/-- Adding a message with what is nested in it adds what it declares, itself at the next place. -/
theorem addsTypes_addMessageTree {file : File} {scope : String} {names : List String}
    (hscope : IsScope scope file.packageName names) (parent : Option Nat)
    {place : Place} {m : Model} {added : Added MessageRef} (message : Message)
    (h : addMessageTree file.context scope (parent.map MessageRef.mk) place m message = .ok added) :
    AddsTypes (message.preorder file names parent m.store.messages.size)
        (message.enumOrder file names m.store.messages.size) m added.model ∧
      added.ref.index = m.store.messages.size := by
  match message with
  | .mk name fields messages enums options oneofs =>
    rw [addMessageTree] at h
    obtain ⟨element, helement, h⟩ := Attempt.bind_eq_ok.1 h
    obtain ⟨nested, hnested, h⟩ := Attempt.bind_eq_ok.1 h
    obtain rfl := Except.ok.inj h
    have hyields := messageYields_convertMessage hscope helement
    have hfirst : AddsTypes _ _ m (m.addMessage element).model := .addMessage hyields m
    have hid : element.id = scope ++ "." ++ name.getD "" := hyields.id.trans (hscope _).symm
    have hinner : IsScope element.id file.packageName (names ++ [name.getD ""]) :=
      hid ▸ hscope.append (name.getD "")
    have hsize : (m.addMessage element).model.store.messages.size = m.store.messages.size + 1 :=
      hfirst.size_messages
    obtain ⟨hmessages, -⟩ :=
      addsTypes_addMessageTrees hinner (some m.store.messages.size) messages hnested
    obtain ⟨henums, -⟩ :=
      addsTypes_addEnums hinner (some m.store.messages.size) place.nestedEnum
      nested.model enums
    have hall := (hfirst.append hmessages).append henums
    rw [List.append_nil, hsize] at hall
    rw [Message.preorder, Message.enumOrder]
    exact ⟨hall.nest (Nat.le_refl _) _ _, rfl⟩

/-- Adding messages with what is nested in them adds what they declare. -/
theorem addsTypes_addMessageTrees {file : File} {scope : String} {names : List String}
    (hscope : IsScope scope file.packageName names) (parent : Option Nat) {placeOf : Nat → Place}
    {position : Nat} {m : Model} {added : AddedAll MessageRef} (messages : List Message)
    (h : addMessageTrees file.context scope (parent.map MessageRef.mk) placeOf position m messages =
      .ok added) :
    AddsTypes (Message.preorderAll file names parent m.store.messages.size messages)
        (Message.enumOrderAll file names m.store.messages.size messages) m added.model ∧
      added.refs.map MessageRef.index = Message.roots m.store.messages.size messages := by
  match messages with
  | [] =>
    rw [addMessageTrees] at h
    obtain rfl := Except.ok.inj h
    exact ⟨.refl m, rfl⟩
  | message :: rest =>
    rw [addMessageTrees] at h
    obtain ⟨first, hfirst, h⟩ := Attempt.bind_eq_ok.1 h
    obtain ⟨others, hothers, h⟩ := Attempt.bind_eq_ok.1 h
    obtain rfl := Except.ok.inj h
    obtain ⟨hadds, href⟩ := addsTypes_addMessageTree hscope parent message hfirst
    obtain ⟨haddsRest, hrefs⟩ := addsTypes_addMessageTrees hscope parent rest hothers
    have hsize := hadds.size_messages
    rw [Message.length_preorder] at hsize
    rw [hsize] at haddsRest hrefs
    refine ⟨hadds.append haddsRest, ?_⟩
    rw [List.map_cons, href, hrefs, Message.roots]

end

/-- Adding the types of a file adds its declarations, and lists those at the top of it. -/
theorem addsTypes_addTypes {selected : File → Bool} {file : File}
    (h : addTypes selected m file = .ok other) :
    ∃ (k : Model) (messages : List MessageRef) (enums : List EnumRef),
      AddsTypes (Message.preorderAll file [] none m.store.messages.size file.messages)
        (Message.enumOrderAll file [] m.store.messages.size file.messages ++
          declaredEnums file [] none file.enums) m k ∧
      messages.map MessageRef.index = Message.roots m.store.messages.size file.messages ∧
      enums.map EnumRef.index = List.range'
        (m.store.enums.size +
          (Message.enumOrderAll file [] m.store.messages.size file.messages).length)
        file.enums.length ∧
      other = if selected file then
          { k with messages := k.messages ++ messages, enums := k.enums ++ enums }
        else
          { k with
            externalMessages := k.externalMessages ++ messages
            externalEnums := k.externalEnums ++ enums } := by
  have hscope := isScope_scopeOf file.packageName
  obtain ⟨trees, htrees, h⟩ := Attempt.bind_eq_ok.1 h
  obtain ⟨hadds, hrefs⟩ := addsTypes_addMessageTrees hscope none file.messages htrees
  obtain ⟨haddsEnums, hrefsEnums⟩ :=
    addsTypes_addEnums hscope none Place.fileEnum trees.model file.enums
  have hall := hadds.append haddsEnums
  rw [List.append_nil] at hall
  rw [hadds.size_enums] at hrefsEnums
  refine ⟨_, _, _, hall, hrefs, hrefsEnums, ?_⟩
  dsimp only at h
  split at h
  · rename_i hselected
    rw [if_pos hselected]
    exact (Except.ok.inj h).symm
  · rename_i hselected
    rw [if_neg hselected]
    exact (Except.ok.inj h).symm

/-! ## Files -/

/-- Whether the types of a model are those of declarations, listed by whether their files are
selected. -/
structure MirrorsTypes (selected : File → Bool) (ds : List (Declared Message))
    (es : List (Declared Enumeration)) (k : Model) : Prop where
  /-- There is one message for each, in order. -/
  messages : List.Forall₂ MessageYields ds k.store.messages.toList
  /-- There is one enumeration for each, in order. -/
  enums : List.Forall₂ EnumYields es k.store.enums.toList
  /-- The model lists the messages at the top of the selected files. -/
  ownMessages : k.messages.map MessageRef.index = ds.findIdxs (Declared.atTopOf selected)
  /-- The external messages are those at the top of the other files. -/
  externalMessages : k.externalMessages.map MessageRef.index =
    ds.findIdxs (Declared.atTopOf fun file => !selected file)
  /-- The model lists the enumerations at the top of the selected files. -/
  ownEnums : k.enums.map EnumRef.index = es.findIdxs (Declared.atTopOf selected)
  /-- The external enumerations are those at the top of the other files. -/
  externalEnums : k.externalEnums.map EnumRef.index =
    es.findIdxs (Declared.atTopOf fun file => !selected file)

namespace MirrorsTypes

variable {selected : File → Bool} {ds ds' : List (Declared Message)}
  {es es' : List (Declared Enumeration)}

/-- A model without types mirrors no declarations. -/
theorem of_empty (hmessages : m.store.messages = #[]) (henums : m.store.enums = #[])
    (hframe : frame m = ⟨[], [], [], [], [], #[], #[]⟩) : MirrorsTypes selected [] [] m where
  messages := by rw [hmessages]; exact .nil
  enums := by rw [henums]; exact .nil
  ownMessages := congrArg (List.map MessageRef.index ∘ Frame.messages) hframe
  externalMessages := congrArg (List.map MessageRef.index ∘ Frame.externalMessages) hframe
  ownEnums := congrArg (List.map EnumRef.index ∘ Frame.enums) hframe
  externalEnums := congrArg (List.map EnumRef.index ∘ Frame.externalEnums) hframe

/-- Declared types that are added and listed are mirrored, those of a file behind those before. -/
theorem list (h : MirrorsTypes selected ds es m) (hadds : AddsTypes ds' es' m k)
    (hstore : other.store = k.store)
    (hown : other.messages.map MessageRef.index =
      k.messages.map MessageRef.index ++ ds'.findIdxs (Declared.atTopOf selected) ds.length)
    (hexternal : other.externalMessages.map MessageRef.index =
      k.externalMessages.map MessageRef.index ++
        ds'.findIdxs (Declared.atTopOf fun file => !selected file) ds.length)
    (hownEnums : other.enums.map EnumRef.index =
      k.enums.map EnumRef.index ++ es'.findIdxs (Declared.atTopOf selected) es.length)
    (hexternalEnums : other.externalEnums.map EnumRef.index =
      k.externalEnums.map EnumRef.index ++
        es'.findIdxs (Declared.atTopOf fun file => !selected file) es.length) :
    MirrorsTypes selected (ds ++ ds') (es ++ es') other := by
  obtain ⟨made, hmade, hyields⟩ := hadds.messages
  obtain ⟨madeEnums, hmadeEnums, hyieldsEnums⟩ := hadds.enums
  constructor
  · rw [hstore, hmade]
    exact List.rel_append h.messages hyields
  · rw [hstore, hmadeEnums]
    exact List.rel_append h.enums hyieldsEnums
  · rw [hown, List.findIdxs_append, Nat.zero_add, ← h.ownMessages]
    exact congrArg (· ++ _) (congrArg (List.map MessageRef.index ∘ Frame.messages) hadds.kept)
  · rw [hexternal, List.findIdxs_append, Nat.zero_add, ← h.externalMessages]
    exact congrArg (· ++ _)
      (congrArg (List.map MessageRef.index ∘ Frame.externalMessages) hadds.kept)
  · rw [hownEnums, List.findIdxs_append, Nat.zero_add, ← h.ownEnums]
    exact congrArg (· ++ _) (congrArg (List.map EnumRef.index ∘ Frame.enums) hadds.kept)
  · rw [hexternalEnums, List.findIdxs_append, Nat.zero_add, ← h.externalEnums]
    exact congrArg (· ++ _) (congrArg (List.map EnumRef.index ∘ Frame.externalEnums) hadds.kept)

/-- Adding the types of a file mirrors its declarations behind those before. -/
theorem addTypes (h : MirrorsTypes selected ds es m) {file : File}
    (hadd : Descriptor.addTypes selected m file = .ok other) :
    MirrorsTypes selected (ds ++ Message.preorderAll file [] none ds.length file.messages)
      (es ++ (Message.enumOrderAll file [] ds.length file.messages ++
        declaredEnums file [] none file.enums)) other := by
  obtain ⟨k, messages, enums, hadds, hmessages, henums, rfl⟩ := addsTypes_addTypes hadd
  have hcount : m.store.messages.size = ds.length := by
    rw [← Array.length_toList, h.messages.length_eq]
  have hcountEnums : m.store.enums.size = es.length := by
    rw [← Array.length_toList, h.enums.length_eq]
  rw [hcount] at hadds hmessages henums
  rw [hcountEnums] at henums
  by_cases hselected : selected file
  · have hother : ¬ (!selected file) = true := by simp [hselected]
    rw [if_pos hselected]
    refine h.list hadds rfl ?_ ?_ ?_ ?_
    · rw [List.map_append, hmessages, Message.findIdxs_preorderAll, if_pos hselected]
    · rw [Message.findIdxs_preorderAll, if_neg hother, List.append_nil]
    · rw [List.map_append, henums, Message.findIdxs_enumOrderAll, if_pos hselected]
    · rw [Message.findIdxs_enumOrderAll, if_neg hother, List.append_nil]
  · have hother : (!selected file) = true := by simp [hselected]
    rw [if_neg hselected]
    refine h.list hadds rfl ?_ ?_ ?_ ?_
    · rw [Message.findIdxs_preorderAll, if_neg hselected, List.append_nil]
    · rw [List.map_append, hmessages, Message.findIdxs_preorderAll, if_pos hother]
    · rw [Message.findIdxs_enumOrderAll, if_neg hselected, List.append_nil]
    · rw [List.map_append, henums, Message.findIdxs_enumOrderAll, if_pos hother]

/-- Adding the types of files mirrors their declarations behind those before. -/
theorem foldlM (h : MirrorsTypes selected ds es m) {files : List File}
    (hadd : files.foldlM (Descriptor.addTypes selected) m = .ok other) :
    MirrorsTypes selected (ds ++ File.preorderAll ds.length files)
      (es ++ File.enumOrderAll ds.length files) other := by
  induction files generalizing m ds es with
  | nil =>
    obtain rfl := Except.ok.inj hadd
    simpa [File.preorderAll, File.enumOrderAll] using h
  | cons file rest ih =>
    rw [List.foldlM_cons] at hadd
    obtain ⟨k, hk, hrest⟩ := Attempt.bind_eq_ok.1 hadd
    have hall := ih (h.addTypes hk) hrest
    rwa [List.length_append, Message.length_preorderAll, List.append_assoc,
      List.append_assoc] at hall

/-- Marking a field that clients fill in leaves the types as they are declared. -/
theorem markAutoPopulated (h : MirrorsTypes selected ds es m) (ref : FieldRef) :
    MirrorsTypes selected ds es (Descriptor.markAutoPopulated m ref) := by
  refine { h with messages := ?_ }
  change List.Forall₂ _ ds (m.store.messages.modify ref.message.index _).toList
  rw [Array.toList_modify]
  refine forall₂_modify h.messages _ fun d x hx => { hx with fields := ?_ }
  exact forall₂_modify hx.fields _ fun f y hy => { hy with }

/-- Marking fields that clients fill in leaves the types as they are declared. -/
theorem markAllAutoPopulated (h : MirrorsTypes selected ds es m) (fields : List FieldRef) :
    MirrorsTypes selected ds es (fields.foldl Descriptor.markAutoPopulated m) := by
  induction fields generalizing m with
  | nil => exact h
  | cons ref rest ih => exact ih (h.markAutoPopulated ref)

end MirrorsTypes

end ApiModel.Descriptor
