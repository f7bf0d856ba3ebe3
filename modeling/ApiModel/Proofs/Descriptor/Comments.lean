import ApiModel.Proofs.Descriptor.Located
import ApiModel.Proofs.Descriptor.Traversal
import ApiModel.Proofs.Graph.Documents

/-!
# The comments of elements

Every element of the model of a set of files is documented by the comment of its file at the place
of the element. The place counts what the file declares, also the groups of alternatives that the
model leaves out. The texts of the messages and enumerations of a model are listed in the order of
the declarations; adding types appends to these lists, and what is done for the services leaves
them.
-/

namespace ApiModel

/-- The texts of a message and of its parts. -/
structure MessageTexts where
  /-- The text of the message. -/
  own : String
  /-- The texts of the fields. -/
  fields : List String
  /-- The names and the texts of the groups. -/
  oneOfs : List (String × String)
deriving DecidableEq

/-- The texts of a message and of its parts. -/
def Message.texts (x : Message) : MessageTexts where
  own := x.documentation
  fields := x.fields.map Field.documentation
  oneOfs := x.oneOfs.map fun o => (o.name, o.documentation)

/-- The texts of an enumeration and of its parts. -/
structure EnumTexts where
  /-- The text of the enumeration. -/
  own : String
  /-- The texts of the values. -/
  values : List String
deriving DecidableEq

/-- The texts of an enumeration and of its parts. -/
def Enumeration.texts (x : Enumeration) : EnumTexts where
  own := x.documentation
  values := x.values.map EnumValue.documentation

/-- A message that owns its fields has the same texts. -/
theorem Message.texts_ownedBy (x : Message) (r : MessageRef) : (x.ownedBy r).texts = x.texts := by
  simp only [Message.texts, Message.ownedBy, List.map_map]
  rfl

/-- An enumeration that owns its values has the same texts. -/
theorem Enumeration.texts_ownedBy (x : Enumeration) (r : EnumRef) :
    (x.ownedBy r).texts = x.texts := by
  simp only [Enumeration.texts, Enumeration.ownedBy, List.map_map]
  rfl

namespace Descriptor

open Model

variable {m k other : Model}

/-! ## The comment on an element -/

namespace File

variable (file : File)

/-- The places of a file that may have comments. -/
def locations : List Location := (file.sourceInfo.map SourceInfo.locations).getD []

/-- Whether the location at a position is the last of a file that comments on an element. -/
def CommentedAt (element : ElementPath) (i : Nat) : Prop :=
  LastAt (fun location => location.path = element.place ∧ location.leadingComments.isSome)
    file.locations i

/-- Whether a text documents an element of a file. -/
inductive Documents (element : ElementPath) : String → Prop where
  /-- The text is that of the last comment on the element, cleaned. -/
  | comment {i : Nat} {location : Location} {comment : String} (hlast : file.CommentedAt element i)
      (hlocation : file.locations[i]? = some location)
        (hcomment : location.leadingComments = some comment) :
      Documents element (cleanComment comment)
  /-- There is no comment on the element, and the text is empty. -/
  | silent (hnone : ∀ location ∈ file.locations, location.path = element.place →
      location.leadingComments = none) : Documents element ""

/-- The comment of a file on an element. -/
def commentOn (element : ElementPath) : String := (Comments.ofFile file).before element.place

/-- The comments that are noted under a place are those of the locations there that have one. -/
theorem noted_comments (locations : List Location) (place : Place) :
    ((locations.filterMap fun location =>
      location.leadingComments.map fun comment => (location.path, cleanComment comment)).filter
        fun e => e.1 == place).map Prod.snd =
      (locations.filter fun location => location.path == place &&
        location.leadingComments.isSome).map
        fun location => cleanComment (location.leadingComments.getD "") := by
  induction locations with
  | nil => rfl
  | cons location rest ih =>
    cases hcomment : location.leadingComments with
    | none =>
      rw [List.filterMap_cons_none (by rw [hcomment]; rfl),
        List.filter_cons_of_neg (by simp [hcomment]), ih]
    | some comment =>
      rw [List.filterMap_cons_some (by rw [hcomment]; rfl), List.filter_cons,
        List.filter_cons, hcomment, Option.isSome_some, Bool.and_true]
      split
      · rw [List.map_cons, List.map_cons, ih, hcomment]
        rfl
      · exact ih

/-- The comment at a place is that of the last location there that has one. -/
theorem before_ofFile (place : Place) :
    (Comments.ofFile file).before place =
      (((file.locations.filter fun location =>
        location.path == place && location.leadingComments.isSome).map fun location =>
          cleanComment (location.leadingComments.getD "")).getLast?).getD "" := by
  rw [Comments.before, Comments.ofFile, lookup_reverse, noted_comments]
  rfl

/-- The comment of a file on an element documents it. -/
theorem documents_commentOn (element : ElementPath) :
    file.Documents element (file.commentOn element) := by
  rw [commentOn, before_ofFile]
  by_cases hsome : ∃ location ∈ file.locations,
      location.path = element.place ∧ location.leadingComments.isSome
  · obtain ⟨i, hlast⟩ := exists_lastAt hsome
    obtain ⟨location, hlocation, -, hcomments⟩ := hlast.1
    obtain ⟨comment, hcomment⟩ := Option.isSome_iff_exists.1 hcomments
    rw [List.getLast?_map, hlast.getLast?_filter (fun location => by simp) hlocation,
      Option.map_some, hcomment]
    exact .comment hlast hlocation hcomment
  · have hnone : ∀ location ∈ file.locations, location.path = element.place →
        location.leadingComments = none := by
      intro location hlocation hpath
      by_contra hcomments
      exact hsome ⟨location, hlocation, hpath, Option.isSome_iff_ne_none.2 hcomments⟩
    rw [List.filter_eq_nil_iff.2 fun location hlocation => ?_]
    · exact .silent hnone
    · intro htest
      obtain ⟨hpath, hcomments⟩ := Bool.and_eq_true_iff.1 htest
      rw [hnone location hlocation (beq_iff_eq.1 hpath)] at hcomments
      cases hcomments

/-- An element of a file is documented by one text only. -/
theorem Documents.unique {file : File} {element : ElementPath} {text other : String}
    (h : file.Documents element text) (h' : file.Documents element other) : text = other := by
  cases h with
  | comment hlast hlocation hcomment =>
    cases h' with
    | comment hlast' hlocation' hcomment' =>
      obtain rfl := hlast.unique hlast'
      obtain rfl := Option.some.inj (hlocation.symm.trans hlocation')
      rw [Option.some.inj (hcomment.symm.trans hcomment')]
    | silent hnone =>
      obtain ⟨location, hlocation, hplace, hcomments⟩ := hlast.1
      rw [hnone location (List.mem_of_getElem? hlocation) hplace] at hcomments
      cases hcomments
  | silent hnone =>
    cases h' with
    | comment hlast' hlocation' hcomment' =>
      obtain ⟨location, hlocation, hplace, hcomments⟩ := hlast'.1
      rw [hnone location (List.mem_of_getElem? hlocation) hplace] at hcomments
      cases hcomments
    | silent => rfl

/-- The text that documents an element is the comment of the file on it. -/
theorem documents_iff {element : ElementPath} {text : String} :
    file.Documents element text ↔ text = file.commentOn element := by
  constructor
  · exact fun h => h.unique (file.documents_commentOn element)
  · rintro rfl
    exact file.documents_commentOn element

end File

/-! ## The texts of converted types -/

/-- The texts of a message that is declared on a way. -/
def Located.messageTexts (l : Located MessagePath Message) : MessageTexts where
  own := l.file.commentOn (.message l.path)
  fields := (List.range l.source.fields.length).map fun i => l.file.commentOn (.field l.path i)
  oneOfs := (keptGroups l.source.fields l.source.oneofs).map fun i =>
    ((l.source.oneofs.getD i {}).name.getD "", l.file.commentOn (.oneof l.path i))

/-- The texts of an enumeration that is declared on a way. -/
def Located.enumTexts (l : Located EnumPath Enumeration) : EnumTexts where
  own := l.file.commentOn (.enumeration l.path)
  values := (List.range l.source.values.length).map fun i => l.file.commentOn (.value l.path i)

/-- A converted field has the text that it is given. -/
theorem documentation_convert {context : FileContext} {messageId documentation : String} {f : Field}
    {made : ApiModel.Field} (h : f.convert context messageId documentation = .ok made) :
    made.documentation = documentation := by
  unfold Field.convert at h
  dsimp only at h
  split at h
  · obtain rfl := Except.ok.inj h
    rfl
  · cases h

/-- A message that is converted at the place of its way has the texts of the comments on it. -/
theorem texts_convertMessage {file : File} {scope : String} {parent : Option MessageRef}
    {path : MessagePath} {source : Message} {x : ApiModel.Message}
    (h : convertMessage file.context scope parent (ElementPath.message path).place source = .ok x) :
    x.texts = Located.messageTexts ⟨file, path, source⟩ := by
  obtain ⟨fields, hfields, rfl⟩ := convertMessage_eq_ok.1 h
  have htexts : fields.map ApiModel.Field.documentation =
      (List.range source.fields.length).map fun i => file.commentOn (.field path i) := by
    simp only [File.commentOn, ElementPath.place_field]
    rw [List.range_eq_range', ← List.zipIdx_map_snd 0 source.fields, List.map_map]
    refine (forall₂_iff_map_eq.1 ((forall₂_convertFields hfields).imp ?_)).symm
    rintro entry _ ⟨made, hmade, rfl⟩
    rw [inGroup_eq]
    exact (documentation_convert hmade).symm
  rw [Message.texts, Located.messageTexts, MessageTexts.mk.injEq]
  refine ⟨rfl, htexts, ?_⟩
  simp only [File.commentOn, ElementPath.place_oneof]
  change (notedGroups _ fields).map _ = _
  rw [notedGroups, List.zipIdx_map, List.map_map, List.map_map,
    ← List.zipIdx_map_fst 0 (keptGroups source.fields source.oneofs), List.map_map,
    List.zipIdx_map_fst]
  rfl

/-- An enumeration that is converted at the place of its way has the texts of the comments on it. -/
theorem texts_convertEnum (file : File) (scope : String) (parent : Option MessageRef)
    (path : EnumPath) (source : Enumeration) :
    (convertEnum file.context scope parent (ElementPath.enumeration path).place source).texts =
      Located.enumTexts ⟨file, path, source⟩ := by
  rw [Enumeration.texts, Located.enumTexts, EnumTexts.mk.injEq]
  refine ⟨rfl, ?_⟩
  simp only [File.commentOn, ElementPath.place_value]
  change (source.values.zipIdx.map _).map _ = (List.range source.values.length).map _
  rw [List.map_map, List.range_eq_range', ← List.zipIdx_map_snd 0 source.values, List.map_map]
  rfl

/-! ## Adding types -/

/-- Whether a model has, behind the texts of an earlier one, those of declared messages and
enumerations. -/
structure AddsTexts (messages : List (Located MessagePath Message))
    (enums : List (Located EnumPath Enumeration)) (m k : Model) : Prop where
  /-- The texts of the messages. -/
  messages : k.store.messages.toList.map ApiModel.Message.texts =
    m.store.messages.toList.map ApiModel.Message.texts ++ messages.map Located.messageTexts
  /-- The texts of the enumerations. -/
  enums : k.store.enums.toList.map ApiModel.Enumeration.texts =
    m.store.enums.toList.map ApiModel.Enumeration.texts ++ enums.map Located.enumTexts

namespace AddsTexts

variable {messages messages' : List (Located MessagePath Message)}
  {enums enums' : List (Located EnumPath Enumeration)}

/-- A model adds no texts to itself. -/
theorem refl (m : Model) : AddsTexts [] [] m m :=
  ⟨(List.append_nil _).symm, (List.append_nil _).symm⟩

/-- The texts that are added in two runs are added by both together. -/
theorem append (h : AddsTexts messages enums m k) (h' : AddsTexts messages' enums' k other) :
    AddsTexts (messages ++ messages') (enums ++ enums') m other where
  messages := by rw [h'.messages, h.messages, List.append_assoc, List.map_append]
  enums := by rw [h'.enums, h.enums, List.append_assoc, List.map_append]

/-- Adding a message adds the texts of its declaration. -/
theorem addMessage {l : Located MessagePath Message} {x : ApiModel.Message}
    (h : x.texts = l.messageTexts) (m : Model) : AddsTexts [l] [] m (m.addMessage x).model where
  messages := by
    rw [model_addMessage]
    change (m.store.messages.push (x.ownedBy _)).toList.map _ = _
    rw [Array.toList_push, List.map_append, List.map_singleton, List.map_singleton,
      Message.texts_ownedBy, h]
  enums := (List.append_nil _).symm

/-- Adding an enumeration adds the texts of its declaration. -/
theorem addEnum {l : Located EnumPath Enumeration} {x : ApiModel.Enumeration}
    (h : x.texts = l.enumTexts) (m : Model) : AddsTexts [] [l] m (m.addEnum x).model where
  messages := (List.append_nil _).symm
  enums := by
    rw [model_addEnum]
    change (m.store.enums.push (x.ownedBy _)).toList.map _ = _
    rw [Array.toList_push, List.map_append, List.map_singleton, List.map_singleton,
      Enumeration.texts_ownedBy, h]

/-- Changing a message adds no texts if the message keeps its own. -/
theorem modifyMessage (h : AddsTexts messages enums m k)
    {change : ApiModel.Message → ApiModel.Message} (hchange : ∀ x, (change x).texts = x.texts)
    (r : MessageRef) :
    AddsTexts messages enums m (k.modifyMessage r change) where
  messages := (map_modifyMessage hchange k r).trans h.messages
  enums := h.enums

/-- Listing what is nested in a message adds no texts. -/
theorem nest (h : AddsTexts messages enums m k) (r : MessageRef) (nested : List MessageRef)
    (nestedEnums : List EnumRef) :
    AddsTexts messages enums m
      (k.modifyMessage r fun x => { x with messages := nested, enums := nestedEnums }) := by
  have hview : ∀ x : ApiModel.Message,
      ({ x with messages := nested, enums := nestedEnums } : ApiModel.Message).texts = x.texts :=
    fun _ => rfl
  exact h.modifyMessage hview r

end AddsTexts

/-- Adding enumerations on ways adds the texts of the comments on them. -/
theorem addsTexts_addEnums (file : File) (scope : String) (parent : Option MessageRef)
    (pathOf : Nat → EnumPath) (m : Model) (enums : List Enumeration) :
    AddsTexts [] (locateEnums file pathOf enums) m
      (addEnums file.context scope parent (fun i => (ElementPath.enumeration (pathOf i)).place) m
        enums).model := by
  rw [locateEnums, addEnums]
  -- the induction is over the enumerations still to come, behind those that are already there
  generalize enums.zipIdx = entries
  suffices hall : ∀ state : AddedAll EnumRef,
      AddsTexts [] (entries.map fun entry => ⟨file, pathOf entry.2, entry.1⟩) state.model
        (entries.foldl
          (fun state entry =>
            let added := state.model.addEnum
              (convertEnum file.context scope parent
                (ElementPath.enumeration (pathOf entry.2)).place entry.1)
            (⟨state.refs ++ [added.ref], added.model⟩ : AddedAll EnumRef)) state).model
              from hall ⟨[], m⟩
  induction entries with
  | nil => exact fun state => .refl _
  | cons entry rest ih =>
    intro state
    let x :=
      convertEnum file.context scope parent (ElementPath.enumeration (pathOf entry.2)).place entry.1
    have hfirst : AddsTexts [] _ state.model (state.model.addEnum x).model :=
      .addEnum (texts_convertEnum file scope parent (pathOf entry.2) entry.1) state.model
    have hrest :=
      ih ⟨state.refs ++ [(state.model.addEnum x).ref], (state.model.addEnum x).model⟩
    exact hfirst.append hrest

mutual

/-- Adding a message on a way, with what is nested in it, adds the texts of the comments on what it
declares. -/
theorem addsTexts_addMessageTree {file : File} {scope : String} {parent : Option MessageRef}
    {path : MessagePath} {m : Model} {added : Added MessageRef} (message : Message)
    (h : addMessageTree file.context scope parent (ElementPath.message path).place m message =
      .ok added) :
    AddsTexts (message.located file path) (message.locatedEnums file path) m added.model := by
  match message with
  | .mk name fields messages enums options oneofs =>
    rw [addMessageTree] at h
    obtain ⟨element, helement, h⟩ := Attempt.bind_eq_ok.1 h
    obtain ⟨nested, hnested, h⟩ := Attempt.bind_eq_ok.1 h
    obtain rfl := Except.ok.inj h
    rw [← ElementPath.place_message_nested] at hnested
    have hfirst := AddsTexts.addMessage (texts_convertMessage helement) m
    have hmessages : AddsTexts (Message.locatedAll file path.nested 0 messages) _ _ nested.model :=
      addsTexts_addMessageTrees messages hnested
    have henums := addsTexts_addEnums file element.id (some (m.addMessage element).ref)
      (.nested path)
      nested.model enums
    rw [ElementPath.place_enumeration_nested] at henums
    have hall := (hfirst.append hmessages).append henums
    rw [List.append_nil] at hall
    rw [Message.located, Message.locatedEnums]
    exact hall.nest _ _ _

/-- Adding messages on ways, with what is nested in them, adds the texts of the comments on what
they declare. -/
theorem addsTexts_addMessageTrees {file : File} {scope : String} {parent : Option MessageRef}
    {pathOf : Nat → MessagePath} {position : Nat} {m : Model} {added : AddedAll MessageRef}
    (messages : List Message)
    (h : addMessageTrees file.context scope parent
      (fun i => (ElementPath.message (pathOf i)).place) position m
      messages = .ok added) :
    AddsTexts (Message.locatedAll file pathOf position messages)
      (Message.locatedEnumsAll file pathOf position messages) m added.model := by
  match messages with
  | [] =>
    rw [addMessageTrees] at h
    obtain rfl := Except.ok.inj h
    exact .refl m
  | message :: rest =>
    rw [addMessageTrees] at h
    obtain ⟨first, hfirst, h⟩ := Attempt.bind_eq_ok.1 h
    obtain ⟨others, hothers, h⟩ := Attempt.bind_eq_ok.1 h
    obtain rfl := Except.ok.inj h
    have hadds := addsTexts_addMessageTree message hfirst
    have haddsRest := addsTexts_addMessageTrees rest hothers
    exact hadds.append haddsRest

end

/-- Adding the types of a file adds the texts of the comments on what it declares. -/
theorem AddsTexts.addTypes {selected : File → Bool} {file : File}
    (h : Descriptor.addTypes selected m file = .ok other) :
    AddsTexts file.locatedMessages file.locatedEnums m other := by
  obtain ⟨trees, htrees, h⟩ := Attempt.bind_eq_ok.1 h
  have hmessages : AddsTexts file.locatedMessages _ m trees.model :=
    addsTexts_addMessageTrees file.messages htrees
  have henums := addsTexts_addEnums file (scopeOf file.packageName) none .top trees.model file.enums
  have hall := hmessages.append henums
  rw [List.append_nil] at hall
  split at h <;> obtain rfl := Except.ok.inj h
  · exact ⟨hall.messages, hall.enums⟩
  · exact ⟨hall.messages, hall.enums⟩

/-- Adding the types of files adds the texts of the comments on what they declare. -/
theorem AddsTexts.foldlM {selected : File → Bool} {files : List File}
    (h : files.foldlM (Descriptor.addTypes selected) m = .ok other) :
    AddsTexts (files.flatMap File.locatedMessages) (files.flatMap File.locatedEnums) m other := by
  induction files generalizing m with
  | nil =>
    obtain rfl := Except.ok.inj h
    exact .refl m
  | cons file rest ih =>
    rw [List.foldlM_cons] at h
    obtain ⟨k, hk, hrest⟩ := Attempt.bind_eq_ok.1 h
    exact (AddsTexts.addTypes hk).append (ih hrest)

/-! ## Adding services -/

section

variable {messages : List (Located MessagePath Message)}
  {enums : List (Located EnumPath Enumeration)}

/-- Marking a field that clients fill in adds no texts. -/
theorem AddsTexts.markAutoPopulated (h : AddsTexts messages enums m k) (ref : FieldRef) :
    AddsTexts messages enums m (Descriptor.markAutoPopulated k ref) := by
  have hfield : ∀ f : ApiModel.Field, ApiModel.Field.documentation
    { f with autoPopulated := true } =
      f.documentation := fun _ => rfl
  refine h.modifyMessage (fun x => ?_) ref.message
  rw [Message.texts, Message.texts, map_modify hfield]

/-- What is done for the services adds no texts of types. -/
theorem keptByServices_addsTexts (context : ServiceContext) :
    KeptByServices context (AddsTexts messages enums m) where
  method {_ _ _ _ _ x} _ hm := by
    have hmarked := List.foldlRecOn (motive := AddsTexts messages enums m) x.autoPopulated
      Descriptor.markAutoPopulated hm fun _ hk ref _ => hk.markAutoPopulated ref
    exact ⟨hmarked.messages, hmarked.enums⟩
  service _ _ hm := ⟨hm.messages, hm.enums⟩

end

/-- Whether a service that is declared at a position of a file is documented in a model, and so are
its methods. -/
structure ServiceDocumented (k : Model) (l : Located Nat Service)
    (x : ApiModel.Service) : Prop where
  /-- The service is documented. -/
  own : l.file.Documents (.service l.path) x.documentation
  /-- The method at each position is documented. -/
  methods : List.Forall₂ (fun i r => ∃ y, methodArena.find? k r = some y ∧
    l.file.Documents (.method l.path i) y.documentation)
      (List.range l.source.methods.length) x.methods

/-- A service stays documented as long as its methods stay. -/
theorem ServiceDocumented.later {l : Located Nat Service} {x : ApiModel.Service}
    (h : ServiceDocumented k l x) (hkept : methodArena.Keeps k other) :
    ServiceDocumented other l x where
  own := h.own
  methods := h.methods.imp fun _ r ⟨y, hy, htext⟩ => ⟨y, hkept r y hy, htext⟩

/-- A converted method has the text that it is given. -/
theorem documentation_convertMethod {context : ServiceContext}
    {package serviceId documentation : String} {method : Method} {x : ApiModel.Method}
    (h : method.convert context m package serviceId documentation = .ok x) :
    x.documentation = documentation := by
  obtain ⟨pathInfo, -, h⟩ := Attempt.bind_eq_ok.1 h
  obtain ⟨routing, -, h⟩ := Attempt.bind_eq_ok.1 h
  obtain rfl := Except.ok.inj h
  rfl

/-- Methods that are added have the texts of the comments at their places. -/
theorem documentation_addMethods {context : ServiceContext} {package serviceId : String}
    {comments : Comments} {placeOf : Nat → Place} {position : Nat} {methods : List Method}
    {added : AddedAll MethodRef}
    (h : addMethods context package serviceId comments placeOf position m methods = .ok added) :
    List.Forall₂ (fun i r => ∃ y, methodArena.find? added.model r = some y ∧
      y.documentation = comments.before (placeOf i))
        (List.range' position methods.length) added.refs := by
  induction methods generalizing m position added with
  | nil =>
    obtain rfl := Except.ok.inj h
    exact .nil
  | cons method rest ih =>
    rw [addMethods] at h
    obtain ⟨x, hx, h⟩ := Attempt.bind_eq_ok.1 h
    obtain ⟨others, hothers, h⟩ := Attempt.bind_eq_ok.1 h
    obtain rfl := Except.ok.inj h
    let marked := x.autoPopulated.foldl markAutoPopulated m
    have hplace : methodArena.find? (marked.addMethod x).model (marked.addMethod x).ref = some x :=
      (methodArena.find?_push marked x _).trans (if_pos rfl)
    have hlater : methodArena.find? others.model (marked.addMethod x).ref = some x :=
      (addsAtEnd_addMethods hothers).kept _ x hplace
    exact .cons ⟨x, hlater, documentation_convertMethod hx⟩ (ih hothers)

/-- Adding the service of a declaration documents it by the comment on it, behind those before. -/
theorem documented_addService {ls : List (Located Nat Service)}
    (hm : List.Forall₂ (ServiceDocumented m) ls m.store.services.toList)
    {context : ServiceContext} {file : File} {entry : Service × Nat}
    (h : addService context file.packageName (Comments.ofFile file) m entry = .ok other) :
    List.Forall₂ (ServiceDocumented other) (ls ++ [⟨file, entry.2, entry.1⟩])
      other.store.services.toList := by
  obtain ⟨added, hadded, h⟩ := Attempt.bind_eq_ok.1 h
  obtain rfl := Except.ok.inj h
  have hadds := addsAtEnd_addMethods hadded
  have hmethods := documentation_addMethods hadded
  rw [← List.range_eq_range'] at hmethods
  change List.Forall₂ _ _ (added.model.store.services.push _).toList
  rw [Array.toList_push, hadds.services]
  refine List.rel_append (hm.imp fun l x hx => hx.later hadds.kept) (.cons ?_ .nil)
  refine ⟨file.documents_commentOn (.service entry.2), hmethods.imp fun i r hr => ?_⟩
  obtain ⟨y, hy, htext⟩ := hr
  exact ⟨y, hy, file.documents_iff.2 htext⟩

/-- Adding the services of a file documents them behind those before. -/
theorem documented_addServices {ls : List (Located Nat Service)}
    (hm : List.Forall₂ (ServiceDocumented m) ls m.store.services.toList)
    {context : ServiceContext} {file : File} (h : addServices context m file = .ok other) :
    List.Forall₂ (ServiceDocumented other) (ls ++ file.locatedServices)
      other.store.services.toList := by
  rw [File.locatedServices]
  rw [addServices] at h
  generalize file.services.zipIdx = entries at h ⊢
  induction entries generalizing m ls with
  | nil =>
    obtain rfl := Except.ok.inj h
    rwa [List.map_nil, List.append_nil]
  | cons entry rest ih =>
    rw [List.foldlM_cons] at h
    obtain ⟨k, hk, hrest⟩ := Attempt.bind_eq_ok.1 h
    have hall := ih (documented_addService hm hk) hrest
    rwa [List.append_assoc] at hall

/-- Adding the services of files documents them behind those before. -/
theorem documented_foldlM {ls : List (Located Nat Service)}
    (hm : List.Forall₂ (ServiceDocumented m) ls m.store.services.toList)
    {context : ServiceContext} {files : List File}
    (h : files.foldlM (addServices context) m = .ok other) :
    List.Forall₂ (ServiceDocumented other) (ls ++ files.flatMap File.locatedServices)
      other.store.services.toList := by
  induction files generalizing m ls with
  | nil =>
    obtain rfl := Except.ok.inj h
    rwa [List.flatMap_nil, List.append_nil]
  | cons file rest ih =>
    rw [List.foldlM_cons] at h
    obtain ⟨k, hk, hrest⟩ := Attempt.bind_eq_ok.1 h
    have hall := ih (documented_addServices hm hk) hrest
    rwa [List.append_assoc] at hall

/-! ## The model of a set -/

/-- Whether a message that is declared on a way is documented, and so are its fields and its
groups. -/
structure MessageDocumented (l : Located MessagePath Message) (x : ApiModel.Message) : Prop where
  /-- The message is documented. -/
  own : l.file.Documents (.message l.path) x.documentation
  /-- The field at each position is documented. -/
  fields : List.Forall₂
    (fun i (y : ApiModel.Field) => l.file.Documents (.field l.path i) y.documentation)
    (List.range l.source.fields.length) x.fields
  /-- There is one group for each that stays, documented by the position of its declaration. -/
  oneOfs :
    List.Forall₂ (fun i (o : OneOf) => o.name = (l.source.oneofs.getD i {}).name.getD "" ∧
        l.file.Documents (.oneof l.path i) o.documentation)
      (keptGroups l.source.fields l.source.oneofs) x.oneOfs

/-- Whether an enumeration that is declared on a way is documented, and so are its values. -/
structure EnumDocumented (l : Located EnumPath Enumeration) (x : ApiModel.Enumeration) : Prop where
  /-- The enumeration is documented. -/
  own : l.file.Documents (.enumeration l.path) x.documentation
  /-- The value at each position is documented. -/
  values : List.Forall₂ (fun i (v : ApiModel.EnumValue) =>
    l.file.Documents (.value l.path i) v.documentation)
    (List.range l.source.values.length) x.values

/-- A message with the texts of the comments on it is documented. -/
theorem messageDocumented_of_texts {l : Located MessagePath Message} {x : ApiModel.Message}
    (h : x.texts = l.messageTexts) : MessageDocumented l x := by
  rw [Message.texts, Located.messageTexts, MessageTexts.mk.injEq] at h
  obtain ⟨hown, hfields, honeOfs⟩ := h
  refine ⟨l.file.documents_iff.2 hown, ?_, ?_⟩
  · exact (forall₂_iff_map_eq.2 hfields.symm).imp fun i y hy => l.file.documents_iff.2 hy.symm
  · refine (forall₂_iff_map_eq.2 honeOfs.symm).imp fun i o ho => ?_
    obtain ⟨hname, htext⟩ := Prod.mk.inj ho
    exact ⟨hname.symm, l.file.documents_iff.2 htext.symm⟩

/-- An enumeration with the texts of the comments on it is documented. -/
theorem enumDocumented_of_texts {l : Located EnumPath Enumeration} {x : ApiModel.Enumeration}
    (h : x.texts = l.enumTexts) : EnumDocumented l x := by
  rw [Enumeration.texts, Located.enumTexts, EnumTexts.mk.injEq] at h
  obtain ⟨hown, hvalues⟩ := h
  exact ⟨l.file.documents_iff.2 hown,
    (forall₂_iff_map_eq.2 hvalues.symm).imp fun i v hv => l.file.documents_iff.2 hv.symm⟩

/-- Whether everything that a set of files declares is documented in a model, services if their
files are selected. -/
structure FileSet.DocumentedIn (set : FileSet) (selected : File → Bool) (k : Model) : Prop where
  /-- The messages are those that are declared, and are documented. -/
  messages : List.Forall₂ MessageDocumented set.locatedMessages k.store.messages.toList
  /-- The enumerations are those that are declared, and are documented. -/
  enums : List.Forall₂ EnumDocumented set.locatedEnums k.store.enums.toList
  /-- The services are those that are declared, and are documented. -/
  services : List.Forall₂ (ServiceDocumented k)
    (set.locatedServices selected) k.store.services.toList

/-- What is built from the files of a set is documented. -/
theorem documentedIn_of_steps {set : FileSet} {selected : File → Bool} {context : ServiceContext}
    {start types : Model} (hstart : start.store = {})
    (htypes : set.files.foldlM (addTypes selected) start = .ok types)
    (hservices : (set.files.filter selected).foldlM (addServices context) types = .ok k) :
    set.DocumentedIn selected k := by
  have htexts : AddsTexts set.locatedMessages set.locatedEnums start k :=
    (keptByServices_addsTexts context).foldlM (.foldlM htypes) hservices
  have hmessages := htexts.messages
  have henums := htexts.enums
  rw [hstart] at hmessages henums
  have hempty : types.store.services = #[] :=
    Attempt.foldlM_keeps (P := fun m => m.store.services = #[])
      (fun m file k hm hk => (services_addTypes hk).2.1.trans hm) (hstart ▸ rfl) htypes
  refine ⟨?_, ?_, ?_⟩
  · exact (forall₂_iff_map_eq.2 hmessages.symm).imp fun _ _ hx =>
      messageDocumented_of_texts hx.symm
  · exact (forall₂_iff_map_eq.2 henums.symm).imp fun _ _ hx => enumDocumented_of_texts hx.symm
  · have hnone : List.Forall₂ (ServiceDocumented types) [] types.store.services.toList :=
      hempty ▸ .nil
    exact documented_foldlM hnone hservices

/-- Whether the places of a file tell its elements apart. -/
structure File.TellsApart (file : File) : Prop where
  /-- Different elements have different places. -/
  places : ∀ p q, file.Has p → file.Has q → p.place = q.place → p = q
  /-- No location comments on two elements. -/
  comments : ∀ p q i, file.Has p → file.Has q → file.CommentedAt p i →
    file.CommentedAt q i → p = q

/-- The places of a narrow file tell its elements apart. -/
theorem File.Narrow.tellsApart {file : File} (h : file.Narrow) : file.TellsApart where
  places _ _ hp hq hplace := h.place_inj hp hq hplace
  comments p q i hp hq hfirst hsecond := by
    obtain ⟨⟨location, hlocation, hplace, -⟩, -⟩ := hfirst
    obtain ⟨⟨other, hother, hplace', -⟩, -⟩ := hsecond
    obtain rfl := Option.some.inj (hlocation.symm.trans hother)
    exact h.place_inj hp hq (hplace.symm.trans hplace')

/-- Every element of the model of a set of files is documented by the last comment of its file at
its place, or has no text if there is none there, and in a narrow file different elements have
different places. The model has all that the files declare, and nothing else but the well-known
types. -/
theorem documented_model {set : FileSet} {config : Option ServiceConfig} {included : List String}
    (h : set.model config included = .ok m) :
    (∃ k : Model, m = WellKnown.register k ∧ k.StaysIn m ∧
      Corresponds set (set.selects included) k ∧
      set.DocumentedIn (set.selects included) k) ∧
    set.Listed (set.selects included) ∧ ∀ file ∈ set.files, file.Narrow →
    file.TellsApart := by
  refine ⟨?_, set.listed _, fun file _ hnarrow => hnarrow.tellsApart⟩
  obtain ⟨types, htypes, h⟩ := Attempt.bind_eq_ok.1 h
  obtain ⟨k, hservices, h⟩ := Attempt.bind_eq_ok.1 h
  obtain rfl := Except.ok.inj h
  exact ⟨k, rfl, WellKnown.staysIn_register k, corresponds_of_steps htypes hservices,
    documentedIn_of_steps rfl htypes hservices⟩

/-- A message whose first group only marks a field as optional, with a message and an enumeration
inside it. -/
def orderMessage : Message :=
  .mk (some "Order")
    [{ name := some "note", type := some 9, oneofIndex := some 0, proto3Optional := some true },
      { name := some "card", type := some 9, oneofIndex := some 1 }]
    [.mk (some "Line") [{ name := some "count", type := some 5 }] [] [] none []]
    [{ name := some "State", values := [{ name := some "OPEN" }, { name := some "PAID" }] }] none
    [{ name := some "_note" }, { name := some "payment" }]

/-- A file with the message of an order and a service, and comments on most of them. Two of them are
on the message, and one is on the group that is left out. -/
def ordersFile : File where
  package := some "shop"
  messages := [orderMessage]
  services := [
    { name := some "Orders"
      methods := [{ name := some "Pay", inputType := some ".shop.Order" }] }]
  sourceInfo := some { locations := [
    { path := [4, 0], leadingComments := some " A draft.\n" },
    { path := [4, 0], leadingComments := some " An order.\n It has\n lines.\n" },
    { path := [4, 0] },
    { path := [4, 0, 2, 1], leadingComments := some " A card.\n" },
    { path := [4, 0, 8, 0], leadingComments := some " Left out.\n" },
    { path := [4, 0, 8, 1], leadingComments := some " How to pay.\n" },
    { path := [4, 0, 3, 0, 2, 0], leadingComments := some " How many.\n" },
    { path := [4, 0, 4, 0, 2, 1], leadingComments := some " All paid.\n" },
    { path := [6, 0, 2, 0], leadingComments := some " Pays.\n" }] }

/-- The elements of the model of the orders are documented by the comments on them. -/
theorem documented_model_orders :
    ∃ m k : Model, FileSet.model ⟨[ordersFile]⟩ none [] = .ok m ∧
      m = WellKnown.register k ∧
      FileSet.DocumentedIn ⟨[ordersFile]⟩ (FileSet.selects ⟨[ordersFile]⟩ []) k ∧
      ordersFile.TellsApart ∧
      (m.store.messages.toList.map ApiModel.Message.texts).take 2 =
        [⟨"An order.\nIt has\nlines.", ["", "A card."], [("payment", "How to pay.")]⟩,
          ⟨"", ["How many."], []⟩] ∧
      (m.store.enums.toList.map ApiModel.Enumeration.texts).take 1 =
      [⟨"", ["", "All paid."]⟩] ∧
      m.store.methods.toList.map ApiModel.Method.documentation = ["Pays."] := by
  have hread : (FileSet.model ⟨[ordersFile]⟩ none []).toOption.any (fun m =>
      (m.store.messages.toList.map ApiModel.Message.texts).take 2 ==
          [⟨"An order.\nIt has\nlines.", ["", "A card."], [("payment", "How to pay.")]⟩,
            ⟨"", ["How many."], []⟩] &&
        (m.store.enums.toList.map ApiModel.Enumeration.texts).take 1 ==
          [⟨"", ["", "All paid."]⟩] &&
        m.store.methods.toList.map ApiModel.Method.documentation == ["Pays."]) = true := by
    decide +kernel
  obtain ⟨m, hm, hcheck⟩ := Attempt.exists_ok_of_any hread
  simp only [Bool.and_eq_true, beq_iff_eq] at hcheck
  obtain ⟨⟨hmessages, henums⟩, hmethods⟩ := hcheck
  obtain ⟨⟨k, hk, -, -, hdocumented⟩, -, happart⟩ := documented_model hm
  have hnarrow : ordersFile.Narrow := by
    decide +kernel
  exact ⟨m, k, hm, hk, hdocumented, happart _ List.mem_cons_self hnarrow, hmessages,
    henums, hmethods⟩

end Descriptor

end ApiModel
