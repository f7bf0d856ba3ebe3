import ApiModel.Proofs.Descriptor.Bindings
import ApiModel.Proofs.Descriptor.Structure
import ApiModel.Proofs.Text.Affixes

/-!
# A descriptor set and its model correspond

The services of the model are those of the selected files, each with its methods in order, and
adding them leaves the types as they are declared. A set of files has no model only if some field of
some file has no known type, or some template in a selected file cannot be read.
-/

namespace ApiModel.Descriptor

open Model

variable {m k other : Model}

/-! ## What is made from services -/

/-- What a method of the service of a full name is made into. -/
structure Method.Yields (serviceId : String) (source : Method) (x : ApiModel.Method) : Prop where
  /-- The name stays. -/
  name : x.name = source.name.getD ""
  /-- The full name is that of the service with the name behind it. -/
  id : x.id = serviceId ++ "." ++ x.name
  /-- The request stays under its full name. -/
  inputTypeId : x.inputTypeId = source.inputType.getD ""
  /-- The response stays under its full name. -/
  outputTypeId : x.outputTypeId = source.outputType.getD ""
  /-- A stream of requests stays one. -/
  clientStreaming : x.clientStreaming = source.clientStreaming.getD false
  /-- A stream of responses stays one. -/
  serverStreaming : x.serverStreaming = source.serverStreaming.getD false

/-- Whether what a method is made into stands at a place of a model. -/
def Method.YieldsAt (k : Model) (serviceId : String) (source : Method) (r : MethodRef) : Prop :=
  ∃ x, methodArena.find? k r = some x ∧ source.Yields serviceId x

/-- What a declared service is made into. -/
structure ServiceYields (k : Model) (d : Declared Service) (x : ApiModel.Service) : Prop where
  /-- The name stays. -/
  name : x.name = d.source.name.getD ""
  /-- The full name is that of the declaration. -/
  id : x.id = d.id
  /-- The package is that of the file. -/
  package : x.package = d.file.packageName
  /-- There is one method for each, in order. -/
  methods : List.Forall₂ (Method.YieldsAt k d.id) d.source.methods x.methods

/-- Whether the services of a model are those of declarations. -/
structure MirrorsServices (ds : List (Declared Service)) (k : Model) : Prop where
  /-- There is one service for each, in order. -/
  services : List.Forall₂ (ServiceYields k) ds k.store.services.toList
  /-- The model lists them all. -/
  listed : k.services.map ServiceRef.index = List.range k.store.services.size
  /-- Their methods are all that there are. -/
  methods : (k.store.services.toList.flatMap ApiModel.Service.methods).map MethodRef.index =
    List.range k.store.methods.size

/-- A method that is made at a place stays there in every model that keeps the methods. -/
theorem Method.YieldsAt.later {serviceId : String} {source : Method} {r : MethodRef}
    (h : source.YieldsAt k serviceId r) (hkept : methodArena.Keeps k other) :
    source.YieldsAt other serviceId r := by
  obtain ⟨x, hx, hyields⟩ := h
  exact ⟨x, hkept r x hx, hyields⟩

/-- What a service is made into stays in every model that keeps the methods. -/
theorem ServiceYields.later {d : Declared Service} {x : ApiModel.Service} (h : ServiceYields k d x)
    (hkept : methodArena.Keeps k other) : ServiceYields other d x :=
  { h with methods := h.methods.imp fun _ _ hm => hm.later hkept }

/-- A converted method is made from its descriptor. -/
theorem yields_convertMethod {context : ServiceContext} {package serviceId documentation : String}
    {method : Method} {x : ApiModel.Method}
    (h : method.convert context m package serviceId documentation = .ok x) :
    method.Yields serviceId x := by
  obtain ⟨pathInfo, -, h⟩ := Attempt.bind_eq_ok.1 h
  obtain ⟨routing, -, h⟩ := Attempt.bind_eq_ok.1 h
  obtain rfl := Except.ok.inj h
  exact ⟨rfl, rfl, rfl, rfl, rfl, rfl⟩

/-! ## Adding services -/

/-- Whether methods were added to a model at the next places. -/
structure AddsAtEnd (serviceId : String) (methods : List Method) (m : Model)
    (added : AddedAll MethodRef) : Prop where
  /-- The methods before stay. -/
  kept : methodArena.Keeps m added.model
  /-- There is one place for each method, in order. -/
  made : List.Forall₂ (Method.YieldsAt added.model serviceId) methods added.refs
  /-- The places are the next ones. -/
  places : added.refs.map MethodRef.index = List.range' m.store.methods.size methods.length
  /-- There are no others. -/
  size : added.model.store.methods.size = m.store.methods.size + methods.length
  /-- The services that are listed stay. -/
  listed : added.model.services = m.services
  /-- The services of the store stay. -/
  services : added.model.store.services = m.store.services

/-- Marking fields that clients fill in leaves the services. -/
theorem services_markAllAutoPopulated (m : Model) (fields : List FieldRef) :
    (fields.foldl markAutoPopulated m).services = m.services ∧
      (fields.foldl markAutoPopulated m).store.services = m.store.services := by
  induction fields generalizing m with
  | nil => exact ⟨rfl, rfl⟩
  | cons f rest ih => exact ih (markAutoPopulated m f)

/-- Adding methods adds what they are made into at the next places. -/
theorem addsAtEnd_addMethods {context : ServiceContext} {package serviceId : String}
    {comments : Comments} {placeOf : Nat → Place} {position : Nat} {methods : List Method}
    {added : AddedAll MethodRef}
    (h : addMethods context package serviceId comments placeOf position m methods = .ok added) :
    AddsAtEnd serviceId methods m added := by
  induction methods generalizing m position added with
  | nil =>
    obtain rfl := Except.ok.inj h
    exact ⟨methodArena.keeps_of_eq rfl, .nil, rfl, rfl, rfl, rfl⟩
  | cons method rest ih =>
    rw [addMethods] at h
    obtain ⟨x, hx, h⟩ := Attempt.bind_eq_ok.1 h
    obtain ⟨others, hothers, h⟩ := Attempt.bind_eq_ok.1 h
    obtain rfl := Except.ok.inj h
    let marked := x.autoPopulated.foldl markAutoPopulated m
    have hmethods : marked.store.methods = m.store.methods :=
      methods_markAllAutoPopulated m x.autoPopulated
    have hservices := services_markAllAutoPopulated m x.autoPopulated
    have hrest : AddsAtEnd serviceId rest (marked.addMethod x).model others := ih hothers
    have hmarked : methodArena.Keeps m (marked.addMethod x).model :=
      .trans _ (methodArena.keeps_of_eq hmethods) (methodArena.keeps_push marked x)
    have hplace : methodArena.find? (marked.addMethod x).model (marked.addMethod x).ref = some x :=
      (methodArena.find?_push marked x _).trans (if_pos rfl)
    have hsize : (marked.addMethod x).model.store.methods.size = m.store.methods.size + 1 := by
      rw [← hmethods]
      exact Array.size_push x
    have href : (marked.addMethod x).ref.index = m.store.methods.size := by
      rw [← hmethods]
      rfl
    exact {
      kept := .trans _ hmarked hrest.kept
      made := .cons ⟨x, hrest.kept _ x hplace, yields_convertMethod hx⟩ hrest.made
      places := by
        rw [List.map_cons, hrest.places, hsize, List.length_cons, List.range'_succ, href]
      size := by rw [hrest.size, hsize, List.length_cons]; omega
      listed := hrest.listed.trans hservices.1
      services := hrest.services.trans hservices.2 }

/-- Adding methods leaves the types as they are declared. -/
theorem MirrorsTypes.addMethods {selected : File → Bool} {ds : List (Declared Message)}
    {es : List (Declared Enumeration)} (hm : MirrorsTypes selected ds es m)
    {context : ServiceContext} {package serviceId : String} {comments : Comments}
    {placeOf : Nat → Place} {position : Nat} {methods : List Method} {added : AddedAll MethodRef}
    (h : Descriptor.addMethods context package serviceId comments placeOf position m methods =
      .ok added) : MirrorsTypes selected ds es added.model := by
  induction methods generalizing m position added with
  | nil =>
    obtain rfl := Except.ok.inj h
    exact hm
  | cons method rest ih =>
    rw [Descriptor.addMethods] at h
    obtain ⟨x, -, h⟩ := Attempt.bind_eq_ok.1 h
    obtain ⟨others, hothers, h⟩ := Attempt.bind_eq_ok.1 h
    obtain rfl := Except.ok.inj h
    let marked := x.autoPopulated.foldl Descriptor.markAutoPopulated m
    have hmarked : MirrorsTypes selected ds es (marked.addMethod x).model :=
      { hm.markAllAutoPopulated x.autoPopulated with }
    have hrest : MirrorsTypes selected ds es others.model := ih hmarked hothers
    exact hrest

/-- Adding a service mirrors its declaration behind those before. -/
theorem MirrorsServices.addService {ds : List (Declared Service)} (hm : MirrorsServices ds m)
    {context : ServiceContext} {file : File} {comments : Comments} {entry : Service × Nat}
    (h : Descriptor.addService context file.packageName comments m entry = .ok other) :
    MirrorsServices (ds ++ [⟨file, [entry.1.name.getD ""], none, entry.1⟩]) other := by
  obtain ⟨added, hadded, h⟩ := Attempt.bind_eq_ok.1 h
  obtain rfl := Except.ok.inj h
  have hadds := addsAtEnd_addMethods hadded
  have hid := qualify_eq_dottedId file.packageName (entry.1.name.getD "")
  constructor
  · change List.Forall₂ _ _ (added.model.store.services.push _).toList
    rw [Array.toList_push, hadds.services]
    refine List.rel_append (hm.services.imp fun d x hx => hx.later hadds.kept) (.cons ?_ .nil)
    refine ⟨rfl, hid, rfl, ?_⟩
    rw [Declared.id, ← hid]
    exact hadds.made
  · change (added.model.services ++ [ServiceRef.mk added.model.store.services.size]).map _ =
      List.range (added.model.store.services.push _).size
    rw [Array.size_push, List.range_succ, List.map_append, hadds.listed, hadds.services, hm.listed]
    rfl
  · change ((added.model.store.services.push _).toList.flatMap _).map _ =
      List.range added.model.store.methods.size
    rw [Array.toList_push, List.flatMap_append, List.map_append, hadds.services,
      hm.methods, hadds.size, List.flatMap_singleton, hadds.places, List.range_add,
      List.range'_eq_map_range]

/-- Adding a service leaves the types as they are declared. -/
theorem MirrorsTypes.addService {selected : File → Bool} {ds : List (Declared Message)}
    {es : List (Declared Enumeration)} (hm : MirrorsTypes selected ds es m)
    {context : ServiceContext} {package : String} {comments : Comments} {entry : Service × Nat}
    (h : Descriptor.addService context package comments m entry = .ok other) :
    MirrorsTypes selected ds es other := by
  obtain ⟨added, hadded, h⟩ := Attempt.bind_eq_ok.1 h
  obtain rfl := Except.ok.inj h
  exact { hm.addMethods hadded with }

/-- Adding the services of a file mirrors its declarations behind those before. -/
theorem MirrorsServices.addServices {ds : List (Declared Service)} (hm : MirrorsServices ds m)
    {context : ServiceContext} {file : File}
    (h : Descriptor.addServices context m file = .ok other) :
    MirrorsServices (ds ++ file.declaredServices) other := by
  -- the induction is over the services still to come, behind those that are already there
  suffices hall : ∀ (entries : List (Service × Nat)) (ds : List (Declared Service)) (m : Model),
      MirrorsServices ds m →
      entries.foldlM (Descriptor.addService context file.packageName (Comments.ofFile file)) m =
        .ok other →
      MirrorsServices
        (ds ++ (entries.map Prod.fst).map fun service =>
          ⟨file, [service.name.getD ""], none, service⟩)
        other by
    have hfile := hall file.services.zipIdx ds m hm h
    rwa [List.zipIdx_map_fst] at hfile
  intro entries
  induction entries with
  | nil =>
    intro ds m hm h
    obtain rfl := Except.ok.inj h
    simpa using hm
  | cons entry rest ih =>
    intro ds m hm h
    rw [List.foldlM_cons] at h
    obtain ⟨k, hk, hrest⟩ := Attempt.bind_eq_ok.1 h
    have hall := ih _ k (hm.addService hk) hrest
    rwa [List.append_assoc] at hall

/-- Adding the services of files mirrors their declarations behind those before. -/
theorem MirrorsServices.foldlM {ds : List (Declared Service)} (hm : MirrorsServices ds m)
    {context : ServiceContext} {files : List File}
    (h : files.foldlM (Descriptor.addServices context) m = .ok other) :
    MirrorsServices (ds ++ files.flatMap File.declaredServices) other := by
  induction files generalizing m ds with
  | nil =>
    obtain rfl := Except.ok.inj h
    simpa using hm
  | cons file rest ih =>
    rw [List.foldlM_cons] at h
    obtain ⟨k, hk, hrest⟩ := Attempt.bind_eq_ok.1 h
    have hall := ih (hm.addServices hk) hrest
    rwa [List.append_assoc] at hall

/-- A model without services mirrors the services of no declarations. -/
theorem MirrorsServices.of_empty (hlisted : m.services = []) (hservices : m.store.services = #[])
    (hmethods : m.store.methods = #[]) : MirrorsServices [] m := by
  constructor
  · rw [hservices]
    exact .nil
  · rw [hlisted, hservices]
    rfl
  · rw [hservices, hmethods]
    rfl

/-- Adding the types of a file leaves the services. -/
theorem services_addTypes {selected : File → Bool} {file : File}
    (h : addTypes selected m file = .ok other) :
    other.services = m.services ∧ other.store.services = m.store.services ∧
      other.store.methods = m.store.methods := by
  obtain ⟨k, messages, enums, hadds, -, -, rfl⟩ := addsTypes_addTypes h
  have hkept : k.services = m.services ∧ k.store.services = m.store.services ∧
      k.store.methods = m.store.methods :=
    ⟨congrArg Frame.services hadds.kept, congrArg Frame.storedServices hadds.kept,
      congrArg Frame.storedMethods hadds.kept⟩
  split <;> exact hkept

/-! ## The model of a set -/

/-- Whether a model corresponds to a set of files of which some are selected. -/
structure Corresponds (set : FileSet) (selected : File → Bool) (k : Model) : Prop where
  /-- The types are those that the files declare. -/
  types : MirrorsTypes selected set.preorder set.enumOrder k
  /-- The services are those that the selected files declare. -/
  services : MirrorsServices (set.declaredServices selected) k

/-- What is built from the files of a set, first the types of all of them and then the services of
the selected ones, corresponds to the set. -/
theorem corresponds_of_steps {set : FileSet} {config : Option ServiceConfig}
    {included : List String} {context : ServiceContext} {package : String} {types : Model}
    (htypes : set.files.foldlM (addTypes (set.selects included)) (identity package config) =
      .ok types)
    (hservices : (set.files.filter (set.selects included)).foldlM (addServices context) types =
      .ok k) :
    Corresponds set (set.selects included) k := by
  have hmirrors : MirrorsTypes (set.selects included) set.preorder set.enumOrder types :=
    .foldlM (.of_empty rfl rfl rfl) htypes
  have hempty : types.services = [] ∧ types.store.services = #[] ∧
      types.store.methods = #[] := by
    refine Attempt.foldlM_keeps
      (P := fun m => m.services = [] ∧ m.store.services = #[] ∧ m.store.methods = #[])
      (fun m file k hm hk => ?_) ⟨rfl, rfl, rfl⟩ htypes
    obtain ⟨hlisted, hservices, hmethods⟩ := services_addTypes hk
    exact ⟨hlisted.trans hm.1, hservices.trans hm.2.1, hmethods.trans hm.2.2⟩
  constructor
  · refine Attempt.foldlM_keeps (fun m file k hm hk => ?_) hmirrors hservices
    exact Attempt.foldlM_keeps (fun m entry k hm hk => hm.addService hk) hm hk
  · exact .foldlM (.of_empty hempty.1 hempty.2.1 hempty.2.2) hservices

/-- The model of a set corresponds to it but for the well-known types. -/
theorem corresponds_model {set : FileSet} {config : Option ServiceConfig} {included : List String}
    (h : set.model config included = .ok m) :
    ∃ k, m = WellKnown.register k ∧ Corresponds set (set.selects included) k := by
  obtain ⟨types, htypes, h⟩ := Attempt.bind_eq_ok.1 h
  obtain ⟨k, hk, h⟩ := Attempt.bind_eq_ok.1 h
  obtain rfl := Except.ok.inj h
  exact ⟨k, rfl, corresponds_of_steps htypes hk⟩

/-! ## Sets without a model -/

/-- Whether a declared message has a field without a known type, of which an error tells. -/
def Declared.HasUntypedField (d : Declared Message) (e : Error) : Prop :=
  ∃ f ∈ d.source.fields, f.fieldType? = none ∧
    e = .schema (d.id ++ "." ++ f.name.getD "") "missing or unknown field type"

/-- Whether a method has a path or a routing template that cannot be read, of which an error
tells. -/
def Method.HasMalformedTemplate (method : Method) (e : Error) : Prop :=
  (∃ rule, (method.options.getD {}).http = some rule ∧
    ∃ b ∈ rule.bindings, Path.Template.parse b.path = .error e) ∨
  ∃ rule, (method.options.getD {}).routing = some rule ∧
    ∃ p ∈ rule.parameters, p.read = .error e

/-- Whether a file has a service with a method that has a malformed template. -/
def File.HasMalformedTemplate (file : File) (e : Error) : Prop :=
  ∃ service ∈ file.services, ∃ method ∈ service.methods, method.HasMalformedTemplate e

/-- A message that cannot be converted has a field without a known type. -/
theorem hasUntypedField_convertMessage {file : File} {scope : String} {names : List String}
    (hscope : IsScope scope file.packageName names) (position : Option Nat)
    {parent : Option MessageRef} {place : Place} {message : Message} {e : Error}
    (h : convertMessage file.context scope parent place message = .error e) :
    Declared.HasUntypedField ⟨file, names ++ [message.name.getD ""], position, message⟩ e := by
  have hid := hscope (message.name.getD "")
  rw [convertMessage_eq] at h
  obtain ⟨⟨f, i⟩, hf, hfail⟩ := Attempt.of_mapM_eq_error (Attempt.map_eq_error.1 h)
  have hconvert := Attempt.map_eq_error.1 hfail
  unfold Field.convert at hconvert
  dsimp only at hconvert
  split at hconvert
  · cases hconvert
  · rename_i htype
    refine ⟨f, List.fst_mem_of_mem_zipIdx hf, ?_, ?_⟩
    · cases hknown : f.fieldType? with
      | none => rfl
      | some type => exact absurd hknown (htype type)
    · rw [Declared.id, ← hid]
      exact (Except.error.inj hconvert).symm

/-- A converted message has the full name of its name in the scope. -/
theorem id_convertMessage {context : FileContext} {scope : String} {parent : Option MessageRef}
    {place : Place} {message : Message} {x : ApiModel.Message}
    (h : convertMessage context scope parent place message = .ok x) :
    x.id = scope ++ "." ++ message.name.getD "" := by
  obtain ⟨fields, -, rfl⟩ := convertMessage_eq_ok.1 h
  rfl

mutual

/-- A message that cannot be added declares one that has a field without a known type. -/
theorem hasUntypedField_addMessageTree {file : File} {scope : String} {names : List String}
    (hscope : IsScope scope file.packageName names) (first : Nat) (position : Option Nat)
    {parent : Option MessageRef} {place : Place} {m : Model} {e : Error} (message : Message)
    (h : addMessageTree file.context scope parent place m message = .error e) :
    ∃ d ∈ message.preorder file names position first, d.HasUntypedField e := by
  match message with
  | .mk name fields messages enums options oneofs =>
    rw [addMessageTree] at h
    rw [Message.preorder]
    rcases Attempt.bind_eq_error.1 h with helement | ⟨element, helement, h⟩
    · exact ⟨_, List.mem_cons_self, hasUntypedField_convertMessage hscope position helement⟩
    · have hinner : IsScope element.id file.packageName (names ++ [name.getD ""]) :=
        id_convertMessage helement ▸ hscope.append _
      rcases Attempt.bind_eq_error.1 h with hnested | ⟨nested, -, h⟩
      · obtain ⟨d, hd, hfail⟩ :=
          hasUntypedField_addMessageTrees hinner (first + 1) (some first) messages hnested
        exact ⟨d, List.mem_cons_of_mem _ hd, hfail⟩
      · cases h

/-- Messages that cannot be added declare one that has a field without a known type. -/
theorem hasUntypedField_addMessageTrees {file : File} {scope : String} {names : List String}
    (hscope : IsScope scope file.packageName names) (first : Nat) (position : Option Nat)
    {parent : Option MessageRef} {placeOf : Nat → Place} {index : Nat} {m : Model} {e : Error}
    (messages : List Message)
    (h : addMessageTrees file.context scope parent placeOf index m messages = .error e) :
    ∃ d ∈ Message.preorderAll file names position first messages, d.HasUntypedField e := by
  match messages with
  | [] =>
    rw [addMessageTrees] at h
    cases h
  | message :: rest =>
    rw [addMessageTrees] at h
    rw [Message.preorderAll]
    rcases Attempt.bind_eq_error.1 h with hfirst | ⟨added, -, h⟩
    · obtain ⟨d, hd, hfail⟩ :=
        hasUntypedField_addMessageTree hscope first position message hfirst
      exact ⟨d, List.mem_append_left _ hd, hfail⟩
    · rcases Attempt.bind_eq_error.1 h with hothers | ⟨others, -, h⟩
      · obtain ⟨d, hd, hfail⟩ :=
          hasUntypedField_addMessageTrees hscope (first + message.count) position rest hothers
        exact ⟨d, List.mem_append_right _ hd, hfail⟩
      · cases h

end

/-- Files whose types cannot be added declare a message that has a field without a known type. -/
theorem hasUntypedField_addTypes {selected : File → Bool} {files : List File}
    (first : Nat) {e : Error} (h : files.foldlM (addTypes selected) m = .error e) :
    ∃ d ∈ File.preorderAll first files, d.HasUntypedField e := by
  induction files generalizing m first with
  | nil => cases h
  | cons file rest ih =>
    rw [List.foldlM_cons] at h
    rw [File.preorderAll]
    rcases Attempt.bind_eq_error.1 h with hfile | ⟨k, -, hrest⟩
    · rcases Attempt.bind_eq_error.1 hfile with htrees | ⟨trees, -, hfile⟩
      · obtain ⟨d, hd, hfail⟩ := hasUntypedField_addMessageTrees
          (isScope_scopeOf file.packageName) first none file.messages htrees
        exact ⟨d, List.mem_append_left _ hd, hfail⟩
      · dsimp only at hfile
        split at hfile <;> cases hfile
    · obtain ⟨d, hd, hfail⟩ := ih (first + Message.countAll file.messages) hrest
      exact ⟨d, List.mem_append_right _ hd, hfail⟩

/-- A method that cannot be converted has a malformed template. -/
theorem hasMalformedTemplate_convert {context : ServiceContext}
    {package serviceId documentation : String} {method : Method} {e : Error}
    (h : method.convert context m package serviceId documentation = .error e) :
    method.HasMalformedTemplate e := by
  rcases Attempt.bind_eq_error.1 h with hpath | ⟨pathInfo, -, h⟩
  · refine .inl ?_
    cases hrule : (method.options.getD {}).http with
    | none => rw [hrule] at hpath; cases hpath
    | some rule =>
      rw [hrule] at hpath
      rcases Attempt.bind_eq_error.1 hpath with hpath | ⟨info, -, hpath⟩
      · rcases Attempt.bind_eq_error.1 hpath with hbindings | ⟨bindings, -, hpath⟩
        · obtain ⟨b, hb, hfail⟩ := Attempt.of_mapM_eq_error hbindings
          rcases Attempt.bind_eq_error.1 hfail with hparse | ⟨template, -, hfail⟩
          · exact ⟨rule, rfl, b, hb, hparse⟩
          · cases hfail
        · cases hpath
      · cases hpath
  · rcases Attempt.bind_eq_error.1 h with hrouting | ⟨routing, -, h⟩
    · refine .inr ?_
      cases hrule : (method.options.getD {}).routing with
      | none => rw [hrule] at hrouting; cases hrouting
      | some rule =>
        rw [hrule] at hrouting
        rcases Attempt.bind_eq_error.1 hrouting with hread | ⟨info, -, hread⟩
        · obtain ⟨p, hp, _, hfail⟩ := Attempt.of_foldlM_eq_error (Attempt.map_eq_error.1 hread)
          exact ⟨rule, rfl, p, hp, Attempt.map_eq_error.1 hfail⟩
        · cases hread
    · cases h

/-- Methods that cannot be added have a malformed template. -/
theorem hasMalformedTemplate_addMethods {context : ServiceContext} {package serviceId : String}
    {comments : Comments} {placeOf : Nat → Place} {position : Nat}
    {methods : List Method} {e : Error}
    (h : addMethods context package serviceId comments placeOf position m methods = .error e) :
    ∃ method ∈ methods, method.HasMalformedTemplate e := by
  induction methods generalizing m position with
  | nil => cases h
  | cons method rest ih =>
    rw [addMethods] at h
    rcases Attempt.bind_eq_error.1 h with hconvert | ⟨x, -, h⟩
    · exact ⟨method, List.mem_cons_self, hasMalformedTemplate_convert hconvert⟩
    · rcases Attempt.bind_eq_error.1 h with hothers | ⟨others, -, h⟩
      · obtain ⟨later, hlater, hfail⟩ := ih hothers
        exact ⟨later, List.mem_cons_of_mem _ hlater, hfail⟩
      · cases h

/-- A file whose services cannot be added has a malformed template. -/
theorem hasMalformedTemplate_addServices {context : ServiceContext} {file : File} {e : Error}
    (h : addServices context m file = .error e) : file.HasMalformedTemplate e := by
  obtain ⟨entry, hentry, k, hfail⟩ := Attempt.of_foldlM_eq_error h
  have hmem : entry.1 ∈ file.services := by
    have := List.mem_map_of_mem (f := Prod.fst) hentry
    rwa [List.zipIdx_map_fst] at this
  rcases Attempt.bind_eq_error.1 hfail with hmethods | ⟨methods, -, hfail⟩
  · exact ⟨entry.1, hmem, hasMalformedTemplate_addMethods hmethods⟩
  · cases hfail

/-- Files are selected by a list that has their whole path or what stands behind a slash in it.
Without a list, those of the package of the last file are selected. -/
theorem FileSet.selects_iff {set : FileSet} {included : List String} {file : File} :
    set.selects included file = true ↔
      (∃ entry ∈ included, file.name.getD "" = entry ∨
        ∃ front, file.name.getD "" = front ++ ("/" ++ entry)) ∨
        included = [] ∧ ∃ last ∈ set.files.getLast?, last.packageName = file.packageName := by
  cases included with
  | nil =>
    rw [FileSet.selects, List.isEmpty_nil, if_pos rfl, Option.any_eq_true]
    simp
  | cons first rest =>
    rw [FileSet.selects, List.isEmpty_cons, if_neg Bool.false_ne_true, List.any_eq_true]
    simp [File.isNamedBy, Text.endsWith_iff]

/-- A set of files is read into a model that corresponds to it but for the well-known types, or
there is an error: then some message of some file has a field without a known type, or some selected
file has a template that cannot be read, and the error tells of it. -/
theorem FileSet.model_exact (set : FileSet) (config : Option ServiceConfig)
    (included : List String) :
    match set.model config included with
    | .ok m => ∃ k, m = WellKnown.register k ∧ Corresponds set (set.selects included) k
    | .error e =>
      (∃ d ∈ set.preorder, d.HasUntypedField e) ∨
        ∃ file ∈ set.files, set.selects included file = true ∧
        file.HasMalformedTemplate e := by
  cases h : set.model config included with
  | ok m => exact corresponds_model h
  | error e =>
    rcases Attempt.bind_eq_error.1 h with htypes | ⟨types, -, h⟩
    · exact .inl (hasUntypedField_addTypes 0 htypes)
    · rcases Attempt.bind_eq_error.1 h with hservices | ⟨k, -, h⟩
      · obtain ⟨file, hfile, _, hfail⟩ := Attempt.of_foldlM_eq_error hservices
        obtain ⟨hmem, hselected⟩ := List.mem_filter.1 hfile
        exact .inr ⟨file, hmem, hselected, hasMalformedTemplate_addServices hfail⟩
      · cases h

end ApiModel.Descriptor
