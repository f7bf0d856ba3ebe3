import ApiModel.Proofs.Discovery.Firsts
import ApiModel.Proofs.Discovery.Order
import ApiModel.Proofs.Naming
import ApiModel.Proofs.Package.Documents

/-!
# Services of discovery documents

The reader makes one service for every name of a resource with methods, of the first resource of
that name, with one method for each of its methods. Nothing else is made of the resources, so no
method stands in the store that its service does not list. Hence full names differ as names do.
-/

namespace ApiModel

namespace Model

/-- The full names of the messages of a model, in the order of the store. -/
def messageIds (m : Model) : List String :=
  m.store.messages.toList.map Message.id

/-- The full names of the services of a model, in the order of the store. -/
def serviceIds (m : Model) : List String :=
  m.store.services.toList.map Service.id

/-- The full names of the methods of a model, in the order of the store. -/
def methodIds (m : Model) : List String :=
  m.store.methods.toList.map Method.id

/-- A message that is added has its full name behind the others. -/
theorem messageIds_addMessage (m : Model) (x : Message) :
    (m.addMessage x).model.messageIds = m.messageIds ++ [x.id] := by
  rw [messageIds, addMessage, Array.toList_push, List.map_append]
  rfl

/-- Adding a well-known message leaves no full name twice. -/
theorem nodup_registerMessage {m : Model} (h : m.messageIds.Nodup) (name : String) :
    (WellKnown.registerMessage m name).messageIds.Nodup := by
  rw [WellKnown.registerMessage]
  split
  · exact h
  · rename_i hnone
    have hfresh : WellKnown.idOf name ∉ m.messageIds := by
      intro hid
      obtain ⟨x, hx, hname⟩ := List.mem_map.1 hid
      exact hnone (Array.any_eq_true'.2 ⟨x, Array.mem_toList_iff.1 hx, beq_iff_eq.2 hname⟩)
    change (m.addMessage _).model.messageIds.Nodup
    rw [messageIds_addMessage, List.nodup_append]
    refine ⟨h, List.nodup_singleton _, fun id hid other hother hsame => hfresh ?_⟩
    have hname : id = WellKnown.idOf name := hsame.trans (List.mem_singleton.1 hother)
    exact hname ▸ hid

/-- Adding the well-known types leaves no full name of a message twice. -/
theorem nodup_register {m : Model} (h : m.messageIds.Nodup) :
    (WellKnown.register m).messageIds.Nodup := by
  refine WellKnown.register_keeps (P := fun k => k.messageIds.Nodup)
    (fun _ name hk => nodup_registerMessage hk name) (fun k hk => ?_) h
  rw [WellKnown.registerEnum]
  split <;> exact hk

end Model

namespace Discovery

open Model

variable {d : Document} {m k other : Model}

/-- Whether the method that is made of an entry stands at a place. -/
def MethodMade (d : Document) (k : Model) (serviceId : String) (entry : String × Method)
    (r : MethodRef) :
    Prop :=
  ∃ x, methodArena.find? k r = some x ∧
    makeMethod k.packageName serviceId d.servicePath entry = .ok x

/-- Whether a service is the one that is made of a resource. -/
structure ServiceMade (d : Document) (k : Model) (resource : NamedResource) (x : ApiModel.Service) :
    Prop where
  /-- It has the name of the resource. -/
  name : x.name = resource.name
  /-- It is named in the package of the model. -/
  id : x.id = qualify k.packageName resource.name
  /-- It is in that package. -/
  package : x.package = k.packageName
  /-- It is served by the host of the document. -/
  defaultHost : x.defaultHost = d.host
  /-- It lists one method for each of the resource, in order. -/
  methods : List.Forall₂ (MethodMade d k x.id) resource.methods x.methods

/-- Whether the services of a model are those that are made of resources. -/
structure MirrorsResources (d : Document) (resources : List NamedResource) (k : Model) : Prop where
  /-- There is one service for each, in order. -/
  services : List.Forall₂ (ServiceMade d k) resources k.store.services.toList
  /-- The model lists them all, in order. -/
  listed : k.services.map ServiceRef.index = List.range k.store.services.size
  /-- Their methods, in order, are all that there are. -/
  methods : (k.store.services.toList.flatMap ApiModel.Service.methods).map MethodRef.index =
    List.range k.store.methods.size

/-- What is made of a resource stays so while methods are kept. -/
theorem ServiceMade.later {resource : NamedResource} {x : ApiModel.Service}
    (h : ServiceMade d m resource x) (hpackage : k.packageName = m.packageName)
    (hkept : methodArena.Keeps m k) :
    ServiceMade d k resource x where
  name := h.name
  id := hpackage ▸ h.id
  package := hpackage ▸ h.package
  defaultHost := h.defaultHost
  methods := h.methods.imp fun _ r ⟨y, hy, hmake⟩ => ⟨y, hkept r y hy, hpackage ▸ hmake⟩

/-- Methods that are added stand at the next places. -/
theorem forall₂_nextMethods {R : String × Method → ApiModel.Method → Prop}
    {entries : List (String × Method)} {methods : List ApiModel.Method}
    (h : List.Forall₂ R entries methods) (xs : Array ApiModel.Method) :
    List.Forall₂ (fun entry (r : MethodRef) => ∃ x, (xs ++ methods.toArray)[r.index]? =
      some x ∧ R entry x)
      entries ((List.range' xs.size methods.length).map MethodRef.mk) := by
  induction h generalizing xs with
  | nil => exact .nil
  | @cons entry x entries methods hfirst hrest ih =>
    have hadded : xs ++ (x :: methods).toArray = xs.push x ++ methods.toArray := by simp
    rw [List.length_cons, List.range'_succ, List.map_cons, hadded]
    refine .cons ⟨x, ?_, hfirst⟩ ?_
    · rw [Array.getElem?_append_left (by simp)]
      exact Array.getElem?_push_size
    · have hnext := ih (xs.push x)
      rwa [Array.size_push] at hnext

/-- Adding the service of one more resource mirrors it behind those before. -/
theorem MirrorsResources.addService {resources : List NamedResource}
    (h : MirrorsResources d resources m) {resource : NamedResource}
    (hadd : Discovery.addService d m resource = .ok k) :
    MirrorsResources d (resources ++ [resource]) k := by
  obtain ⟨methods, hmethods, rfl⟩ := of_addService hadd
  have hmade := Attempt.mapM_eq_ok.1 hmethods
  have hkept : methodArena.Keeps m (withService d m resource methods) := by
    intro r y hy
    obtain ⟨hr, -⟩ := Array.getElem?_eq_some_iff.1 hy
    exact (Array.getElem?_append_left hr).trans hy
  constructor
  · have hbefore := h.services.imp fun _ _ hx =>
      hx.later (k := withService d m resource methods) rfl hkept
    have hmethods := forall₂_nextMethods hmade m.store.methods
    rw [withService, Array.toList_push]
    exact List.rel_append hbefore (.cons ⟨rfl, rfl, rfl, rfl, hmethods⟩ .nil)
  · rw [withService, Array.size_push, List.range_succ, List.map_append, h.listed]
    rfl
  · rw [withService, Array.toList_push, List.flatMap_append, List.map_append, h.methods,
      List.flatMap_singleton, Array.size_append, List.size_toArray, List.range_add]
    simp [madeService, nextMethods, List.range'_eq_map_range, Function.comp_def]

/-- Adding the services of resources mirrors them behind those before, and leaves the messages and
the package. -/
theorem MirrorsResources.addServices {before resources : List NamedResource}
    (h : MirrorsResources d before m) (hadd : resources.foldlM (Discovery.addService d) m = .ok k) :
    MirrorsResources d (before ++ resources) k ∧ k.store.messages = m.store.messages ∧
      k.packageName = m.packageName := by
  induction resources generalizing m before with
  | nil =>
    obtain rfl := Except.ok.inj hadd
    rw [List.append_nil]
    exact ⟨h, rfl, rfl⟩
  | cons first rest ih =>
    rw [List.foldlM_cons] at hadd
    obtain ⟨between, hfirst, hrest⟩ := Attempt.bind_eq_ok.1 hadd
    obtain ⟨hall, hmessages, hpackage⟩ := ih (h.addService hfirst) hrest
    obtain ⟨methods, -, rfl⟩ := of_addService hfirst
    rw [List.append_assoc] at hall
    exact ⟨hall, hmessages, hpackage⟩

/-- A model without services mirrors no resources. -/
theorem MirrorsResources.of_empty (hlisted : m.services = []) (hservices : m.store.services = #[])
    (hmethods : m.store.methods = #[]) : MirrorsResources d [] m := by
  constructor
  · rw [hservices]
    exact .nil
  · rw [hlisted, hservices]
    rfl
  · rw [hservices, hmethods]
    rfl

/-! ## Messages -/

/-- The message of a schema is named in the package. -/
theorem id_makeMessage {package name : String} {schema : Schema} {x : Message}
    (h : makeMessage package name schema = .ok x) : x.id = qualify package name := by
  obtain ⟨shape, -, h⟩ := Attempt.bind_eq_ok.1 h
  split at h
  · obtain ⟨fields, -, h⟩ := Attempt.bind_eq_ok.1 h
    obtain rfl := Except.ok.inj h
    rfl
  · cases h

/-- What making messages of schemas does to a model. -/
structure AddsSchemas (names : List String) (m k : Model) : Prop where
  /-- One message for each schema comes behind the others. -/
  ids : k.messageIds = m.messageIds ++ names.map (qualify m.packageName)
  /-- The package stays. -/
  packageName : k.packageName = m.packageName
  /-- The listed services stay. -/
  listed : k.services = m.services
  /-- The services stay. -/
  services : k.store.services = m.store.services
  /-- The methods stay. -/
  methods : k.store.methods = m.store.methods

/-- Adding schemas adds messages of their names and nothing else. -/
theorem addsSchemas_foldlM {schemas : List (String × Schema)}
    (hadd : schemas.foldlM addSchema m = .ok k) : AddsSchemas (schemas.map Prod.fst) m k := by
  induction schemas generalizing m with
  | nil =>
    obtain rfl := Except.ok.inj hadd
    exact ⟨by simp, rfl, rfl, rfl, rfl⟩
  | cons first rest ih =>
    rw [List.foldlM_cons] at hadd
    obtain ⟨between, hfirst, hrest⟩ := Attempt.bind_eq_ok.1 hadd
    obtain ⟨x, hx, rfl⟩ := of_addSchema hfirst
    have hall := ih hrest
    refine ⟨?_, hall.packageName, hall.listed, hall.services, hall.methods⟩
    have hids : k.messageIds = (m.addMessage x).model.messageIds ++
        (rest.map Prod.fst).map (qualify m.packageName) := hall.ids
    rw [hids, messageIds_addMessage, id_makeMessage hx]
    simp

/-! ## The model -/

/-- What the reader makes of the resources of a document, and which full names differ. -/
structure ServesResources (d : Document) (m : Model) : Prop where
  /-- There is one service for the first place of each name, in the order of the paths. -/
  services : ∃ places : List ResourcePlace, places.Pairwise
    (fun first second => first.1 < second.1) ∧
    (∀ place, place ∈ places ↔ d.ServesFirst place) ∧
    List.Forall₂ (fun place r => ServiceMade d m (namedAt place) (m.service r)) places m.services
  /-- No two services have one name. -/
  namesOnce : (m.services.map fun r => (m.service r).name).Nodup
  /-- Their names are those of the resources with methods. -/
  names : ∀ name, name ∈ m.services.map (fun r => (m.service r).name) ↔
    ∃ place, d.Serves place ∧ lastName place.1 = name
  /-- The methods of their resources are in the order of the names. -/
  methodOrder : ∀ place, d.ServesFirst place → Index.Ascending place.2.methods
  /-- All services of the store are listed, in order. -/
  listedServices : m.services.map ServiceRef.index = List.range m.store.services.size
  /-- All methods of the store are listed by the services, in order. -/
  listedMethods : (m.services.flatMap fun r => (m.service r).methods).map MethodRef.index =
    List.range m.store.methods.size
  /-- No two messages have one full name. -/
  messageIds : m.messageIds.Nodup
  /-- No two services have one full name. -/
  serviceIds : m.serviceIds.Nodup
  /-- No two methods have one full name if the names of methods that are served have no dot. -/
  methodIds :
    (∀ place, d.ServesFirst place → ∀ entry ∈ place.2.methods, '.' ∉ entry.1.toList) →
    m.methodIds.Nodup

/-- The listed services are those of the store, in order. -/
theorem MirrorsResources.map_service {resources : List NamedResource}
    (h : MirrorsResources d resources m) :
    m.services.map m.service = m.store.services.toList :=
  serviceArena.map_get_of_positions h.listed

/-- Adding the well-known types mirrors the same resources. -/
theorem MirrorsResources.register {resources : List NamedResource}
    (h : MirrorsResources d resources k) :
    MirrorsResources d resources (WellKnown.register k) := by
  have hsame : Registered k (WellKnown.register k) := registered_register k
  have hkept : methodArena.Keeps k (WellKnown.register k) := (WellKnown.staysIn_register k).methods
  have hmethods := WellKnown.methods_register k
  constructor
  · rw [hsame.services]
    exact h.services.imp fun _ _ hx => hx.later hsame.packageName hkept
  · rw [hsame.listedServices, hsame.services, h.listed]
  · rw [hsame.services, hmethods, h.methods]

/-- The method of an entry has the key of the entry behind the full name of its service. -/
theorem id_makeMethod {package serviceId servicePath : String} {entry : String × Method}
    {x : ApiModel.Method} (h : makeMethod package serviceId servicePath entry = .ok x) :
    x.id = serviceId ++ "." ++ entry.1 := by
  unfold makeMethod at h
  dsimp only at h
  split at h
  · cases h
  · obtain ⟨inputTypeId, -, h⟩ := Attempt.bind_eq_ok.1 h
    obtain ⟨outputTypeId, -, h⟩ := Attempt.bind_eq_ok.1 h
    obtain ⟨template, -, h⟩ := Attempt.bind_eq_ok.1 h
    obtain rfl := Except.ok.inj h
    rfl

/-- The full names of the methods of a resource in a package. -/
def NamedResource.methodIds (package : String) (resource : NamedResource) : List String :=
  resource.methods.map fun entry => qualify package resource.name ++ "." ++ entry.1

/-- The methods of a service have the full names that its resource gives them. -/
theorem ServiceMade.methodIds {resource : NamedResource} {x : ApiModel.Service}
    (h : ServiceMade d m resource x) :
    resource.methodIds m.packageName = x.methods.map fun r => (m.method r).id := by
  refine forall₂_iff_map_eq.1 (h.methods.imp fun entry r ⟨y, hy, hmake⟩ => ?_)
  have hget : m.method r = y := methodArena.get_of_find? hy
  rw [hget, id_makeMethod hmake, h.id]

/-- The methods of the store have the full names that the resources give them, in order. -/
theorem MirrorsResources.methodIds {resources : List NamedResource}
    (h : MirrorsResources d resources m) :
    m.methodIds = resources.flatMap (NamedResource.methodIds m.packageName) := by
  have hmethods : (m.store.services.toList.flatMap Service.methods).map m.method =
      m.store.methods.toList := methodArena.map_get_of_positions h.methods
  have hids := forall₂_iff_map_eq.1 (h.services.imp fun resource x hx => hx.methodIds)
  rw [Model.methodIds, ← hmethods, List.map_map, List.map_flatMap, List.flatMap_def,
    List.flatMap_def]
  exact congrArg List.flatten hids.symm

/-- Resources of different names give their methods different full names, if names of methods have
no dot. -/
theorem nodup_methodIds {package : String} {resources : List NamedResource}
    (hnames : (resources.map NamedResource.name).Nodup)
    (hmethods : ∀ resource ∈ resources, Index.Ascending resource.methods)
    (hdots : ∀ resource ∈ resources, ∀ entry ∈ resource.methods, '.' ∉ entry.1.toList) :
    (resources.flatMap (NamedResource.methodIds package)).Nodup := by
  refine List.nodup_flatMap.2 ⟨fun resource hresource => ?_, ?_⟩
  · have hascending := hmethods resource hresource
    refine List.pairwise_map.2
      (hascending.imp_of_mem fun {first second} hfirst hsecond hlt hid => ?_)
    have hparts := (append_dot_inj (hdots resource hresource first hfirst)
      (hdots resource hresource second hsecond)).1 hid
    exact String.ne_of_lt hlt hparts.2
  · refine (List.pairwise_map.1 hnames).imp_of_mem
      fun {first second} hfirst hsecond hne id hid hid' => ?_
    obtain ⟨entry, hentry, rfl⟩ := List.mem_map.1 hid
    obtain ⟨other, hother, hsame⟩ := List.mem_map.1 hid'
    have hparts := (append_dot_inj (hdots second hsecond other hother)
      (hdots first hfirst entry hentry)).1 hsame
    exact hne (qualify_inj.1 hparts.1.symm)

/-- What mirrors the first resources of their names serves the resources of a document. -/
theorem MirrorsResources.servesResources {places : List ResourcePlace}
    (h : MirrorsResources d (places.map namedAt) m) (hd : d.InOrder)
    (hascending : places.Pairwise fun first second => first.1 < second.1)
    (hplaces : ∀ place, place ∈ places ↔ d.ServesFirst place)
    (hmessages : m.messageIds.Nodup) :
    ServesResources d m := by
  have hservices : List.Forall₂ (fun place r => ServiceMade d m (namedAt place) (m.service r))
      places m.services := by
    have hmade := h.services
    rwa [← h.map_service, List.forall₂_map_left_iff, List.forall₂_map_right_iff] at hmade
  have honce := d.nodup_firstPlaces hascending hplaces
  have hnames : m.services.map (fun r => (m.service r).name) = places.map fun place =>
      lastName place.1 :=
    (forall₂_iff_map_eq.1 (hservices.imp fun place r hr => hr.name.symm)).symm
  have hmethods : ∀ place, d.ServesFirst place → Index.Ascending place.2.methods :=
    fun place hplace => hd.methods place.1 place.2 hplace.serves.1
  constructor
  case services => exact ⟨places, hascending, hplaces, hservices⟩
  case namesOnce => rwa [hnames]
  case names =>
    intro name
    rw [hnames, List.mem_map]
    constructor
    · rintro ⟨place, hplace, rfl⟩
      exact ⟨place, ((hplaces place).1 hplace).serves, rfl⟩
    · rintro ⟨place, hserves, rfl⟩
      obtain ⟨first, hfirst, hname⟩ := d.exists_servesFirst hd.resources hserves
      exact ⟨first, (hplaces first).2 hfirst, hname⟩
  case methodOrder => exact hmethods
  case listedServices => exact h.listed
  case listedMethods =>
    rw [← h.methods, ← h.map_service, List.flatMap_map]
  case messageIds => exact hmessages
  case serviceIds =>
    have hids : m.serviceIds = places.map fun place => qualify m.packageName (lastName place.1) :=
      (forall₂_iff_map_eq.1 ((List.forall₂_map_left_iff.1 h.services).imp fun place x hx =>
        hx.id.symm)).symm
    rw [hids]
    refine List.pairwise_map.2
      ((List.pairwise_map.1 honce).imp fun hne hid => hne (qualify_inj.1 hid))
  case methodIds =>
    intro hdots
    rw [h.methodIds]
    have hnames : ((places.map namedAt).map NamedResource.name).Nodup := by
      rw [List.map_map]
      exact honce
    refine nodup_methodIds hnames (fun resource hresource => ?_) fun resource hresource => ?_
    · obtain ⟨place, hplace, rfl⟩ := List.mem_map.1 hresource
      exact hmethods place ((hplaces place).1 hplace)
    · obtain ⟨place, hplace, rfl⟩ := List.mem_map.1 hresource
      exact hdots place ((hplaces place).1 hplace)

/-- The model of a document in order has one service for each name of a resource with methods. -/
theorem servesResources_model {config : Option ServiceConfig} (hd : d.InOrder)
    (h : d.model config = .ok m) : ServesResources d m := by
  obtain ⟨-, -, h⟩ := Attempt.bind_eq_ok.1 h
  obtain ⟨schemas, hschemas, h⟩ := Attempt.bind_eq_ok.1 h
  obtain ⟨k, hk, h⟩ := Attempt.bind_eq_ok.1 h
  obtain rfl := Except.ok.inj h
  obtain ⟨places, hascending, hplaces, htaken⟩ := d.exists_firstPlaces hd.resources
  have hempty : (d.identity config).services = [] ∧ (d.identity config).store = {} := by
    cases config <;> exact ⟨rfl, rfl⟩
  have hadds := addsSchemas_foldlM hschemas
  have hnone : MirrorsResources d [] schemas := by
    refine .of_empty (hadds.listed.trans hempty.1) ?_ ?_
    · rw [hadds.services, hempty.2]
    · rw [hadds.methods, hempty.2]
  obtain ⟨hmirrors, hmessages, -⟩ := hnone.addServices hk
  rw [List.nil_append, htaken] at hmirrors
  have hids : k.messageIds.Nodup := by
    have hsame : k.messageIds = schemas.messageIds :=
      congrArg (fun xs => xs.toList.map Message.id) hmessages
    rw [hsame, hadds.ids, Model.messageIds, hempty.2]
    refine List.pairwise_map.2 (List.pairwise_map.2 (hd.schemas.imp fun hlt hid => ?_))
    exact String.ne_of_lt hlt (qualify_inj.1 hid)
  exact hmirrors.register.servesResources hd hascending hplaces (nodup_register hids)

/-- A model that is read from a discovery document has one service for each name of a resource with
methods, in the order in which the first resources of the names stand in the document. -/
theorem servesResources_readModel {config : Option ServiceConfig} {contents : Bytes}
    (h : readModel config contents = .ok m) :
    ∃ d, Json.decode Document.read contents = some d ∧ d.InOrder ∧ ServesResources d m := by
  unfold readModel at h
  split at h
  · cases h
  · rename_i d hread
    obtain ⟨value, -, hvalue⟩ := Option.bind_eq_some_iff.1 hread
    have hd : d.InOrder := inOrder_read hvalue
    exact ⟨d, hread, hd, servesResources_model hd h⟩

/-- A document in which zones stand below projects, and once more behind them. -/
def nestedZones : String :=
  "\x7b\"resources\": \x7b\"projects\": \x7b\"resources\": \x7b\"zones\": \x7b\"methods\": \x7b" ++
    "\"list\": \x7b\"path\": \"zones\"\x7d, " ++
    "\"get\": \x7b\"path\": \"zone\"\x7d\x7d\x7d\x7d\x7d, " ++
    "\"zones\": \x7b\"methods\": \x7b\"stop\": \x7b\"path\": \"zone\"\x7d\x7d\x7d\x7d\x7d"

/-- The tokens of an object before the value of its first member. -/
def openingTokens (name : String) : List Json.Token :=
  [.objectStart, .text (some name), .colon]

/-- The tokens of the nested zones. -/
def nestedZoneTokens : List Json.Token :=
  openingTokens "resources" ++ openingTokens "projects" ++ openingTokens "resources" ++
    openingTokens "zones" ++ openingTokens "methods" ++
    openingTokens "list" ++ openingTokens "path" ++ [.text (some "zones"), .objectEnd] ++
    [.comma, .text (some "get"), .colon] ++ openingTokens "path" ++ [.text (some "zone")] ++
    List.replicate 5 .objectEnd ++ [.comma, .text (some "zones"), .colon] ++
    openingTokens "methods" ++ openingTokens "stop" ++ openingTokens "path" ++
    [.text (some "zone")] ++ List.replicate 5 .objectEnd

/-- The bytes of the nested zones are read as the values of their document. -/
theorem ofBytes?_nestedZones :
    Json.Value.ofBytes? (Text.gather nestedZones) = some (.object [(some "resources", .object
      [(some "projects", .object [(some "resources", .object [(some "zones", .object
          [(some "methods", .object [(some "list", .object [(some "path", .text "zones")]),
            (some "get", .object [(some "path", .text "zone")])])])])]),
        (some "zones", .object
          [(some "methods",
            .object [(some "stop", .object [(some "path", .text "zone")])])])])]) := by
  have htokens : Json.readTokens ((Text.gather nestedZones).length + 1) #[]
      (Text.gather nestedZones) = some nestedZoneTokens.toArray := by
    decide +kernel
  rw [Json.Value.ofBytes?, htokens, Option.bind_some]
  cbv

/-- The document of the nested zones is read with one service, of the zones below the projects. -/
theorem servesResources_readModel_nestedZones :
    ∃ m, readModel none (Text.gather nestedZones) = .ok m ∧
      m.methodIds = [".zones.get", ".zones.list"] ∧
        ∃ d, Json.decode Document.read (Text.gather nestedZones) = some d ∧ d.InOrder ∧
          ServesResources d m := by
  have hread : (readModel none (Text.gather nestedZones)).toOption.any
      (fun m => decide (m.methodIds = [".zones.get", ".zones.list"])) = true := by
    rw [readModel, Json.decode, ofBytes?_nestedZones, Option.bind_some]
    decide +kernel
  obtain ⟨m, hm, hids⟩ := Attempt.exists_ok_of_any hread
  exact ⟨m, hm, of_decide_eq_true hids, servesResources_readModel hm⟩

end Discovery

end ApiModel
