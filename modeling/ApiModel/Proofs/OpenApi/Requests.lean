import ApiModel.Proofs.Assembly.Exactness
import ApiModel.Proofs.Graph.Precedence
import ApiModel.Proofs.OpenApi.Catalog

/-!
# Requests of the methods of interface descriptions

Every call of a document has a request message of its own, but its method names the message only by
a full name, which assembly looks up. Component schemas are listed before the request messages, and
a full name finds the first listed message that has it. So the methods keep their own requests if
and only if no two calls have one name and no component schema is named like a request message.
-/

namespace ApiModel.OpenApi

open Model

/-- Whether the names of a document keep its request messages apart. -/
structure Document.NamesApart (d : Document) : Prop where
  /-- No two calls have one name. -/
  calls : (d.calls.map Call.methodName).Nodup
  /-- No component schema is named like a request message. -/
  schemas : ∀ component ∈ d.schemas, ∀ c ∈ d.calls, component.1 ≠ c.requestName

/-- How a document gives a model its methods and their request messages. -/
structure Created (d : Document) (config : Option ServiceConfig) (m : Model)
    (made : List MadeMethod) (requests : List MessageRef) : Prop where
  /-- Every call is made into a method and a request message. -/
  calls : d.calls.mapM (makeMethod m.packageName (qualify m.packageName (d.serviceName config))) =
    .ok made
  /-- The methods are those of the calls. -/
  methods : m.store.methods.toList = made.map MadeMethod.method
  /-- The request messages are listed behind the messages of the component schemas. -/
  listed : m.messages.drop d.schemas.length = requests
  /-- The request messages are at their places. -/
  held : List.Forall₂ (fun r x => messageArena.find? m r = some (x.request.ownedBy r))
    requests made

/-- Whether the methods of a model have different full names and each has its own request
message. -/
structure KeepsRequests (m : Model) (requests : List MessageRef) : Prop where
  /-- No two methods have one full name. -/
  ids : (m.store.methods.toList.map Method.id).Nodup
  /-- The request of a method is the one that was made for it. -/
  inputs :
    List.Forall₂ (fun (x : Method) r => x.inputType = some r) m.store.methods.toList requests

/-! ## Making methods -/

/-- What a call of the service of a full name is made into. -/
structure Call.MadeInto (package serviceId : String) (c : Call) (made : MadeMethod) : Prop where
  /-- The full name of the method is that of the service with the name of the call behind it. -/
  id : made.method.id = serviceId ++ "." ++ c.methodName
  /-- The request message is made for that method. -/
  request : requestMessage package made.method.id c.methodName c = .ok made.request
  /-- The request message has the name of the call. -/
  requestId : made.request.id = qualify package c.requestName
  /-- It is in the package. -/
  requestPackage : made.request.package = package
  /-- The method names its request. -/
  input : made.method.inputTypeId = made.request.id
  /-- The method names what the call answers. -/
  output : responseId package made.method.id c.operation = .ok made.method.outputTypeId
  /-- The method is no long-running operation. -/
  operation : made.method.operationInfo = none

/-- The method of a call is what the call is made into. -/
theorem madeInto_makeMethod {package serviceId : String} {c : Call} {made : MadeMethod}
    (h : makeMethod package serviceId c = .ok made) : c.MadeInto package serviceId made := by
  unfold makeMethod at h
  dsimp only at h
  split at h
  · cases h
  · obtain ⟨request, hrequest, h⟩ := Attempt.bind_eq_ok.1 h
    obtain ⟨outputTypeId, houtput, h⟩ := Attempt.bind_eq_ok.1 h
    obtain ⟨template, -, h⟩ := Attempt.bind_eq_ok.1 h
    obtain rfl := Except.ok.inj h
    have hidentity : request.id = qualify package c.requestName ∧ request.package = package := by
      obtain ⟨parameters, -, hmessage⟩ := Attempt.bind_eq_ok.1 hrequest
      obtain ⟨body, -, hmessage⟩ := Attempt.bind_eq_ok.1 hmessage
      obtain rfl := Except.ok.inj hmessage
      exact ⟨rfl, rfl⟩
    exact ⟨rfl, hrequest, hidentity.1, hidentity.2, rfl, houtput, rfl⟩

/-- The full names of a method and of its request message. -/
theorem of_makeMethod {package serviceId : String} {c : Call} {made : MadeMethod}
    (h : makeMethod package serviceId c = .ok made) :
    made.method.id = serviceId ++ "." ++ c.methodName ∧
      made.method.inputTypeId = made.request.id ∧
      made.request.id = qualify package c.requestName := by
  have hmade := madeInto_makeMethod h
  exact ⟨hmade.id, hmade.input, hmade.requestId⟩

variable {m k : Model} {made : List MadeMethod} {requests : List MessageRef}

/-- What adding methods behind their request messages leads to. -/
structure MethodsMade (m k : Model) (made : List MadeMethod)
    (requests : List MessageRef) : Prop where
  /-- The request messages are listed last. -/
  listed : k.messages = m.messages ++ requests
  /-- They are at their places. -/
  held : List.Forall₂ (fun r x => messageArena.find? k r = some (x.request.ownedBy r))
    requests made
  /-- The methods come behind those that were there. -/
  methods : k.store.methods.toList = m.store.methods.toList ++ made.map MadeMethod.method
  /-- The messages that were there stay. -/
  kept : messageArena.Keeps m k
  /-- The package stays. -/
  packageName : k.packageName = m.packageName
  /-- The services stay. -/
  services : k.services = m.services

/-- The places of methods that are added. -/
def methodPlaces (start count : Nat) : List MethodRef :=
  (List.range' start count).map MethodRef.mk

/-- Methods are added behind their request messages. -/
theorem exists_methodsMade {ids : List String} (h : Catalog m ids)
    (hmade : ∀ x ∈ made, x.request.messages = []) {found refs : List MethodRef}
    (hadd : made.foldl addMethod (found, m) = (refs, k)) :
    (∃ requests, MethodsMade m k made requests) ∧
      Catalog k (ids ++ made.map (·.request.id)) ∧
      refs = found ++ methodPlaces m.store.methods.size made.length := by
  induction made generalizing m ids found with
  | nil =>
    obtain ⟨rfl, rfl⟩ := Prod.mk.inj hadd
    refine ⟨⟨[], by simp, .nil, by simp, .refl _ m, rfl, rfl⟩, by simpa using h,
      by simp [methodPlaces]⟩
  | cons x rest ih =>
    have hx : x.request.messages = [] := hmade x List.mem_cons_self
    let next : Model := ((addListed m x.request []).addMethod x.method).model
    have hnext : next = methodArena.push (listedLast m x.request) x.method := by
      rw [← addListed_nil m hx]
      rfl
    have hcatalog : Catalog next (ids ++ [x.request.id]) :=
      ⟨(h.addRequest hx).listed, (h.addRequest hx).others⟩
    have hrest : rest.foldl addMethod (found ++ [⟨m.store.methods.size⟩], next) =
        (refs, k) := by
      have hsize : (addListed m x.request []).store.methods.size = m.store.methods.size := by
        rw [addListed_nil m hx]
        rfl
      rw [← hsize]
      exact hadd
    obtain ⟨⟨requests, hmore⟩, hlast, hrefs⟩ :=
      ih hcatalog (fun y hy => hmade y (List.mem_cons_of_mem x hy)) hrest
    rw [hnext] at hmore hrefs
    have hplace : messageArena.find? (listedLast m x.request) (messageArena.next m) =
        some (x.request.ownedBy (messageArena.next m)) :=
      (messageArena.find?_push m _ _).trans (if_pos rfl)
    refine ⟨⟨messageArena.next m :: requests, ?_, ?_, ?_, ?_, hmore.packageName,
      hmore.services⟩, ?_, ?_⟩
    · rw [hmore.listed]
      simp [methodArena, Arena.push, listedLast]
    · exact .cons (hmore.kept _ _ hplace) hmore.held
    · rw [hmore.methods]
      simp [methodArena, Arena.push, listedLast, messageArena]
    · exact (messageArena.keeps_push m _).trans _ hmore.kept
    · simpa using hlast
    · rw [hrefs]
      simp [methodPlaces, methodArena, messageArena, Arena.push, listedLast, List.range'_succ]

/-- What reading a document leads to, but for the well-known types. -/
structure DocumentMade (package serviceName : String) (d : Document) (m : Model)
    (made : List MadeMethod) (requests : List MessageRef) : Prop
    extends Catalog m (d.schemas.map (fun component => qualify package component.1) ++
      made.map fun x => x.request.id) where
  /-- Every call is made into a method and a request message. -/
  calls : d.calls.mapM (makeMethod package (qualify package serviceName)) = .ok made
  /-- The methods are those of the calls. -/
  methods : m.store.methods.toList = made.map MadeMethod.method
  /-- The request messages are listed last. -/
  behind : ∃ schemas, m.messages = schemas ++ requests ∧ schemas.length = d.schemas.length
  /-- They are at their places. -/
  held : List.Forall₂ (fun r x => messageArena.find? m r = some (x.request.ownedBy r))
    requests made
  /-- The package is known. -/
  packageName : m.packageName = package
  /-- A service lists all methods. -/
  served : m.listedMethods.map Prod.snd = methodPlaces 0 made.length

/-- A service that is added and listed alone lists its methods. -/
theorem listedMethods_addService (hnone : m.services = []) (x : Service) :
    (listedMethods { (m.addService x).model with
      services := (m.addService x).model.services ++ [(m.addService x).ref] }).map Prod.snd =
        x.methods := by
  have hplace : serviceArena.get (serviceArena.push m x) (serviceArena.next m) = x :=
    serviceArena.get_of_find? ((serviceArena.find?_push m x _).trans (if_pos rfl))
  have hservices : (m.addService x).model.services = [] := hnone
  rw [listedMethods, hservices]
  simp only [List.nil_append, List.flatMap_singleton, List.map_map, Function.comp_def, List.map_id']
  exact congrArg Service.methods hplace

/-- Adding the service of a document ends with all calls made into methods. -/
theorem exists_documentMade {package name : String} {d : Document}
    (h : SchemasMade package m (d.schemas.map fun component => qualify package component.1))
    (hadd : addService d name m = .ok k) :
    ∃ made requests, DocumentMade package name d k made requests := by
  have hcount : m.messages.length = d.schemas.length := by
    simpa using h.listed.length_eq
  unfold addService at hadd
  obtain ⟨made, hmade, hadd⟩ := Attempt.bind_eq_ok.1 hadd
  rw [h.packageName] at hmade
  by_cases hnone : made = []
  · subst hnone
    obtain rfl := Except.ok.inj hadd
    refine ⟨[], [], ?_, hmade, by simp [h.methods], ⟨m.messages, by simp, hcount⟩, .nil,
      h.packageName, ?_⟩
    · simpa using h.toCatalog
    · simp [listedMethods, h.services, methodPlaces]
  · rw [if_neg (by simpa using hnone)] at hadd
    have halone : ∀ x ∈ made, x.request.messages = [] := by
      intro x hx
      obtain ⟨c, -, hc⟩ := Attempt.mapM_forall_right hmade x hx
      exact (alone_makeMethod hc).2.messages
    cases hfold : made.foldl addMethod ([], m) with
    | mk refs last =>
      obtain ⟨⟨requests, hmethods⟩, hcatalog, hrefs⟩ :=
        exists_methodsMade h.toCatalog halone hfold
      rw [hfold] at hadd
      obtain rfl := Except.ok.inj hadd
      refine ⟨made, requests, ⟨hcatalog.listed, hcatalog.others⟩, hmade, ?_,
        ⟨m.messages, hmethods.listed, hcount⟩, hmethods.held, ?_, ?_⟩
      · have hall : last.store.methods.toList = made.map MadeMethod.method := by
          simpa [h.methods] using hmethods.methods
        exact hall
      · exact hmethods.packageName.trans h.packageName
      · have hnone : last.services = [] := hmethods.services.trans h.services
        have hsize : m.store.methods.size = 0 := by simp [h.methods]
        rw [hsize, List.nil_append] at hrefs
        rw [← hrefs]
        exact listedMethods_addService hnone _

namespace DocumentMade

variable {package serviceName : String} {d : Document}

/-- Adding a well-known message keeps what a document was made into. -/
theorem registerMessage (h : DocumentMade package serviceName d m made requests) (name : String) :
    DocumentMade package serviceName d (WellKnown.registerMessage m name) made requests := by
  have hcatalog := h.toCatalog.registerMessage name
  unfold WellKnown.registerMessage at hcatalog ⊢
  split
  · exact h
  · rename_i hnew
    rw [if_neg hnew] at hcatalog
    exact ⟨hcatalog, h.calls, h.methods, h.behind,
      h.held.imp fun r x hx => messageArena.find?_push_of_find? hx _, h.packageName, h.served⟩

/-- Adding the well-known enumeration keeps what a document was made into. -/
theorem registerEnum (h : DocumentMade package serviceName d m made requests) :
    DocumentMade package serviceName d (WellKnown.registerEnum m) made requests := by
  unfold WellKnown.registerEnum
  split
  · exact h
  · exact ⟨⟨h.listed, h.others⟩, h.calls, h.methods, h.behind, h.held,
      h.packageName, h.served⟩

/-- Adding the well-known types keeps what a document was made into. -/
theorem register (h : DocumentMade package serviceName d m made requests) :
    DocumentMade package serviceName d (WellKnown.register m) made requests :=
  WellKnown.register_keeps (P := fun k => DocumentMade package serviceName d k made requests)
    (fun _ name hk => hk.registerMessage name) (fun _ hk => hk.registerEnum) h

end DocumentMade

/-- A document that is read has made its calls into methods. -/
theorem exists_made {d : Document} {config : Option ServiceConfig} (h : d.model config = .ok m) :
    ∃ made requests, DocumentMade m.packageName (d.serviceName config) d m made requests := by
  obtain ⟨schemas, hschemas, h⟩ := Attempt.bind_eq_ok.1 h
  obtain ⟨services, hservice, h⟩ := Attempt.bind_eq_ok.1 h
  obtain rfl := Except.ok.inj h
  have hempty := schemasMade_identity d config
  obtain ⟨made, requests, hmade⟩ :=
    exists_documentMade (by simpa using hempty.foldlM hschemas) hservice
  have hdone := hmade.register
  exact ⟨made, requests, by simpa [hdone.packageName] using hdone⟩

/-! ## What full names find -/

/-- The first of different items with a name is found for each of some items exactly if they differ
in name from each other and from all before them. -/
theorem find?_eq_some_iff_names {α β : Type} [DecidableEq β] {name : α → β}
    {front items back : List α}
    (honce : (front ++ items ++ back).Nodup) :
    (∀ r ∈ items, (front ++ items ++ back).find? (fun s => name s == name r) = some r) ↔
      (∀ s ∈ front, ∀ r ∈ items, name s ≠ name r) ∧ (items.map name).Nodup := by
  obtain ⟨hfirst, -, -⟩ := List.nodup_append.1 honce
  obtain ⟨-, hitems, hdisjoint⟩ := List.nodup_append.1 hfirst
  constructor
  · intro h
    refine ⟨fun s hs r hr hname => ?_, hitems.map_on fun r hr s hs hname => ?_⟩
    · obtain ⟨first, hfound⟩ : ∃ first, front.find? (fun s => name s == name r) =
          some first :=
        Option.isSome_iff_exists.1 (List.find?_isSome.2 ⟨s, hs, beq_iff_eq.2 hname⟩)
      have hall := h r hr
      rw [List.append_assoc, List.find?_append, hfound, Option.some_or] at hall
      obtain rfl := Option.some.inj hall
      exact hdisjoint first (List.mem_of_find?_eq_some hfound) first hr rfl
    · have hr' := h r hr
      rw [hname, h s hs] at hr'
      exact (Option.some.inj hr').symm
  · rintro ⟨hfront, hnames⟩ r hr
    have hnone : front.find? (fun s => name s == name r) = none := by
      rw [List.find?_eq_none]
      intro s hs
      simpa using hfront s hs r hr
    obtain ⟨first, hfound⟩ : ∃ first, items.find? (fun s => name s == name r) = some first :=
      Option.isSome_iff_exists.1 (List.find?_isSome.2 ⟨r, hr, beq_self_eq_true _⟩)
    have hname : name first = name r := by simpa using List.find?_some hfound
    have hfirst : first = r :=
      List.inj_on_of_nodup_map hnames (List.mem_of_find?_eq_some hfound) hr hname
    rw [List.append_assoc, List.find?_append, hnone, Option.none_or, List.find?_append,
      hfound, hfirst, Option.some_or]

variable {d : Document} {config : Option ServiceConfig} {package serviceName : String}

namespace DocumentMade

variable (h : DocumentMade package serviceName d m made requests)

include h

/-- The places of the requests have the full names of the request messages, in order. -/
theorem requestIds : requests.map (fun r => (m.message r).id) = made.map fun x => x.request.id := by
  have hheld : List.Forall₂ (fun r x => (m.message r).id = x.request.id) requests made :=
    h.held.imp fun r x hx => congrArg Message.id (messageArena.get_of_find? hx)
  exact forall₂_iff_map_eq.1 hheld

/-- The listed messages have the full names of the component schemas, and then of the request
messages. -/
theorem listedIds : m.messages.map (fun r => (m.message r).id) =
    d.schemas.map (fun component => qualify package component.1) ++ made.map fun x =>
      x.request.id := by
  rw [← List.forall₂_eq_eq_eq, List.forall₂_map_left_iff]
  refine h.listed.imp fun r id hid => ?_
  obtain ⟨x, hx, rfl⟩ := hid
  exact congrArg Message.id (messageArena.get_of_find? hx)

/-- The full names of the methods come from the names of the calls. -/
theorem methodIds : made.map (fun x => x.method.id) =
    (d.calls.map Call.methodName).map fun name => qualify package serviceName ++ "." ++ name := by
  have hcalls :
    List.Forall₂ (fun c x => qualify package serviceName ++ "." ++ c.methodName = x.method.id)
      d.calls made := (Attempt.mapM_eq_ok.1 h.calls).imp fun c x hx => (of_makeMethod hx).1.symm
  rw [List.map_map]
  exact (forall₂_iff_map_eq.1 hcalls).symm

/-- The full names of the request messages come from the names of the calls. -/
theorem requestNames : made.map (fun x => x.request.id) =
    (d.calls.map Call.requestName).map (qualify package) := by
  have hcalls :
      List.Forall₂ (fun c x => qualify package c.requestName = x.request.id) d.calls made :=
    (Attempt.mapM_eq_ok.1 h.calls).imp fun c x hx => (of_makeMethod hx).2.2.symm
  rw [List.map_map]
  exact (forall₂_iff_map_eq.1 hcalls).symm

/-- No nested message has the full name of a request message. -/
theorem nested_ne (hsound : Sound m) {x : MadeMethod} (hx : x ∈ made) (s p : MessageRef)
    (hs : m.NestedIn s p) : (m.message s).id ≠ x.request.id := by
  obtain ⟨c, -, hc⟩ := Attempt.mapM_forall_right h.calls x hx
  obtain ⟨-, -, hid⟩ := of_makeMethod hc
  intro hname
  obtain ⟨y, hy, -⟩ := hasChild_iff.1 ((hsound.messageSound p).messages s hs)
  rcases h.others s y hy with hroot | hentry
  · exact hsound.not_nestedIn_of_root hroot hs
  · rw [← messageArena.get_of_find? hy] at hentry
    have hentry' : EntryId (qualify package (c.methodName ++ "Request")) := by
      rw [← Call.requestName, ← hid, ← hname]
      exact hentry
    exact not_entryId_request _ _ hentry'

/-- At the position of a call stands the method that was made for it. -/
theorem method_eq {i : Nat} (hi : i < made.length) : m.method ⟨i⟩ = made[i].method := by
  have hlist : m.store.methods.toList[i]? = some made[i].method := by
    rw [h.methods, List.getElem?_map, List.getElem?_eq_getElem hi, Option.map_some]
  have harray : m.store.methods[i]? = some made[i].method := by
    rwa [Array.getElem?_toList] at hlist
  exact methodArena.get_of_find? (r := ⟨i⟩) harray

/-- The store has as many methods as there are calls. -/
theorem methodCount : m.store.methods.size = made.length := by
  simpa using congrArg List.length h.methods

/-- The listed methods are those at the positions of calls. -/
theorem mem_listedMethods {r : MethodRef} : r ∈ m.listedMethods.map Prod.snd ↔
    r.index < made.length := by
  rw [h.served]
  constructor
  · intro hr
    obtain ⟨i, hi, rfl⟩ := List.mem_map.1 hr
    simpa using hi
  · intro hr
    exact List.mem_map.2 ⟨r.index, by simpa using hr, rfl⟩

/-- If no two methods have one full name, the full name of a listed method tells its place. -/
theorem eq_of_id_eq (hids : (m.store.methods.toList.map Method.id).Nodup) {r s : MethodRef}
    (hr : r ∈ m.listedMethods.map Prod.snd) (hs : s ∈ m.listedMethods.map Prod.snd)
    (hname : (m.method r).id = (m.method s).id) : r = s := by
  obtain ⟨i⟩ := r
  obtain ⟨j⟩ := s
  rw [h.mem_listedMethods] at hr hs
  rw [h.method_eq hr, h.method_eq hs] at hname
  rw [h.methods, List.map_map] at hids
  have hfirst : i < (made.map (Method.id ∘ MadeMethod.method)).length := by simpa using hr
  have hsecond : j < (made.map (Method.id ∘ MadeMethod.method)).length := by simpa using hs
  have hnames : (made.map (Method.id ∘ MadeMethod.method))[i] =
      (made.map (Method.id ∘ MadeMethod.method))[j] := by
    simpa using hname
  have hij : i = j := hids.getElem_inj_iff.1 hnames
  rw [hij]

/-- If no two methods have one full name, each is linked to the first message at the top that has
the full name of its request. -/
theorem inputs (hbuilt : Built (fun parent child => child < parent) m)
    (hlinked : m.crossReference.error? = none)
    (hids : (m.store.methods.toList.map Method.id).Nodup) :
    List.Forall₂
      (fun (y : Method) x => y.inputType =
        (m.messages ++ m.externalMessages).find? fun r => (m.message r).id == x.request.id)
      m.crossReference.model.store.methods.toList made := by
  have hrange : ∀ link ∈ m.listedMethods, link.2.index < m.store.methods.size := by
    intro link hlink
    rw [h.methodCount]
    exact h.mem_listedMethods.1 (List.mem_map_of_mem hlink)
  have honce : ∀ r ∈ m.listedMethods.map Prod.snd, ∀ s ∈ m.listedMethods.map Prod.snd,
      (m.method r).id = (m.method s).id → r = s := fun r hr s hs => h.eq_of_id_eq hids hr hs
  rw [List.forall₂_iff_get]
  refine ⟨?_, fun i hi hmade => ?_⟩
  · simpa [h.methodCount] using methodCount_crossReference m
  · have hlisted : (⟨i⟩ : MethodRef) ∈ m.listedMethods.map Prod.snd :=
      h.mem_listedMethods.2 hmade
    have hx : made[i] ∈ made := List.getElem_mem hmade
    obtain ⟨c, -, hc⟩ := Attempt.mapM_forall_right h.calls _ hx
    obtain ⟨-, hrequest, -⟩ := of_makeMethod hc
    have hname : (m.method ⟨i⟩).inputTypeId = made[i].request.id := by
      rw [h.method_eq hmade, hrequest]
    have hsize : m.store.messages.size ≠ 0 := by
      have hrequest : i < requests.length := by rwa [h.held.length_eq]
      have hheld := (List.forall₂_iff_get.1 h.held).2 i hrequest hmade
      have hplace : (requests.get ⟨i, hrequest⟩).index < m.store.messages.size :=
        messageArena.holds_of_find? hheld
      omega
    have hinput := inputType_crossReference hlinked hrange honce hlisted hsize
      (by rw [hname]; exact h.nested_ne hbuilt.toSound hx)
    rw [hname] at hinput
    have hfound : methodArena.find? m.crossReference.model ⟨i⟩ =
        some (m.crossReference.model.store.methods.toList.get ⟨i, hi⟩) := by
      simp [Arena.find?, methodArena]
    have hget : m.crossReference.model.method ⟨i⟩ =
        m.crossReference.model.store.methods.toList.get ⟨i, hi⟩ :=
          methodArena.get_of_find? hfound
    rw [← hget]
    exact hinput

/-- If no two methods have one full name, each is linked to its own request exactly if this is the
first message at the top that has its full name. -/
theorem inputs_iff (hbuilt : Built (fun parent child => child < parent) m)
    (hlinked : m.crossReference.error? = none)
    (hids : (m.store.methods.toList.map Method.id).Nodup) :
    List.Forall₂ (fun (x : Method) r => x.inputType = some r)
        m.crossReference.model.store.methods.toList requests ↔
      ∀ r ∈ requests, (m.messages ++ m.externalMessages).find?
        (fun s => (m.message s).id == (m.message r).id) = some r := by
  let find : String → Option MessageRef := fun id =>
    (m.messages ++ m.externalMessages).find? fun s => (m.message s).id == id
  have heach : m.crossReference.model.store.methods.toList.map Method.inputType =
      made.map fun x => find x.request.id := forall₂_iff_map_eq.1 (h.inputs hbuilt hlinked hids)
  have hfound : made.map (fun x => find x.request.id) = requests.map fun r =>
      find (m.message r).id := by
    have hmapped := congrArg (List.map find) h.requestIds.symm
    rwa [List.map_map, List.map_map] at hmapped
  rw [forall₂_iff_map_eq, heach, hfound, List.map_inj_left]

/-- The methods differ in their full names exactly if the calls differ in their names. -/
theorem nodup_methodIds_iff :
    (m.store.methods.toList.map Method.id).Nodup ↔ (d.calls.map Call.methodName).Nodup := by
  have hinjective : Function.Injective fun name => qualify package serviceName ++ "." ++ name :=
    fun first second heq => by simpa [← String.toList_inj] using heq
  rw [h.methods, List.map_map]
  change (made.map fun x => x.method.id).Nodup ↔ _
  rw [h.methodIds, List.nodup_map_iff hinjective]

/-- The request messages differ in their full names exactly if the calls differ in their names. -/
theorem nodup_requestIds_iff :
    (requests.map fun r => (m.message r).id).Nodup ↔ (d.calls.map Call.methodName).Nodup := by
  have hinjective : Function.Injective fun start => qualify package (start ++ "Request") :=
    fun first second heq => by simpa [← String.toList_inj] using qualify_inj.1 heq
  have hnames := List.nodup_map_iff (l := d.calls.map Call.methodName) hinjective
  rw [List.map_map] at hnames
  rw [h.requestIds, h.requestNames, List.map_map]
  exact hnames

/-- The messages of the component schemas differ in their full names from the request messages
exactly if no component schema is named like one. -/
theorem schemaIds_ne_iff {schemas : List MessageRef} (hschemas : m.messages = schemas ++ requests) :
    (∀ s ∈ schemas, ∀ r ∈ requests, (m.message s).id ≠ (m.message r).id) ↔
      ∀ component ∈ d.schemas, ∀ c ∈ d.calls, component.1 ≠ c.requestName := by
  have hrequestIds : requests.map (fun r => (m.message r).id) =
      (d.calls.map Call.requestName).map (qualify package) := h.requestIds.trans h.requestNames
  have hschemaIds : schemas.map (fun r => (m.message r).id) =
      d.schemas.map fun component => qualify package component.1 := by
    have hall := h.listedIds
    rw [hschemas, List.map_append, ← h.requestIds] at hall
    exact List.append_cancel_right hall
  have hlists : (∀ s ∈ schemas.map (fun r => (m.message r).id),
      ∀ r ∈ requests.map (fun r => (m.message r).id), s ≠ r) ↔
      ∀ s ∈ schemas, ∀ r ∈ requests, (m.message s).id ≠ (m.message r).id := by
    simp
  rw [← hlists, hschemaIds, hrequestIds]
  simp only [List.forall_mem_map, ne_eq, qualify_inj]

/-- The methods keep their requests exactly if the names of the document keep these apart. -/
theorem keepsRequests_iff (hbuilt : Built (fun parent child => child < parent) m)
    (hlinked : m.crossReference.error? = none) :
    KeepsRequests m.crossReference.model requests ↔ d.NamesApart := by
  obtain ⟨schemas, hschemas, -⟩ := h.behind
  have honce : (schemas ++ requests ++ m.externalMessages).Nodup :=
    hschemas ▸ hbuilt.roster.messagesOnce
  -- The component schemas come first, so they and earlier requests must not have the name.
  have hfirst := @find?_eq_some_iff_names _ _ _ (fun r => (m.message r).id) _ _ _ honce
  rw [← hschemas, h.schemaIds_ne_iff hschemas, h.nodup_requestIds_iff] at hfirst
  constructor
  · rintro ⟨hnodup, hown⟩
    rw [methodIds_crossReference] at hnodup
    have hfound := hfirst.1 ((h.inputs_iff hbuilt hlinked hnodup).1 hown)
    exact ⟨hfound.2, hfound.1⟩
  · rintro ⟨hcalls, hseparate⟩
    have hnodup := h.nodup_methodIds_iff.2 hcalls
    have hown := (h.inputs_iff hbuilt hlinked hnodup).2 (hfirst.2 ⟨hseparate, hcalls⟩)
    exact ⟨by rwa [methodIds_crossReference], hown⟩

omit h in
/-- Reading creates the methods of the calls with their request messages. -/
theorem created (h : DocumentMade m.packageName (d.serviceName config) d m made requests) :
    Created d config m made requests := by
  obtain ⟨schemas, hschemas, hcount⟩ := h.behind
  exact ⟨h.calls, h.methods, by rw [hschemas, ← hcount, List.drop_left], h.held⟩

end DocumentMade

/-- Every call of a document that is read has a method and a request message of its own; if assembly
comes to its end, the methods keep their request messages if and only if the names of the document
keep these apart. -/
theorem keepsRequests_crossReference_iff {d : Document} {config : Option ServiceConfig} {m : Model}
    (h : d.model config = .ok m) (hlinked : m.crossReference.error? = none) :
    ∃ made requests, Created d config m made requests ∧
      (KeepsRequests m.crossReference.model requests ↔ d.NamesApart) := by
  obtain ⟨made, requests, hmade⟩ := exists_made h
  exact ⟨made, requests, hmade.created, hmade.keepsRequests_iff (built_model h) hlinked⟩

/-- A document with a component schema of some name and one call, whose request has a filter. -/
def shop (schema : String) : Document :=
  { info := { title := "Shop" }
    paths := [("/v1/items",
      { get := some
          { operationId := "get"
            parameters := [
              { name := "filter"
                location := "query"
                schema := { Schema.blank with kind := "string" } }] } })]
    schemas := [(schema, { Schema.blank with kind := "object" })] }

/-- The names of the document are apart if the schema is an item, so the method keeps its
request. -/
theorem keepsRequests_crossReference_iff_shop :
    ∃ m made requests, (shop "Item").model none = .ok m ∧ m.crossReference.error? = none ∧
      Created (shop "Item") none m made requests ∧
        KeepsRequests m.crossReference.model requests ∧
        (shop "Item").NamesApart := by
  have hread : ((shop "Item").model none).toOption.any
      (fun m => m.crossReference.error?.isNone) = true := by
    decide +kernel
  cases hm : (shop "Item").model none with
  | error e =>
    rw [hm] at hread
    cases hread
  | ok m =>
    rw [hm] at hread
    have hlinked : m.crossReference.error? = none := Option.isNone_iff_eq_none.1 hread
    obtain ⟨made, requests, hcreated, hiff⟩ := keepsRequests_crossReference_iff hm hlinked
    have hapart : (shop "Item").NamesApart := ⟨by decide +kernel, by decide +kernel⟩
    exact ⟨m, made, requests, rfl, hlinked, hcreated, hiff.2 hapart, hapart⟩

/-- If the schema is named like the request message, the method has the message of the schema as its
request. -/
theorem not_keepsRequests_shop :
    ∃ m made requests, (shop "GetRequest").model none = .ok m ∧
      m.crossReference.error? = none ∧
      Created (shop "GetRequest") none m made requests ∧
        ¬ KeepsRequests m.crossReference.model requests := by
  have hread : ((shop "GetRequest").model none).toOption.any
    (fun m => m.crossReference.error?.isNone &&
      decide (m.crossReference.model.store.methods.toList.map Method.inputType ≠
        (m.messages.drop (shop "GetRequest").schemas.length).map some)) = true := by
    decide +kernel
  cases hm : (shop "GetRequest").model none with
  | error e =>
    rw [hm] at hread
    cases hread
  | ok m =>
    rw [hm] at hread
    obtain ⟨hlinked, hother⟩ := Bool.and_eq_true_iff.1 hread
    obtain ⟨made, requests, hmade⟩ := exists_made hm
    have hcreated : Created (shop "GetRequest") none m made requests := hmade.created
    refine ⟨m, made, requests, rfl, Option.isNone_iff_eq_none.1 hlinked, hcreated,
      fun hkeeps => ?_⟩
    rw [hcreated.listed] at hother
    exact of_decide_eq_true hother (forall₂_iff_map_eq.1 hkeeps.inputs)

end ApiModel.OpenApi
