import ApiModel.Discovery.Build
import ApiModel.Proofs.Attempt
import ApiModel.Proofs.Naming

/-!
# What reading a discovery document keeps

The reader of discovery documents changes a model in few ways only: it adds the messages that it
makes of schemas, methods and services of the model's package, and lists messages and services. What
each of these keeps is so in the model of every document, up to the well-known types. The services
are those of the first resources of their names, which one recursion over the resource tree finds
that remembers what it has seen.
-/

namespace ApiModel.Discovery

/-- The places of new methods behind those of a model. -/
def nextMethods (m : Model) (count : Nat) : List MethodRef :=
  (List.range' m.store.methods.size count).map MethodRef.mk

/-- Adding methods adds them behind the others, at the next places, and changes nothing else. -/
theorem foldl_addMethod (methods : List ApiModel.Method) (found : List MethodRef × Model) :
    methods.foldl
        (fun (found : List MethodRef × Model) method =>
          (found.1 ++ [(found.2.addMethod method).ref], (found.2.addMethod method).model)) found =
      (found.1 ++ nextMethods found.2 methods.length, { found.2 with
        store := { found.2.store with methods := found.2.store.methods ++ methods.toArray } }) := by
  induction methods generalizing found with
  | nil => simp [nextMethods]
  | cons x rest ih =>
    rw [List.foldl_cons, ih]
    have hmethods : found.2.store.methods.push x ++ rest.toArray =
        found.2.store.methods ++ (x :: rest).toArray := by simp
    have hplaces : nextMethods (found.2.addMethod x).model rest.length =
        (List.range' (found.2.store.methods.size + 1) rest.length).map MethodRef.mk := by
      simp [nextMethods, Model.addMethod]
    rw [hplaces, nextMethods, List.length_cons, List.range'_succ, List.map_cons, List.append_assoc,
      List.singleton_append]
    change (_, { found.2 with store := { found.2.store with
      methods := found.2.store.methods.push x ++ rest.toArray } }) = _
    rw [hmethods]
    rfl

/-- What the service of a resource with methods at some places is. -/
def madeService (d : Document) (package : String) (resource : NamedResource)
    (methods : List MethodRef) :
    ApiModel.Service :=
  { name := resource.name
    id := qualify package resource.name
    package := package
    methods := methods
    defaultHost := d.host }

/-- The model with methods and the service of a resource that lists them, both behind the others. -/
def withService (d : Document) (m : Model) (resource : NamedResource)
    (methods : List ApiModel.Method) :
    Model :=
  { m with
    services := m.services ++ [⟨m.store.services.size⟩]
    store := { m.store with
      methods := m.store.methods ++ methods.toArray
      services := m.store.services.push
        (madeService d m.packageName resource (nextMethods m methods.length)) } }

/-- Adding the service of a resource adds its methods and then the service, and lists it. -/
theorem of_addService {d : Document} {m k : Model} {resource : NamedResource}
    (h : addService d m resource = .ok k) :
    ∃ methods, resource.methods.mapM
        (makeMethod m.packageName (qualify m.packageName resource.name) d.servicePath) =
          .ok methods ∧
      k = withService d m resource methods := by
  obtain ⟨methods, hmethods, h⟩ := Attempt.bind_eq_ok.1 h
  have hadded := foldl_addMethod methods ([], m)
  rw [List.nil_append] at hadded
  split at h
  rename_i refs after hfold
  obtain ⟨rfl, rfl⟩ := Prod.mk.inj (hfold.symm.trans hadded)
  exact ⟨methods, hmethods, (Except.ok.inj h).symm⟩

/-! ## Services by one recursion -/

/-- A model whose services are being added. -/
structure Serving where
  /-- The model. -/
  model : Model
  /-- The full names of the services that were added. -/
  seen : List String := []

/-- Adds the service of a resource, unless one of its full name was added. -/
def Serving.add (d : Document) (state : Serving) (resource : NamedResource) :
    Except Error Serving :=
  let id := qualify state.model.packageName resource.name
  if state.seen.contains id then .ok state
  else (addService d state.model resource).map fun m => ⟨m, id :: state.seen⟩

mutual

/-- Adds the service of a resource that has methods, and then those of the resources below it. -/
def Serving.descend (d : Document) (state : Serving) (name : String) :
    Resource → Except Error Serving
  | ⟨methods, resources⟩ => do
    let state ← if methods.isEmpty then .ok state else state.add d ⟨name, methods⟩
    state.descendAll d resources

/-- Adds the services of resources and of those below them. -/
def Serving.descendAll (d : Document) (state : Serving) :
    List (String × Resource) → Except Error Serving
  | [] => .ok state
  | (name, resource) :: rest => do
    let state ← state.descend d name resource
    state.descendAll d rest

end

mutual

/-- The recursion below a resource adds the services of the resources with methods in the walk. -/
theorem Serving.descend_eq (d : Document) (state : Serving) (name : String) (resource : Resource) :
    state.descend d name resource =
      ((resource.walk name).filter fun r => !r.methods.isEmpty).foldlM (Serving.add d) state := by
  match resource with
  | ⟨methods, resources⟩ =>
    rw [Serving.descend, Resource.walk, List.filter_cons]
    cases methods with
    | nil => exact Serving.descendAll_eq d state resources
    | cons entry methods =>
      change (state.add d ⟨name, entry :: methods⟩ >>= fun state =>
        state.descendAll d resources) =
        (⟨name, entry :: methods⟩ :: (Resource.walkAll resources).filter _).foldlM
          (Serving.add d) state
      rw [List.foldlM_cons]
      exact congrArg _ (funext fun state => Serving.descendAll_eq d state resources)

/-- The recursion below resources adds the services of the resources with methods in the walk. -/
theorem Serving.descendAll_eq (d : Document) (state : Serving)
    (resources : List (String × Resource)) :
    state.descendAll d resources =
      ((Resource.walkAll resources).filter fun r => !r.methods.isEmpty).foldlM
      (Serving.add d) state := by
  match resources with
  | [] => rfl
  | (name, resource) :: rest =>
    rw [Serving.descendAll, Resource.walkAll, List.filter_append, List.foldlM_append,
      Serving.descend_eq d state name resource]
    exact congrArg _ (funext fun state => Serving.descendAll_eq d state rest)

end

/-- Adding services unless their full names were seen adds those of the first resource of each
name. -/
theorem Serving.map_model_foldlM_add (d : Document) (resources : List NamedResource)
    {names : List String} {state : Serving}
    (hseen : state.seen = names.map (qualify state.model.packageName)) :
    (resources.foldlM (Serving.add d) state).map Serving.model =
      (firstOfEachName names resources).foldlM (addService d) state.model := by
  induction resources generalizing names state with
  | nil => rfl
  | cons resource rest ih =>
    have hknown : state.seen.contains (qualify state.model.packageName resource.name) =
        names.contains resource.name := by
      rw [Bool.eq_iff_iff, List.contains_iff_mem, List.contains_iff_mem, hseen, List.mem_map]
      exact ⟨fun ⟨name, hname, hsame⟩ => qualify_inj.1 hsame ▸ hname,
        fun hname => ⟨_, hname, rfl⟩⟩
    rw [List.foldlM_cons, Serving.add, firstOfEachName, hknown]
    by_cases hname : names.contains resource.name = true
    · rw [if_pos hname, if_pos hname]
      exact ih hseen
    · rw [if_neg hname, if_neg hname, List.foldlM_cons]
      cases hadd : addService d state.model resource with
      | error e => rfl
      | ok m =>
        obtain ⟨methods, -, rfl⟩ := of_addService hadd
        exact ih (congrArg (qualify state.model.packageName resource.name :: ·) hseen)

/-- The model of a document has the services that one recursion over the resources adds, which
passes over full names that it has seen. -/
theorem Document.model_eq_descendAll (d : Document) (config : Option ServiceConfig) :
    d.model config = (do
      d.check
      let m ← d.schemas.foldlM addSchema (d.identity config)
      let state ← Serving.descendAll d { model := m } d.resources
      return WellKnown.register state.model) := by
  have hservices : ∀ m, (firstOfEachName [] d.servingResources).foldlM (addService d) m =
      (Serving.descendAll d { model := m } d.resources).map Serving.model := by
    intro m
    have hnone : ({ model := m } : Serving).seen = [].map (qualify m.packageName) := rfl
    rw [Serving.descendAll_eq, Serving.map_model_foldlM_add d _ hnone]
    rfl
  unfold Document.model
  simp only [hservices, Attempt.map_eq_bind, bind_assoc]
  rfl

/-- Adding the message of a schema adds it and lists it. -/
theorem of_addSchema {m k : Model} {entry : String × Schema} (h : addSchema m entry = .ok k) :
    ∃ x, makeMessage m.packageName entry.1 entry.2 = .ok x ∧
      k = { (m.addMessage x).model with messages := m.messages ++ [(m.addMessage x).ref] } := by
  obtain ⟨x, hx, h⟩ := Attempt.bind_eq_ok.1 h
  exact ⟨x, hx, (Except.ok.inj h).symm⟩

/-- Whether every change that is made while a document is read keeps a property of the model. -/
structure KeptByReading (P : Model → Prop) : Prop where
  /-- The message of a schema is added. -/
  message : ∀ {m name schema x}, makeMessage m.packageName name schema = .ok x → P m →
    P (m.addMessage x).model
  /-- A method is added. -/
  method : ∀ {m} x, P m → P (m.addMethod x).model
  /-- A service is added. -/
  service : ∀ {m} x, x.package = m.packageName → P m → P (m.addService x).model
  /-- Messages and services are listed. -/
  listed : ∀ {m} messages services, P m →
    P { m with messages := messages, services := services }

namespace KeptByReading

variable {P : Model → Prop} {m k : Model} {d : Document}

/-- Adding the message of a schema keeps what is kept. -/
theorem addSchema (h : KeptByReading P) {entry : String × Schema} (hm : P m)
    (hadd : Discovery.addSchema m entry = .ok k) : P k := by
  obtain ⟨x, hx, hadd⟩ := Attempt.bind_eq_ok.1 hadd
  obtain rfl := Except.ok.inj hadd
  exact h.listed _ _ (h.message hx hm)

/-- Adding methods keeps what is kept, and the package. -/
theorem addMethods (h : KeptByReading P) (methods : List ApiModel.Method)
    (found : List MethodRef × Model) (hm : P found.2) :
    P (methods.foldl (fun found x =>
        (found.1 ++ [(found.2.addMethod x).ref], (found.2.addMethod x).model)) found).2 ∧
      (methods.foldl (fun found x =>
        (found.1 ++ [(found.2.addMethod x).ref], (found.2.addMethod x).model))
          found).2.packageName =
        found.2.packageName := by
  induction methods generalizing found with
  | nil => exact ⟨hm, rfl⟩
  | cons x rest ih => exact ih _ (h.method x hm)

/-- Adding the service of a resource keeps what is kept. -/
theorem addService (h : KeptByReading P) {resource : NamedResource} (hm : P m)
    (hadd : Discovery.addService d m resource = .ok k) : P k := by
  obtain ⟨methods, -, hadd⟩ := Attempt.bind_eq_ok.1 hadd
  obtain ⟨hmethods, hpackage⟩ := h.addMethods methods ([], m) hm
  obtain rfl := Except.ok.inj hadd
  exact h.listed _ _ (h.service _ hpackage.symm hmethods)

/-- What is kept, and is so before any element is added, is so in the model of a document before the
well-known types are added. -/
theorem exists_model (h : KeptByReading P) {config : Option ServiceConfig}
    (hempty : P (d.identity config)) (hmodel : d.model config = .ok m) :
    ∃ k, P k ∧ m = WellKnown.register k := by
  obtain ⟨-, -, hmodel⟩ := Attempt.bind_eq_ok.1 hmodel
  obtain ⟨messages, hmessages, hmodel⟩ := Attempt.bind_eq_ok.1 hmodel
  obtain ⟨services, hservices, hmodel⟩ := Attempt.bind_eq_ok.1 hmodel
  refine ⟨services, ?_, (Except.ok.inj hmodel).symm⟩
  exact Attempt.foldlM_keeps (fun _ _ _ => h.addService)
    (Attempt.foldlM_keeps (fun _ _ _ => h.addSchema) hempty hmessages) hservices

end KeptByReading

end ApiModel.Discovery
