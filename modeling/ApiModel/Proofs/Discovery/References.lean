import ApiModel.Proofs.Discovery.Coverage
import ApiModel.Proofs.Discovery.Steps
import ApiModel.Proofs.Grounding

/-!
# References of discovery documents

The check of a document finds a schema for every reference that the reader takes up: those of
properties, of requests and of responses. The reader makes a listed message of every schema, under
the full name that it gives to references of that schema, and adds the well-known messages that no
schema stands for. So whatever the reader refers to is found when the model is assembled.
-/

namespace ApiModel.Discovery

open Model

/-! ## Checked documents -/

section Check

variable {known : String → Bool} {id : String}

/-- The reference of a checked schema is known. -/
theorem known_of_check {s : Schema} (h : s.check known id = .ok ())
    (href : s.reference.isEmpty = false) :
    known s.reference := by
  refine (check_eq_ok_iff_parts.1 h).1.reference fun hempty => ?_
  rw [hempty] at href
  cases href

/-- Whether the references of a request or response are known. -/
def KnownInner (known : String → Bool) (inner : Option Schema) : Prop :=
  ∀ s ∈ inner, s.reference.isEmpty = false → known s.reference

/-- The reference of a checked schema inside another is known. -/
theorem knownInner_of_check {inner : Option Schema}
    (h : Schema.checkInner known id inner = .ok ()) :
    KnownInner known inner := by
  rintro s ⟨⟩
  rw [Schema.checkInner] at h
  exact known_of_check h

/-- Whether the references of a method are known. -/
structure Method.Known (known : String → Bool) (x : Method) : Prop where
  /-- The request. -/
  request : KnownInner known x.request
  /-- The response. -/
  response : KnownInner known x.response

/-- The references of checked methods are known. -/
theorem known_of_checkMethods {methods : List (String × Method)}
    (h : checkMethods known methods = .ok ()) :
    ∀ entry ∈ methods, entry.2.Known known := by
  intro entry hentry
  have hentry := checkMethods_eq_ok_iff.1 h entry hentry
  obtain ⟨hrequest, hresponse⟩ := Attempt.check_then_eq_ok.1 hentry
  exact ⟨knownInner_of_check hrequest, knownInner_of_check hresponse⟩

/-- The references of all methods below checked resources are known. -/
theorem known_of_checkAll {resources : List (String × Resource)}
    (h : Resource.checkAll known resources = .ok ()) :
    ∀ found ∈ Resource.walkAll resources, ∀ entry ∈ found.methods, entry.2.Known known := by
  intro found hfound
  rw [walkAll_eq] at hfound
  obtain ⟨place, hplace, rfl⟩ := List.mem_map.1 hfound
  have hlies := (mem_locatedAll resources place).1 hplace
  exact known_of_checkMethods ((checkAll_eq_ok_iff resources).1 h place.1 place.2 hlies)

end Check

/-- Walking the resources for the first of each name finds resources of the document. -/
theorem mem_of_mem_firstOfEachName {seen : List String} {resources : List NamedResource}
    {resource : NamedResource} (h : resource ∈ firstOfEachName seen resources) :
    resource ∈ resources := by
  induction resources generalizing seen with
  | nil => exact absurd h List.not_mem_nil
  | cons first rest ih =>
    rw [firstOfEachName] at h
    split at h
    · exact List.mem_cons_of_mem first (ih h)
    · rcases List.mem_cons.1 h with rfl | h
      · exact List.mem_cons_self
      · exact List.mem_cons_of_mem first (ih h)

/-! ## What the reader refers to -/

variable {d : Document} {package : String}

/-- The full name of a schema that a checked document knows is declared. -/
theorem declaredIn_of_knows {name : String} (h : d.knows name) :
    DeclaredIn d.schemas package (qualify package name) := by
  obtain ⟨schema, hschema⟩ := Option.isSome_iff_exists.1 h
  obtain ⟨before, after, hsplit, -⟩ := List.lookup_eq_some_iff.1 hschema
  refine .inl ⟨(name, schema), ?_, rfl⟩
  rw [hsplit]
  exact List.mem_append_right before List.mem_cons_self

/-- The type of a scalar is a well-known message or has no name. -/
theorem names_of_scalarType? {kind format : String} {t : NamedType}
    (h : scalarType? kind format = some t) : t.type.Names WellKnown.Provides t.id := by
  unfold scalarType? at h
  split at h <;> cases h
  all_goals simp [FieldType.Names, FieldType.isNamed]

/-- A schema whose shape is a reference has one. -/
theorem reference_of_shape {s : Schema} {id : String} (h : s.shape id = .ok .reference) :
    s.reference.isEmpty = false := by
  unfold Schema.shape at h
  cases href : s.reference.isEmpty with
  | false => rfl
  | true =>
    rw [href, Bool.not_true, if_neg Bool.false_ne_true] at h
    repeat' split at h
    all_goals cases h

/-- The named type of a property is declared. -/
theorem names_of_propertyType? {fieldId : String} {property : Schema} {t : NamedType}
    (h : propertyType? package fieldId property = .ok (some t))
    (hknown : property.reference.isEmpty = false → d.knows property.reference) :
    t.type.Names (DeclaredIn d.schemas package) t.id := by
  obtain ⟨shape, hshape, h⟩ := Attempt.bind_eq_ok.1 h
  split at h
  · obtain rfl := Option.some.inj (Except.ok.inj h)
    exact fun _ => ⟨rfl, declaredIn_of_knows (hknown (reference_of_shape hshape))⟩
  · split at h
    · rename_i hscalar
      obtain rfl := Option.some.inj (Except.ok.inj h)
      exact (names_of_scalarType? hscalar).mono fun id => .inr
    · cases h
  · cases h

/-- Whether a message is no map entry, and grounded in what a document declares. -/
structure Document.Grounds (d : Document) (package : String) (x : Message) : Prop
    extends x.Grounded (DeclaredIn d.schemas package) where
  /-- It is no map entry. -/
  isMap : x.isMap = false

/-- The message of a checked schema refers to what is declared, under the full name of the
schema. -/
theorem grounds_makeMessage {name : String} {schema : Schema} {x : Message}
    (h : makeMessage package name schema = .ok x) (hcheck : schema.check d.knows name = .ok ()) :
    d.Grounds package x ∧ x.id = qualify package name := by
  obtain ⟨shape, -, h⟩ := Attempt.bind_eq_ok.1 h
  split at h
  · obtain ⟨fields, hfields, h⟩ := Attempt.bind_eq_ok.1 h
    obtain rfl := Except.ok.inj h
    refine ⟨⟨⟨fun hmap => Bool.noConfusion hmap, fun f hf => ?_⟩, rfl⟩, rfl⟩
    obtain ⟨f?, hf?, hsome⟩ := List.mem_filterMap.1 hf
    obtain ⟨property, hproperty, hmake⟩ := Attempt.mapM_forall_right hfields f? hf?
    obtain ⟨type?, htype, hmake⟩ := Attempt.bind_eq_ok.1 hmake
    obtain rfl := Except.ok.inj hmake
    obtain ⟨type, rfl, rfl⟩ := Option.map_eq_some_iff.1 hsome
    exact names_of_propertyType? htype
      (known_of_check ((check_eq_ok_iff_parts.1 hcheck).2.1 property hproperty))
  · cases h

/-- The message that a request or response names is declared. -/
theorem declaredIn_messageId {methodId kind id : String} {inner : Option Schema}
    (h : messageId package methodId kind inner = .ok id) (hknown : KnownInner d.knows inner) :
    DeclaredIn d.schemas package id := by
  cases inner with
  | none =>
    obtain rfl := Except.ok.inj h
    exact .inr WellKnown.provides_emptyId
  | some schema =>
    rw [messageId] at h
    split at h
    · cases h
    · rename_i href
      obtain rfl := Except.ok.inj h
      exact declaredIn_of_knows (hknown schema rfl (Bool.eq_false_iff.2 href))

/-- The method of a checked one refers to what is declared. -/
theorem declaredIn_makeMethod {serviceId servicePath : String} {entry : String × Method}
    {x : ApiModel.Method} (h : makeMethod package serviceId servicePath entry = .ok x)
    (hknown : entry.2.Known d.knows) : ∀ id ∈ x.references,
    DeclaredIn d.schemas package id := by
  unfold makeMethod at h
  dsimp only at h
  split at h
  · cases h
  · obtain ⟨inputTypeId, hinput, h⟩ := Attempt.bind_eq_ok.1 h
    obtain ⟨outputTypeId, houtput, h⟩ := Attempt.bind_eq_ok.1 h
    obtain ⟨template, -, h⟩ := Attempt.bind_eq_ok.1 h
    obtain rfl := Except.ok.inj h
    have hinput := declaredIn_messageId hinput hknown.request
    have houtput := declaredIn_messageId houtput hknown.response
    exact List.forall_mem_cons.2 ⟨hinput, List.forall_mem_cons.2
      ⟨houtput, fun id hid => absurd hid List.not_mem_nil⟩⟩

/-! ## What the reader adds -/

/-- Whether a model refers to what is declared only, and lists all of its messages at the top. -/
structure Grounded (d : Document) (package : String) (m : Model) : Prop where
  /-- The package of the model. -/
  packageName : m.packageName = package
  /-- The messages. -/
  messages : ∀ x ∈ m.store.messages, d.Grounds package x
  /-- The methods. -/
  methods : ∀ x ∈ m.store.methods, ∀ id ∈ x.references, DeclaredIn d.schemas package id
  /-- All messages are listed. -/
  listed : ∀ r, messageArena.Holds m r → r ∈ m.messages ++ m.externalMessages

variable {m other : Model}

/-- The message that is added is the only new one. -/
theorem mem_addMessage {x y : Message} :
    y ∈ (m.addMessage x).model.store.messages ↔
      y ∈ m.store.messages ∨ y = x.ownedBy (m.addMessage x).ref :=
  Array.mem_push

/-- The place of the message that is added is the only new one. -/
theorem holds_addMessage {x : Message} {r : MessageRef} :
    messageArena.Holds (m.addMessage x).model r ↔ messageArena.Holds m r ∨
    r = (m.addMessage x).ref := by
  change r.index < (m.store.messages.push _).size ↔ r.index < m.store.messages.size ∨ _
  rw [Array.size_push, Nat.lt_succ_iff_lt_or_eq]
  refine or_congr_right ⟨fun hr => messageArena.position_injective hr, ?_⟩
  rintro rfl
  rfl

/-- A message that owns its fields refers to the same names. -/
theorem Document.Grounds.ownedBy {x : Message} (h : d.Grounds package x) (r : MessageRef) :
    d.Grounds package (x.ownedBy r) where
  isMap := h.isMap
  entry hmap := by
    have hmap : x.isMap := hmap
    rw [h.isMap] at hmap
    cases hmap
  fields := List.forall_mem_map.2 h.fields

/-- Adding and listing a message keeps a model grounded. -/
theorem Grounded.addMessage (h : Grounded d package m) {x : Message} (hx : d.Grounds package x)
    (hpackage : other.packageName = m.packageName)
    (hstore : other.store = (m.addMessage x).model.store)
    (hlisted : ∀ r, r ∈ m.messages ++ m.externalMessages ∨ r = (m.addMessage x).ref →
      r ∈ other.messages ++ other.externalMessages) : Grounded d package other := by
  refine ⟨hpackage.trans h.packageName, fun y hy => ?_, hstore ▸ h.methods, fun r hr => ?_⟩
  · rw [hstore, mem_addMessage] at hy
    rcases hy with hy | rfl
    · exact h.messages y hy
    · exact hx.ownedBy _
  · have hr : messageArena.Holds (m.addMessage x).model r :=
      (holds_message_iff (by rw [hstore])).1 hr
    exact hlisted r ((holds_addMessage.1 hr).imp_left (h.listed r))

/-- Adding the message of a checked schema keeps a model grounded, and adds its full name. -/
theorem Grounded.addSchema (h : Grounded d package m) {entry : String × Schema}
    (hcheck : entry.2.check d.knows entry.1 = .ok ()) (hadd : addSchema m entry = .ok other) :
    Grounded d package other ∧
      ∀ id, m.HasNamed id ∨ id = qualify package entry.1 → other.HasNamed id := by
  obtain ⟨x, hx, hadd⟩ := Attempt.bind_eq_ok.1 hadd
  obtain rfl := Except.ok.inj hadd
  rw [h.packageName] at hx
  obtain ⟨hgrounds, hid⟩ := grounds_makeMessage hx hcheck
  constructor
  · refine h.addMessage hgrounds rfl rfl fun r hr => ?_
    change r ∈ (m.messages ++ [(m.addMessage x).ref]) ++ m.externalMessages
    rw [List.append_assoc, List.mem_append, List.mem_append, List.mem_singleton]
    rw [List.mem_append] at hr
    tauto
  · rintro id (⟨y, hy, rfl⟩ | rfl)
    · exact ⟨y, mem_addMessage.2 (.inl hy), rfl⟩
    · exact ⟨_, mem_addMessage.2 (.inr rfl), hid⟩

/-- Adding the messages of checked schemas keeps a model grounded, and adds all of their full
names. -/
theorem Grounded.addSchemas (h : Grounded d package m) {schemas : List (String × Schema)}
    (hcheck : ∀ entry ∈ schemas, entry.2.check d.knows entry.1 = .ok ())
    (hadd : schemas.foldlM Discovery.addSchema m = .ok other) :
    Grounded d package other ∧
      ∀ id, (m.HasNamed id ∨ ∃ entry ∈ schemas, id = qualify package entry.1) →
      other.HasNamed id := by
  induction schemas generalizing m with
  | nil =>
    obtain rfl := Except.ok.inj hadd
    refine ⟨h, fun id hid => hid.resolve_right ?_⟩
    rintro ⟨entry, hentry, -⟩
    exact absurd hentry List.not_mem_nil
  | cons first rest ih =>
    rw [List.foldlM_cons] at hadd
    obtain ⟨k, hk, hadd⟩ := Attempt.bind_eq_ok.1 hadd
    obtain ⟨hfirst, hrest⟩ := List.forall_mem_cons.1 hcheck
    obtain ⟨hgrounded, hnew⟩ := h.addSchema hfirst hk
    obtain ⟨hlast, hall⟩ := ih hgrounded hrest hadd
    refine ⟨hlast, fun id hid => hall id ?_⟩
    rcases hid with hid | ⟨entry, hentry, hid⟩
    · exact .inl (hnew id (.inl hid))
    · rcases List.mem_cons.1 hentry with rfl | hentry
      · exact .inl (hnew id (.inr hid))
      · exact .inr ⟨entry, hentry, hid⟩

/-- Adding the service of a resource whose references are known keeps a model grounded, and its
messages. -/
theorem Grounded.addService (h : Grounded d package m) {resource : NamedResource}
    (hknown : ∀ entry ∈ resource.methods, entry.2.Known d.knows)
    (hadd : addService d m resource = .ok other) :
    Grounded d package other ∧ other.store.messages = m.store.messages := by
  obtain ⟨methods, hmethods, rfl⟩ := of_addService hadd
  rw [h.packageName] at hmethods
  refine ⟨⟨h.packageName, h.messages, fun x hx => ?_, h.listed⟩, rfl⟩
  rcases Array.mem_append.1 hx with hx | hx
  · exact h.methods x hx
  · obtain ⟨entry, hentry, hmake⟩ :=
      Attempt.mapM_forall_right hmethods x (List.mem_toArray.1 hx)
    exact declaredIn_makeMethod hmake (hknown entry hentry)

/-- Adding the services of resources whose references are known keeps a model grounded, and its
messages. -/
theorem Grounded.addServices (h : Grounded d package m) {resources : List NamedResource}
    (hknown : ∀ resource ∈ resources, ∀ entry ∈ resource.methods, entry.2.Known d.knows)
    (hadd : resources.foldlM (Discovery.addService d) m = .ok other) :
    Grounded d package other ∧ other.store.messages = m.store.messages := by
  induction resources generalizing m with
  | nil =>
    obtain rfl := Except.ok.inj hadd
    exact ⟨h, rfl⟩
  | cons first rest ih =>
    rw [List.foldlM_cons] at hadd
    obtain ⟨k, hk, hrest⟩ := Attempt.bind_eq_ok.1 hadd
    obtain ⟨hfirst, hothers⟩ := List.forall_mem_cons.1 hknown
    obtain ⟨hgrounded, hsame⟩ := h.addService hfirst hk
    obtain ⟨hlast, hlastSame⟩ := ih hgrounded hothers hrest
    exact ⟨hlast, hlastSame.trans hsame⟩

/-- Adding the well-known types keeps a model grounded. -/
theorem Grounded.register (h : Grounded d package m) :
    Grounded d package (WellKnown.register m) := by
  refine WellKnown.register_keeps (P := Grounded d package) (fun m name h => ?_) (fun m h => ?_) h
  · unfold WellKnown.registerMessage
    split
    · exact h
    · refine h.addMessage (x := WellKnown.plainMessage name) ?_ rfl rfl fun r hr => ?_
      · exact ⟨Message.grounded_of_empty rfl rfl, rfl⟩
      · change r ∈ m.messages ++ (m.externalMessages ++ [_])
        rw [← List.append_assoc, List.mem_append, List.mem_singleton]
        exact hr
  · unfold WellKnown.registerEnum
    split
    · exact h
    · exact ⟨h.packageName, h.messages, h.methods, h.listed⟩

/-- A document without its elements refers to nothing. -/
theorem grounded_identity (d : Document) (config : Option ServiceConfig) :
    Grounded d (d.identity config).packageName (d.identity config) := by
  have hempty : (d.identity config).store = {} := by
    unfold Document.identity
    split <;> rfl
  refine ⟨rfl, fun x hx => ?_, fun x hx => ?_, fun r hr => ?_⟩
  · rw [hempty] at hx
    exact absurd hx (Array.not_mem_empty x)
  · rw [hempty] at hx
    exact absurd hx (Array.not_mem_empty x)
  · change r.index < (d.identity config).store.messages.size at hr
    rw [hempty] at hr
    exact absurd hr (Nat.not_lt_zero _)

/-- The model of a document is grounded, and has a message of every full name that the document
declares. -/
theorem grounded_model {config : Option ServiceConfig} (h : d.model config = .ok m) :
    ∃ package, Grounded d package m ∧ ∀ id, DeclaredIn d.schemas package id →
    m.HasNamed id := by
  obtain ⟨_, hcheck, h⟩ := Attempt.bind_eq_ok.1 h
  obtain ⟨schemas, hschemas, h⟩ := Attempt.bind_eq_ok.1 h
  obtain ⟨services, hservices, h⟩ := Attempt.bind_eq_ok.1 h
  obtain rfl := Except.ok.inj h
  obtain ⟨_, hcheckSchemas, hcheck⟩ := Attempt.bind_eq_ok.1 hcheck
  obtain ⟨_, -, hcheckResources⟩ := Attempt.bind_eq_ok.1 hcheck
  obtain ⟨hgrounded, hnames⟩ :=
    (grounded_identity d config).addSchemas (checkSchemas_eq_ok_iff.1 hcheckSchemas) hschemas
  have hknown : ∀ resource ∈ firstOfEachName [] d.servingResources,
      ∀ entry ∈ resource.methods, entry.2.Known d.knows := fun resource hresource =>
    known_of_checkAll hcheckResources resource
      (List.mem_filter.1 (mem_of_mem_firstOfEachName hresource)).1
  obtain ⟨hserved, hsame⟩ := hgrounded.addServices hknown hservices
  refine ⟨_, hserved.register, ?_⟩
  rintro id (hid | ⟨name, hname, rfl⟩)
  · obtain ⟨x, hx, rfl⟩ := hnames id (.inr hid)
    exact ⟨x, WellKnown.mem_register (hsame ▸ hx), rfl⟩
  · exact WellKnown.exists_register services hname

/-! ## Assembly -/

/-- The model of a document is assembled without an error, whatever its service configuration: no
message is a map entry, and the types of all fields and methods that the reader makes are found. -/
theorem assembles_model {config : Option ServiceConfig} (h : d.model config = .ok m) :
    m.crossReference.error? = none ∧
    (∀ x ∈ m.store.messages, x.isMap = false ∧
      ∀ f ∈ x.fields, m.buildIndices.FieldResolves f) ∧
    ∀ x ∈ m.store.methods, m.buildIndices.MethodResolves x := by
  obtain ⟨package, hread, hdeclared⟩ := grounded_model h
  have hparsed : Parsed m := .discovery h
  have hgrounded : m.Grounded := {
    messages := fun x hx => (hread.messages x hx).toGrounded.mono hdeclared
    methods := fun x hx id hid => hdeclared id (hread.methods x hx id hid)
    live := fun r hr => ⟨r, hread.listed r hr, .refl⟩ }
  refine ⟨hgrounded.error?_crossReference hparsed, fun x hx => ?_, fun x hx => ?_⟩
  · exact ⟨(hread.messages x hx).isMap, fun f hf => hgrounded.fieldResolves hparsed hx hf⟩
  · exact hgrounded.methodResolves hparsed hx

/-- A document with a schema that refers to another and to a well-known type, and a method below two
levels of resources that takes one and gives nothing back. -/
def zones : Document :=
  { name := "compute"
    schemas := [
      ("Status", { Schema.blank with kind := "object" }),
      ("Zone",
        { Schema.blank with
          kind := "object"
          properties := [
            ("created", { Schema.blank with kind := "string", format := "google-datetime" }),
            ("status", { Schema.blank with reference := "Status" })] })]
    resources := [
      ("projects",
        ⟨[], [
          ("zones",
            ⟨[("insert",
                { path := "zones"
                  httpMethod := "post"
                  request := some { Schema.blank with reference := "Zone" } })], []⟩)]⟩)] }

/-- The model of the zones is assembled without an error. -/
theorem assembles_model_zones :
    ∃ m, zones.model none = .ok m ∧ m.crossReference.error? = none ∧
      (∀ x ∈ m.store.messages, x.isMap = false ∧
        ∀ f ∈ x.fields, m.buildIndices.FieldResolves f) ∧
      ∀ x ∈ m.store.methods, m.buildIndices.MethodResolves x := by
  have hread : (zones.model none).toOption.isSome = true := by
    decide +kernel
  cases hm : zones.model none with
  | error e =>
    rw [hm] at hread
    cases hread
  | ok m => exact ⟨m, rfl, assembles_model hm⟩

end ApiModel.Discovery
