import ApiModel.Proofs.Discovery.References
import ApiModel.Proofs.Discovery.Steps
import ApiModel.Proofs.OpenApi.Messages
import ApiModel.Proofs.Package.Agreement

/-!
# Documents agree on one package

Discovery documents and interface descriptions put all their elements into the package of the model.
The well-known types that every reader adds are external, so a model that agreed on its package
before they were added goes on agreeing.
-/

namespace ApiModel

/-! ## Before the well-known types -/

namespace Model

/-- Whether the elements that are found at the places of the lists are in the package of a model,
and those that are found nested in that of the message around them. -/
structure FoundInPackage (k : Model) : Prop where
  /-- The services. -/
  services : ∀ r ∈ k.services, ∀ x, serviceArena.find? k r = some x →
    x.package = k.packageName
  /-- The generated messages at the top. -/
  messages : ∀ r ∈ k.messages, ∀ x, messageArena.find? k r = some x →
    x.package = k.packageName
  /-- The generated enumerations at the top. -/
  enums : ∀ r ∈ k.enums, ∀ x, enumArena.find? k r = some x → x.package = k.packageName
  /-- The nested messages. -/
  nestedMessages : ∀ r x, messageArena.find? k r = some x → ∀ c ∈ x.messages, ∀ y,
    messageArena.find? k c = some y → y.parent = some r → y.package = x.package
  /-- The nested enumerations. -/
  nestedEnums : ∀ r x, messageArena.find? k r = some x → ∀ c ∈ x.enums, ∀ y,
    enumArena.find? k c = some y → y.parent = some r → y.package = x.package

/-- What adding the well-known types does to a model. -/
structure Registered (k m : Model) : Prop where
  /-- The package stays. -/
  packageName : m.packageName = k.packageName
  /-- The services stay listed. -/
  listedServices : m.services = k.services
  /-- The services stay. -/
  services : m.store.services = k.store.services
  /-- The generated messages stay listed. -/
  listedMessages : m.messages = k.messages
  /-- The generated enumerations stay listed. -/
  listedEnums : m.enums = k.enums
  /-- A new message is external, and nothing is nested in it. -/
  message : ∀ r x, messageArena.find? m r = some x →
    messageArena.find? k r = some x ∨ r ∈ m.externalMessages ∧ x.messages = [] ∧
      x.enums = []
  /-- A new enumeration is external. -/
  enumeration : ∀ r x, enumArena.find? m r = some x →
    enumArena.find? k r = some x ∨ r ∈ m.externalEnums

variable {m k : Model}

/-- Adding the well-known types lists nothing as generated. -/
theorem lists_register (k : Model) :
    (WellKnown.register k).services = k.services ∧
      (WellKnown.register k).messages = k.messages ∧
      (WellKnown.register k).enums = k.enums := by
  refine WellKnown.register_keeps
    (P := fun m => m.services = k.services ∧ m.messages = k.messages ∧ m.enums = k.enums)
    (fun m name hm => ?_) (fun m hm => ?_) ⟨rfl, rfl, rfl⟩
  · rw [WellKnown.registerMessage]
    split <;> exact hm
  · rw [WellKnown.registerEnum]
    split <;> exact hm

/-- Adding the well-known types adds external ones. -/
theorem registered_register (k : Model) : Registered k (WellKnown.register k) := by
  have hlists := lists_register k
  have hpackage := WellKnown.packageName_register k
  have hservices := WellKnown.services_register k
  have hmessages := WellKnown.supplies_register k
  have henums := WellKnown.supplies_register_enums k
  generalize WellKnown.register k = m at *
  constructor
  case packageName => exact hpackage
  case listedServices => exact hlists.1
  case services => exact hservices
  case listedMessages => exact hlists.2.1
  case listedEnums => exact hlists.2.2
  case message =>
    intro r x hx
    rcases hmessages.found r x hx with hold | ⟨hexternal, ⟨name, rfl⟩, -⟩
    · exact .inl hold
    · exact .inr ⟨hexternal, rfl, rfl⟩
  case enumeration => exact fun r x hx => (henums.found r x hx).imp_right And.left

/-- A sound model that agreed on its package before external types were added still agrees. -/
theorem Registered.inPackage (h : Registered k m) (hsound : Sound m) (hfound : FoundInPackage k) :
    InPackage m := by
  have hservice : ∀ r x, serviceArena.find? m r = some x → serviceArena.find? k r = some x := by
    intro r x hx
    rw [← hx]
    exact congrArg (fun xs => xs[r.index]?) h.services.symm
  -- what is generated or nested is not external, and so is older
  have hmessage : ∀ r x, messageArena.find? m r = some x → r ∉ m.externalMessages →
      messageArena.find? k r = some x :=
    fun r x hx hr => (h.message r x hx).resolve_right fun hnew => hr hnew.1
  have henum : ∀ r x, enumArena.find? m r = some x → r ∉ m.externalEnums →
      enumArena.find? k r = some x :=
    fun r x hx hr => (h.enumeration r x hx).resolve_right hr
  constructor
  case services =>
    intro r hr
    have hx := serviceArena.find?_of_holds (m := m) (hsound.roster.services r hr)
    rw [h.packageName]
    exact hfound.services r (h.listedServices ▸ hr) _ (hservice r _ hx)
  case messages =>
    intro r hr
    obtain ⟨x, hx, -⟩ := hasRoot_iff.1 (hsound.roster.messages r (List.mem_append_left _ hr))
    have hown : r ∉ m.externalMessages :=
      List.disjoint_of_nodup_append hsound.roster.messagesOnce hr
    have hpackage := hfound.messages r (h.listedMessages ▸ hr) x (hmessage r x hx hown)
    rw [h.packageName, ← hpackage]
    exact congrArg Message.package (messageArena.get_of_find? hx)
  case enums =>
    intro r hr
    obtain ⟨x, hx, -⟩ :=
      Option.map_eq_some_iff.1 (hsound.roster.enums r (List.mem_append_left _ hr))
    have hown : r ∉ m.externalEnums := List.disjoint_of_nodup_append hsound.roster.enumsOnce hr
    have hpackage := hfound.enums r (h.listedEnums ▸ hr) x (henum r x hx hown)
    rw [h.packageName, ← hpackage]
    exact congrArg Enumeration.package (enumArena.get_of_find? hx)
  case nestedMessages =>
    intro r c hc
    have hx := find?_of_mem_messages hc
    obtain ⟨y, hy, hparent⟩ := hasChild_iff.1 ((hsound.messageSound r).messages c hc)
    have houter : messageArena.find? k r = some (m.message r) :=
      (h.message r _ hx).resolve_right fun hnew => by
        rw [hnew.2.1] at hc
        exact List.not_mem_nil hc
    have hinner : c ∉ m.externalMessages := fun hexternal =>
      hsound.not_nestedIn_of_root (List.mem_append_right _ hexternal) hc
    rw [← hfound.nestedMessages r _ houter c hc y (hmessage c y hy hinner) hparent]
    exact congrArg Message.package (messageArena.get_of_find? hy)
  case nestedEnums =>
    intro r c hc
    have hx := find?_of_mem_enums hc
    have hplace := (hsound.messageSound r).enums c hc
    obtain ⟨y, hy, hparent⟩ := Option.map_eq_some_iff.1 hplace
    have houter : messageArena.find? k r = some (m.message r) :=
      (h.message r _ hx).resolve_right fun hnew => by
        rw [hnew.2.2] at hc
        exact List.not_mem_nil hc
    have hinner : c ∉ m.externalEnums := fun hexternal => by
      have hroot := hsound.roster.enums c (List.mem_append_right _ hexternal)
      rw [hplace] at hroot
      cases Option.some.inj hroot
    rw [← hfound.nestedEnums r _ houter c hc y (henum c y hy hinner) hparent]
    exact congrArg Enumeration.package (enumArena.get_of_find? hy)

/-! ## Models of one package -/

/-- Whether all elements of a model are in its package. -/
structure Uniform (m : Model) : Prop where
  /-- The messages. -/
  messages : ∀ x ∈ m.store.messages, x.package = m.packageName
  /-- The enumerations. -/
  enums : ∀ x ∈ m.store.enums, x.package = m.packageName
  /-- The services. -/
  services : ∀ x ∈ m.store.services, x.package = m.packageName

namespace Uniform

/-- A model without elements is in one package. -/
theorem of_empty (hmessages : m.store.messages = #[]) (henums : m.store.enums = #[])
    (hservices : m.store.services = #[]) : Uniform m where
  messages x hx := by
    rw [hmessages] at hx
    exact absurd hx (Array.not_mem_empty x)
  enums x hx := by
    rw [henums] at hx
    exact absurd hx (Array.not_mem_empty x)
  services x hx := by
    rw [hservices] at hx
    exact absurd hx (Array.not_mem_empty x)

variable (h : Uniform m)

include h

/-- A model of one package has all that is found in the package. -/
theorem foundInPackage : FoundInPackage m where
  services _ _ x hx := h.services x (Array.mem_of_getElem? hx)
  messages _ _ x hx := h.messages x (Array.mem_of_getElem? hx)
  enums _ _ x hx := h.enums x (Array.mem_of_getElem? hx)
  nestedMessages _ x hx _ _ y hy _ :=
    (h.messages y (Array.mem_of_getElem? hy)).trans (h.messages x (Array.mem_of_getElem? hx)).symm
  nestedEnums _ x hx _ _ y hy _ :=
    (h.enums y (Array.mem_of_getElem? hy)).trans (h.messages x (Array.mem_of_getElem? hx)).symm

/-- A message of the package can be added. -/
theorem addMessage {x : Message} (hx : x.package = m.packageName) :
    Uniform (m.addMessage x).model where
  messages y hy := by
    rcases Discovery.mem_addMessage.1 hy with hy | rfl
    · exact h.messages y hy
    · exact hx
  enums := h.enums
  services := h.services

/-- A service of the package can be added. -/
theorem addService {x : Service} (hx : x.package = m.packageName) :
    Uniform (m.addService x).model where
  messages := h.messages
  enums := h.enums
  services y hy := by
    rcases Array.mem_push.1 hy with hy | rfl
    · exact h.services y hy
    · exact hx

end Uniform

end Model

open Model

variable {m k : Model}

/-! ## Discovery documents -/

namespace Discovery

/-- The message of a schema is in the given package. -/
theorem package_makeMessage {package name : String} {schema : Schema} {x : Message}
    (h : makeMessage package name schema = .ok x) : x.package = package := by
  obtain ⟨shape, -, h⟩ := Attempt.bind_eq_ok.1 h
  split at h
  · obtain ⟨fields, -, h⟩ := Attempt.bind_eq_ok.1 h
    obtain rfl := Except.ok.inj h
    rfl
  · cases h

/-- Reading a document keeps a model in one package. -/
theorem keptByReading_uniform : KeptByReading Uniform where
  message hx hm := hm.addMessage (package_makeMessage hx)
  method _ hm := { hm with }
  service _ hx hm := hm.addService hx
  listed _ _ hm := { hm with }

/-- The model of a discovery document agrees on its package. -/
theorem inPackage_model {d : Document} {config : Option ServiceConfig}
    (h : d.model config = .ok m) :
    InPackage m := by
  have hbuilt : Built (· < ·) m := built_model h
  have hempty : Uniform (d.identity config) := by
    cases config <;> exact .of_empty rfl rfl rfl
  obtain ⟨k, hk, hm⟩ := keptByReading_uniform.exists_model hempty h
  rw [hm] at hbuilt ⊢
  exact (registered_register k).inPackage hbuilt.toSound hk.foundInPackage

end Discovery

/-! ## Interface descriptions -/

namespace OpenApi

/-- The entry message of a map is in the given package. -/
theorem package_mapEntry {package id name : String} {schema : Schema} {x : Message}
    (h : mapEntry package id name schema = .ok x) : x.package = package := by
  obtain ⟨type, -, rfl⟩ := of_mapEntry h
  rfl

/-- The messages of a component schema are in the given package. -/
theorem ComponentBatch.package {package : String} {component : String × Schema}
    {batch : List Message} (h : ComponentBatch package component batch) :
    ∀ x ∈ batch, x.package = package :=
  h.forall_messages (fun _ _ _ _ => package_mapEntry) fun _ _ => rfl

/-- What is read from a document is in one package. -/
theorem DocumentContents.uniform {d : Document} {serviceName : String}
    {batches : List (List Message)} {made : List MadeMethod}
    (h : DocumentContents d serviceName batches made k) : Uniform k where
  messages := h.forall_messages (fun _ => Iff.rfl) (fun _ _ _ _ hbatch => hbatch.package)
    fun _ _ _ hmake => (madeInto_makeMethod hmake).requestPackage
  enums x hx := by
    rw [h.enums] at hx
    exact absurd hx (Array.not_mem_empty x)
  services := h.services

/-- The model of an interface description agrees on its package. -/
theorem inPackage_model {d : Document} {config : Option ServiceConfig}
    (h : d.model config = .ok m) :
    InPackage m := by
  have hsound : Sound m := (built_model h).toSound
  obtain ⟨k, batches, made, hm, hcontents⟩ := exists_documentContents h
  have hregistered : Registered k m := hm ▸ registered_register k
  exact hregistered.inPackage hsound hcontents.uniform.foundInPackage

end OpenApi

end ApiModel
