import ApiModel.Discovery.Build
import ApiModel.Proofs.Attempt
import ApiModel.Proofs.Graph.Batches

/-!
# Models of discovery documents are built

The reader of discovery documents adds messages that stand alone, services behind their methods, and
the well-known types. What it builds is sound and fresh.
-/

namespace ApiModel

open Model

/-- Whether a field has no place of a type and belongs to no group of alternatives. -/
structure Field.Plain (f : Field) : Prop where
  /-- No place of a type. -/
  target : f.target = none
  /-- No group. -/
  group : f.group = none

/-- Whether a message has plain fields and is linked to no other. -/
structure Message.Alone (x : Message) : Prop where
  /-- The fields are plain. -/
  fields : ∀ f ∈ x.fields, f.Plain
  /-- There are no groups of alternatives. -/
  oneOfs : x.oneOfs = []
  /-- No message is nested in it. -/
  messages : x.messages = []
  /-- No enumeration is nested in it. -/
  enums : x.enums = []
  /-- It is nested in nothing. -/
  parent : x.parent = none
  /-- No pages are noted. -/
  pagination : x.pagination = none

/-- A message that stands alone is new, so that it can be added. -/
theorem Message.Alone.new {e : Extent} {x : Message} (hx : x.Alone) : NewMessage e x where
  target f hf := (hx.fields f hf).target
  group f hf g hg := by
    rw [Option.mem_def, (hx.fields f hf).group] at hg
    cases hg
  oneOfs o ho := by
    rw [hx.oneOfs] at ho
    exact absurd ho List.not_mem_nil
  messages := hx.messages
  enums := hx.enums
  parent p hp := by
    rw [Option.mem_def, hx.parent] at hp
    cases hp
  pagination := hx.pagination

/-- Whether a method is linked to nothing. -/
structure Method.Alone (x : Method) : Prop extends Unresolved x where
  /-- No pages are noted. -/
  pagination : x.pagination = none
  /-- Clients fill in no field. -/
  autoPopulated : x.autoPopulated = []
  /-- It belongs to no service. -/
  service : x.service = none

/-- A method that stands alone is new, so that it can be added. -/
theorem Method.Alone.new {e : Extent} {x : Method} (hx : x.Alone) : NewMethod e x where
  toUnresolved := hx.toUnresolved
  pagination := hx.pagination
  autoPopulated f hf := by
    rw [hx.autoPopulated] at hf
    exact absurd hf List.not_mem_nil
  service := hx.service

variable {before : Nat → Nat → Prop} {m k other : Model}

/-- Adding a message that stands alone and listing it goes on building. -/
theorem Model.Built.addListed (h : Built before m) {x : Message} (hx : x.Alone)
    (hstore : other.store = (m.addMessage x).model.store)
    (hmessages : other.roster.messages.Perm (m.roster.messages ++ [(m.addMessage x).ref]))
    (henums : other.roster.enums = m.roster.enums) (hservices : other.services = m.services) :
    Built before other := by
  refine Grown.list h (Grown.addMessage h hx.new)
    (.push hx.parent) .nil hstore hmessages ?_ hservices
  rw [henums, List.append_nil]
  exact List.Perm.refl _

/-! ## What is added besides -/

namespace Arena

variable {ref element : Type} {a : Arena ref element} {id : element → String}
  {Given : ref → element → Prop} {external : List ref}

/-- Whether a model keeps the elements of another and has besides only given ones, which are
external and whose full names none of the others has. -/
structure Supplies (a : Arena ref element) (id : element → String)
    (Given : ref → element → Prop) (k m : Model) (external : List ref) : Prop where
  /-- The elements are kept. -/
  kept : a.Keeps k m
  /-- What is found is old or given. -/
  found : ∀ r x, a.find? m r = some x → a.find? k r = some x ∨
    r ∈ external ∧ Given r x ∧ ∀ y ∈ a.elements k, id y ≠ id x

namespace Supplies

/-- A model supplies nothing to itself. -/
theorem refl (k : Model) (external : List ref) : a.Supplies id Given k k external :=
  ⟨.refl a k, fun _ _ hx => .inl hx⟩

variable (h : a.Supplies id Given k m external)

include h

/-- What supplies a model supplies every model with the same elements. -/
theorem later {other : Model} (hsame : a.elements other = a.elements m) :
    a.Supplies id Given k other external where
  kept := h.kept.trans a (a.keeps_of_eq hsame)
  found r x hx := by
    rw [find?, hsame] at hx
    exact h.found r x hx

/-- An element of the later model is an old or a given one. -/
theorem of_mem {x : element} (hx : x ∈ a.elements m) :
    x ∈ a.elements k ∨ ∃ r, Given r x := by
  obtain ⟨i, hi⟩ := Array.mem_iff_getElem?.1 hx
  have hfound : a.find? m (a.place i) = some x := by
    rw [find?, a.position_place]
    exact hi
  rcases h.found _ x hfound with hold | ⟨-, hgiven, -⟩
  · exact .inl (Array.mem_of_getElem? hold)
  · exact .inr ⟨_, hgiven⟩

/-- A given element whose full name is not there yet may be added. -/
theorem push [DecidableEq ref] {x : element} (hx : Given (a.next m) x)
    (hnew : ∀ y ∈ a.elements m, id y ≠ id x) :
    a.Supplies id Given k (a.push m x) (external ++ [a.next m]) := by
  constructor
  case kept => exact h.kept.trans a (a.keeps_push m x)
  case found =>
    intro r y hy
    rw [a.find?_push] at hy
    split at hy
    · rename_i hr
      obtain rfl := Option.some.inj hy
      have hold : ∀ y ∈ a.elements k, id y ≠ id x := fun y hy => hnew y (h.kept.mem a hy)
      exact .inr ⟨List.mem_append_right _ (List.mem_singleton.2 hr), hr ▸ hx, hold⟩
    · exact (h.found r y hy).imp_right fun hadded =>
        ⟨List.mem_append_left _ hadded.1, hadded.2⟩

end Supplies

end Arena

/-! ## Well-known types -/

namespace WellKnown

/-- Adding a well-known message goes on building. -/
theorem built_registerMessage (h : Built before m) (name : String) :
    Built before (registerMessage m name) := by
  rw [registerMessage]
  split
  · exact h
  · refine h.addListed (x := { name := name, id := idOf name, package := package }) ?_
      rfl ?_ rfl rfl
    · exact ⟨fun f hf => absurd hf List.not_mem_nil, rfl, rfl, rfl, rfl, rfl⟩
    · exact List.Perm.of_eq (List.append_assoc _ _ _).symm

/-- Adding the well-known enumeration goes on building. -/
theorem built_registerEnum (h : Built before m) : Built before (registerEnum m) := by
  rw [registerEnum]
  split
  · exact h
  · have hnew : NewEnum m.extent nullValue :=
      ⟨rfl, fun p hp => by cases hp⟩
    refine Grown.list h (Grown.addEnum h hnew) .nil (.push rfl) rfl ?_ ?_ rfl
    · rw [List.append_nil]
      exact List.Perm.refl _
    · exact List.Perm.of_eq (List.append_assoc _ _ _).symm

/-- What adding any well-known type keeps holds behind all of them. -/
theorem register_keeps {P : Model → Prop}
    (hmessage : ∀ m name, P m → P (registerMessage m name))
    (henum : ∀ m, P m → P (registerEnum m)) (h : P m) : P (register m) := by
  have hmessages : ∀ names : List String, P (names.foldl registerMessage m) := by
    intro names
    induction names generalizing m with
    | nil => exact h
    | cons name rest ih => exact ih (hmessage m name h)
  exact henum _ (hmessages messageNames)

/-- The external message of a well-known name. -/
def plainMessage (name : String) : Message := { name := name, id := idOf name, package := package }

/-- Adding the well-known types adds external messages of new full names. -/
theorem supplies_register (k : Model) :
    messageArena.Supplies Message.id (fun _ x => ∃ name, x = plainMessage name) k (register k)
      (register k).externalMessages := by
  refine register_keeps (P := fun m => messageArena.Supplies Message.id
    (fun _ x => ∃ name, x = plainMessage name) k m m.externalMessages) (fun m name hm => ?_)
    (fun m hm => ?_) (.refl k _)
  · unfold registerMessage
    split
    · exact hm
    · rename_i hnone
      refine (hm.push (x := plainMessage name) ⟨name, rfl⟩ fun y hy hid => hnone ?_).later rfl
      exact Array.any_eq_true'.2 ⟨y, hy, beq_iff_eq.2 hid⟩
  · unfold registerEnum
    split
    · exact hm
    · exact hm.later rfl

/-- Adding the well-known types adds an external enumeration of a new full name, if any. -/
theorem supplies_register_enums (k : Model) :
    enumArena.Supplies Enumeration.id (fun r x => x = nullValue.ownedBy r) k (register k)
      (register k).externalEnums := by
  refine register_keeps (P := fun m => enumArena.Supplies Enumeration.id
    (fun r x => x = nullValue.ownedBy r) k m m.externalEnums) (fun m name hm => ?_) (fun m hm => ?_)
    (.refl k _)
  · unfold registerMessage
    split
    · exact hm
    · exact hm.later rfl
  · unfold registerEnum
    split
    · exact hm
    · rename_i hnone
      refine (hm.push (x := nullValue.ownedBy (enumArena.next m)) rfl
        fun y hy hid => hnone ?_).later rfl
      exact Array.any_eq_true'.2 ⟨y, hy, beq_iff_eq.2 hid⟩

/-- Adding the well-known types goes on building. -/
theorem built_register (h : Built before m) : Built before (register m) :=
  register_keeps (fun _ name hm => built_registerMessage hm name) (fun _ => built_registerEnum) h

/-- Adding the well-known types keeps the methods. -/
theorem methods_register (m : Model) : (register m).store.methods = m.store.methods := by
  have hmessage : ∀ (k : Model) name, (registerMessage k name).store.methods =
      k.store.methods := by
    intro k name
    rw [registerMessage]
    split <;> rfl
  have henum : ∀ k : Model, (registerEnum k).store.methods = k.store.methods := by
    intro k
    rw [registerEnum]
    split <;> rfl
  exact register_keeps (P := fun k => k.store.methods = m.store.methods)
    (fun k name hk => (hmessage k name).trans hk) (fun k hk => (henum k).trans hk) rfl

/-- Adding the well-known types keeps the services. -/
theorem services_register (m : Model) : (register m).store.services = m.store.services := by
  refine register_keeps (P := fun k => k.store.services = m.store.services) (fun k name hk => ?_)
    (fun k hk => ?_) rfl
  · rw [registerMessage]
    split <;> exact hk
  · rw [registerEnum]
    split <;> exact hk

/-- Adding the well-known types leaves what is in the store. -/
theorem staysIn_register (m : Model) : m.StaysIn (register m) := by
  have hservices := services_register m
  have hmethods := methods_register m
  have hmessages := supplies_register m
  have henums := supplies_register_enums m
  generalize register m = k at *
  exact ⟨hmessages.kept, henums.kept, serviceArena.keeps_of_eq hservices,
    methodArena.keeps_of_eq hmethods⟩

/-- Adding the well-known types keeps the package. -/
theorem packageName_register (m : Model) : (register m).packageName = m.packageName := by
  refine register_keeps (P := fun k => k.packageName = m.packageName) (fun k name hk => ?_)
    (fun k hk => ?_) rfl
  · rw [registerMessage]
    split <;> exact hk
  · rw [registerEnum]
    split <;> exact hk

/-- Adding the well-known types keeps the messages. -/
theorem mem_register {x : Message} (hx : x ∈ m.store.messages) :
    x ∈ (register m).store.messages := by
  have hkept := (supplies_register m).kept
  generalize register m = k at *
  exact hkept.mem messageArena hx

/-- A message that is there after adding the well-known types was there before or is a plain one. -/
theorem of_mem_register {x : Message} (hx : x ∈ (register m).store.messages) :
    x ∈ m.store.messages ∨ ∃ name, x = plainMessage name := by
  have hsupplies := supplies_register m
  generalize register m = k at *
  exact (hsupplies.of_mem hx).imp_right fun ⟨_, hplain⟩ => hplain

/-- An enumeration that is there after adding the well-known types was there before or is the
well-known one. -/
theorem of_mem_register_enums {x : Enumeration} (hx : x ∈ (register m).store.enums) :
    x ∈ m.store.enums ∨ ∃ r, x = nullValue.ownedBy r := by
  have hsupplies := supplies_register_enums m
  generalize register m = k at *
  exact hsupplies.of_mem hx

/-- Adding well-known messages leaves one of every name, the messages that were there included. -/
theorem exists_registerMessages {names : List String} {id : String}
    (h : (∃ x ∈ m.store.messages, x.id = id) ∨ ∃ name ∈ names, id = idOf name) :
    ∃ x ∈ (names.foldl registerMessage m).store.messages, x.id = id := by
  induction names generalizing m with
  | nil =>
    refine h.resolve_right ?_
    rintro ⟨name, hname, -⟩
    exact absurd hname List.not_mem_nil
  | cons first rest ih =>
    refine ih ?_
    rcases h with ⟨x, hx, rfl⟩ | ⟨name, hname, rfl⟩
    · refine .inl ⟨x, ?_, rfl⟩
      rw [registerMessage]
      split
      · exact hx
      · exact Array.mem_push.2 (.inl hx)
    · rcases List.mem_cons.1 hname with rfl | hname
      · left
        rw [registerMessage]
        split
        · rename_i hany
          obtain ⟨x, hx, hid⟩ := Array.any_eq_true'.1 hany
          exact ⟨x, hx, beq_iff_eq.1 hid⟩
        · exact ⟨_, Array.mem_push_self, rfl⟩
      · exact .inr ⟨name, hname, rfl⟩

/-- After adding the well-known types there is a message of every well-known name. -/
theorem exists_register (m : Model) {name : String} (hname : name ∈ messageNames) :
    ∃ x ∈ (register m).store.messages, x.id = idOf name := by
  have hgiven : (∃ x ∈ m.store.messages, x.id = idOf name) ∨ ∃ other ∈ messageNames,
      idOf name = idOf other := .inr ⟨name, hname, rfl⟩
  have hfound := exists_registerMessages hgiven
  rw [register]
  generalize messageNames.foldl registerMessage m = k at hfound
  rw [registerEnum]
  split <;> exact hfound

end WellKnown

/-! ## Before the first element -/

/-- A model without elements is built. -/
theorem Model.Built.of_empty (hstore : m.store = {}) (hmessages : m.messages = [])
    (henums : m.enums = []) (hservices : m.services = [])
    (hexternalMessages : m.externalMessages = []) (hexternalEnums : m.externalEnums = []) :
    Built before m := by
  obtain ⟨name, packageName, title, description, services, messages, enums, externalMessages,
    externalEnums, store⟩ := m
  subst hstore hmessages henums hservices hexternalMessages hexternalEnums
  refine ⟨⟨?_, ?_, ?_, ?_, ?_, ?_⟩, ?_, ?_, ?_⟩
  · rintro r x ⟨⟩
  · rintro r x ⟨⟩
  · rintro r x ⟨⟩
  · rintro r x ⟨⟩
  · rintro r s x y k ⟨⟩
  · constructor
    case messagesOnce => exact List.nodup_nil
    case enumsOnce => exact List.nodup_nil
    case servicesOnce => exact List.nodup_nil
    all_goals exact fun r hr => absurd hr List.not_mem_nil
  · rintro r x ⟨⟩
  · rintro r x ⟨⟩
  · rintro r x ⟨⟩

/-! ## Discovery documents -/

namespace Discovery

/-- The message of a schema stands alone. -/
theorem alone_makeMessage {package name : String} {schema : Schema} {x : Message}
    (h : makeMessage package name schema = .ok x) : x.Alone := by
  rw [makeMessage, Attempt.bind_eq_ok] at h
  obtain ⟨shape, -, h⟩ := h
  split at h
  · rw [Attempt.bind_eq_ok] at h
    obtain ⟨fields, hfields, h⟩ := h
    obtain rfl := Except.ok.inj h
    refine ⟨fun f hf => ?_, rfl, rfl, rfl, rfl, rfl⟩
    obtain ⟨f?, hf?, hsome⟩ := List.mem_filterMap.1 hf
    obtain ⟨property, -, hmake⟩ := Attempt.mapM_forall_right hfields f? hf?
    rw [makeField?, Attempt.bind_eq_ok] at hmake
    obtain ⟨type?, -, hmake⟩ := hmake
    obtain rfl := Except.ok.inj hmake
    obtain ⟨type, -, rfl⟩ := Option.map_eq_some_iff.1 hsome
    exact ⟨rfl, rfl⟩
  · cases h

/-- The method of a service stands alone. -/
theorem alone_makeMethod {package serviceId servicePath : String} {entry : String × Method}
    {x : ApiModel.Method} (h : makeMethod package serviceId servicePath entry = .ok x) :
    x.Alone := by
  unfold makeMethod at h
  dsimp only at h
  split at h
  · cases h
  · obtain ⟨inputTypeId, -, h⟩ := Attempt.bind_eq_ok.1 h
    obtain ⟨outputTypeId, -, h⟩ := Attempt.bind_eq_ok.1 h
    obtain ⟨template, -, h⟩ := Attempt.bind_eq_ok.1 h
    obtain rfl := Except.ok.inj h
    refine ⟨⟨rfl, rfl, ?_, ?_⟩, rfl, rfl, rfl⟩
    · rintro info ⟨⟩
    · rintro info ⟨⟩

/-- Adding the message of a schema goes on building. -/
theorem built_addSchema (h : Built before m) {entry : String × Schema}
    (hadd : addSchema m entry = .ok other) : Built before other := by
  rw [addSchema, Attempt.bind_eq_ok] at hadd
  obtain ⟨x, hx, hadd⟩ := hadd
  obtain rfl := Except.ok.inj hadd
  exact h.addListed (alone_makeMessage hx) rfl (perm_listed _ _ _) rfl rfl

/-- Adding methods that stand alone gives a batch of them. -/
theorem served_addMethods {xs : List MethodRef} (hserved : Served before m k xs)
    {methods : List ApiModel.Method} (hmethods : ∀ x ∈ methods, x.Alone) {refs : List MethodRef}
    (hadd : methods.foldl
      (fun (found : List MethodRef × Model) method =>
        (found.1 ++ [(found.2.addMethod method).ref], (found.2.addMethod method).model))
      (xs, k) = (refs, other)) : Served before m other refs := by
  induction methods generalizing xs k with
  | nil =>
    obtain ⟨rfl, rfl⟩ := Prod.mk.inj hadd
    exact hserved
  | cons x rest ih =>
    have hnew : NewMethod k.extent x := (hmethods x List.mem_cons_self).new
    have hnext := hserved.append (Served.addMethod ⟨hserved.toBuilt, rfl, rfl⟩ hnew)
    exact ih hnext (fun y hy => hmethods y (List.mem_cons_of_mem x hy)) hadd

/-- Adding the service of a resource goes on building. -/
theorem built_addService (h : Built before m) {d : Document} {resource : NamedResource}
    (hadd : addService d m resource = .ok other) : Built before other := by
  rw [addService, Attempt.bind_eq_ok] at hadd
  obtain ⟨methods, hmethods, hadd⟩ := hadd
  split at hadd
  rename_i refs k hfold
  obtain rfl := Except.ok.inj hadd
  refine Served.addService h (served_addMethods (.refl h) (fun x hx => ?_) hfold) rfl
    rfl rfl rfl rfl
  obtain ⟨entry, -, hmake⟩ := Attempt.mapM_forall_right hmethods x hx
  exact alone_makeMethod hmake

/-- The model of a document is built. -/
theorem built_model {d : Document} {config : Option ServiceConfig} (h : d.model config = .ok m) :
    Built before m := by
  obtain ⟨-, -, h⟩ := Attempt.bind_eq_ok.1 h
  obtain ⟨schemas, hschemas, h⟩ := Attempt.bind_eq_ok.1 h
  obtain ⟨services, hservices, h⟩ := Attempt.bind_eq_ok.1 h
  obtain rfl := Except.ok.inj h
  refine WellKnown.built_register ?_
  refine Attempt.foldlM_keeps (fun m resource k hm hk => built_addService hm hk) ?_ hservices
  refine Attempt.foldlM_keeps (fun m entry k hm hk => built_addSchema hm hk) ?_ hschemas
  unfold Document.identity
  split
  · exact .of_empty rfl rfl rfl rfl rfl rfl
  · exact .of_empty rfl rfl rfl rfl rfl rfl

end Discovery

end ApiModel
