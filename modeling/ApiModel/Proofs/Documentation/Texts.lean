import ApiModel.Proofs.Documentation.Overrides

/-!
# Models and their texts

A model without its documentation, together with the documentation of each of its elements, tells
the whole model. Looking up an element does not depend on documentation, and setting the
documentation of one element changes that of no other.
-/

namespace ApiModel

/-! ## Elements and their texts -/

/-- How elements are put together from a text and the rest of them. -/
structure Texted (element : Type) where
  /-- The text of an element. -/
  text : element → String
  /-- The rest of an element. -/
  rest : element → element
  /-- The element of a rest with a text. -/
  join : element → String → element
  /-- The rest and the text make the element. -/
  join_rest : ∀ x, join (rest x) (text x) = x

namespace Texted

variable {element : Type} (t : Texted element)

/-- An element is told by its text and the rest of it. -/
theorem eq_of_texts {x y : element} (hrest : t.rest x = t.rest y)
    (htext : t.text x = t.text y) : x = y :=
  calc x = t.join (t.rest x) (t.text x) := (t.join_rest x).symm
    _ = t.join (t.rest y) (t.text y) := by rw [hrest, htext]
    _ = y := t.join_rest y

/-- Elements in order are told by their texts and the rest of each. -/
theorem list_eq_of_texts (blank : element) {xs ys : List element}
    (hrest : xs.map t.rest = ys.map t.rest)
    (htexts : ∀ p, t.text (xs.getD p blank) = t.text (ys.getD p blank)) : xs = ys := by
  have hlength : xs.length = ys.length := by simpa using congrArg List.length hrest
  refine List.ext_getElem hlength fun p hx hy => t.eq_of_texts ?_ ?_
  · have hview := congrArg (·[p]?) hrest
    simpa [hx, hy] using hview
  · have htext := htexts p
    simpa [List.getD_eq_getElem?_getD, hx, hy] using htext

end Texted

/-- The documentation of a field and the rest of it. -/
def fieldTexts : Texted Field :=
  ⟨Field.documentation, Field.undocumented, fun f text => { f with documentation := text },
    fun _ => rfl⟩

/-- The documentation of a group of alternatives and the rest of it. -/
def oneOfTexts : Texted OneOf :=
  ⟨OneOf.documentation, OneOf.undocumented, fun o text => { o with documentation := text },
    fun _ => rfl⟩

/-- The documentation of a value and the rest of it. -/
def valueTexts : Texted EnumValue :=
  ⟨EnumValue.documentation, EnumValue.undocumented, fun v text =>
    { v with documentation := text }, fun _ => rfl⟩

/-- The documentation of a service and the rest of it. -/
def serviceTexts : Texted Service :=
  ⟨Service.documentation, Service.undocumented, fun x text => { x with documentation := text },
    fun _ => rfl⟩

/-- The documentation of a method and the rest of it. -/
def methodTexts : Texted Method :=
  ⟨Method.documentation, Method.undocumented, fun x text => { x with documentation := text },
    fun _ => rfl⟩

/-- A message is told by its documentation, that of its fields and groups, and the rest of it. -/
theorem Message.eq_of_texts {x y : Message} (hrest : x.undocumented = y.undocumented)
    (htext : x.documentation = y.documentation)
    (hfields : ∀ p, (x.fields.getD p default).documentation =
      (y.fields.getD p default).documentation)
    (honeOfs : ∀ p, (x.oneOfs.getD p default).documentation =
      (y.oneOfs.getD p default).documentation) :
    x = y := by
  have hfields : x.fields = y.fields :=
    fieldTexts.list_eq_of_texts default (congrArg Message.fields hrest) hfields
  have honeOfs : x.oneOfs = y.oneOfs :=
    oneOfTexts.list_eq_of_texts default (congrArg Message.oneOfs hrest) honeOfs
  calc x = { x.undocumented with
          documentation := x.documentation, fields := x.fields, oneOfs := x.oneOfs } := rfl
    _ = { y.undocumented with
          documentation := y.documentation, fields := y.fields, oneOfs := y.oneOfs } := by
        rw [hrest, htext, hfields, honeOfs]
    _ = y := rfl

/-- An enumeration is told by its documentation, that of its values, and the rest of it. -/
theorem Enumeration.eq_of_texts {x y : Enumeration} (hrest : x.undocumented = y.undocumented)
    (htext : x.documentation = y.documentation)
    (hvalues : ∀ p, (x.values.getD p default).documentation =
      (y.values.getD p default).documentation) :
    x = y := by
  have hvalues : x.values = y.values :=
    valueTexts.list_eq_of_texts default (congrArg Enumeration.values hrest) hvalues
  calc x = { x.undocumented with documentation := x.documentation, values := x.values } := rfl
    _ = { y.undocumented with documentation := y.documentation, values := y.values } := by
        rw [hrest, htext, hvalues]
    _ = y := rfl

/-! ## Models without documentation -/

/-- Arrays of one size hold the same places. -/
theorem Arena.holds_congr {ref element : Type} (a : Arena ref element) {m other : Model} {r : ref}
    (h : (a.elements other).size = (a.elements m).size) : a.Holds other r ↔ a.Holds m r := by
  rw [Holds, Holds, h]

namespace Model

/-- The model without the documentation of its elements. -/
def undocumented (m : Model) : Model :=
  { m with
    store :=
      { m.store with
        messages := m.store.messages.map Message.undocumented
        enums := m.store.enums.map Enumeration.undocumented
        services := m.store.services.map Service.undocumented
        methods := m.store.methods.map Method.undocumented } }

/-- The model with the elements of a store, but its own indices. -/
def withElements (m : Model) (store : Store) : Model :=
  { m with
    store :=
      { m.store with
        messages := store.messages, enums := store.enums
        services := store.services, methods := store.methods } }

variable {m other : Model}

/-- Arrays that show the same items are of one size. -/
theorem size_of_views {α β : Type} {view : α → β} {xs ys : Array α}
    (h : xs.map view = ys.map view) :
    xs.size = ys.size := by
  simpa only [Array.size_map] using congrArg Array.size h

/-- A message of the model without documentation is the one of the model, without documentation. -/
theorem message_undocumented (m : Model) (r : MessageRef) :
    m.undocumented.message r = (m.message r).undocumented :=
  getD_map Message.undocumented m.store.messages r.index default

/-- An enumeration of the model without documentation is the one of the model, without
documentation. -/
theorem enumeration_undocumented (m : Model) (r : EnumRef) :
    m.undocumented.enumeration r = (m.enumeration r).undocumented :=
  getD_map Enumeration.undocumented m.store.enums r.index default

/-- A service of the model without documentation is the one of the model, without documentation. -/
theorem service_undocumented (m : Model) (r : ServiceRef) :
    m.undocumented.service r = (m.service r).undocumented :=
  getD_map Service.undocumented m.store.services r.index default

/-- A method of the model without documentation is the one of the model, without documentation. -/
theorem method_undocumented (m : Model) (r : MethodRef) :
    m.undocumented.method r = (m.method r).undocumented :=
  getD_map Method.undocumented m.store.methods r.index default

/-- Models that are the same without documentation differ in documentation only. -/
theorem sameButTexts_of_undocumented (h : other.undocumented = m.undocumented) :
    SameButTexts m other := by
  have hmessage : ∀ r, (other.message r).undocumented = (m.message r).undocumented := by
    intro r
    rw [← message_undocumented, h, message_undocumented]
  have henum : ∀ r, (other.enumeration r).undocumented = (m.enumeration r).undocumented := by
    intro r
    rw [← enumeration_undocumented, h, enumeration_undocumented]
  have hservice : ∀ r, (other.service r).undocumented = (m.service r).undocumented := by
    intro r
    rw [← service_undocumented, h, service_undocumented]
  have hmethod : ∀ r, (other.method r).undocumented = (m.method r).undocumented := by
    intro r
    rw [← method_undocumented, h, method_undocumented]
  have hlisting : SameListing m other := {
    messages := congrArg (·.messages) h
    enums := congrArg (·.enums) h
    services := congrArg (·.services) h
    externalMessages := congrArg (·.externalMessages) h
    externalEnums := congrArg (·.externalEnums) h
    count := size_of_views (congrArg (·.store.messages) h)
    message := fun r => by
      have hlisted := congrArg messageListing (hmessage r)
      exact hlisted
    enumeration := fun r => by
      have hid := congrArg Enumeration.id (henum r)
      exact hid
    service := fun r => by
      have hlisted := congrArg serviceListing (hservice r)
      exact hlisted
    method := fun r => by
      have hid := congrArg Method.id (hmethod r)
      exact hid }
  exact {
    hlisting with
    messageById := congrArg (·.store.messageById) h
    enumById := congrArg (·.store.enumById) h
    serviceById := congrArg (·.store.serviceById) h
    methodById := congrArg (·.store.methodById) h
    messageText := hmessage
    enumText := henum
    serviceText := hservice
    methodText := hmethod }

/-- A model is told by the documentation of its elements and the rest of it. -/
theorem eq_of_texts (hrest : other.undocumented = m.undocumented)
    (htexts : ∀ element, other.documentation element = m.documentation element) : other = m := by
  have hmessages : other.store.messages = m.store.messages := by
    refine messageArena.elements_eq (size_of_views (congrArg (·.store.messages) hrest)) fun r => ?_
    refine Message.eq_of_texts ?_ (htexts (.message r)) (fun p => htexts (.field r p))
      fun p => htexts (.oneOf r p)
    exact (message_undocumented other r).symm.trans (hrest ▸ message_undocumented m r)
  have henums : other.store.enums = m.store.enums := by
    refine enumArena.elements_eq (size_of_views (congrArg (·.store.enums) hrest)) fun r => ?_
    refine Enumeration.eq_of_texts ?_ (htexts (.enumeration r)) fun p => htexts (.enumValue r p)
    exact (enumeration_undocumented other r).symm.trans (hrest ▸ enumeration_undocumented m r)
  have hservices : other.store.services = m.store.services := by
    refine serviceArena.elements_eq (size_of_views (congrArg (·.store.services) hrest)) fun r => ?_
    refine serviceTexts.eq_of_texts ?_ (htexts (.service r))
    exact (service_undocumented other r).symm.trans (hrest ▸ service_undocumented m r)
  have hmethods : other.store.methods = m.store.methods := by
    refine methodArena.elements_eq (size_of_views (congrArg (·.store.methods) hrest)) fun r => ?_
    refine methodTexts.eq_of_texts ?_ (htexts (.method r))
    exact (method_undocumented other r).symm.trans (hrest ▸ method_undocumented m r)
  calc other = other.undocumented.withElements other.store := rfl
    _ = m.undocumented.withElements m.store := by
      simp only [withElements, hrest, hmessages, henums, hservices, hmethods]
    _ = m := rfl

/-! ## Changes of documentation -/

/-- Whether two models are the same without documentation. -/
def SameRest (m other : Model) : Prop :=
  other.undocumented = m.undocumented

/-- A change of messages that keeps all but their documentation keeps the rest of the model. -/
theorem sameRest_messages : messageArena.SeenThrough Message.undocumented SameRest :=
  .of_views (fun m ys => { m.undocumented with
    store := { m.undocumented.store with messages := ys } }) fun _ _ => rfl

/-- A change of enumerations that keeps all but their documentation keeps the rest of the model. -/
theorem sameRest_enums : enumArena.SeenThrough Enumeration.undocumented SameRest :=
  .of_views (fun m ys => { m.undocumented with
    store := { m.undocumented.store with enums := ys } }) fun _ _ => rfl

/-- A change of services that keeps all but their documentation keeps the rest of the model. -/
theorem sameRest_services : serviceArena.SeenThrough Service.undocumented SameRest :=
  .of_views (fun m ys => { m.undocumented with
    store := { m.undocumented.store with services := ys } }) fun _ _ => rfl

/-- A change of methods that keeps all but their documentation keeps the rest of the model. -/
theorem sameRest_methods : methodArena.SeenThrough Method.undocumented SameRest :=
  .of_views (fun m ys => { m.undocumented with
    store := { m.undocumented.store with methods := ys } }) fun _ _ => rfl

/-- Setting the documentation of an element changes nothing else. -/
theorem undocumented_setDocumentation (m : Model) (text : String) (element : Documented) :
    (m.setDocumentation text element).undocumented = m.undocumented := by
  cases element with
  | message r =>
    exact sameRest_messages.modify (r := r) rfl
  | enumeration r =>
    exact sameRest_enums.modify (r := r) rfl
  | service r =>
    exact sameRest_services.modify (r := r) rfl
  | method r =>
    exact sameRest_methods.modify (r := r) rfl
  | field r p =>
    have htext : ∀ f : Field, ({ f with documentation := text } : Field).undocumented =
        f.undocumented :=
      fun _ => rfl
    refine sameRest_messages.modify (r := r) ?_
    rw [Message.undocumented, map_modify htext]
    rfl
  | oneOf r p =>
    have htext : ∀ o : OneOf, ({ o with documentation := text } : OneOf).undocumented =
        o.undocumented :=
      fun _ => rfl
    refine sameRest_messages.modify (r := r) ?_
    rw [Message.undocumented, map_modify htext]
    rfl
  | enumValue r p =>
    have htext : ∀ v : EnumValue, ({ v with documentation := text } : EnumValue).undocumented =
        v.undocumented := fun _ => rfl
    refine sameRest_enums.modify (r := r) ?_
    rw [Enumeration.undocumented, map_modify htext]
    rfl

end Model

end ApiModel
