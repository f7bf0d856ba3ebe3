import ApiModel.Documentation
import ApiModel.Proofs.Listing
import ApiModel.Proofs.Outcome

/-!
# Documentation only

Rules and overrides change nothing but documentation: the lists, the indices and all elements stay
the same apart from it, also where an override fails.
-/

namespace ApiModel

/-- The field without its documentation. -/
def Field.undocumented (f : Field) : Field :=
  { f with documentation := "" }

/-- The group of alternatives without its documentation. -/
def OneOf.undocumented (o : OneOf) : OneOf :=
  { o with documentation := "" }

/-- The message without documentation. -/
def Message.undocumented (x : Message) : Message :=
  { x with
    documentation := ""
    fields := x.fields.map Field.undocumented
    oneOfs := x.oneOfs.map OneOf.undocumented }

/-- The value without its documentation. -/
def EnumValue.undocumented (v : EnumValue) : EnumValue :=
  { v with documentation := "" }

/-- The enumeration without documentation. -/
def Enumeration.undocumented (x : Enumeration) : Enumeration :=
  { x with documentation := "", values := x.values.map EnumValue.undocumented }

/-- The service without its documentation. -/
def Service.undocumented (x : Service) : Service :=
  { x with documentation := "" }

/-- The method without its documentation. -/
def Method.undocumented (x : Method) : Method :=
  { x with documentation := "" }

namespace Model

/-- Whether two models are the same but for documentation. -/
structure SameButTexts (m other : Model) : Prop extends SameOutline m other where
  /-- The messages. -/
  messageText : ∀ r, (other.message r).undocumented = (m.message r).undocumented
  /-- The enumerations. -/
  enumText : ∀ r, (other.enumeration r).undocumented = (m.enumeration r).undocumented
  /-- The services. -/
  serviceText : ∀ r, (other.service r).undocumented = (m.service r).undocumented
  /-- The methods. -/
  methodText : ∀ r, (other.method r).undocumented = (m.method r).undocumented

variable {m other last : Model}

namespace SameButTexts

/-- Every model is the same as itself. -/
theorem refl (m : Model) : SameButTexts m m :=
  ⟨SameOutline.refl m, fun _ => rfl, fun _ => rfl, fun _ => rfl, fun _ => rfl⟩

/-- Being the same but for documentation goes both ways. -/
theorem symm (h : SameButTexts m other) : SameButTexts other m where
  toSameOutline := h.toSameOutline.symm
  messageText r := (h.messageText r).symm
  enumText r := (h.enumText r).symm
  serviceText r := (h.serviceText r).symm
  methodText r := (h.methodText r).symm

/-- Being the same but for documentation is passed on. -/
theorem trans (h : SameButTexts m other) (h' : SameButTexts other last) : SameButTexts m last where
  toSameOutline := h.toSameOutline.trans h'.toSameOutline
  messageText r := (h'.messageText r).trans (h.messageText r)
  enumText r := (h'.enumText r).trans (h.enumText r)
  serviceText r := (h'.serviceText r).trans (h.serviceText r)
  methodText r := (h'.methodText r).trans (h.methodText r)

/-- Models that are the same but for documentation have fields that are the same but for it. -/
theorem fields (h : SameButTexts m other) (r : MessageRef) :
    (other.message r).fields.map Field.undocumented =
      (m.message r).fields.map Field.undocumented := by
  have htext := congrArg Message.fields (h.messageText r)
  exact htext

end SameButTexts

/-- A change of messages that keeps all but their documentation keeps the model but for
documentation. -/
theorem sameButTexts_messages : messageArena.SeenThrough Message.undocumented SameButTexts :=
  fun m xs hsize h =>
    { SameButTexts.refl m with
      toSameOutline := sameOutline_messages m xs hsize fun r => (congrArg messageListing (h r) :)
      messageText := h }

/-- A change of enumerations that keeps all but their documentation keeps the model but for
documentation. -/
theorem sameButTexts_enums : enumArena.SeenThrough Enumeration.undocumented SameButTexts :=
  fun m xs hsize h =>
    { SameButTexts.refl m with
      toSameOutline := sameOutline_enums m xs hsize fun r => (congrArg Enumeration.id (h r) :)
      enumText := h }

/-- A change of services that keeps all but their documentation keeps the model but for
documentation. -/
theorem sameButTexts_services : serviceArena.SeenThrough Service.undocumented SameButTexts :=
  fun m xs hsize h =>
    { SameButTexts.refl m with
      toSameOutline := sameOutline_services m xs hsize fun r => (congrArg serviceListing (h r) :)
      serviceText := h }

/-- A change of methods that keeps all but their documentation keeps the model but for
documentation. -/
theorem sameButTexts_methods : methodArena.SeenThrough Method.undocumented SameButTexts :=
  fun m xs hsize h =>
    { SameButTexts.refl m with
      toSameOutline := sameOutline_methods m xs hsize fun r => (congrArg Method.id (h r) :)
      methodText := h }

/-! ## Rules -/

/-- A rule changes the documentation of a message and of its fields only. -/
theorem undocumented_documentMessage (config : ServiceConfig) (x : Message) :
    (config.documentMessage x).undocumented = x.undocumented := by
  rw [Message.undocumented, ServiceConfig.documentMessage, List.map_map]
  rfl

/-- A rule changes the documentation of an enumeration and of its values only. -/
theorem undocumented_documentEnum (config : ServiceConfig) (x : Enumeration) :
    (config.documentEnum x).undocumented = x.undocumented := by
  rw [Enumeration.undocumented, ServiceConfig.documentEnum, List.map_map]
  rfl

/-- Rules change documentation only. -/
theorem sameButTexts_applyRules (m : Model) (config : ServiceConfig) :
    SameButTexts m (m.applyRules config) := by
  unfold applyRules
  split
  · exact SameButTexts.refl m
  · refine SameButTexts.trans ?_ (foldl_relates SameButTexts.refl SameButTexts.trans
      (fun k _ => sameButTexts_methods.modify rfl) _ _)
    refine SameButTexts.trans ?_ (foldl_relates SameButTexts.refl SameButTexts.trans
      (fun k _ => sameButTexts_services.modify rfl) _ _)
    refine SameButTexts.trans ?_ (foldl_relates SameButTexts.refl SameButTexts.trans
      (fun k _ => sameButTexts_enums.modify (undocumented_documentEnum config _)) _ _)
    exact foldl_relates SameButTexts.refl SameButTexts.trans
      (fun k _ => sameButTexts_messages.modify (undocumented_documentMessage config _)) _ m

/-! ## Overrides -/

/-- What a change at one position keeps of an item it keeps of a list. -/
theorem map_modify {α κ : Type} {view : α → κ} {change : α → α}
    (h : ∀ x, view (change x) = view x) (xs : List α) (i : Nat) :
    (xs.modify i change).map view = xs.map view := by
  refine List.ext_getElem? fun j => ?_
  rw [List.getElem?_map, List.getElem?_map, List.getElem?_modify, Option.map_eq_map, Option.map_map]
  refine Option.map_congr fun x _ => ?_
  change view (if i = j then change x else x) = view x
  split
  · exact h x
  · rfl

/-- Setting the documentation of an element changes nothing else. -/
theorem sameButTexts_setDocumentation (m : Model) (text : String) (element : Documented) :
    SameButTexts m (m.setDocumentation text element) := by
  cases element with
  | message r => exact sameButTexts_messages.modify rfl
  | enumeration r => exact sameButTexts_enums.modify rfl
  | service r => exact sameButTexts_services.modify rfl
  | method r => exact sameButTexts_methods.modify rfl
  | field r position =>
    refine sameButTexts_messages.modify ?_
    have htext : ∀ x : Field, ({ x with documentation := text } : Field).undocumented =
        x.undocumented := fun _ => rfl
    rw [Message.undocumented, map_modify htext]
    rfl
  | oneOf r position =>
    refine sameButTexts_messages.modify ?_
    have htext : ∀ x : OneOf, ({ x with documentation := text } : OneOf).undocumented =
        x.undocumented := fun _ => rfl
    rw [Message.undocumented, map_modify htext]
    rfl
  | enumValue r position =>
    refine sameButTexts_enums.modify ?_
    have htext : ∀ x : EnumValue, ({ x with documentation := text } : EnumValue).undocumented =
        x.undocumented := fun _ => rfl
    rw [Enumeration.undocumented, map_modify htext]
    rfl

/-- Overrides change documentation only, however far they get. -/
theorem sameButTexts_patchAll (m : Model) (overrides : List DocumentationOverride) :
    SameButTexts m (m.patchAll overrides).model := by
  refine Outcome.forEach_relates SameButTexts.refl SameButTexts.trans (fun k item y hy => ?_) _ m
  unfold patch at hy
  split at hy
  · cases hy
  · split at hy
    · cases hy
    · obtain rfl := Except.ok.inj hy
      exact sameButTexts_setDocumentation k _ _

end Model

end ApiModel
