import ApiModel.Proofs.Descriptor.Traversal

/-!
# Fields that clients fill in

A service configuration names request fields that clients fill in when they are empty. A method
lists those of them that are texts, unique identifiers and not required, found in the message that
stands under the name of its request and in the descriptor that stands under it. As these belong
together, every position that is listed is one of both. A field is marked exactly if some method
lists it.
-/

namespace ApiModel

/-- Whether names are those that a configuration has for a method: the ones of the first settings
for it. -/
def ServiceConfig.Configures (config : ServiceConfig) (methodId : String)
    (names : List String) : Prop :=
  (∃ settings, First (fun s => s.selector = Text.dropDots methodId)
    config.publishing.methodSettings settings ∧
    names = settings.autoPopulatedFields) ∨
  (∀ settings ∈ config.publishing.methodSettings, settings.selector ≠
    Text.dropDots methodId) ∧ names = []

/-- The configured names are those of the first settings for a method. -/
theorem ServiceConfig.configures_autoPopulatedFields (config : ServiceConfig) (methodId : String) :
    config.Configures methodId (config.autoPopulatedFields methodId) := by
  unfold ServiceConfig.autoPopulatedFields
  dsimp only
  split
  · rename_i settings hfound
    exact .inl ⟨settings, (First.find?_eq_some fun _ => beq_iff_eq).1 hfound, rfl⟩
  · rename_i hnone
    exact .inr ⟨fun settings hmem hselector =>
      List.find?_eq_none.1 hnone settings hmem (beq_iff_eq.2 hselector), rfl⟩

namespace Descriptor

open Model

variable {m k : Model}

/-! ## Fields of a request -/

/-- Whether clients may fill in a field that is made from a descriptor. -/
structure Field.Fillable (f : Field) (y : ApiModel.Field) : Prop where
  /-- The field is a text. -/
  text : y.type = .string
  /-- Its descriptor says that it is a unique identifier. -/
  unique : ∃ info, (f.options.getD {}).fieldInfo = some info ∧ info.format = FieldInfo.uuid4
  /-- The field is not required. -/
  optional : FieldBehavior.required ∉ y.behavior

/-- The test of a field accepts exactly those that clients may fill in. -/
theorem mayFillIn_iff {f : Field} {y : ApiModel.Field} : mayFillIn f y = true ↔ f.Fillable y := by
  have hiff : mayFillIn f y = true ↔ y.type = .string ∧
      (∃ info, (f.options.getD {}).fieldInfo = some info ∧ info.format = FieldInfo.uuid4) ∧
      FieldBehavior.required ∉ y.behavior := by
    simp [mayFillIn, ApiModel.Field.isRequired, Option.any_eq_true, and_assoc]
  rw [hiff]
  exact ⟨fun ⟨htext, hunique, hoptional⟩ => ⟨htext, hunique, hoptional⟩,
    fun h => ⟨h.text, h.unique, h.optional⟩⟩

/-- Whether clients fill in the field at a position of a request for a name: it is the first of the
name, and it and its descriptor, which stands at the same position, allow it. -/
structure FillsIn (source : Message) (request : ApiModel.Message) (name : String)
    (j : Nat) : Prop where
  /-- The field is the first of the name. -/
  first : FirstAt (fun y => y.name = name) request.fields j
  /-- Clients may fill it in. -/
  fillable : ∃ f y, source.fields[j]? = some f ∧ request.fields[j]? = some y ∧ f.Fillable y

/-- The position of the field of a request that is filled in for a name, if there is one. -/
def choice? (source : Message) (request : ApiModel.Message) (name : String) : Option Nat :=
  (request.fields.findIdx? fun y => y.name == name).filter fun j =>
    mayFillIn (source.fields.getD j {}) (request.fields.getD j {})

/-- The position that is found for a name is the one of the field that clients fill in. -/
theorem choice?_eq_some_iff {d : Declared Message} {request : ApiModel.Message}
    (h : MessageYields d request) {name : String} {j : Nat} :
    choice? d.source request name = some j ↔ FillsIn d.source request name j := by
  rw [choice?, Option.filter_eq_some_iff, findIdx?_eq_some_iff_firstAt fun y => beq_iff_eq,
    mayFillIn_iff]
  constructor
  · rintro ⟨hfirst, hfillable⟩
    obtain ⟨y, hy, -⟩ := hfirst.1
    obtain ⟨f, hf, -⟩ := exists_getElem?_of_forall₂ h.fields hy
    rw [List.getD_eq_getElem?_getD, hf, List.getD_eq_getElem?_getD, hy] at hfillable
    exact ⟨hfirst, f, y, hf, hy, hfillable⟩
  · rintro ⟨hfirst, f, y, hf, hy, hfillable⟩
    rw [List.getD_eq_getElem?_getD, hf, List.getD_eq_getElem?_getD, hy]
    exact ⟨hfirst, hfillable⟩

/-- Marks make no difference to what is found for a name. -/
theorem choice?_unmarked (source : Message) (request : ApiModel.Message) (name : String) :
    choice? source request.unmarked name = choice? source request name := by
  have hfillable : ∀ j, mayFillIn (source.fields.getD j {}) (request.unmarked.fields.getD j {}) =
      mayFillIn (source.fields.getD j {}) (request.fields.getD j {}) := by
    intro j
    have hfield : request.unmarked.fields.getD j {} = (request.fields.getD j {}).unmarked := by
      rw [Message.unmarked, List.getD_eq_getElem?_getD, List.getElem?_map,
        List.getD_eq_getElem?_getD]
      cases request.fields[j]? <;> rfl
    rw [hfield]
    rfl
  have hname : (request.unmarked.fields.findIdx? fun y => y.name == name) =
      request.fields.findIdx? fun y => y.name == name := by
    rw [Message.unmarked, List.findIdx?_map]
    rfl
  simp only [choice?, hname, hfillable]

/-- The fields that clients fill in are those that are found for the configured names. -/
theorem autoPopulated_eq (context : ServiceContext) (m : Model) (methodId inputTypeId : String) :
    context.autoPopulated m methodId inputTypeId =
      match lastMessageRef? m inputTypeId, context.messagesById.get? inputTypeId with
      | some r, some source =>
          ((context.config.getD {}).autoPopulatedFields methodId).filterMap fun name =>
          (choice? source (m.message r) name).map (FieldRef.mk r)
      | _, _ => [] := by
  unfold ServiceContext.autoPopulated
  dsimp only
  cases lastMessageRef? m inputTypeId with
  | none => rfl
  | some r =>
    cases context.messagesById.get? inputTypeId with
    | none => rfl
    | some source =>
      dsimp only
      rw [List.filter_filterMap, List.map_filterMap]
      rfl

/-- Whether the fields that a method fills in are those that are configured for it, in this order:
one for each name for which the request has one. -/
def FillsInConfigured (set : FileSet) (config : Option ServiceConfig) (k : Model)
    (x : ApiModel.Method) : Prop :=
  ∃ names, (config.getD {}).Configures x.id names ∧
    (set.Lacks k x.inputTypeId ∧ x.autoPopulated = [] ∨
      ∃ d r request choices, set.Defines k x.inputTypeId d r ∧
        messageArena.find? k r = some request ∧
        List.Forall₂ (fun name choice => ∀ j, choice = some j ↔
          FillsIn d.source request name j) names choices ∧
        x.autoPopulated = choices.filterMap (Option.map (FieldRef.mk r)))

/-- A method that fills in what the model has for its configuration fills in what is configured. -/
theorem fillsInConfigured_of_eq {set : FileSet} {config : Option ServiceConfig}
    {x : ApiModel.Method}
    (hall : List.Forall₂ (fun d (x : ApiModel.Message) => d.ConvertsTo x.unmarked.detached)
      set.preorder
      k.store.messages.toList)
    (h : x.autoPopulated = ServiceContext.autoPopulated ⟨config, set.messagesById⟩ k x.id
      x.inputTypeId) :
    FillsInConfigured set config k x := by
  refine ⟨_, (config.getD {}).configures_autoPopulatedFields x.id, ?_⟩
  rw [autoPopulated_eq] at h
  obtain ⟨d, r, hd⟩ | hlacks := defines_or_lacks hall x.inputTypeId
  · obtain ⟨request, hrequest, hconverts, hyields⟩ := hd.message
    have hfound : k.message r = request := messageArena.get_of_find? hrequest
    rw [hd.ref, hd.source] at h
    dsimp only at h
    rw [hfound] at h
    refine .inr ⟨d, r, request,
      ((config.getD {}).autoPopulatedFields x.id).map (choice? d.source request), hd,
      hrequest, ?_, ?_⟩
    · exact List.forall₂_map_right_iff.2
        (List.forall₂_same.2 fun name _ j => choice?_eq_some_iff hyields)
    · rw [List.filterMap_map]
      exact h
  · rw [hlacks.ref] at h
    exact .inl ⟨hlacks, h⟩

/-! ## Marks -/

/-- What a method fills in depends on the messages but for their marks. -/
theorem autoPopulated_congr {context : ServiceContext} (h : unmarkedMessages k = unmarkedMessages m)
    (methodId inputTypeId : String) :
    context.autoPopulated k methodId inputTypeId =
      context.autoPopulated m methodId inputTypeId := by
  have hsize : k.store.messages.size = m.store.messages.size := by
    have hlength := congrArg List.length h
    rwa [unmarkedMessages, unmarkedMessages, List.length_map, List.length_map, Array.length_toList,
      Array.length_toList] at hlength
  have hmessage : ∀ r, (k.message r).unmarked = (m.message r).unmarked := by
    intro r
    have hat := congrArg (fun xs => xs[r.index]?) h
    simp only [unmarkedMessages, List.getElem?_map, Array.getElem?_toList] at hat
    change (messageArena.get k r).unmarked = (messageArena.get m r).unmarked
    rw [messageArena.get_eq, messageArena.get_eq, ← Option.getD_map Message.unmarked,
      ← Option.getD_map Message.unmarked]
    exact congrArg (Option.getD · _) hat
  have hlast : lastMessageRef? k inputTypeId = lastMessageRef? m inputTypeId := by
    have hid : ∀ r, (k.message r).id = (m.message r).id :=
      fun r => (congrArg ApiModel.Message.id (hmessage r) :)
    simp only [lastMessageRef?, hsize, hid]
  have hchoice : ∀ r source name, choice? source (k.message r) name =
      choice? source (m.message r) name := by
    intro r source name
    rw [← choice?_unmarked, hmessage, choice?_unmarked]
  simp only [autoPopulated_eq, hlast, hchoice]

/-- The field at a place. -/
def field? (m : Model) (ref : FieldRef) : Option ApiModel.Field :=
  (messageArena.find? m ref.message).bind fun x => x.fields[ref.index]?

/-- Marking a field marks it and no other. -/
theorem field?_markAutoPopulated (m : Model) (ref other : FieldRef) :
    field? (markAutoPopulated m ref) other =
      (field? m other).map fun y => if other = ref then { y with autoPopulated := true }
        else y := by
  rw [field?, markAutoPopulated, find?_modifyMessage, field?]
  cases messageArena.find? m other.message with
  | none => rfl
  | some x =>
    change (if other.message = ref.message then _ else x).fields[other.index]? =
      x.fields[other.index]?.map _
    by_cases hmessage : other.message = ref.message
    · have hother : ref.index = other.index ↔ other = ref := by
        obtain ⟨r, i⟩ := ref
        obtain ⟨s, j⟩ := other
        obtain rfl : s = r := hmessage
        exact ⟨fun h => congrArg _ h.symm, fun h => (congrArg FieldRef.index h).symm⟩
      rw [if_pos hmessage, List.getElem?_modify]
      simp only [hother]
      rfl
    · have hother : other ≠ ref := fun h => hmessage (congrArg FieldRef.message h)
      rw [if_neg hmessage]
      simp only [if_neg hother, Option.map_id']

/-- Marking fields marks them and no others. -/
theorem field?_markAllAutoPopulated (m : Model) (refs : List FieldRef) (other : FieldRef) :
    field? (refs.foldl markAutoPopulated m) other =
      (field? m other).map fun y => if other ∈ refs then { y with autoPopulated := true }
        else y := by
  induction refs generalizing m with
  | nil => simp
  | cons ref rest ih =>
    rw [List.foldl_cons, ih, field?_markAutoPopulated, Option.map_map]
    refine Option.map_congr fun y _ => ?_
    by_cases hother : other = ref <;> by_cases hrest : other ∈ rest <;> simp [hother, hrest]

/-- Whether the fields of a model are marked exactly if some method lists them. -/
def MarksListed (m : Model) : Prop :=
  ∀ ref y, field? m ref = some y →
    (y.autoPopulated = true ↔ ∃ x ∈ m.store.methods, ref ∈ x.autoPopulated)

/-- Whether the methods of a model fill in what it has for their configuration, and this is
marked. -/
structure Filled (context : ServiceContext) (m : Model) : Prop where
  /-- Every method lists what the model has for its configuration. -/
  listed : ∀ x ∈ m.store.methods, x.autoPopulated = context.autoPopulated m x.id x.inputTypeId
  /-- What is listed is marked. -/
  marks : MarksListed m

/-- A converted method fills in what the model has for its configuration. -/
theorem autoPopulated_convert {context : ServiceContext} {package serviceId documentation : String}
    {method : Method} {x : ApiModel.Method}
    (h : method.convert context m package serviceId documentation = .ok x) :
    x.autoPopulated = context.autoPopulated m x.id x.inputTypeId := by
  obtain ⟨pathInfo, -, h⟩ := Attempt.bind_eq_ok.1 h
  obtain ⟨routing, -, h⟩ := Attempt.bind_eq_ok.1 h
  obtain rfl := Except.ok.inj h
  rfl

/-- Adding methods and services keeps the methods filled in and marked. -/
theorem keptByServices_filled (context : ServiceContext) :
    KeptByServices context (Filled context) where
  method {m _ _ _ _ x} hx hm := by
    have hmethods : ((x.autoPopulated.foldl markAutoPopulated m).addMethod x).model.store.methods =
        m.store.methods.push x := by
      rw [← methods_markAllAutoPopulated m x.autoPopulated]
      rfl
    have hcongr : ∀ methodId inputTypeId,
        context.autoPopulated (x.autoPopulated.foldl markAutoPopulated m) methodId inputTypeId =
          context.autoPopulated m methodId inputTypeId :=
      autoPopulated_congr (unmarkedMessages_markAllAutoPopulated m x.autoPopulated)
    constructor
    · intro y hy
      rw [hmethods, Array.mem_push] at hy
      refine Eq.trans ?_ (hcongr y.id y.inputTypeId).symm
      rcases hy with hy | rfl
      · exact hm.listed y hy
      · exact autoPopulated_convert hx
    · intro ref y hy
      have hfield : field? (x.autoPopulated.foldl markAutoPopulated m) ref = some y := hy
      rw [field?_markAllAutoPopulated] at hfield
      obtain ⟨z, hz, rfl⟩ := Option.map_eq_some_iff.1 hfield
      have hbefore := hm.marks ref z hz
      rw [hmethods]
      by_cases hlisted : ref ∈ x.autoPopulated
      · rw [if_pos hlisted]
        exact iff_of_true rfl ⟨x, Array.mem_push_self, hlisted⟩
      · rw [if_neg hlisted, hbefore]
        constructor
        · exact fun ⟨y, hy, href⟩ => ⟨y, Array.mem_push_of_mem _ hy, href⟩
        · rintro ⟨y, hy, href⟩
          rcases Array.mem_push.1 hy with hy | rfl
          · exact ⟨y, hy, href⟩
          · exact absurd href hlisted
  service _ _ hm := ⟨hm.listed, hm.marks⟩

/-- Adding the well-known types gives no new field. -/
theorem field?_register {ref : FieldRef} {y : ApiModel.Field}
    (h : field? (WellKnown.register k) ref = some y) :
    field? k ref = some y := by
  obtain ⟨x, hx, hfield⟩ := Option.bind_eq_some_iff.1 h
  rcases (WellKnown.supplies_register k).found _ x hx with hold | ⟨-, ⟨name, rfl⟩, -⟩
  · exact Option.bind_eq_some_iff.2 ⟨x, hold, hfield⟩
  · cases hfield

/-- A model without methods, none of whose fields is marked, has every method filled in. -/
theorem filled_of_unmarked {context : ServiceContext} {types : Model}
    (hmethods : types.store.methods = #[]) (hmarks : ∀ x ∈ types.store.messages,
      ∀ f ∈ x.fields, f.autoPopulated = false) : Filled context types := by
  constructor
  · intro x hx
    rw [hmethods] at hx
    exact absurd hx (Array.not_mem_empty x)
  · intro ref y hy
    obtain ⟨x, hx, hfield⟩ := Option.bind_eq_some_iff.1 hy
    rw [hmarks x (Array.mem_of_getElem? hx) y (List.mem_of_getElem? hfield), hmethods]
    simp

/-- In the model of a set, the place that is found under a full name is that of the message
converted from the descriptor that is found under it. So every method fills in the configured fields
of its request that allow it, in the order of the configuration, and a field is marked exactly if
some method fills it in. -/
theorem autoPopulated_exact {set : FileSet} {config : Option ServiceConfig} {included : List String}
    (h : set.model config included = .ok m) :
    ∃ k, m = WellKnown.register k ∧
      (∀ id, (∃ d r, set.Defines k id d r) ∨ set.Lacks k id) ∧
      (∀ x ∈ m.store.methods, FillsInConfigured set config k x) ∧ MarksListed m := by
  obtain ⟨k, hk, hfilled, hall⟩ :=
    (keptByServices_filled _).exists_model
      (fun types hmethods hmarks => filled_of_unmarked hmethods hmarks) h
  have hmethods : m.store.methods = k.store.methods := hk ▸ WellKnown.methods_register k
  refine ⟨k, hk, defines_or_lacks hall, fun x hx => ?_, fun ref y hy => ?_⟩
  · rw [hmethods] at hx
    exact fillsInConfigured_of_eq hall (hfilled.listed x hx)
  · rw [hmethods]
    exact hfilled.marks ref y (field?_register (hk ▸ hy))

/-- A set that declares two requests of one name, of which the second has a unique identifier. -/
def tokenSet : FileSet :=
  { files := [
    { package := some "shop"
      messages := [
        .mk (some "Order") [{ name := some "id", type := some 9 }] [] [] none [],
        .mk (some "Order")
          [{ name := some "id", type := some 9 },
            { name := some "token"
              type := some 9
              options := some { fieldInfo := some { format := FieldInfo.uuid4 } } }]
          [] [] none []]
      services := [
        { name := some "Shop"
          methods := [
            { name := some "Buy", inputType := some ".shop.Order",
              outputType := some ".shop.Order" }] }] }] }

/-- A configuration that names both fields of the second request and one that is missing. -/
def tokenConfig : ServiceConfig :=
  { publishing := { methodSettings := [
      { selector := "shop.Shop.Buy", autoPopulatedFields := ["id", "missing", "token"] }] } }

/-- The method of the set with a token fills in the identifier of the second request only. -/
theorem autoPopulated_exact_token :
    ∃ m k, tokenSet.model (some tokenConfig) [] = .ok m ∧
      m.store.methods.toList.map ApiModel.Method.autoPopulated = [[⟨⟨1⟩, 1⟩]] ∧
      m = WellKnown.register k ∧
      (∀ id, (∃ d r, tokenSet.Defines k id d r) ∨ tokenSet.Lacks k id) ∧
      (∀ x ∈ m.store.methods, FillsInConfigured tokenSet (some tokenConfig) k x) ∧
      MarksListed m := by
  have hread : (tokenSet.model (some tokenConfig) []).toOption.any
      (fun m => m.store.methods.toList.map ApiModel.Method.autoPopulated == [[⟨⟨1⟩, 1⟩]]) =
        true := by
    decide +kernel
  obtain ⟨m, hm, hlisted⟩ := Attempt.exists_ok_of_any hread
  obtain ⟨k, hk, hdefines, hmethods, hmarks⟩ := autoPopulated_exact hm
  exact ⟨m, k, hm, beq_iff_eq.1 hlisted, hk, hdefines, hmethods, hmarks⟩

end Descriptor

end ApiModel
