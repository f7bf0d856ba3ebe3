import ApiModel.Proofs.Graph.DescriptorSets
import ApiModel.Proofs.Index

/-!
# Where the fields of a request go

A binding sends a field of the request in its path, in its body, or else in the query. Each binding
of a rule has a body of its own, and the query is what its path and this body leave. The model of a
method keeps one body for all bindings, that of the rule itself, so against the kept body the query
is right exactly if the two bodies cover the same of the fields that the path leaves.
-/

namespace ApiModel

/-! ## Paths, bodies and queries -/

/-- Whether the path of a binding has a variable that begins with a field. -/
def PathBinding.Binds (b : PathBinding) (name : String) : Prop :=
  ∃ v ∈ b.pathTemplate.variableList, v.fieldPath.head? = some name

/-- Whether a body covers a field: a star covers every field, and a name the field of that name. -/
def Covers (body name : String) : Prop :=
  body = "*" ∨ name = body

/-- Whether the query of a binding has exactly the fields that neither its path binds nor a body
covers. -/
def PathBinding.SendsRest (b : PathBinding) (fields : List String) (body : String) : Prop :=
  ∀ name, name ∈ b.queryParameters ↔ name ∈ fields ∧ ¬ b.Binds name ∧
    ¬ Covers body name

/-- What one body leaves is what another leaves if and only if they cover the same of what the path
leaves. -/
theorem PathBinding.SendsRest.iff_covers {b : PathBinding} {fields : List String}
    {body other : String} (h : b.SendsRest fields body) :
    b.SendsRest fields other ↔
      ∀ name ∈ fields, ¬ b.Binds name → (Covers body name ↔ Covers other name) := by
  constructor
  · intro hother name hfield hfree
    have hbody : name ∈ b.queryParameters ↔ ¬ Covers body name := by
      simpa [hfield, hfree] using h name
    have hrest : name ∈ b.queryParameters ↔ ¬ Covers other name := by
      simpa [hfield, hfree] using hother name
    exact not_iff_not.1 (hbody.symm.trans hrest)
  · intro hsame name
    rw [h name]
    exact and_congr_right fun hfield => and_congr_right fun hfree =>
      not_congr (hsame name hfield hfree)

namespace Descriptor

open Model

variable {m k other : Model}

/-! ## Rules -/

/-- What a binding of a rule is made into, for the fields of a request and the body that is kept. -/
structure Binding.MadeInto (fields : List String) (kept : String) (b : Binding)
    (made : PathBinding) :
    Prop where
  /-- The verb stays. -/
  verb : made.verb = b.verb
  /-- The path is read. -/
  path : Path.Template.parse b.path = .ok made.pathTemplate
  /-- The query has what the path and the body of the binding leave. -/
  own : made.SendsRest fields b.body
  /-- Whether it has what the path and the kept body leave depends on the fields that the path
  leaves. -/
  kept : made.SendsRest fields kept ↔
    ∀ name ∈ fields, ¬ made.Binds name → (Covers b.body name ↔ Covers kept name)

/-- What the bindings of a rule are made into, for the fields of a request. -/
structure HttpRule.MadeInto (fields : List String) (rule : HttpRule) (info : PathInfo) : Prop where
  /-- The body of the rule is kept. -/
  body : info.bodyFieldPath = rule.body
  /-- Every binding is made, the own one first, against the kept body. -/
  bindings : List.Forall₂ (Binding.MadeInto fields info.bodyFieldPath) rule.bindings info.bindings

/-- If all bindings of a rule have its body, every query has what the path and the kept body
leave. -/
theorem HttpRule.MadeInto.sendsRest {fields : List String} {rule : HttpRule} {info : PathInfo}
    (h : rule.MadeInto fields info) (hbodies : ∀ b ∈ rule.bindings, b.body = rule.body) :
    ∀ made ∈ info.bindings, made.SendsRest fields info.bodyFieldPath := by
  intro made hmade
  obtain ⟨i, hi, rfl⟩ := List.mem_iff_getElem.1 hmade
  have hrule : i < rule.bindings.length := by
    rwa [h.bindings.length_eq]
  have hbinding := h.bindings.get hrule hi
  have hbody : (rule.bindings.get ⟨i, hrule⟩).body = info.bodyFieldPath := by
    rw [hbodies _ (List.get_mem _ _), h.body]
  exact hbody ▸ hbinding.own

/-- The query of a converted binding has what its path and its body leave. -/
theorem sendsRest_convert {fields : List String} {b : Binding} {made : PathBinding}
    (h : b.convert fields = .ok made) : made.SendsRest fields b.body := by
  obtain ⟨template, -, h⟩ := Attempt.bind_eq_ok.1 h
  obtain rfl := Except.ok.inj h
  intro name
  rw [mem_sortedTexts]
  by_cases hstar : b.body = "*"
  · simp [hstar, Covers]
  · simp [hstar, Covers, PathBinding.Binds, and_comm]

/-- A converted binding is made from the binding, whichever body is kept. -/
theorem madeInto_convert {fields : List String} (kept : String) {b : Binding} {made : PathBinding}
    (h : b.convert fields = .ok made) : b.MadeInto fields kept made := by
  have hown := sendsRest_convert h
  obtain ⟨template, htemplate, h⟩ := Attempt.bind_eq_ok.1 h
  obtain rfl := Except.ok.inj h
  exact ⟨rfl, htemplate, hown, hown.iff_covers⟩

/-- The bindings of a method are made from those of its rule. -/
theorem madeInto_pathInfo {fields : List String} {rule : HttpRule} {info : PathInfo}
    (h : rule.pathInfo fields = .ok info) : rule.MadeInto fields info := by
  obtain ⟨bindings, hbindings, h⟩ := Attempt.bind_eq_ok.1 h
  obtain rfl := Except.ok.inj h
  exact ⟨rfl, (Attempt.mapM_eq_ok.1 hbindings).imp fun b made hb =>
    madeInto_convert rule.body hb⟩

/-! ## Requests -/

mutual

/-- The messages that a message declares with their full names: those nested in it, then itself. -/
def Message.declarations (scope : String) : Message → List (String × Message)
  | .mk name fields messages enums options oneofs =>
    let id := scope ++ "." ++ name.getD ""
    Message.allDeclarations id messages ++ [(id, .mk name fields messages enums options oneofs)]

/-- The messages that messages declare, in order. -/
def Message.allDeclarations (scope : String) : List Message → List (String × Message)
  | [] => []
  | message :: rest => message.declarations scope ++ Message.allDeclarations scope rest

end

/-- The messages that a set declares with their full names, file by file. -/
def FileSet.declarations (set : FileSet) : List (String × Message) :=
  set.files.flatMap fun file => Message.allDeclarations (scopeOf file.packageName) file.messages

/-- The message that a set defines under a full name: the last one that it declares under it. -/
def FileSet.message? (set : FileSet) (id : String) : Option Message :=
  set.declarations.reverse.lookup id

/-- Declarations are noted one by one, so that a later one of the same name replaces an earlier
one. -/
def noteDeclarations (found : Index Message) (declarations : List (String × Message)) :
    Index Message :=
  declarations.foldl (fun found d => found.insert d.1 d.2) found

/-- Declarations in a row are noted in turn. -/
theorem noteDeclarations_append (found : Index Message) (first later : List (String × Message)) :
    noteDeclarations found (first ++ later) = noteDeclarations
      (noteDeclarations found first) later :=
  List.foldl_append

mutual

/-- A message is noted with all that it declares. -/
theorem note_eq (scope : String) (found : Index Message) (message : Message) :
    message.note scope found = noteDeclarations found (message.declarations scope) := by
  match message with
  | .mk name fields messages enums options oneofs =>
    rw [Message.note, noteAll_eq, Message.declarations, noteDeclarations_append]
    rfl

/-- Messages are noted with all that they declare. -/
theorem noteAll_eq (scope : String) (found : Index Message) (messages : List Message) :
    Message.noteAll scope found messages =
      noteDeclarations found (Message.allDeclarations scope messages) := by
  match messages with
  | [] => rfl
  | message :: rest =>
    rw [Message.noteAll, note_eq, noteAll_eq, Message.allDeclarations, noteDeclarations_append]

end

/-- Under a full name stands the message that the set defines under it. -/
theorem get?_messagesById (set : FileSet) (id : String) :
    set.messagesById.get? id = set.message? id := by
  have hnoted : set.messagesById = noteDeclarations Index.empty set.declarations := by
    unfold FileSet.messagesById FileSet.declarations
    simp only [noteAll_eq]
    rw [noteDeclarations, List.foldl_flatMap]
    rfl
  rw [hnoted, noteDeclarations, Index.get?_foldl_insert, Index.get?_empty, Option.or_none]
  rfl

/-- The names of the fields of a message. -/
def Message.fieldNames (message : Message) : List String :=
  message.fields.map fun f => f.name.getD ""

/-- The fields of a request are those of the message that the set defines. -/
theorem requestFields_eq {set : FileSet} {config : Option ServiceConfig} {id : String}
    {request : Message} (h : set.message? id = some request) :
    ServiceContext.requestFields ⟨config, set.messagesById⟩ id = request.fieldNames := by
  unfold ServiceContext.requestFields
  rw [get?_messagesById, h]
  rfl

/-! ## Methods -/

/-- Whether a method of a model was made from one of the set, at some moment of the reading. -/
def Method.Becomes (context : ServiceContext) (source : Method) (x : ApiModel.Method) : Prop :=
  ∃ m package serviceId documentation,
    source.convert context m package serviceId documentation = .ok x

/-- Whether a model has, behind the methods of an earlier one, those made from some methods of the
set. -/
def AddsMethods (context : ServiceContext) (sources : List Method) (m other : Model) : Prop :=
  ∃ made, other.store.methods.toList = m.store.methods.toList ++ made ∧
    List.Forall₂ (Method.Becomes context) sources made

namespace AddsMethods

variable {context : ServiceContext}

/-- A model whose methods are kept adds none. -/
theorem nil (h : other.store.methods = m.store.methods) : AddsMethods context [] m other :=
  ⟨[], by rw [h, List.append_nil], .nil⟩

/-- Methods that are added in two runs are added by both together. -/
theorem append {first later : List Method} (h : AddsMethods context first m k)
    (h' : AddsMethods context later k other) : AddsMethods context (first ++ later) m other := by
  obtain ⟨made, hmade, hfirst⟩ := h
  obtain ⟨rest, hrest, hlater⟩ := h'
  exact ⟨made ++ rest, by rw [hrest, hmade, List.append_assoc], List.rel_append hfirst hlater⟩

/-- What every step of a sequence adds is added by the sequence. -/
theorem foldlM {α : Type} {step : Model → α → Except Error Model}
    {sources : α → List Method} {xs : List α} (h : xs.foldlM step m = .ok other)
    (hstep : ∀ m x k, step m x = .ok k → AddsMethods context (sources x) m k) :
    AddsMethods context (xs.flatMap sources) m other := by
  induction xs generalizing m with
  | nil =>
    obtain rfl := Except.ok.inj h
    exact .nil rfl
  | cons x rest ih =>
    rw [List.foldlM_cons] at h
    obtain ⟨k, hk, hrest⟩ := Attempt.bind_eq_ok.1 h
    exact (hstep m x k hk).append (ih hrest)

end AddsMethods

/-- Marking the fields that clients fill in keeps the methods. -/
theorem methods_markAllAutoPopulated (m : Model) (fields : List FieldRef) :
    (fields.foldl markAutoPopulated m).store.methods = m.store.methods := by
  induction fields generalizing m with
  | nil => rfl
  | cons f rest ih => exact ih (markAutoPopulated m f)

/-- Adding methods adds what they become. -/
theorem addsMethods_addMethods {context : ServiceContext} {package serviceId : String}
    {comments : Comments} {placeOf : Nat → Place} {position : Nat} {methods : List Method}
    {added : AddedAll MethodRef}
    (h : addMethods context package serviceId comments placeOf position m methods = .ok added) :
    AddsMethods context methods m added.model := by
  induction methods generalizing m position added with
  | nil =>
    obtain rfl := Except.ok.inj h
    exact .nil rfl
  | cons method rest ih =>
    rw [addMethods] at h
    obtain ⟨x, hx, h⟩ := Attempt.bind_eq_ok.1 h
    obtain ⟨others, hothers, h⟩ := Attempt.bind_eq_ok.1 h
    obtain rfl := Except.ok.inj h
    have hmethods := methods_markAllAutoPopulated m x.autoPopulated
    have hfirst : AddsMethods context [method] m
        ((x.autoPopulated.foldl markAutoPopulated m).addMethod x).model := by
      refine ⟨[x], ?_, .cons ⟨m, package, serviceId, _, hx⟩ .nil⟩
      change ((x.autoPopulated.foldl markAutoPopulated m).store.methods.push x).toList = _
      rw [hmethods, Array.toList_push]
    have hlater : AddsMethods context rest _ others.model := ih hothers
    exact hfirst.append hlater

/-- Adding a service adds what its methods become. -/
theorem addsMethods_addService {context : ServiceContext} {package : String} {comments : Comments}
    {entry : Service × Nat} (h : addService context package comments m entry = .ok other) :
    AddsMethods context entry.1.methods m other := by
  obtain ⟨methods, hmethods, h⟩ := Attempt.bind_eq_ok.1 h
  obtain rfl := Except.ok.inj h
  exact addsMethods_addMethods hmethods

/-- Adding the services of a file adds what their methods become. -/
theorem addsMethods_addServices {context : ServiceContext} {file : File}
    (h : addServices context m file = .ok other) :
    AddsMethods context (file.services.flatMap Service.methods) m other := by
  have hall :
      AddsMethods context (file.services.zipIdx.flatMap fun entry => entry.1.methods) m other :=
    .foldlM h fun _ _ _ => addsMethods_addService
  rwa [← List.flatMap_map Prod.fst, List.zipIdx_map_fst] at hall

/-- The methods of the selected files of a set, in order. -/
def FileSet.methods (set : FileSet) (included : List String) : List Method :=
  (set.files.filter (set.selects included)).flatMap fun file =>
    file.services.flatMap Service.methods

/-- The methods of the model of a set are what those of the selected files become, in order. -/
theorem becomes_model {set : FileSet} {config : Option ServiceConfig} {included : List String}
    (h : set.model config included = .ok m) :
    List.Forall₂ (Method.Becomes ⟨config, set.messagesById⟩) (set.methods included)
      m.store.methods.toList := by
  obtain ⟨types, htypes, h⟩ := Attempt.bind_eq_ok.1 h
  obtain ⟨services, hservices, h⟩ := Attempt.bind_eq_ok.1 h
  obtain rfl := Except.ok.inj h
  have hempty : Built (· < ·) types ∧ types.store.methods = #[] := by
    refine Attempt.foldlM_keeps (P := fun m => Built (· < ·) m ∧ m.store.methods = #[])
      (fun m file k hm hk => ?_) ?_ htypes
    · obtain ⟨hbuilt, hmethods⟩ := of_addTypes hm.1 hk
      exact ⟨hbuilt, hmethods.trans hm.2⟩
    · exact ⟨.of_empty rfl rfl rfl rfl rfl rfl, rfl⟩
  have hadded : AddsMethods ⟨config, set.messagesById⟩ (set.methods included) types services :=
    .foldlM hservices fun _ _ _ => addsMethods_addServices
  obtain ⟨made, hmade, hbecomes⟩ := hadded
  rw [WellKnown.methods_register, hmade, hempty.2]
  exact hbecomes

/-- Every method of the model of a set whose source has an HTTP rule and a request that the set
defines has the bindings of the rule, made for the fields of the request. -/
theorem madeInto_model {set : FileSet} {config : Option ServiceConfig} {included : List String}
    (h : set.model config included = .ok m) :
    List.Forall₂
      (fun source x => ∀ rule request, (source.options.getD {}).http = some rule →
        set.message? (source.inputType.getD "") = some request →
        ∃ info, x.pathInfo = some info ∧ rule.MadeInto request.fieldNames info)
      (set.methods included) m.store.methods.toList := by
  refine (becomes_model h).imp fun source x hx rule request hrule hrequest => ?_
  -- The model, the scope and the comments at the moment of the reading do not matter for the
  -- bindings.
  obtain ⟨_, _, _, _, hx⟩ := hx
  obtain ⟨found, hfound, hx⟩ := Attempt.bind_eq_ok.1 hx
  obtain ⟨routing, -, hx⟩ := Attempt.bind_eq_ok.1 hx
  obtain rfl := Except.ok.inj hx
  rw [hrule, requestFields_eq hrequest] at hfound
  obtain ⟨info, hinfo, hfound⟩ := Attempt.bind_eq_ok.1 hfound
  obtain rfl := Except.ok.inj hfound
  exact ⟨info, rfl, madeInto_pathInfo hinfo⟩

/-- A rule that sends the whole request as the body, and in a further binding what a given body
covers. -/
def findRule (body : String) : HttpRule :=
  .mk "" (some (.post "/v1/find")) "*" [.mk "" (some (.get "/v1/find")) body [] ""] ""

/-- A request with one field. -/
def findRequest : Message :=
  .mk (some "Query") [{ name := some "id", type := some 9 }] [] [] none []

/-- A set with the request message and one method, whose further binding has a given body. -/
def findSet (body : String) : FileSet :=
  { files := [
    { package := some "shop"
      messages := [findRequest]
      services := [
        { name := some "Shop"
          methods := [
            { name := some "Find"
              inputType := some ".shop.Query"
              outputType := some ".shop.Query"
              options := some { http := some (findRule body) } }] }] }] }

/-- If the bodies of the bindings agree, the queries have what the paths and the kept body leave. -/
theorem madeInto_model_find :
    ∃ m x info, (findSet "*").model none [] = .ok m ∧ m.store.methods.toList = [x] ∧
      x.pathInfo = some info ∧ (findRule "*").MadeInto ["id"] info ∧
      ∀ made ∈ info.bindings, made.SendsRest ["id"] info.bodyFieldPath := by
  have hread : ((findSet "*").model none []).toOption.isSome = true := by
    decide +kernel
  cases hm : (findSet "*").model none [] with
  | error e =>
    rw [hm] at hread
    cases hread
  | ok m =>
    obtain ⟨x, rest, hx, hrest, hmethods⟩ := List.forall₂_cons_left_iff.1 (madeInto_model hm)
    obtain rfl := List.forall₂_nil_left_iff.1 hrest
    obtain ⟨info, hinfo, hmade⟩ := hx (findRule "*") findRequest rfl rfl
    exact ⟨m, x, info, rfl, hmethods, hinfo, hmade, hmade.sendsRest (by decide)⟩

/-- If the further binding has no body, its query has the field that the kept body covers. -/
theorem not_sendsRest_model_find :
    ∃ m x info made, (findSet "").model none [] = .ok m ∧ x ∈ m.store.methods.toList ∧
      (findSet "").message? x.inputTypeId = some findRequest ∧ x.pathInfo = some info ∧
      made ∈ info.bindings ∧ ¬ made.SendsRest findRequest.fieldNames info.bodyFieldPath := by
  have hread : ((findSet "").model none []).toOption.map
    (fun m => m.store.methods.toList.map fun x =>
      (x.inputTypeId, x.pathInfo)) = some [(".shop.Query", some
        { bindings := [⟨"POST", ⟨[.literal "v1", .literal "find"], none⟩, []⟩,
            ⟨"GET", ⟨[.literal "v1", .literal "find"], none⟩, ["id"]⟩]
          bodyFieldPath := "*" })] := by
    decide +kernel
  cases hm : (findSet "").model none [] with
  | error e =>
    rw [hm] at hread
    cases hread
  | ok m =>
    rw [hm] at hread
    obtain ⟨x, hx, hpair⟩ := List.map_eq_singleton_iff.1 (Option.some.inj hread)
    obtain ⟨hinput, hinfo⟩ := Prod.mk.inj hpair
    have hrequest : (findSet "").message? x.inputTypeId = some findRequest := by
      rw [hinput]
      rfl
    refine ⟨m, x, _, _, rfl, hx ▸ List.mem_cons_self, hrequest, hinfo,
      List.mem_cons_of_mem _ List.mem_cons_self, fun hrest => ?_⟩
    have hcovered : ¬ Covers "*" "id" := ((hrest "id").1 List.mem_cons_self).2.2
    exact hcovered (.inl rfl)

end Descriptor

end ApiModel
