import ApiModel.Proofs.OpenApi.Requests

/-!
# Parameters of calls

The request message of a call has a field for every path and query parameter, those of the path
before those of the operation, and then one for the body. Nothing is replaced and no name is
checked, and whether there is a body is told by the name of its field. So a request is unambiguous
if and only if no two of these parameters have one name and none has the name of the body field.
-/

namespace ApiModel.OpenApi

open Model

/-- The parameters of a call that its request message takes: those of the path and of the query. -/
def Call.taken (c : Call) : List Parameter :=
  c.parameters.filter fun p => p.location == "path" || p.location == "query"

/-- The names of the parameters that the request message of a call takes. -/
def Call.takenNames (c : Call) : List String :=
  c.taken.map Parameter.name

/-- The names of the query parameters of a call. -/
def Call.queryNames (c : Call) : List String :=
  (c.parameters.filter fun p => p.location == "query").map Parameter.name

/-- What the parameters and the body of a call are made into. -/
structure Call.Gathered (c : Call) (x : MadeMethod) : Prop where
  /-- The fields of the request: the parameters in order, then the body. -/
  fields : x.request.fields.map Field.name =
    c.takenNames ++ c.operation.requestBody.toList.map fun _ => bodyFieldName
  /-- The method has one binding, whose query has the names of the query parameters, and its body is
  the field of the body, if a field has its name. -/
  path : ∃ template, x.method.pathInfo = some
    { bindings := [⟨c.verb, template, sortedTexts c.queryNames⟩]
      bodyFieldPath := if c.operation.requestBody.isSome ∨
        bodyFieldName ∈ c.takenNames then bodyFieldName
        else "" }

/-- Whether the request of a call has one field for every parameter name and one for the body, if
there is a body, and the method tells which is which. -/
structure Call.Unambiguous (c : Call) (x : MadeMethod) : Prop where
  /-- No two fields have one name. -/
  distinct : (x.request.fields.map Field.name).Nodup
  /-- The fields have the names of the parameters and, if there is a body, of the body field. -/
  names : ∀ name, name ∈ x.request.fields.map Field.name ↔
    name ∈ c.takenNames ∨ (c.operation.requestBody.isSome ∧ name = bodyFieldName)
  /-- The method has a body if and only if the operation has one. -/
  body : ∃ info, x.method.pathInfo = some info ∧
    (info.bodyFieldPath = bodyFieldName ↔ c.operation.requestBody.isSome)
  /-- Every name in a query is one of a field that is not the body. -/
  query : ∀ info ∈ x.method.pathInfo, ∀ binding ∈ info.bindings,
    ∀ name ∈ binding.queryParameters,
    name ∈ x.request.fields.map Field.name ∧
      (info.bodyFieldPath ≠ "" → name ≠ info.bodyFieldPath)

variable {package serviceId messageId methodId methodName name : String} {c : Call} {x : MadeMethod}

/-! ## Making fields -/

/-- Noting whether a field is required keeps its name. -/
theorem name_withPresence (required : Bool) (f : Field) :
    (withPresence required f).name = f.name := by
  unfold withPresence
  split
  · rfl
  · rfl

/-- The field of a schema has the name of its property. -/
theorem name_makeField {schema : Schema} {made : MadeField}
    (h : makeField package messageId name schema = .ok made) : made.field.name = name := by
  cases makes_makeField h with
  | single => rfl
  | list => rfl
  | map => rfl

/-- The request field of a parameter has the name of the parameter. -/
theorem name_parameterField {p : Parameter} {f : Field}
    (h : parameterField package messageId p = .ok f) : f.name = p.name := by
  obtain ⟨made, documentation, hmade, -, rfl⟩ := of_parameterField h
  rw [name_withPresence]
  exact name_makeField hmade

/-- The request field of a body has a fixed name. -/
theorem name_bodyField {body : RequestBody} {f : Field}
    (h : bodyField package methodId messageId body = .ok f) : f.name = bodyFieldName := by
  obtain ⟨media, target, -, -, -, rfl⟩ := of_bodyField h
  exact name_withPresence _ _

/-- The fields of a request have the names of the parameters that it takes and then that of the
body. -/
theorem fieldNames_requestMessage {request : Message}
    (h : requestMessage package methodId methodName c = .ok request) :
    request.fields.map Field.name =
      c.takenNames ++ c.operation.requestBody.toList.map fun _ => bodyFieldName := by
  unfold requestMessage at h
  obtain ⟨parameters, hparameters, h⟩ := Attempt.bind_eq_ok.1 h
  obtain ⟨body, hbody, h⟩ := Attempt.bind_eq_ok.1 h
  obtain rfl := Except.ok.inj h
  have hfirst : c.taken.map Parameter.name = parameters.map Field.name :=
    forall₂_iff_map_eq.1
      ((Attempt.mapM_eq_ok.1 hparameters).imp fun p f hf => (name_parameterField hf).symm)
  have hlast : (c.operation.requestBody.toList.map fun _ => bodyFieldName) = body.map Field.name :=
    forall₂_iff_map_eq.1 ((Attempt.mapM_eq_ok.1 hbody).imp fun b f hf => (name_bodyField hf).symm)
  rw [List.map_append, ← hfirst, ← hlast]
  rfl

/-- A request has a field of the name of the body if and only if there is a body or a parameter of
that name. -/
theorem mem_fieldNames {request : Message}
    (h : request.fields.map Field.name =
      c.takenNames ++ c.operation.requestBody.toList.map fun _ => bodyFieldName) :
    name ∈ request.fields.map Field.name ↔
      name ∈ c.takenNames ∨ (c.operation.requestBody.isSome ∧ name = bodyFieldName) := by
  rw [h, List.mem_append]
  refine or_congr_right ?_
  cases c.operation.requestBody with
  | none => simp
  | some body => simp

/-- Making the method of a call gathers its parameters and its body. -/
theorem gathered_makeMethod (h : makeMethod package serviceId c = .ok x) : c.Gathered x := by
  have hfields := fieldNames_requestMessage (madeInto_makeMethod h).request
  refine ⟨hfields, ?_⟩
  unfold makeMethod at h
  dsimp only at h
  split at h
  · cases h
  · obtain ⟨request, -, h⟩ := Attempt.bind_eq_ok.1 h
    obtain ⟨outputTypeId, -, h⟩ := Attempt.bind_eq_ok.1 h
    obtain ⟨template, -, h⟩ := Attempt.bind_eq_ok.1 h
    obtain rfl := Except.ok.inj h
    refine ⟨template, ?_⟩
    have hbody : (request.fields.any fun f => f.name == bodyFieldName) = true ↔
        c.operation.requestBody.isSome ∨ bodyFieldName ∈ c.takenNames := by
      have hnames : (request.fields.any fun f => f.name == bodyFieldName) = true ↔
          bodyFieldName ∈ request.fields.map Field.name := by
        rw [List.any_eq_true, List.mem_map]
        simp only [beq_iff_eq]
      rw [hnames, mem_fieldNames hfields, or_comm, and_iff_left rfl]
    simp only [hbody]
    rfl

/-! ## Unambiguous requests -/

/-- A query parameter is one that the request takes. -/
theorem takenNames_of_queryNames (h : name ∈ c.queryNames) : name ∈ c.takenNames := by
  obtain ⟨p, hp, rfl⟩ := List.mem_map.1 h
  obtain ⟨hmem, hlocation⟩ := List.mem_filter.1 hp
  refine List.mem_map_of_mem (List.mem_filter.2 ⟨hmem, ?_⟩)
  rw [hlocation, Bool.or_true]

/-- A request that the parameters and the body are gathered into is unambiguous if and only if the
parameters differ in their names from each other and from the body. -/
theorem Call.Gathered.unambiguous_iff (h : c.Gathered x) :
    c.Unambiguous x ↔ c.takenNames.Nodup ∧ bodyFieldName ∉ c.takenNames := by
  obtain ⟨template, hpath⟩ := h.path
  have hnamed : bodyFieldName ≠ "" := by decide
  constructor
  · rintro ⟨hdistinct, -, ⟨info, hinfo, hbody⟩, -⟩
    rw [h.fields, List.nodup_append] at hdistinct
    refine ⟨hdistinct.1, fun hmem => ?_⟩
    rw [hpath] at hinfo
    obtain rfl := Option.some.inj hinfo
    cases hbodies : c.operation.requestBody with
    | none =>
      have hsome := hbody.1 (if_pos (.inr hmem))
      rw [hbodies] at hsome
      cases hsome
    | some body =>
      rw [hbodies] at hdistinct
      exact hdistinct.2.2 _ hmem _ (List.mem_singleton.2 rfl) rfl
  · rintro ⟨hnodup, hfree⟩
    refine ⟨?distinct, fun name => mem_fieldNames h.fields, ⟨_, hpath, ?body⟩, ?query⟩
    case distinct =>
      rw [h.fields, List.nodup_append]
      refine ⟨hnodup, ?_, ?_⟩
      · cases c.operation.requestBody with
        | none => exact List.nodup_nil
        | some body => exact List.nodup_singleton _
      · rintro first hfirst last hlast rfl
        obtain ⟨body, -, rfl⟩ := List.mem_map.1 hlast
        exact hfree hfirst
    case body =>
      constructor
      · intro hnamedPath
        by_contra hnone
        rw [if_neg (not_or_intro hnone hfree)] at hnamedPath
        exact hnamed hnamedPath.symm
      · exact fun hsome => if_pos (.inl hsome)
    case query =>
      intro info hinfo binding hbinding name hname
      rw [hpath] at hinfo
      obtain rfl := Option.some.inj hinfo
      obtain rfl := List.mem_singleton.1 hbinding
      have htaken := takenNames_of_queryNames (mem_sortedTexts.1 hname)
      refine ⟨(mem_fieldNames h.fields).2 (.inl htaken), fun hpathNamed hsame => ?_⟩
      dsimp only at hpathNamed hsame
      split at hsame
      · exact hfree (hsame ▸ htaken)
      · rename_i hnone
        exact hpathNamed (if_neg hnone)

/-- Every call of a document that is read has a request message with a field for every path and
query parameter, in order, and for its body; and it is unambiguous if and only if these parameters
differ in their names from each other and from the body. -/
theorem unambiguous_model_iff {d : Document} {config : Option ServiceConfig} {m : Model}
    (h : d.model config = .ok m) :
    ∃ made requests, Created d config m made requests ∧
      List.Forall₂ (fun c x => c.Gathered x ∧
        (c.Unambiguous x ↔ c.takenNames.Nodup ∧ bodyFieldName ∉ c.takenNames))
          d.calls made := by
  obtain ⟨made, requests, hmade⟩ := exists_made h
  refine ⟨made, requests, hmade.created,
    (Attempt.mapM_eq_ok.1 hmade.calls).imp fun c x hx => ?_⟩
  have hgathered := gathered_makeMethod hx
  exact ⟨hgathered, hgathered.unambiguous_iff⟩

/-- A text parameter of the query. -/
def queryParameter (name : String) : Parameter :=
  { name := name, location := "query", schema := { Schema.blank with kind := "string" } }

/-- A document with one call, which has some parameters of its path and some of its own, and no
body. -/
def search (shared own : List Parameter) : Document :=
  { info := { title := "Search" }
    paths := [("/v1/items",
      { get := some { operationId := "find", parameters := own }
        parameters := shared })] }

/-- A search with a filter of its path and a limit of its own. -/
def limitedSearch : Document :=
  search [queryParameter "filter"] [queryParameter "limit"]

/-- The request of the limited search is unambiguous. -/
theorem unambiguous_model_iff_limitedSearch :
    ∃ m made requests, limitedSearch.model none = .ok m ∧
      Created limitedSearch none m made requests ∧
      List.Forall₂ (fun c x => c.takenNames = ["filter", "limit"] ∧ c.Unambiguous x)
        limitedSearch.calls
        made := by
  have hread : (limitedSearch.model none).toOption.isSome = true := by decide +kernel
  cases hm : limitedSearch.model none with
  | error e =>
    rw [hm] at hread
    cases hread
  | ok m =>
    obtain ⟨made, requests, hcreated, hall⟩ := unambiguous_model_iff hm
    refine ⟨m, made, requests, rfl, hcreated, ?_⟩
    obtain ⟨hlength, heach⟩ := List.forall₂_iff_zip.1 hall
    refine List.forall₂_iff_zip.2 ⟨hlength, fun {c x} hcx => ?_⟩
    have hnames : ∀ c ∈ limitedSearch.calls, c.takenNames = ["filter", "limit"] := by
      decide +kernel
    have hcall := hnames c (List.of_mem_zip hcx).1
    refine ⟨hcall, (heach hcx).2.2 ?_⟩
    rw [hcall]
    decide

/-- A search whose own filter stands beside that of its path, and which has a parameter named like a
body. -/
def doubledSearch : Document :=
  search [queryParameter "filter"] [queryParameter "filter", queryParameter "requestBody"]

/-- The request of the doubled search has two fields of one name, and its method a body that the
operation does not have. -/
theorem not_unambiguous_doubledSearch :
    ∃ m c x r, doubledSearch.model none = .ok m ∧ doubledSearch.calls = [c] ∧
      Created doubledSearch none m [x] [r] ∧
      x.request.fields.map Field.name = ["filter", "filter", "requestBody"] ∧
      c.operation.requestBody = none ∧
      x.method.pathInfo.map PathInfo.bodyFieldPath = some "requestBody" ∧ ¬c.Unambiguous x := by
  obtain ⟨c, hcalls, hbody, hnames⟩ : ∃ c, doubledSearch.calls = [c] ∧
    c.operation.requestBody = none ∧
      c.takenNames = ["filter", "filter", "requestBody"] := ⟨_, rfl, rfl, by decide⟩
  have hread : (doubledSearch.model none).toOption.isSome = true := by decide +kernel
  cases hm : doubledSearch.model none with
  | error e =>
    rw [hm] at hread
    cases hread
  | ok m =>
    obtain ⟨made, requests, hmade⟩ := exists_made hm
    have hcall := hmade.calls
    rw [hcalls, Attempt.mapM_eq_ok] at hcall
    cases hcall with
    | @cons _ x _ _ hx hrest =>
      cases hrest
      obtain ⟨r, rfl⟩ := List.length_eq_one_iff.1 hmade.held.length_eq
      have hgathered := gathered_makeMethod hx
      obtain ⟨template, hpath⟩ := hgathered.path
      have hfields := hgathered.fields
      rw [hnames, hbody] at hfields
      refine ⟨m, c, x, r, rfl, hcalls, hmade.created, hfields, hbody, ?_, fun hclear => ?_⟩
      · rw [hpath, hnames, hbody]
        rfl
      · have hdistinct := hclear.distinct
        rw [hfields] at hdistinct
        exact absurd hdistinct (by decide)

end ApiModel.OpenApi
