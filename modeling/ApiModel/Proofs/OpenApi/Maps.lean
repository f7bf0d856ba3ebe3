import ApiModel.Proofs.OpenApi.Lookup

/-!
# Where the maps of components lead

Every map field of a component leads to an entry of the component, but not always to its own: names
in Pascal case forget separators and the case of first letters, and of several maps whose names
become one the first gives all of them its entry. And a component that is itself named like an entry
is not assembled at all. So the map fields of a component keep their own entries if and only if the
names of its maps stay different in Pascal case and the component is not named like an entry.
-/

namespace ApiModel.OpenApi

open Model

/-- The fields of the properties that are maps, out of the fields of all properties. -/
def Schema.mapFields (s : Schema) (fields : List Field) : List Field :=
  (s.properties.zip fields).filterMap fun x => x.1.2.values?.map fun _ => x.2

/-- Where the map fields of the message of a component schema lead. -/
structure MapsLead (d : Document) (a : Model) (component : String × Schema)
    (r : MessageRef) : Prop where
  /-- If the component is named like an entry, they lead nowhere. -/
  hidden : component.1 ∈ d.entryNames →
    ∀ f ∈ component.2.mapFields (a.message r).fields, f.target = none
  /-- Else each leads to the entry of the first map of the component with its name in Pascal
  case. -/
  first : component.1 ∉ d.entryNames →
    List.Forall₂ (fun (property : String × Schema) (f : Field) => ∃ i c,
      FirstAt (fun other : String × Schema => entryName other.1 = entryName property.1)
        component.2.maps i ∧
        (a.message r).messages[i]? = some c ∧ f.target = some (.message c))
    component.2.maps (component.2.mapFields (a.message r).fields)

/-- Whether every map field of the message of a component schema leads to its own entry. -/
def KeepsEntries (a : Model) (component : String × Schema) (r : MessageRef) : Prop :=
  List.Forall₂ (fun f c => f.target = some (.message c))
    (component.2.mapFields (a.message r).fields)
    (a.message r).messages

variable {d : Document} {config : Option ServiceConfig} {m : Model} {components : List MessageRef}
  {package messageId : String} {component : String × Schema} {r : MessageRef}

/-! ## What assembly keeps -/

/-- What the fields of a message are declared to be is no matter of what assembly derives. -/
theorem declarations_of_source {x y : Message} (h : y.source = x.source) :
    y.fields.map Field.declaration = x.fields.map Field.declaration := by
  have hsource : ∀ z : Message, z.source.fields.map Field.declaration =
      z.fields.map Field.declaration := by
    intro z
    rw [Message.source, List.map_map]
    rfl
  rw [← hsource, h, hsource]

/-- The entry of a property is one in every model of the same source. -/
theorem EntryOf.of_source {property : String × Schema} {x y : Message}
    (hx : EntryOf package messageId property x) (h : y.source = x.source) :
    EntryOf package messageId property y := by
  have hid := congrArg Message.id h
  have hmap := congrArg Message.isMap h
  have hmessages := congrArg Message.messages h
  obtain ⟨type, hshape, hfields⟩ := hx.fields
  exact ⟨hid.trans hx.id, hmap.trans hx.isMap,
    ⟨type, hid ▸ hshape, (declarations_of_source h).trans hfields⟩,
    hmessages.trans hx.messages⟩

/-- The message of a component schema is one behind assembly. -/
theorem ComponentMessage.crossReference (h : ComponentMessage package m component r) :
    ComponentMessage package m.crossReference.model component r := by
  have hlisting := (sameListing_buildIndices m).trans (sameSource_crossReference m).toSameListing
  have hid := hlisting.messageId r
  refine ⟨hid.trans h.id, ?_, ?_⟩
  · rw [hid, declarations_of_source (source_crossReference m r)]
    exact h.fields
  · rw [hid, hlisting.nestedMessages r]
    exact h.entries.imp fun _ c hentry => hentry.of_source (source_crossReference m c)

/-! ## Map fields -/

/-- What is stated of the fields of all properties is so of the map fields. -/
theorem forall₂_mapFields {R R' : String × Schema → Field → Prop} {s : Schema}
    {fields : List Field} (h : List.Forall₂ R s.properties fields)
    (himp : ∀ name schema values f, R (name, schema) f → schema.values? = some values →
      R' (name, values) f) :
    List.Forall₂ R' s.maps (s.mapFields fields) := by
  unfold Schema.maps Schema.mapFields
  generalize s.properties = properties at h ⊢
  induction h with
  | nil => exact .nil
  | @cons property f properties fields hfield _ ih =>
    rw [List.zip_cons_cons, List.filterMap_cons, List.filterMap_cons]
    cases hvalues : property.2.values? with
    | none => exact ih
    | some values => exact .cons (himp _ _ values f hfield hvalues) ih

/-- A schema without maps has no map fields. -/
theorem mapFields_of_maps_eq_nil {s : Schema} (h : s.maps = []) (fields : List Field) :
    s.mapFields fields = [] := by
  refine List.filterMap_eq_nil_iff.2 fun x hx => Option.map_eq_none_iff.2 ?_
  exact Option.map_eq_none_iff.1 (List.filterMap_eq_nil_iff.1 h x.1 (List.of_mem_zip hx).1)

/-- A map field of an assembled message has the place of its entry's name, if the message is
indexed. -/
theorem targets_mapFields (hbuilt : Built (fun parent child => child < parent) m)
    (hnone : m.crossReference.error? = none) (hr : messageArena.Holds m r)
    (hcomponent : ComponentMessage package m component r) :
    List.Forall₂ (fun (property : String × Schema) (f : Field) => f.target =
        if r ∈ m.buildIndices.indexedMessages then
          (m.buildIndices.messageRef? ((m.message r).id ++ "." ++ entryName property.1)).map
            TypeRef.message
        else none)
      component.2.maps (component.2.mapFields (m.crossReference.model.message r).fields) := by
  have htypings := typings_assembled_eq (indexed_buildIndices m)
    ((holds_message_iff (sameListing_buildIndices m).count).2 hr)
  have hfresh : (m.message r).fields.map (fun f => (f.type, f.typeId,
        if r ∈ m.buildIndices.indexedMessages then m.buildIndices.namedType? f else f.target)) =
      (m.message r).fields.map fun f => (f.type, f.typeId,
        if r ∈ m.buildIndices.indexedMessages then m.buildIndices.namedType? f else none) :=
    List.map_congr_left fun f hf => by rw [hbuilt.target_eq_none r f hf]
  rw [← model_crossReference hnone, message_buildIndices, hfresh] at htypings
  have hplaces : List.Forall₂
    (fun (property : String × Schema) (typing : FieldType × String × Option TypeRef) =>
      property.2.values?.isSome → typing.2.2 =
        if r ∈ m.buildIndices.indexedMessages then
          (m.buildIndices.messageRef? ((m.message r).id ++ "." ++ entryName property.1)).map
            TypeRef.message
        else none)
      component.2.properties ((m.crossReference.model.message r).fields.map Field.typing) := by
    rw [htypings, List.forall₂_map_right_iff]
    refine (List.forall₂_map_right_iff.1 hcomponent.fields).imp ?_
    rintro property f ⟨-, hdeclared⟩ hmap
    obtain ⟨htype, hid⟩ := Prod.mk.inj (hdeclared hmap)
    dsimp only at htype hid ⊢
    rw [namedType?, htype, hid]
  refine forall₂_mapFields (List.forall₂_map_right_iff.1 hplaces)
    fun name schema values f hf hvalues => ?_
  exact hf (hvalues ▸ rfl)

/-- If every item leads to what corresponds to the first item of its key, each leads to what
corresponds to itself exactly if all keys differ. -/
theorem forall₂_iff_nodup {α β γ κ : Type} {key : α → κ} {leads : β → γ → Prop}
    {xs : List α} {fs : List β} {cs : List γ}
    (hunique : ∀ f c c', leads f c → leads f c' → c = c') (hlength : xs.length = cs.length)
    (honce : cs.Nodup)
    (h : List.Forall₂ (fun x f => ∃ i c, FirstAt (fun other => key other = key x) xs i ∧
      cs[i]? = some c ∧ leads f c) xs fs) :
    List.Forall₂ leads fs cs ↔ (xs.map key).Nodup := by
  obtain ⟨hlengths, heach⟩ := List.forall₂_iff_get.1 h
  constructor
  · intro hown
    obtain ⟨-, hown⟩ := List.forall₂_iff_get.1 hown
    refine List.pairwise_map.2 (List.pairwise_iff_getElem.2 fun i j hi hj hij hsame => ?_)
    obtain ⟨n, c, ⟨-, hbefore⟩, hc, hlead⟩ := heach j hj (hlengths ▸ hj)
    have hn : n ≤ i := Nat.le_of_not_lt fun hlt =>
      hbefore i hlt _ (List.getElem?_eq_getElem hi) hsame
    have hcj : j < cs.length := hlength ▸ hj
    have hplace := hunique _ _ _ hlead (hown j (hlengths ▸ hj) hcj)
    rw [hplace, List.get_eq_getElem, ← List.getElem?_eq_getElem] at hc
    have hnj : n = j := (List.getElem?_inj (Nat.lt_of_le_of_lt hn (hlength ▸ hi)) honce).1 hc
    omega
  · intro hkeys
    refine List.forall₂_iff_get.2 ⟨hlengths.symm.trans hlength, fun j hf hc => ?_⟩
    have hj : j < xs.length := hlengths ▸ hf
    obtain ⟨n, c', ⟨⟨x, hx, hkey⟩, -⟩, hplace, hlead⟩ := heach j hj hf
    have hnj : (xs.map key)[n]? = (xs.map key)[j]? := by
      rw [List.getElem?_map, List.getElem?_map, Option.mem_def.1 hx, List.getElem?_eq_getElem hj]
      exact congrArg some hkey
    have hn : n < (xs.map key).length := by
      rw [List.length_map]
      exact (List.getElem?_eq_some_iff.1 hx).1
    rw [(List.getElem?_inj hn hkeys).1 hnj, List.getElem?_eq_getElem hc] at hplace
    rw [List.get_eq_getElem, List.get_eq_getElem, Option.some.inj hplace]
    exact hlead

/-- The map fields of components lead to entries of the first maps of their names. -/
theorem HasComponents.mapsLead (h : HasComponents d m components)
    (hnone : m.crossReference.error? = none) :
    List.Forall₂ (fun component r => ComponentMessage m.packageName m component r ∧
      MapsLead d m.crossReference.model component r) d.schemas components := by
  have hlisting := (sameListing_buildIndices m).trans (sameSource_crossReference m).toSameListing
  refine List.forall₂_iff_zip.2 ⟨h.components.length_eq, fun {component r} hzip => ?_⟩
  have hindexed := (List.forall₂_iff_zip.1 h.mem_indexedMessages_iff).2 hzip
  obtain ⟨hcomponent, hentries⟩ := (List.forall₂_iff_zip.1 h.messageRef?_entry).2 hzip
  have htargets := targets_mapFields h.built hnone (h.holds (List.of_mem_zip hzip).2) hcomponent
  refine ⟨hcomponent, fun hname f hf => ?_, fun hname => ?_⟩
  · obtain ⟨property, -, htarget⟩ := Attempt.exists_mem_left htargets f hf
    rw [htarget, if_neg fun hmem => hindexed.1 hmem hname]
  · refine ((List.forall₂_and_left _ _).2 ⟨hentries, htargets⟩).imp ?_
    rintro property f ⟨⟨i, c, hfirst, hc, hfound⟩, htarget⟩
    rw [if_pos (hindexed.2 hname), hfound, Option.map_some] at htarget
    exact ⟨i, c, hfirst, hlisting.nestedMessages r ▸ hc, htarget⟩

/-- The map fields of a component keep their own entries if and only if the names of its maps differ
in Pascal case and, if it has any, it is not named like an entry. -/
theorem MapsLead.keepsEntries_iff {a : Model} (h : MapsLead d a component r)
    (hcomponent : ComponentMessage package a component r) (honce : (a.message r).messages.Nodup) :
    KeepsEntries a component r ↔
      (component.2.maps.map fun property => entryName property.1).Nodup ∧
      (component.2.maps = [] ∨ component.1 ∉ d.entryNames) := by
  have hlength := hcomponent.entries.length_eq
  by_cases hname : component.1 ∈ d.entryNames
  · constructor
    · intro hkept
      have hnone : component.2.maps = [] := by
        unfold KeepsEntries at hkept
        cases hfields : component.2.mapFields (a.message r).fields with
        | nil =>
          rw [hfields, List.forall₂_nil_left_iff] at hkept
          exact List.length_eq_zero_iff.1 (by rw [hlength, hkept, List.length_nil])
        | cons f rest =>
          rw [hfields, List.forall₂_cons_left_iff] at hkept
          obtain ⟨c, others, hkept, -⟩ := hkept
          rw [h.hidden hname f (hfields ▸ List.mem_cons_self)] at hkept
          cases hkept
      rw [hnone]
      exact ⟨List.nodup_nil, .inl rfl⟩
    · rintro ⟨-, hnone | hfree⟩
      · rw [hnone, List.length_nil] at hlength
        rw [KeepsEntries, mapFields_of_maps_eq_nil hnone, List.length_eq_zero_iff.1 hlength.symm]
        exact .nil
      · exact absurd hname hfree
  · rw [and_iff_left (.inr hname)]
    refine forall₂_iff_nodup (fun f c c' hc hc' => ?_) hlength honce (h.first hname)
    rw [hc] at hc'
    cases hc'
    rfl

/-- Whether the map fields of components keep their own entries is told by the names of maps and
components. -/
theorem HasComponents.keepsEntries_iff (h : HasComponents d m components)
    (hnone : m.crossReference.error? = none) :
    List.Forall₂ (fun component r => KeepsEntries m.crossReference.model component r ↔
      (component.2.maps.map fun property => entryName property.1).Nodup ∧
        (component.2.maps = [] ∨ component.1 ∉ d.entryNames)) d.schemas components := by
  have hlisting := (sameListing_buildIndices m).trans (sameSource_crossReference m).toSameListing
  refine (h.mapsLead hnone).imp ?_
  rintro component r ⟨hcomponent, hlead⟩
  have honce : (m.crossReference.model.message r).messages.Nodup := by
    rw [hlisting.nestedMessages]
    exact (h.built.toSound.messageSound r).messagesOnce
  exact hlead.keepsEntries_iff hcomponent.crossReference honce

/-- Every component of a document that is read and assembled has a message with a field for each
property and an entry for each map. Its map fields lead to the entries of the first maps of their
names in Pascal case, or nowhere if the component is named like an entry. So they keep their own
entries, and with them the types of their values, if and only if the names of its maps differ in
Pascal case and, if it has any, it is not named like an entry. -/
theorem keepsEntries_model_iff {levels : Nat} {value : Json.Value}
    (hread : Document.read levels value = some d) (h : d.model config = .ok m)
    (hnone : m.crossReference.error? = none) :
    List.Forall₂
      (fun component r => ComponentMessage m.packageName m.crossReference.model component r ∧
        MapsLead d m.crossReference.model component r ∧
        (KeepsEntries m.crossReference.model component r ↔
          (component.2.maps.map fun property => entryName property.1).Nodup ∧
            (component.2.maps = [] ∨ component.1 ∉ d.entryNames)))
      d.schemas (m.messages.take d.schemas.length) := by
  have hcomponents := hasComponents_model hread h
  obtain ⟨hlength, hlead⟩ := List.forall₂_iff_zip.1 (hcomponents.mapsLead hnone)
  refine List.forall₂_iff_zip.2 ⟨hlength, fun {component r} hzip => ?_⟩
  obtain ⟨hcomponent, hplaces⟩ := hlead hzip
  exact ⟨hcomponent.crossReference, hplaces,
    (List.forall₂_iff_zip.1 (hcomponents.keepsEntries_iff hnone)).2 hzip⟩

/-- The schema of a map whose values have a type. -/
def mapValue (kind : String) : Json.Value :=
  .object [(some "type", .text (some "object")),
    (some "additionalProperties", .object [(some "type", .text (some kind))])]

/-- A document with one component, whose properties are maps with values of some types. -/
def tableValue (maps : List (String × String)) : Json.Value :=
  .object [(some "components", .object [(some "schemas", .object [(some "Table",
    .object [(some "type", .text (some "object")),
      (some "properties", .object (maps.map fun map => (some map.1, mapValue map.2)))])])])]

/-- A table of labels, which are texts, and sizes, which are numbers. -/
def labelledTable : Json.Value :=
  tableValue [("labels", "string"), ("sizes", "integer")]

/-- The two maps of the labelled table keep their entries. -/
theorem keepsEntries_model_iff_labelledTable :
    ∃ d m, Document.read Json.maxLevels labelledTable = some d ∧ d.model none = .ok m ∧
      m.crossReference.error? = none ∧ d.schemas.map Prod.fst = ["Table"] ∧
      List.Forall₂ (fun component r => component.2.maps.map Prod.fst = ["labels", "sizes"] ∧
        KeepsEntries m.crossReference.model component r) d.schemas
          (m.messages.take d.schemas.length) := by
  have hcheck : ((Document.read Json.maxLevels labelledTable).any fun d =>
      (d.model none).toOption.any fun m => m.crossReference.error?.isNone &&
        (d.schemas.map Prod.fst == ["Table"] && d.schemas.all fun component =>
          component.2.maps.map Prod.fst == ["labels", "sizes"] &&
            !d.entryNames.contains component.1)) =
      true := by
    decide +kernel
  obtain ⟨d, hread, hcheck⟩ := (Option.any_eq_true _ _).1 hcheck
  obtain ⟨m, hm, hcheck⟩ := Attempt.exists_ok_of_any hcheck
  simp only [Bool.and_eq_true, Option.isNone_iff_eq_none, List.all_eq_true, beq_iff_eq,
    Bool.not_eq_true', List.contains_eq_mem, decide_eq_false_iff_not] at hcheck
  obtain ⟨hnone, hnames, hmaps⟩ := hcheck
  refine ⟨d, m, hread, hm, hnone, hnames, ?_⟩
  refine ((List.forall₂_and_left _ _).2 ⟨hmaps, keepsEntries_model_iff hread hm hnone⟩).imp ?_
  rintro component r ⟨⟨hown, hfree⟩, -, -, hkeeps⟩
  refine ⟨hown, hkeeps.2 ⟨?_, .inr hfree⟩⟩
  have hentries : (component.2.maps.map fun property => entryName property.1) =
      (component.2.maps.map Prod.fst).map entryName := by
    rw [List.map_map]
    rfl
  rw [hentries, hown]
  decide +kernel

/-- A table with sizes of two kinds, numbers and texts, whose names become one in Pascal case. -/
def resizedTable : Json.Value :=
  tableValue [("pageSizes", "integer"), ("page_sizes", "string")]

/-- The texts of the resized table lead to the entry of the numbers. -/
theorem not_keepsEntries_resizedTable :
    ∃ d m component r f c, Document.read Json.maxLevels resizedTable = some d ∧
      d.model none = .ok m ∧
      m.crossReference.error? = none ∧
      (component, r) ∈ d.schemas.zip (m.messages.take d.schemas.length) ∧
      (component.2.maps.map fun property => (property.1, property.2.kind)) =
        [("pageSizes", "integer"), ("page_sizes", "string")] ∧
      f ∈ (m.crossReference.model.message r).fields ∧ f.name = "page_sizes" ∧
      f.target = some (.message c) ∧
      (m.crossReference.model.message c).fields.map Field.declaration =
        [("key", .string, ""), ("value", .int32, "")] ∧
      ¬KeepsEntries m.crossReference.model component r := by
  have hcheck : ((Document.read Json.maxLevels resizedTable).any fun d =>
      (d.model none).toOption.any fun m => m.crossReference.error?.isNone &&
        (d.schemas.zip (m.messages.take d.schemas.length)).any fun x =>
          (x.1.2.maps.map fun property => (property.1, property.2.kind)) ==
              [("pageSizes", "integer"), ("page_sizes", "string")] &&
            (m.crossReference.model.message x.2).fields.any fun f => f.name == "page_sizes" &&
              (m.crossReference.model.message x.2).messages.any fun c =>
                f.target == some (.message c) &&
                  (m.crossReference.model.message c).fields.map Field.declaration ==
                    [("key", .string, ""), ("value", .int32, "")]) = true := by
    decide +kernel
  obtain ⟨d, hread, hcheck⟩ := (Option.any_eq_true _ _).1 hcheck
  obtain ⟨m, hm, hcheck⟩ := Attempt.exists_ok_of_any hcheck
  simp only [Bool.and_eq_true, Option.isNone_iff_eq_none, List.any_eq_true, beq_iff_eq] at hcheck
  obtain ⟨hnone, ⟨component, r⟩, hzip, hmaps, f, hf, hname, c, -, htarget, hvalue⟩ := hcheck
  have hkeeps :=
    (List.forall₂_iff_zip.1 ((hasComponents_model hread hm).keepsEntries_iff hnone)).2 hzip
  refine ⟨d, m, component, r, f, c, hread, hm, hnone, hzip, hmaps, hf, hname, htarget, hvalue,
    fun hkept => ?_⟩
  have hdistinct := (hkeeps.1 hkept).1
  have hnames : (component.2.maps.map fun property => entryName property.1) =
      (component.2.maps.map fun property => (property.1, property.2.kind)).map fun x =>
        entryName x.1 := by
    rw [List.map_map]
    rfl
  rw [hnames, hmaps] at hdistinct
  exact absurd hdistinct (by decide +kernel)

end ApiModel.OpenApi
