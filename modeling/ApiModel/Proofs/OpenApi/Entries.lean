import ApiModel.Proofs.First
import ApiModel.Proofs.Graph.Runs
import ApiModel.Proofs.OpenApi.Messages
import ApiModel.Proofs.OpenApi.Names

/-!
# Entries of maps

The message of a component schema has a field for every property, in order, and an entry is nested
in it for every property that is a map, in order, too. A map field names its entry, and assembly
finds the entry of the first property of the component whose name is the same in Pascal case.
-/

namespace ApiModel

/-- What a field is declared to be: its name, its type and the full name of that. -/
def Field.declaration (f : Field) : String × FieldType × String :=
  (f.name, f.type, f.typeId)

namespace OpenApi

open Model

/-- The schema of the values of a map: an object is one if further members follow a schema. -/
def Schema.values? (s : Schema) : Option Schema :=
  match s.kind, s.additional with
  | "object", some (.values values) => some values
  | _, _ => none

/-- The properties that are maps, with the schemas of their values. -/
def Schema.maps (s : Schema) : List (String × Schema) :=
  s.properties.filterMap fun property => property.2.values?.map (property.1, ·)

/-- The names that entries of maps have as component schemas would. -/
def Document.entryNames (d : Document) : List String :=
  d.schemas.flatMap fun component =>
    component.2.maps.map fun property => component.1 ++ "." ++ entryName property.1

/-- Whether a message is the entry of a map: the value has the type of its schema. -/
structure EntryOf (package messageId : String) (property : String × Schema)
    (x : Message) : Prop where
  /-- The full name tells the message and the property. -/
  id : x.id = messageId ++ "." ++ entryName property.1
  /-- It is marked as an entry. -/
  isMap : x.isMap = true
  /-- Keys are texts, and values follow the schema. -/
  fields : ∃ type, fieldShape package (x.id ++ ".value") property.2 = .ok (.single type) ∧
    x.fields.map Field.declaration = [("key", .string, ""), ("value", type.type, type.id)]
  /-- Nothing is nested in it. -/
  messages : x.messages = []

/-- Whether a property of a message is declared by its name, and names its entry if it is a map. -/
def Declares (messageId : String) (property : String × Schema)
    (declared : String × FieldType × String) :
    Prop :=
  declared.1 = property.1 ∧
    (property.2.values?.isSome →
      declared.2 = (.message, messageId ++ "." ++ entryName property.1))

/-- Whether a message is that of a component schema. -/
structure ComponentMessage (package : String) (m : Model) (component : String × Schema)
    (r : MessageRef) :
    Prop where
  /-- It has the full name of the component. -/
  id : (m.message r).id = qualify package component.1
  /-- It has a field for every property. -/
  fields : List.Forall₂ (Declares (m.message r).id) component.2.properties
    ((m.message r).fields.map Field.declaration)
  /-- It nests an entry for every map. -/
  entries :
    List.Forall₂ (fun property c => EntryOf package (m.message r).id property (m.message c))
    component.2.maps (m.message r).messages

variable {package id messageId name : String} {schema values : Schema} {m k other : Model}

/-! ## Making fields -/

/-- The schema of the values, if a field is a map. -/
def FieldShape.values? : FieldShape → Option Schema
  | .map values => some values
  | _ => none

/-- A shape that is told by a type is that of no map, if no type makes it one. -/
theorem values?_of_map {wrap : ValueType → FieldShape}
    (hwrap : ∀ type, (wrap type).values? = none) {shape : FieldShape}
    (h : (elementType package id schema).map wrap = .ok shape) :
    shape.values? = none := by
  obtain ⟨type, -, rfl⟩ := Attempt.map_eq_ok.1 h
  exact hwrap type

/-- Whether a field is a map is told by its schema. -/
theorem values?_of_fieldShape {shape : FieldShape} (h : fieldShape package id schema = .ok shape) :
    schema.values? = shape.values? := by
  unfold fieldShape at h
  unfold Schema.values?
  split at h
  · rename_i harray _
    rw [values?_of_map (fun _ => rfl) h, harray]
    rfl
  · cases h
  · rename_i hobject hvalues
    obtain rfl := Except.ok.inj h
    rw [hobject, hvalues]
    rfl
  · rename_i hobject hallowed
    rw [hobject, hallowed]
    split at h
    · obtain rfl := Except.ok.inj h
      rfl
    · exact (values?_of_map (fun _ => rfl) h).symm
  · rename_i hother _
    rw [values?_of_map (fun _ => rfl) h]
    split
    · rename_i values hobject hvalues
      exact (hother values hobject hvalues).elim
    · rfl

/-- A property that is a map is made into a field that names its entry. -/
theorem declares_makeField {made : MadeField}
    (h : makeField package messageId name schema = .ok made) :
    Declares messageId (name, schema) made.field.declaration := by
  cases makes_makeField h with
  | single shape =>
    refine ⟨rfl, fun hmap => ?_⟩
    rw [values?_of_fieldShape shape] at hmap
    cases hmap
  | list shape =>
    refine ⟨rfl, fun hmap => ?_⟩
    rw [values?_of_fieldShape shape] at hmap
    cases hmap
  | map => exact ⟨rfl, fun _ => rfl⟩

/-- The message that is made of a map is the entry of its property. -/
theorem entryOf_mapEntry {x : Message}
    (h : mapEntry package (messageId ++ "." ++ entryName name) (entryName name) values = .ok x) :
    EntryOf package messageId (name, values) x := by
  obtain ⟨type, hshape, rfl⟩ := of_mapEntry h
  exact ⟨rfl, rfl, ⟨type, hshape, rfl⟩, rfl⟩

/-- A property has an entry if and only if it is a map. -/
theorem entry_makeField {made : MadeField}
    (h : makeField package messageId name schema = .ok made) :
    Option.Rel (EntryOf package messageId) (schema.values?.map (name, ·)) made.entry := by
  cases makes_makeField h with
  | single shape =>
    rw [values?_of_fieldShape shape]
    exact .none
  | list shape =>
    rw [values?_of_fieldShape shape]
    exact .none
  | map shape hentry =>
    rw [values?_of_fieldShape shape]
    exact .some (entryOf_mapEntry hentry)

/-! ## Places of components -/

/-- Whether the message of a component schema is at a place, and the entries that it nests are at
theirs. -/
structure Placed (package : String) (m : Model) (component : String × Schema) (r : MessageRef)
    (made : List MadeField) (x : Message) : Prop where
  /-- The properties are made into fields. -/
  properties : component.2.properties.mapM (fun property =>
    makeField package (qualify package component.1) property.1 property.2) = .ok made
  /-- The message is at its place. -/
  held : messageArena.find? m r = some x
  /-- It is the one that is made of the fields. -/
  same : x.unplaced = (componentMessage package component made).unplaced
  /-- The entries are at their places. -/
  entries : List.Forall₂
    (fun entry c => ∃ y, messageArena.find? m c = some y ∧ y.unplaced = entry.unplaced ∧
      y.messages = [])
    (made.filterMap MadeField.entry) x.messages

/-- A component schema whose messages are placed has them placed in every model that keeps the
messages. -/
theorem Placed.mono {component : String × Schema} {r : MessageRef} {made : List MadeField}
    {x : Message} (h : Placed package m component r made x) (hkept : messageArena.Keeps m k) :
    Placed package k component r made x where
  properties := h.properties
  held := hkept r x h.held
  same := h.same
  entries := h.entries.imp fun _ c hc => by
    obtain ⟨y, hy, hsame⟩ := hc
    exact ⟨y, hkept c y hy, hsame⟩

/-- Messages that are added have free places, in order. -/
theorem places_addMessages {elements : List Message} {found refs : List MessageRef}
    (h : elements.foldl
      (fun (state : List MessageRef × Model) element =>
        (state.1 ++ [(state.2.addMessage element).ref], (state.2.addMessage element).model))
      (found, m) = (refs, k)) :
    ∃ nested, refs = found ++ nested ∧
      List.Forall₂ (fun (e : Message) r => messageArena.find? m r = none ∧
        messageArena.find? k r = some (e.ownedBy r)) elements nested := by
  induction elements generalizing m found with
  | nil =>
    obtain ⟨rfl, rfl⟩ := Prod.mk.inj h
    exact ⟨[], (List.append_nil _).symm, .nil⟩
  | cons e rest ih =>
    obtain ⟨nested, rfl, hnested⟩ := ih h
    have hrest : Extends rest (m.addMessage e).model k := extends_addMessages h
    have hkept := messageArena.keeps_push m (e.ownedBy (messageArena.next m))
    refine ⟨messageArena.next m :: nested, List.append_assoc .., .cons ⟨?_, ?_⟩ ?_⟩
    · exact messageArena.find?_next m
    · exact hrest.kept _ _ (find?_addMessage m e)
    · exact hnested.imp fun e r hr => ⟨hkept.find?_eq_none _ hr.1, hr.2⟩

/-- Adding the message of a component schema places it and its entries, and keeps the messages that
were there. -/
theorem placed_addSchema (hbuilt : Built (fun parent child => child < parent) m)
    {component : String × Schema} (hadd : addSchema m component = .ok other) :
    ∃ r made x, Placed m.packageName other component r made x ∧
      other.messages = m.messages ++ [r] ∧
      messageArena.Keeps m other := by
  obtain ⟨made, hmade, rfl⟩ := of_addSchema hadd
  obtain ⟨helement, hentries⟩ := alone_componentMessage hmade
  obtain ⟨nested, k, hnested⟩ := exists_nested hbuilt hentries
  obtain ⟨places, hrefs, hplaces⟩ := places_addMessages hnested.added
  obtain rfl : nested = places := hrefs
  obtain ⟨xs, hrest⟩ := rest_addListed helement hnested
  have hother := find?_addListed helement hnested
  have hne : ∀ c x, messageArena.find? k c = some x → c ≠ messageArena.next k := by
    rintro c x hc rfl
    rw [messageArena.find?_next] at hc
    cases hc
  have hsame := unplaced_ownedBy (componentMessage m.packageName component made)
    (messageArena.next k)
  refine ⟨messageArena.next k, made, _,
    ⟨hmade, (hother _).trans (if_pos rfl), hsame, ?_⟩, by rw [hrest], fun c x hc => ?_⟩
  · refine ((List.forall₂_and_left _ nested).2 ⟨hentries, hplaces⟩).imp ?_
    rintro e c ⟨halone, -, hc⟩
    refine ⟨adopted (messageArena.next k) nested c (e.ownedBy c), ?_, ?_, ?_⟩
    · rw [hother, if_neg (hne c _ hc), hc, Option.map_some]
    · unfold adopted
      split
      · exact unplaced_ownedBy e c
      · exact unplaced_ownedBy e c
    · unfold adopted
      split
      · exact halone.messages
      · exact halone.messages
  · have hkept := hnested.extends.kept c x hc
    have hold : c ∉ nested := by
      intro hmem
      obtain ⟨e, -, hfree, -⟩ := Attempt.exists_mem_left hplaces c hmem
      rw [hc] at hfree
      cases hfree
    rw [hother, if_neg (hne c x hkept), hkept, Option.map_some, adopted, if_neg hold]

/-- Whether the messages of component schemas are at places of a list, in order. -/
def AllPlaced (package : String) (m : Model) (components : List (String × Schema))
    (places : List MessageRef) : Prop :=
  List.Forall₂ (fun component r => ∃ made x, Placed package m component r made x)
    components places

/-- Component schemas whose messages are placed have them placed in every model that keeps the
messages. -/
theorem AllPlaced.mono {components : List (String × Schema)} {places : List MessageRef}
    (h : AllPlaced package m components places) (hkept : messageArena.Keeps m k) :
    AllPlaced package k components places :=
  h.imp fun _ _ hplaced => by
    obtain ⟨made, x, hx⟩ := hplaced
    exact ⟨made, x, hx.mono hkept⟩

/-- Adding the messages of component schemas places all of them. -/
theorem allPlaced_foldlM {package : String} {ids : List String} (h : SchemasMade package m ids)
    {done components : List (String × Schema)} (hdone : AllPlaced package m done m.messages)
    (hadd : components.foldlM addSchema m = .ok other) :
    AllPlaced package other (done ++ components) other.messages := by
  induction components generalizing m ids done with
  | nil =>
    cases hadd
    rwa [List.append_nil]
  | cons component rest ih =>
    rw [List.foldlM_cons, Attempt.bind_eq_ok] at hadd
    obtain ⟨k, hk, hrest⟩ := hadd
    obtain ⟨r, made, x, hplaced, hmessages, hkept⟩ := placed_addSchema h.toBuilt hk
    rw [h.packageName] at hplaced
    have hnext : AllPlaced package k (done ++ [component]) k.messages := by
      rw [hmessages]
      exact List.rel_append (hdone.mono hkept) (.cons ⟨made, x, hplaced⟩ .nil)
    have hall := ih (h.addSchema hk) hnext hrest
    rwa [List.append_assoc] at hall

/-- Whether messages were added and listed behind those that were there. -/
structure Prolongs (m k : Model) : Prop where
  /-- The messages that were there stay. -/
  kept : messageArena.Keeps m k
  /-- They stay listed first. -/
  listed : ∃ others, k.messages = m.messages ++ others
  /-- The package stays. -/
  packageName : k.packageName = m.packageName

/-- Adding the service adds the request messages behind the others. -/
theorem prolongs_addService {name : String} {ids : List String} {d : Document}
    (h : SchemasMade package m ids) (hadd : addService d name m = .ok k) : Prolongs m k := by
  unfold addService at hadd
  obtain ⟨made, hmade, hadd⟩ := Attempt.bind_eq_ok.1 hadd
  split at hadd
  · obtain rfl := Except.ok.inj hadd
    exact ⟨.refl _ m, ⟨[], (List.append_nil _).symm⟩, rfl⟩
  · have hrequests : ∀ x ∈ made, x.request.messages = [] := by
      intro x hx
      obtain ⟨c, -, hc⟩ := Attempt.mapM_forall_right hmade x hx
      exact (alone_makeMethod hc).2.messages
    split at hadd
    rename_i refs last hfold
    obtain rfl := Except.ok.inj hadd
    obtain ⟨⟨requests, hmethods⟩, -, -⟩ := exists_methodsMade h.toCatalog hrequests hfold
    exact ⟨hmethods.kept, ⟨requests, hmethods.listed⟩, hmethods.packageName⟩

/-- Adding the well-known types adds nothing to the listed messages. -/
theorem prolongs_register (h : Prolongs m k) : Prolongs m (WellKnown.register k) := by
  refine WellKnown.register_keeps (P := Prolongs m) (fun k name hk => ?_) (fun k hk => ?_) h
  · unfold WellKnown.registerMessage
    split
    · exact hk
    · exact ⟨hk.kept.trans _ (messageArena.keeps_push k _), hk.listed, hk.packageName⟩
  · unfold WellKnown.registerEnum
    split
    · exact hk
    · exact ⟨hk.kept, hk.listed, hk.packageName⟩

/-- Reading a document places the messages of its component schemas, and lists them first. -/
theorem exists_allPlaced {d : Document} {config : Option ServiceConfig}
    (h : d.model config = .ok m) :
    ∃ components others, m.messages = components ++ others ∧
      AllPlaced m.packageName m d.schemas components := by
  obtain ⟨schemas, hschemas, h⟩ := Attempt.bind_eq_ok.1 h
  obtain ⟨services, hservice, h⟩ := Attempt.bind_eq_ok.1 h
  obtain rfl := Except.ok.inj h
  have hempty := schemasMade_identity d config
  have hmade := hempty.foldlM hschemas
  have hnone : AllPlaced (d.identity config).packageName (d.identity config) []
      (d.identity config).messages :=
    .nil
  have hplaced := allPlaced_foldlM hempty hnone hschemas
  obtain ⟨hkept, ⟨others, hlisted⟩, hpackage⟩ :=
    prolongs_register (prolongs_addService hmade hservice)
  refine ⟨schemas.messages, others, hlisted, ?_⟩
  rw [hpackage, hmade.packageName]
  exact hplaced.mono hkept

/-- Presence is no part of what a field is declared to be. -/
theorem declaration_withPresence (required : Bool) (f : Field) :
    (withPresence required f).declaration = f.declaration := by
  unfold withPresence
  split
  · rfl
  · rfl

/-- What the fields of a message are declared to be does not tell its place. -/
theorem declarations_of_unplaced {x y : Message} (h : x.unplaced = y.unplaced) :
    x.fields.map Field.declaration = y.fields.map Field.declaration := by
  have hplaced : ∀ z : Message, z.unplaced.fields.map Field.declaration =
      z.fields.map Field.declaration := by
    intro z
    rw [Message.unplaced, List.map_map]
    rfl
  rw [← hplaced, h, hplaced]

/-- A message that differs in its place from an entry is an entry, if nothing is nested in it. -/
theorem EntryOf.of_unplaced {property : String × Schema} {x y : Message}
    (hx : EntryOf package messageId property x) (h : y.unplaced = x.unplaced)
    (hy : y.messages = []) :
    EntryOf package messageId property y := by
  have hid := congrArg Message.id h
  have hmap := congrArg Message.isMap h
  refine ⟨hid.trans hx.id, hmap.trans hx.isMap, ?_, hy⟩
  obtain ⟨type, hshape, hfields⟩ := hx.fields
  exact ⟨type, hid ▸ hshape, (declarations_of_unplaced h).trans hfields⟩

/-- Items that correspond to items that correspond to others. -/
theorem forall₂_trans {α β γ : Type} {R : α → β → Prop} {S : β → γ → Prop}
    {T : α → γ → Prop} (hcomp : ∀ x y z, R x y → S y z → T x z) {xs : List α}
    {ys : List β} {zs : List γ} (h : List.Forall₂ R xs ys) (h' : List.Forall₂ S ys zs) :
    List.Forall₂ T xs zs := by
  induction h generalizing zs with
  | nil =>
    cases h'
    exact .nil
  | cons hxy _ ih =>
    cases h' with
    | cons hyz hrest => exact .cons (hcomp _ _ _ hxy hyz) (ih hrest)

/-- The message of a component schema that is at a place is found there. -/
theorem Placed.componentMessage {component : String × Schema} {r : MessageRef}
    {made : List MadeField} {x : Message} (h : Placed package m component r made x) :
    ComponentMessage package m component r := by
  have hx : m.message r = x := messageArena.get_of_find? h.held
  have hid : x.id = qualify package component.1 := congrArg Message.id h.same
  have hmade := Attempt.mapM_eq_ok.1 h.properties
  refine ⟨by rw [hx, hid], ?_, ?_⟩
  · have hdeclared : x.fields.map Field.declaration = made.map fun y => y.field.declaration := by
      rw [declarations_of_unplaced h.same, OpenApi.componentMessage, List.map_map]
      exact List.map_congr_left fun y _ => declaration_withPresence _ y.field
    rw [hx, hid, hdeclared, List.forall₂_map_right_iff]
    exact hmade.imp fun _ _ => declares_makeField
  · have hentries : List.Forall₂ (EntryOf package x.id) component.2.maps
        (made.filterMap MadeField.entry) := by
      rw [hid]
      exact List.rel_filterMap (fun _ _ hfield => entry_makeField hfield) hmade
    rw [hx]
    refine forall₂_trans (fun property entry c hentry hc => ?_) hentries h.entries
    obtain ⟨y, hy, hsame, hleaf⟩ := hc
    have hfound : m.message c = y := messageArena.get_of_find? hy
    rw [hfound]
    exact hentry.of_unplaced hsame hleaf

end OpenApi

end ApiModel
