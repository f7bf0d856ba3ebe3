import ApiModel.OpenApi.Build
import ApiModel.Proofs.Attempt

/-!
# Fields of interface descriptions

What it takes to make a field of a schema, the entry message of a map, the message of a component
schema, and the request fields of a parameter and of a body, and what is made then. A property is a
map exactly if it is an object with a schema for further members.
-/

namespace ApiModel.OpenApi

/-- The entry message of a map with values of a schema, which have a type. -/
def entryMessage (package id name : String) (values : Schema) (type : ValueType) : Message :=
  { name := name
    id := id
    package := package
    isMap := true
    fields :=
      [{ name := "key", id := id ++ ".key", jsonName := "key", type := .string },
        { plainField (id ++ ".value") "value" values with type := type.type, typeId := type.id }] }

/-- What the field of a schema is made into, by its shape. -/
inductive Makes (package messageId name : String) (schema : Schema) : MadeField → Prop
  /-- A single value is made into a field of its type. -/
  | single {type : ValueType}
    (shape : fieldShape package (messageId ++ "." ++ name) schema = .ok (.single type)) :
    Makes package messageId name schema
      { field :=
          { plainField (messageId ++ "." ++ name) name schema with
            type := type.type
            typeId := type.id } }
  /-- A list is made into a repeated field of the type of its items. -/
  | list {type : ValueType}
    (shape : fieldShape package (messageId ++ "." ++ name) schema = .ok (.list type)) :
    Makes package messageId name schema
      { field :=
          { plainField (messageId ++ "." ++ name) name schema with
            type := type.type
            typeId := type.id
            repeated := true } }
  /-- A map is made into a map field that names its entry message. -/
  | map {values : Schema} {entry : Message}
    (shape : fieldShape package (messageId ++ "." ++ name) schema = .ok (.map values))
    (hentry : mapEntry package (messageId ++ "." ++ entryName name) (entryName name) values =
      .ok entry) :
    Makes package messageId name schema
      { field :=
          { plainField (messageId ++ "." ++ name) name schema with
            type := .message
            typeId := messageId ++ "." ++ entryName name
            map := true }
        entry := some entry }

/-- The message of a component schema, given what its properties are made into. -/
def componentMessage (package : String) (component : String × Schema)
    (made : List MadeField) : Message :=
  { name := component.1
    package := package
    documentation := component.2.description
    deprecated := component.2.deprecated
    fields := made.map fun x => withPresence (component.2.required.contains x.field.name) x.field
    id := qualify package component.1 }

variable {package id messageId methodId name : String} {schema values : Schema}

/-- A map entry is made of a value of a single type. -/
theorem of_mapEntry {x : Message} (h : mapEntry package id name values = .ok x) :
    ∃ type, fieldShape package (id ++ ".value") values = .ok (.single type) ∧
      x = entryMessage package id name values type := by
  rw [mapEntry.eq_def] at h
  split at h
  · obtain ⟨inner, -, h⟩ := Attempt.bind_eq_ok.1 h
    cases h
  · obtain ⟨shape, hshape, h⟩ := Attempt.bind_eq_ok.1 h
    split at h
    · obtain rfl := Except.ok.inj h
      exact ⟨_, hshape, rfl⟩
    · cases h

/-- What making a field gives is told by the shape of its schema. -/
theorem makes_makeField {made : MadeField}
    (h : makeField package messageId name schema = .ok made) :
    Makes package messageId name schema made := by
  unfold makeField at h
  obtain ⟨shape, hshape, h⟩ := Attempt.bind_eq_ok.1 h
  split at h
  · obtain rfl := Except.ok.inj h
    exact .single hshape
  · obtain rfl := Except.ok.inj h
    exact .list hshape
  · obtain ⟨entry, hentry, h⟩ := Attempt.bind_eq_ok.1 h
    obtain rfl := Except.ok.inj h
    exact .map hshape hentry

/-- The entry that a field needs is the entry of a map. -/
theorem exists_mapEntry_of_makeField {made : MadeField} {x : Message}
    (h : makeField package messageId name schema = .ok made) (hx : x ∈ made.entry) :
    ∃ values, mapEntry package (messageId ++ "." ++ entryName name)
      (entryName name) values = .ok x := by
  cases makes_makeField h with
  | single => cases hx
  | list => cases hx
  | map _ hentry =>
    obtain rfl := Option.some.inj hx
    exact ⟨_, hentry⟩

/-- The message of a component schema is added and listed behind the entries that its fields
need. -/
theorem of_addSchema {m other : Model} {component : String × Schema}
    (hadd : addSchema m component = .ok other) :
    ∃ made, component.2.properties.mapM (fun property =>
        makeField m.packageName (qualify m.packageName component.1) property.1 property.2) =
          .ok made ∧
      other = addListed m (componentMessage m.packageName component made)
        (made.filterMap MadeField.entry) := by
  unfold addSchema at hadd
  dsimp only at hadd
  split at hadd
  · cases hadd
  · obtain ⟨made, hmade, hadd⟩ := Attempt.bind_eq_ok.1 hadd
    exact ⟨made, hmade, (Except.ok.inj hadd).symm⟩

/-- The request field of a parameter is the field of its schema, which is no map, with some
documentation. -/
theorem of_parameterField {p : Parameter} {f : Field}
    (h : parameterField package messageId p = .ok f) :
    ∃ made documentation, makeField package messageId p.name p.schema = .ok made ∧
      made.field.map = false ∧
      f = withPresence (p.required || p.location == "path")
        { made.field with documentation := documentation, synthetic := true } := by
  unfold parameterField at h
  obtain ⟨made, hmade, h⟩ := Attempt.bind_eq_ok.1 h
  dsimp only at h
  by_cases hmap : made.field.map = true
  · rw [if_pos hmap] at h
    cases h
  rw [if_neg hmap] at h
  obtain rfl := Except.ok.inj h
  have hsingle : made.field.map = false := eq_false_of_ne_true hmap
  cases made.field.documentation.isEmpty with
  | true => exact ⟨made, p.description, hmade, hsingle, rfl⟩
  | false => exact ⟨made, made.field.documentation, hmade, hsingle, rfl⟩

/-- The request field of a body holds what the JSON body refers to. -/
theorem of_bodyField {body : RequestBody} {f : Field}
    (h : bodyField package methodId messageId body = .ok f) :
    ∃ media target, body.content.lookup bodyMediaType = some media ∧
      ¬media.schema.reference.isEmpty = true ∧
      referencedId package methodId media.schema.reference = .ok target ∧
      f = withPresence body.required
        { name := bodyFieldName
          jsonName := bodyFieldName
          id := messageId ++ "." ++ bodyFieldName
          documentation := body.description
          type := .message
          typeId := target } := by
  unfold bodyField at h
  split at h
  · cases h
  · rename_i media hmedia
    split at h
    · cases h
    · rename_i href
      obtain ⟨target, htarget, h⟩ := Attempt.bind_eq_ok.1 h
      exact ⟨media, target, hmedia, href, htarget, (Except.ok.inj h).symm⟩

end ApiModel.OpenApi
