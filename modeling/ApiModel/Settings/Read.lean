import ApiModel.Settings
import ApiModel.Toml.Read

/-!
# Reading settings

A settings file is a TOML document with a table of choices, a table of source options and a list of
documentation overrides. A record may also be an array of its members in their order. Names that are
not known are faults, but not in the overrides.
-/

namespace ApiModel.Settings

open Toml

/-- The items of an array, however it is written. -/
def items? : Item → Option (List Item)
  | .array items => some items
  | .tables items => some items
  | _ => none

/-- The members of a table. -/
def members? : Item → Option (List (String × Item))
  | .table _ members => some members
  | _ => none

/-- The members of a record: those of a table, or the items of an array under the names in their
order. -/
def record? (names : List String) (item : Item) : Option (List (String × Item)) :=
  members? item <|> (items? item).map fun items => names.zip items

/-- Whether all names of a record are known. -/
def namesAreKnown (names : List String) (members : List (String × Item)) : Bool :=
  members.all fun member => names.contains member.1

/-- A text. -/
def text? : Item → Option String
  | .text value => some value
  | _ => none

/-- A member that may be missing. -/
def member {α : Type} (members : List (String × Item)) (name : String)
    (read : Item → Option α) :
    Option (Option α) :=
  match members.lookup name with
  | none => some none
  | some item => (read item).map some

/-- Whether an item is empty: an array without items, or a table without members. -/
def isHollow (item : Item) : Bool :=
  match items? item, members? item with
  | some items, _ => items.isEmpty
  | none, some members => members.isEmpty
  | none, none => false

/-- A format: its word, or a table with its word as the only name, over an empty item. -/
def format? : Item → Option SpecificationFormat
  | .text word => SpecificationFormat.ofWord? word
  | .table _ [(word, item)] =>
    if isHollow item then SpecificationFormat.ofWord? word else none
  | _ => none

/-- The names of the choices, in order. -/
def choiceNames : List String :=
  ["specification-format", "specification-source", "service-config"]

/-- The choices of a settings file. -/
def choices? (item : Item) : Option Choices := do
  let members ← record? choiceNames item
  if !namesAreKnown choiceNames members then none
  else
    return {
      format := ← member members "specification-format" format?
      source := ← member members "specification-source" text?
      serviceConfig := ← member members "service-config" text? }

/-- The source options: texts by key. -/
def options? (item : Item) : Option SourceOptions := do
  let members ← members? item
  let entries ← members.mapM fun (key, value) => return (key, ← text? value)
  return entries.foldl (fun all (entry : String × String) =>
    all.insert entry.1 entry.2) Index.empty

/-- The names of an override, in order. -/
def overrideNames : List String := ["id", "matches", "replace"]

/-- A documentation override, of which no member may be missing. -/
def override? (item : Item) : Option DocumentationOverride := do
  let members ← record? overrideNames item
  let unknown := members.filter fun member => !overrideNames.contains member.1
  if !Item.membersAreSound unknown then none
  else
    return {
      id := ← (members.lookup "id").bind text?
      pattern := ← (members.lookup "matches").bind text?
      replacement := ← (members.lookup "replace").bind text? }

/-- The documentation overrides. -/
def overrides? (item : Item) : Option (List DocumentationOverride) :=
  (items? item).bind fun items => items.mapM override?

/-- The settings of a document. -/
def ofItem? (root : Item) : Option Settings := do
  let members ← members? root
  if !namesAreKnown ["general", "source", "documentation-overrides"] members then none
  else
    return {
      general := (← member members "general" choices?).getD {}
      options := (← member members "source" options?).getD Index.empty
      overrides := (← member members "documentation-overrides" overrides?).getD [] }

/-- The settings that a text holds. -/
def ofToml? (text : String) : Option Settings :=
  (Item.ofText? text).bind ofItem?

end ApiModel.Settings
