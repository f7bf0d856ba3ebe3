import ApiModel.Assembly.Indexing
import ApiModel.Options

/-!
# Skipping elements

Two options choose what is generated. Full names that are skipped are dropped at any depth; if full
names are included, only the top-level elements and the methods that they name stay, and a service
stays if it or one of its methods is named. The indices are built anew, so that dropped names no
longer resolve.
-/

namespace ApiModel

/-- A list of full names, of which one that ends in a star stands for everything below it. -/
structure IdFilter where
  /-- The full names. -/
  patterns : List String

namespace IdFilter

/-- Whether one pattern matches a full name. -/
def patternMatches (pattern id : String) : Bool :=
  match Text.stripSuffix? ".*" pattern with
  | some scope => Text.beginsWith (scope ++ ".") id
  | none => pattern == id

/-- Whether a pattern matches a full name. -/
def covers (filter : IdFilter) (id : String) : Bool :=
  filter.patterns.any fun pattern => patternMatches pattern id

/-- Whether there is no pattern. -/
def isEmpty (filter : IdFilter) : Bool :=
  filter.patterns.isEmpty

/-- The first pattern that is no full name. -/
def unqualified? (filter : IdFilter) : Option String :=
  filter.patterns.find? fun pattern => !Text.beginsWith "." pattern

end IdFilter

/-- What is skipped and what is included. -/
structure Selection where
  /-- The full names to drop. -/
  skipped : IdFilter
  /-- The full names to keep; none keeps all. -/
  included : IdFilter

namespace Selection

/-- The selection that the options of a source make. -/
def ofOptions (options : SourceOptions) : Selection :=
  ⟨⟨options.listOption SourceOptions.skippedIds⟩,
    ⟨options.listOption SourceOptions.includedIds⟩⟩

/-- Whether nothing is selected. -/
def isEmpty (s : Selection) : Bool :=
  s.skipped.isEmpty && s.included.isEmpty

/-- Whether a full name is included. -/
def includes (s : Selection) (id : String) : Bool :=
  s.included.isEmpty || s.included.covers id

/-- Whether a top-level element stays. -/
def keeps (s : Selection) (id : String) : Bool :=
  !s.skipped.covers id && s.includes id

/-- The error for a pattern that is no full name. -/
def unqualified (key pattern : String) : Error :=
  .config (key ++ ": " ++ Text.quoted pattern ++ " is not a fully-qualified ID")

/-- The first error in the two lists. -/
def fault? (s : Selection) : Option Error :=
  match s.skipped.unqualified? with
  | some pattern => some (unqualified SourceOptions.skippedIds pattern)
  | none => s.included.unqualified?.map (unqualified SourceOptions.includedIds)

/-- The message without its skipped nested elements. -/
def pruneMessage (s : Selection) (m : Model) (element : Message) : Message :=
  { element with
    messages := element.messages.filter fun ref => !s.skipped.covers (m.message ref).id
    enums := element.enums.filter fun ref => !s.skipped.covers (m.enumeration ref).id }

/-- The methods of a service that stay. -/
def keptMethods (s : Selection) (m : Model) (service : Service) : List MethodRef :=
  service.methods.filter fun ref =>
    let id := (m.method ref).id
    !s.skipped.covers id && (s.includes service.id || s.included.covers id)

/-- Whether a service stays. -/
def keepsService (s : Selection) (m : Model) (service : Service) : Bool :=
  !s.skipped.covers service.id
    && (s.includes service.id || !(s.keptMethods m service).isEmpty)

/-- Leaves a service that stays only the methods that stay. -/
def pruneService (s : Selection) (m : Model) (ref : ServiceRef) : Model :=
  m.modifyService ref fun service => { service with methods := s.keptMethods m service }

/-- The model with only the selected elements. -/
def apply (s : Selection) (m : Model) : Model :=
  let services := m.services.filter fun ref => s.keepsService m (m.service ref)
  let pruned : Model :=
    { m with
      messages := m.messages.filter fun ref => s.keeps (m.message ref).id
      enums := m.enums.filter fun ref => s.keeps (m.enumeration ref).id
      services := services
      store := { m.store with messages := m.store.messages.map (s.pruneMessage m) } }
  (services.foldl s.pruneService pruned).buildIndices

end Selection

/-- Drops what the options of the source do not select. -/
def Model.skipElements (m : Model) (options : SourceOptions) : Except Error Model :=
  let selection := Selection.ofOptions options
  if selection.isEmpty then .ok m
  else match selection.fault? with
    | some e => .error e
    | none => .ok (selection.apply m)

end ApiModel
