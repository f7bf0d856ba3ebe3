import ApiModel.Error
import ApiModel.Index
import ApiModel.Text.Blank

/-!
# What a model is built from

The format and the source of a specification, the options of the source, and the overrides of single
documentation texts.
-/

namespace ApiModel

/-- The formats of a specification. -/
inductive SpecificationFormat where
  /-- A discovery document in JSON. -/
  | discovery
  /-- An OpenAPI document in JSON. -/
  | openApi
  /-- A protobuf descriptor set, or schemas to compile into one. -/
  | protobuf
deriving DecidableEq, Repr

namespace SpecificationFormat

/-- The word for a format. -/
def word : SpecificationFormat → String
  | .discovery => "discovery"
  | .openApi => "openapi"
  | .protobuf => "protobuf"

/-- All formats. -/
def all : List SpecificationFormat := [.discovery, .openApi, .protobuf]

/-- The format with a word. -/
def ofWord? (text : String) : Option SpecificationFormat :=
  all.find? fun format => format.word == text

/-- The format with a word, or the error that tells the words. -/
def read (text : String) : Except Error SpecificationFormat :=
  match ofWord? text with
  | some format => .ok format
  | none =>
    .error (.config ("unknown specification format " ++ Text.quoted text ++
      ", expected discovery, openapi or protobuf"))

/-- A format is found under its own word. -/
theorem ofWord?_word (format : SpecificationFormat) : ofWord? format.word = some format := by
  cases format <;> decide

end SpecificationFormat

/-- Replaces the first occurrence of a text in the documentation of one element. -/
structure DocumentationOverride where
  /-- The full name of the element. -/
  id : String
  /-- The text that must occur. -/
  pattern : String
  /-- The text in its place. -/
  replacement : String
deriving DecidableEq, Repr, Inhabited

/-- Options of the source, by key. -/
abbrev SourceOptions := Index String

namespace SourceOptions

/-- The key of the option that replaces the name. -/
def nameOverride : String := "name-override"

/-- The key of the option that replaces the title. -/
def titleOverride : String := "title-override"

/-- The key of the option that replaces the description. -/
def descriptionOverride : String := "description-override"

/-- The key of the option that replaces the package. -/
def packageNameOverride : String := "package-name-override"

/-- The key of the option that names the main directory of imported schemas. -/
def googleapisRoot : String := "googleapis-root"

/-- The key of the option that names another directory of imported schemas. -/
def extraProtosRoot : String := "extra-protos-root"

/-- The key of the option that lists the schema files to generate. -/
def includeList : String := "include-list"

/-- The key of the option that lists the full names to drop. -/
def skippedIds : String := "skipped-ids"

/-- The key of the option that lists the full names to keep. -/
def includedIds : String := "included-ids"

/-- An option that is set and not empty. -/
def option? (options : SourceOptions) (key : String) : Option String :=
  (options.get? key).filter fun value => !value.isEmpty

/-- The items of a comma-separated option, trimmed, without the empty ones. -/
def listOption (options : SourceOptions) (key : String) : List String :=
  match option? options key with
  | none => []
  | some value => ((Text.splitAt ',' value).map Text.trim).filter fun item => !item.isEmpty

end SourceOptions

/-- Everything that one model is built from. -/
structure ModelConfig where
  /-- The format of the specification. -/
  format : SpecificationFormat
  /-- The path of the specification. -/
  source : String
  /-- The path of the service configuration. -/
  serviceConfig : Option String := none
  /-- The options of the source. -/
  options : SourceOptions := Index.empty
  /-- The overrides of documentation, in order. -/
  overrides : List DocumentationOverride := []

end ApiModel
