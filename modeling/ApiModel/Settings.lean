import ApiModel.Options

/-!
# Settings

What a settings file says about one model, and how choices from elsewhere take the place of its own.
-/

namespace ApiModel

/-- The format and the files of a model, each of which may be left open. -/
structure Choices where
  /-- The format of the specification. -/
  format : Option SpecificationFormat := none
  /-- The path of the specification. -/
  source : Option String := none
  /-- The path of the service configuration. -/
  serviceConfig : Option String := none
deriving DecidableEq, Repr, Inhabited

/-- The content of a settings file. -/
structure Settings where
  /-- The format and the files. -/
  general : Choices := {}
  /-- The options of the source. -/
  options : SourceOptions := Index.empty
  /-- The overrides of documentation, in order. -/
  overrides : List DocumentationOverride := []

/-- What takes the place of settings: choices, and options in the order in which they are set. -/
structure Replacements where
  /-- The format and the files. -/
  choices : Choices := {}
  /-- The options of the source. -/
  options : List (String × String) := []
deriving DecidableEq, Repr, Inhabited

namespace Settings

/-- The error for settings that leave the format open. -/
def noFormat : Error :=
  .config ("No specification format. " ++
    "Set `general.specification-format` or pass --specification-format")

/-- The error for settings that leave the source open. -/
def noSource : Error :=
  .config ("No specification source. " ++
    "Set `general.specification-source` or pass --specification-source")

/-- What a model is built from: each replacement counts before the setting. The format and the
source may not be left open. -/
def modelConfig (s : Settings) (r : Replacements) : Except Error ModelConfig :=
  match r.choices.format <|> s.general.format with
  | none => .error noFormat
  | some format =>
    match r.choices.source <|> s.general.source with
    | none => .error noSource
    | some source =>
      .ok
        { format := format
          source := source
          serviceConfig := r.choices.serviceConfig <|> s.general.serviceConfig
          options := r.options.foldl (fun all entry => all.insert entry.1 entry.2) s.options
          overrides := s.overrides }

end Settings

end ApiModel
