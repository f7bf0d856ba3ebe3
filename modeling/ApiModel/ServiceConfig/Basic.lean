import ApiModel.Text.Basic

/-!
# Service configurations

What a service configuration says about an API: its host and title, the interfaces it exposes, the
documentation of its elements and the settings of its methods.
-/

namespace ApiModel.ServiceConfig

/-- An interface that the service exposes. -/
structure Interface where
  /-- The full name of the service, without a leading dot. -/
  name : String := ""
deriving DecidableEq, Repr, Inhabited

/-- Documentation for the elements that a selector matches. -/
structure DocumentationRule where
  /-- A full name without a leading dot; a final star stands for every longer name. -/
  selector : String := ""
  /-- The documentation. -/
  description : String := ""
deriving DecidableEq, Repr, Inhabited

/-- The overview and the documentation of elements. -/
structure Documentation where
  /-- The overview. -/
  summary : String := ""
  /-- The rules, in order. -/
  rules : List DocumentationRule := []
deriving DecidableEq, Repr, Inhabited

/-- Settings of one method. -/
structure MethodSettings where
  /-- The full name of the method, without a leading dot. -/
  selector : String := ""
  /-- The request fields that clients fill in when they are empty. -/
  autoPopulatedFields : List String := []
deriving DecidableEq, Repr, Inhabited

/-- Settings of client libraries. -/
structure Publishing where
  /-- The settings of methods. -/
  methodSettings : List MethodSettings := []
deriving DecidableEq, Repr, Inhabited

end ServiceConfig

/-- A service configuration. -/
structure ServiceConfig where
  /-- The host of the service. -/
  name : String := ""
  /-- The title. -/
  title : String := ""
  /-- The interfaces, those mixed in included. -/
  apis : List ServiceConfig.Interface := []
  /-- The documentation. -/
  documentation : ServiceConfig.Documentation := {}
  /-- The settings of client libraries. -/
  publishing : ServiceConfig.Publishing := {}
deriving DecidableEq, Repr, Inhabited

namespace ServiceConfig

/-- The services that are mixed into many APIs and never tell the package of one. -/
def mixins : List String :=
  ["google.longrunning.Operations", "google.iam.v1.IAMPolicy", "google.cloud.location.Locations",
    "google.cloud.location.Location"]

/-- The host name without its common ending. -/
def apiName (config : ServiceConfig) : String :=
  (Text.stripSuffix? ".googleapis.com" config.name).getD config.name

/-- A package and a service in it. -/
structure QualifiedService where
  /-- The package, empty for a service without one. -/
  package : String
  /-- The name of the service in the package. -/
  service : String
deriving DecidableEq, Repr

/-- Splits a full name at its last dot. -/
def QualifiedService.ofName (name : String) : QualifiedService :=
  match Text.splitLast? '.' name.toList with
  | some (package, service) => ⟨String.ofList package, String.ofList service⟩
  | none => ⟨"", name⟩

/-- The first interface that is not mixed in. -/
def packageAndService? (config : ServiceConfig) : Option QualifiedService :=
  (config.apis.find? fun api => !mixins.contains api.name).map fun api => .ofName api.name

/-- Whether a selector with a final star matches a longer name. -/
def DocumentationRule.covers (rule : DocumentationRule) (name : String) : Bool :=
  match Text.stripSuffix? ".*" rule.selector with
  | some start => Text.beginsWith start name && start != name
  | none => false

/-- The documentation for an element; a selector that is its name wins over one with a star. -/
def documentationFor? (config : ServiceConfig) (id : String) : Option String :=
  let name := Text.dropDots id
  let rules := config.documentation.rules
  let rule := (rules.find? fun rule => rule.selector == name) <|>
    rules.find? fun rule => rule.covers name
  rule.map DocumentationRule.description

/-- The request fields of a method that clients fill in when they are empty. -/
def autoPopulatedFields (config : ServiceConfig) (methodId : String) : List String :=
  let name := Text.dropDots methodId
  match config.publishing.methodSettings.find? fun settings => settings.selector == name with
  | some settings => settings.autoPopulatedFields
  | none => []

end ServiceConfig

end ApiModel
