import ApiModel.Assembly.CrossReference
import ApiModel.Descriptor.Build
import ApiModel.Descriptor.Compile
import ApiModel.Discovery.Build
import ApiModel.Documentation
import ApiModel.OpenApi.Build
import ApiModel.ServiceConfig.Read
import ApiModel.Skip
import ApiModel.Validate

/-!
# Creating models

The whole way from a configuration to a model: the service configuration and the specification are
read from the host, and the model is assembled, reduced, documented and validated. The first failure
ends it.
-/

namespace ApiModel

open Files

namespace ModelConfig

/-- The value that an option gives, or the one that is there. -/
def override (config : ModelConfig) (key current : String) : String :=
  (config.options.option? key).getD current

/-- The model with its name, title and description from the options that replace them. -/
def rename (config : ModelConfig) (m : Model) : Model :=
  { m with
    name := config.override SourceOptions.nameOverride m.name
    title := config.override SourceOptions.titleOverride m.title
    description := config.override SourceOptions.descriptionOverride m.description }

/-- The passes over a model that was read, up to its validation. -/
def refine (config : ModelConfig) (service : Option ServiceConfig) (m : Model) :
    Except Error Model := do
  let m ← m.crossReference.result
  let m ← m.skipElements config.options
  let m := match service with
    | some service => m.applyRules service
    | none => m
  let m ← (m.patchAll config.overrides).result
  m.validate
  return m

/-- The model of a specification that was read. Its package is replaced last, so that elements are
held against the package of the specification. -/
def finish (config : ModelConfig) (service : Option ServiceConfig) (m : Model) :
    Except Error Model := do
  let m ← config.refine service (config.rename m)
  return { m with packageName := config.override SourceOptions.packageNameOverride m.packageName }

/-- The contents of the specification. -/
def loadSource {m : Type → Type} [Monad m] (host : Host m) (config : ModelConfig) :
    m (Except Error Bytes) := do
  match config.format with
  | .protobuf => Descriptor.load host config.source config.options
  | _ => return (← host.readFile config.source).mapError (Error.io config.source)

/-- The model of the contents of a specification. -/
def readSource (config : ModelConfig) (service : Option ServiceConfig) (contents : Bytes) :
    Except Error Model :=
  match config.format with
  | .discovery => Discovery.readModel service contents
  | .openApi => OpenApi.readModel service contents
  | .protobuf =>
    Descriptor.readModel service (config.options.listOption SourceOptions.includeList) contents

/-- The service configuration in a file. -/
def serviceConfigOf (path : String) (contents : Except FileFault Bytes) :
    Except Error ServiceConfig := do
  let bytes ← contents.mapError (Error.io path)
  match Text.ofBytes? bytes with
  | none => throw (.io path .notText)
  | some text => ServiceConfig.ofYaml text

/-- The service configuration, if there is one. -/
def loadService {m : Type → Type} [Monad m] (host : Host m) (config : ModelConfig) :
    m (Except Error (Option ServiceConfig)) := do
  match config.serviceConfig with
  | none => return .ok none
  | some path => return (serviceConfigOf path (← host.readFile path)).map some

/-- Creates the model of a configuration. -/
def createModel {m : Type → Type} [Monad m] (host : Host m) (config : ModelConfig) :
    m (Except Error Model) := do
  match ← config.loadService host with
  | .error e => return .error e
  | .ok service =>
    match ← config.loadSource host with
    | .error e => return .error e
    | .ok contents =>
      return (config.readSource service contents).bind (config.finish service)

end ModelConfig

end ApiModel
