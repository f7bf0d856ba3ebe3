import ApiModel.Error
import ApiModel.ServiceConfig.Basic
import ApiModel.Yaml.Decode

/-!
# Reading service configurations

A service configuration is a YAML document. Every member may be missing, unknown members are passed
over, and an empty stream is a configuration without members.
-/

namespace ApiModel

namespace ServiceConfig

open Yaml

/-- Reads an interface. -/
def readInterface (d : Document) (node : Node) : Decoder Interface := do
  let members ← d.members node
  return { name := ← memberOr members "name" "" d.text }

/-- Reads a documentation rule. -/
def readRule (d : Document) (node : Node) : Decoder DocumentationRule := do
  let members ← d.members node
  return {
    selector := ← memberOr members "selector" "" d.text
    description := ← memberOr members "description" "" d.text }

/-- Reads the documentation. -/
def readDocumentation (d : Document) (node : Node) : Decoder Documentation := do
  let members ← d.members node
  return {
    summary := ← memberOr members "summary" "" d.text
    rules := ← memberOr members "rules" [] (d.list (readRule d)) }

/-- Reads the settings of a method. -/
def readMethodSettings (d : Document) (node : Node) : Decoder MethodSettings := do
  let members ← d.members node
  return {
    selector := ← memberOr members "selector" "" d.text
    autoPopulatedFields := ← memberOr members "auto_populated_fields" [] (d.list d.text) }

/-- Reads the settings of client libraries. -/
def readPublishing (d : Document) (node : Node) : Decoder Publishing := do
  let members ← d.members node
  return {
    methodSettings := ← memberOr members "method_settings" [] (d.list (readMethodSettings d)) }

/-- Reads the root of a configuration. -/
def readRoot (d : Document) : Decoder ServiceConfig := do
  let members ← d.members d.root
  return {
    name := ← memberOr members "name" "" d.text
    title := ← memberOr members "title" "" d.text
    apis := ← memberOr members "apis" [] (d.list (readInterface d))
    documentation := ← memberOr members "documentation" {} (readDocumentation d)
    publishing := ← memberOr members "publishing" {} (readPublishing d) }

end ServiceConfig

/-- Reads a service configuration. -/
def ServiceConfig.ofYaml? (text : String) : Option ServiceConfig :=
  match Yaml.Stream.ofText? text with
  | none => none
  | some .empty => some {}
  | some (.document root) =>
    ((ServiceConfig.readRoot (.ofNode root)).run 0).map fun (config, _) => config

/-- Reads a service configuration, or tells that it could not be. -/
def ServiceConfig.ofYaml (text : String) : Except Error ServiceConfig :=
  match ServiceConfig.ofYaml? text with
  | some config => .ok config
  | none => .error .yaml

end ApiModel
