import ApiModel.Model.Query

/-!
# Summaries

A plain overview of a model, one element a line: its identity, the services with their methods and
bindings, and the generated messages and enumerations.
-/

namespace ApiModel.Model

/-- The words for what is special about a method. -/
def methodFlags (method : Method) : List String :=
  (if method.deprecated then ["deprecated"] else [])
    ++ (if method.pagination.isSome then ["paginated"] else [])
    ++ (if method.operationInfo.isSome then ["lro"] else [])
    ++ (if method.clientStreaming || method.serverStreaming then ["streaming"] else [])

/-- The lines of a method: its types, then its bindings. -/
def methodLines (method : Method) : List String :=
  let flags := methodFlags method
  let mark := if flags.isEmpty then "" else " [" ++ String.intercalate ", " flags ++ "]"
  let bindings :=
    match method.pathInfo with
    | some info => info.bindings
    | none => []
  ("  rpc " ++ method.name ++ "(" ++ method.inputTypeId ++ ") -> " ++ method.outputTypeId ++ mark)
    :: bindings.map fun b => "    " ++ b.verb ++ " " ++ b.pathTemplate.display

/-- The lines of a service: an empty one, its name, its host, its methods. -/
def serviceLines (m : Model) (service : Service) : List String :=
  ["", "service " ++ service.id]
    ++ (if service.defaultHost.isEmpty then [] else ["  host " ++ service.defaultHost])
    ++ service.methods.flatMap fun ref => methodLines (m.method ref)

/-- The lines of a list of elements with their counts, or none for an empty list. -/
def listLines (title : String) (lines : List String) : List String :=
  if lines.isEmpty then [] else ["", title ++ " (" ++ toString lines.length ++ ")"] ++ lines

/-- The line of an element with the count of what is in it. -/
def countLine (id : String) (count : Nat) (what : String) : String :=
  "  " ++ id ++ " (" ++ toString count ++ " " ++ what ++ ")"

/-- The lines of a summary. -/
def summaryLines (m : Model) : List String :=
  ["name:    " ++ m.name, "package: " ++ m.packageName]
    ++ (if m.title.isEmpty then [] else ["title:   " ++ m.title])
    ++ m.services.flatMap (fun ref => m.serviceLines (m.service ref))
    ++ listLines "messages" (m.allMessages.map fun ref =>
        countLine (m.message ref).id (m.message ref).fields.length "fields")
    ++ listLines "enums" (m.allEnums.map fun ref =>
        countLine (m.enumeration ref).id (m.enumeration ref).values.length "values")

/-- The summary of a model. -/
def summary (m : Model) : String :=
  String.join (m.summaryLines.map fun line => line ++ "\n")

end ApiModel.Model
