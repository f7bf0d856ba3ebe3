import ApiModel.Command.Arguments
import ApiModel.Creation
import ApiModel.Model.Query
import ApiModel.Model.Written
import ApiModel.Settings.Read
import ApiModel.Summary
import ApiModel.Yaml.Write

/-!
# Calls

What a call puts out: the output, the report and the status. A failure is reported with its causes
below it, and makes the status one; arguments that are not clear make it two.
-/

namespace ApiModel.Command

open Files

/-- What a call puts out. -/
structure Reply where
  /-- The status. -/
  status : Nat := 0
  /-- The output. -/
  output : String := ""
  /-- The report. -/
  report : String := ""
deriving DecidableEq, Repr, Inhabited

/-- A failure, and what caused it, the nearest cause first. -/
structure Failure where
  /-- What failed. -/
  message : String
  /-- What caused it. -/
  causes : List String := []
deriving DecidableEq, Repr, Inhabited

namespace Failure

/-- A text whose further lines stand below its first one. -/
def hanging (margin : String) (text : String) : String :=
  ("\n" ++ margin).intercalate (Text.splitAt '\n' text)

/-- A cause with its number, in a column of five. -/
def numbered (cause : String × Nat) : String :=
  let number := Nat.repr cause.2
  String.ofList (List.replicate (5 - number.length) ' ') ++ number ++ ": " ++
    hanging "       " cause.1

/-- The lines of the causes; a single one has no number. -/
def causeLines : List String → List String
  | [] => []
  | [cause] => ["    " ++ hanging "    " cause]
  | causes => causes.zipIdx.map numbered

/-- The report of a failure. -/
def report (f : Failure) : String :=
  let causes := causeLines f.causes
  let below := if causes.isEmpty then [] else ["", "Caused by:"] ++ causes
  "Error: " ++ "\n".intercalate (f.message :: below) ++ "\n"

/-- What puts a failure out. -/
def reply (f : Failure) : Reply := { status := 1, report := f.report }

end Failure

/-- The chain of causes that an error is for what failed by it. -/
def causesOf : Error → List String
  | .io path fault => [(Error.io path fault).message, fault.message]
  | e => [e.message]

/-- The settings in a file. -/
def settingsOf (path : String) (contents : Except FileFault Bytes) : Except Failure Settings :=
  match contents with
  | .error fault => .error ⟨"Failed to read config: " ++ path, [fault.message]⟩
  | .ok bytes =>
    match Text.ofBytes? bytes with
    | none => .error ⟨"Failed to read config: " ++ path, [FileFault.notText.message]⟩
    | some text =>
      match Settings.ofToml? text with
      | some settings => .ok settings
      | none => .error ⟨"Failed to parse config: " ++ path, ["invalid settings"]⟩

/-- The settings that arguments name; without a file they leave everything open. -/
def loadSettings {m : Type → Type} [Monad m] (host : Host m) (a : TaskArguments) :
    m (Except Failure Settings) := do
  match a.settings with
  | none => return .ok {}
  | some path => return settingsOf path (← host.readFile path)

/-- The model that arguments ask for. -/
def buildModel {m : Type → Type} [Monad m] (host : Host m) (a : TaskArguments) :
    m (Except Failure Model) := do
  match ← loadSettings host a with
  | .error failure => return .error failure
  | .ok settings =>
    match settings.modelConfig a.replacements with
    | .error e => return .error ⟨e.message, []⟩
    | .ok config =>
      return (← config.createModel host).mapError fun e =>
        ⟨"Failed to build model from " ++ config.source, causesOf e⟩

/-- What shows a model. -/
def modelText (format : OutputFormat) (m : Model) : String :=
  match format with
  | .summary => m.summary
  | .yaml => Yaml.writeDocument m.tree

/-- What tells that a model is consistent. -/
def approval (m : Model) : String :=
  "OK: " ++ m.packageName ++ " (" ++ Nat.repr m.services.length ++ " services, " ++
    Nat.repr m.allMessages.length ++ " messages, " ++ Nat.repr m.allEnums.length ++ " enums)\n"

/-- What a task puts out for a model. -/
def taskReply (task : Task) (a : TaskArguments) (m : Model) : Reply :=
  match task with
  | .model => { output := modelText (a.format.getD .summary) m }
  | .validate => { report := approval m }

/-- The name of the program and its version. -/
def versionText : String := "gapic-gen 0.1.0\n"

/-- How the program is called. -/
def usageText : String :=
  "Usage: gapic-gen [-v]... <model|validate> [OPTIONS]\n\n" ++
  "Options:\n" ++
  "  -c, --config <PATH>\n" ++
  "      --specification-format <discovery|openapi|protobuf>\n" ++
  "      --specification-source <PATH>\n" ++
  "      --service-config <PATH>\n" ++
  "      --source <KEY=VALUE>\n" ++
  "  -f, --format <summary|yaml>\n" ++
  "  -v, --verbose\n" ++
  "  -h, --help\n" ++
  "  -V, --version\n"

/-- What a call with some arguments puts out. -/
def run {m : Type → Type} [Monad m] (host : Host m) (arguments : List String) : m Reply := do
  match Request.ofArguments arguments with
  | .version => return { output := versionText }
  | .help => return { output := usageText }
  | .unclear => return { status := 2, report := "error: unclear arguments\n\n" ++ usageText }
  | .run task a =>
    match ← buildModel host a with
    | .error failure => return failure.reply
    | .ok model => return taskReply task a model

end ApiModel.Command
