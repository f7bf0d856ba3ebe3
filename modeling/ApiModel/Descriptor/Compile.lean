import ApiModel.Files.Host
import ApiModel.Files.Path
import ApiModel.Options
import ApiModel.Text.Utf8

/-!
# Compiled schemas

Where the bytes of a descriptor set come from: from a file with one of the extensions for them, or
from the schema compiler, which is called for all schema files of a directory. The directory is
looked for where the source says, then below each of the import directories.
-/

namespace ApiModel.Descriptor

open Files

/-- The extensions of files with compiled schemas. -/
def compiledExtensions : List String := ["binpb", "pb", "desc"]

/-- The extension of schema files. -/
def schemaExtension : String := "proto"

/-- Whether a source is a file with compiled schemas. -/
def isCompiled (source : String) : Bool :=
  (extension? source).any compiledExtensions.contains

/-- The directories of imported schemas. -/
def importRoots (options : SourceOptions) : List String :=
  [SourceOptions.googleapisRoot, SourceOptions.extraProtosRoot].filterMap options.option?

/-- The first of some paths that names a directory. -/
def firstDirectory? {m : Type → Type} [Monad m] (host : Host m) :
    List String → m (Option String)
  | [] => return none
  | path :: rest => do
    if ← host.isDirectory path then return some path
    else firstDirectory? host rest

/-- The schema files among the names in a directory, in order. -/
def schemaFiles (directory : String) (names : List String) : List String :=
  let schemas := names.filter fun name => extensionOfName? name == some schemaExtension
  (schemas.mergeSort fun a b => !(b < a)).map (join directory)

/-- The arguments of the schema compiler. Schemas outside of every import directory need their own
directory as one. -/
def compilerArguments (roots : List String) (directory : String) (files : List String) :
    List String :=
  let own := if roots.any (liesIn directory) then [] else [directory]
  ["--include_imports", "--include_source_info"]
    ++ (roots ++ own).map (fun root => "--proto_path=" ++ root) ++ files

/-- The schema compiler for a choice. -/
def compilerProgram (chosen : Option String) : String :=
  chosen.getD "protoc"

/-- The compiled schemas of a result. -/
def compiledBytes (program : String) : CompilerResult → Except Error Bytes
  | .notStarted fault => .error (.compiler ("failed to run " ++ program ++ ": " ++ fault.message))
  | .failed ending report =>
    .error (.compiler ("exited with " ++ ending.message ++ "\nstderr: " ++ Text.ofBytes report))
  | .unreadable path fault => .error (.io path fault)
  | .compiled contents => .ok contents

/-- Compiles the schemas of a source. -/
def compile {m : Type → Type} [Monad m] (host : Host m) (source : String) (roots : List String) :
    m (Except Error Bytes) := do
  match ← firstDirectory? host (source :: roots.map fun root => join root source) with
  | none =>
    return .error (.config
      (source ++ " is neither a descriptor set nor a directory of .proto files"))
  | some directory =>
    match ← host.namesIn directory with
    | .error fault => return .error (.io directory fault)
    | .ok names =>
      let files := schemaFiles directory names
      if files.isEmpty then return .error (.config ("no .proto files in " ++ directory))
      else
        let program := compilerProgram (← host.compiler)
        let result ← host.compile ⟨program, compilerArguments roots directory files⟩
        return compiledBytes program result

/-- The bytes of the descriptor set that a source stands for. -/
def load {m : Type → Type} [Monad m] (host : Host m) (source : String) (options : SourceOptions) :
    m (Except Error Bytes) := do
  if isCompiled source then
    return (← host.readFile source).mapError (Error.io source)
  else compile host source (importRoots options)

end ApiModel.Descriptor
