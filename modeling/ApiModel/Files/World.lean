import ApiModel.Files.Host
import ApiModel.Files.Program

/-!
# Worlds

The host that a file tree makes. Creating a model asks its host for files, and to compile schemas it
starts another program. A world answers both from data alone: the files are those of a tree, and the
compiler is an executable file of this tree, whose run is computed as well. So a call with schemas
to compile is a function of its arguments and of a tree, and what it reads, starts, writes and
reports can be run and compared without a system. `Main` takes the system as its host and needs no
world.
-/

namespace ApiModel.Files

/-- A file tree, and the schema compiler that was chosen for it. -/
structure World where
  /-- The file tree. -/
  root : FileTree
  /-- The schema compiler. -/
  compiler : Option String := none

namespace World

/-- Where a compiler that runs in the tree leaves its schemas. -/
def compiledPath : String := "/tmp/schemas.binpb"

/-- The result of a program that has come to its end. -/
def resultOf (s : Script.State) : CompilerResult :=
  match s.ending.getD (.status s.status) with
  | .signal number => .failed (.signal number) s.report
  | .status 0 =>
    match s.written.lookup compiledPath with
    | some contents => .compiled contents
    | none => .unreadable compiledPath .notFound
  | .status code => .failed (.status code) s.report

/-- Runs a program of the tree. -/
def compile (w : World) (call : CompilerCall) : CompilerResult :=
  let bytewise (text : String) : String := Text.spread (Text.toBytes text)
  let arguments := ("--descriptor_set_out=" ++ compiledPath) :: call.arguments.map bytewise
  let start : Script.State := { root := w.root, name := call.program, arguments := [] }
  match launchNamed start (bytewise call.program) arguments with
  | .error fault => .notStarted fault
  | .ok launched => resultOf (launched.run start)

/-- The host that a file tree makes. -/
def host (w : World) : Host Id where
  readFile path := w.root.readFile path
  isDirectory path := w.root.isDirectory path
  namesIn path := w.root.namesIn path
  compiler := w.compiler
  compile call := w.compile call

end World

end ApiModel.Files
