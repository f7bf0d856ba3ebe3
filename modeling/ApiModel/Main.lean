import ApiModel.Command.Run

/-!
# The program

Runs a call on the files of the system. Other programs are not started, so schemas have to be
compiled beforehand.
-/

namespace ApiModel.Files

/-- The fault that a failed attempt to read tells. -/
def faultOf : IO.Error → FileFault
  | .noFileOrDirectory .. => .notFound
  | .noSuchThing .. => .notFound
  | .permissionDenied .. => .notPermitted
  | .inappropriateType .. => .isDirectory
  | e => .other (toString e)

/-- Reads a file of the system. -/
def readSystemFile (path : String) : IO (Except FileFault Bytes) := do
  try return .ok (← IO.FS.readBinFile path).toList
  catch e => return .error (faultOf e)

/-- Whether a path names a directory of the system. -/
def isSystemDirectory (path : String) : IO Bool := do
  try return (← (← IO.FS.realPath path).metadata).type == .dir
  catch _ => return false

/-- The names in a directory of the system. -/
def systemNames (path : String) : IO (Except FileFault (List String)) := do
  try return .ok ((← (← IO.FS.realPath path).readDir).toList.map IO.FS.DirEntry.fileName)
  catch e => return .error (faultOf e)

/-- The host that the system makes. -/
def systemHost : Host IO where
  readFile := readSystemFile
  isDirectory := isSystemDirectory
  namesIn := systemNames
  compiler := IO.getEnv "PROTOC"
  compile _ := return .notStarted (.other "other programs are not started")

end ApiModel.Files

/-- Runs a call. -/
def main (arguments : List String) : IO UInt32 := do
  let reply ← ApiModel.Command.run ApiModel.Files.systemHost arguments
  (← IO.getStdout).putStr reply.output
  (← IO.getStderr).putStr reply.report
  return reply.status.toUInt32
