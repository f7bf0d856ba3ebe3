import ApiModel.Error
import ApiModel.Text.Basic

/-!
# File trees

Directories and files as data, and how a path leads through them: what a world has for a file
system. A path goes on from the root of the tree; of what lies outside of it, only what every system
has is known.
-/

namespace ApiModel.Files

/-- A program that every system has. -/
inductive SystemProgram where
  /-- The shell. -/
  | shell
  /-- Runs the program that its first argument names. -/
  | env
  /-- Succeeds and does nothing. -/
  | success
  /-- Fails and does nothing. -/
  | failure
deriving DecidableEq, Repr

/-- A file, a program, or a directory with names for what it holds. -/
inductive FileTree where
  /-- A file. -/
  | file (contents : Bytes) (executable : Bool)
  /-- A program of the system. -/
  | program (program : SystemProgram)
  /-- A directory. -/
  | directory (entries : List (String × FileTree))
deriving Inhabited

namespace FileTree

/-- A directory that holds nothing. -/
def hollow : FileTree := .directory []

/-- The entries with one of them replaced, or added in the order of the names. -/
def setEntry (name : String) (tree : FileTree) :
    List (String × FileTree) → List (String × FileTree)
  | [] => [(name, tree)]
  | (key, value) :: rest =>
    if name < key then (name, tree) :: (key, value) :: rest
    else if key == name then (name, tree) :: rest
    else (key, value) :: setEntry name tree rest

/-- The tree with something put at a path; the directories on the way are made. -/
def put (item : FileTree) : FileTree → List String → FileTree
  | _, [] => item
  | .directory entries, name :: rest =>
    .directory (setEntry name (put item ((entries.lookup name).getD hollow) rest) entries)
  | _, name :: rest => .directory [(name, put item hollow rest)]

/-- The names of the programs of the system. -/
def systemPrograms : List (String × SystemProgram) :=
  [("bash", .shell), ("dash", .shell), ("env", .env), ("false", .failure), ("sh", .shell),
   ("true", .success)]

/-- What lies outside of a tree. -/
def system : FileTree :=
  let programs : FileTree := .directory (systemPrograms.map fun (name, p) => (name, .program p))
  .directory
    [("bin", programs), ("dev", .directory [("null", .file [] false)]),
     ("etc", .directory [("passwd", .file [] false)]), ("home", hollow), ("lib", hollow),
     ("opt", hollow), ("proc", hollow), ("root", hollow), ("run", hollow), ("sbin", hollow),
     ("srv", hollow), ("sys", hollow), ("tmp", hollow),
     ("usr", .directory [("bin", programs), ("lib", hollow), ("sbin", hollow)]), ("var", hollow)]

/-- The first bytes of a program of the system. -/
def programBytes : Bytes := [0x7F, 0x45, 0x4C, 0x46, 0x02, 0x01, 0x01, 0x00, 0x80]

/-- The most bytes that a path may have. -/
def maxPath : Nat := 4095

/-- The most bytes that a name may have. -/
def maxName : Nat := 255

/-- Goes from a place along the parts of a path; the directories above it are given, nearest
first. -/
def walk (above : List FileTree) (place : FileTree) : List String → Except FileFault FileTree
  | [] => .ok place
  | part :: rest =>
    match place with
    | .file _ _ => .error .notDirectory
    | .program _ => .error .notDirectory
    | .directory entries =>
      if part.isEmpty || part == "." then walk above place rest
      else if part == ".." then
        match above with
        | [] => walk [] hollow rest
        | parent :: others => walk others parent rest
      else if maxName < part.utf8ByteSize then .error .nameTooLong
      else
        match entries.lookup part with
        | some inner => walk (place :: above) inner rest
        | none => .error .notFound

/-- What lies at a path. -/
def find (root : FileTree) (path : String) : Except FileFault FileTree :=
  if path.isEmpty then .error .notFound
  else if path.toList.contains '\x00' then .error .zeroInName
  else if maxPath < path.utf8ByteSize then .error .nameTooLong
  else if Text.beginsWith "/" path then walk [system] system (Text.splitAt '/' path)
  else walk [] root (Text.splitAt '/' path)

/-- The contents of a file. -/
def readFile (root : FileTree) (path : String) : Except FileFault Bytes :=
  match root.find path with
  | .ok (.file contents _) => .ok contents
  | .ok (.program _) => .ok programBytes
  | .ok (.directory _) => .error .isDirectory
  | .error fault => .error fault

/-- Whether a path names a directory. -/
def isDirectory (root : FileTree) (path : String) : Bool :=
  match root.find path with
  | .ok (.directory _) => true
  | _ => false

/-- The names in a directory. -/
def namesIn (root : FileTree) (path : String) : Except FileFault (List String) :=
  match root.find path with
  | .ok (.directory entries) => .ok (entries.map Prod.fst)
  | .ok _ => .error .notDirectory
  | .error fault => .error fault

end FileTree

end ApiModel.Files
