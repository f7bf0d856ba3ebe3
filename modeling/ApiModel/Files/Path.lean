import ApiModel.Text.Basic

/-!
# Paths of files

The components of a path, and what depends on them: the name of a file and its extension, and
whether a path lies below another. Empty components say nothing, and neither does a single dot
behind the first component.
-/

namespace ApiModel.Files

/-- The component that an absolute path begins with. -/
def rootComponent : String := "/"

/-- The components of a path. -/
def components (path : String) : List String :=
  let parts := Text.splitAt '/' path
  let first :=
    match parts with
    | "." :: _ => ["."]
    | _ => if Text.beginsWith "/" path then [rootComponent] else []
  first ++ parts.filter fun part => !part.isEmpty && part != "."

/-- The name of the file at a path. -/
def fileName? (path : String) : Option String :=
  (components path).getLast?.filter fun name => name != rootComponent && name != "." && name != ".."

/-- The extension of a name: what stands behind its last dot, unless nothing stands before it. -/
def extensionOfName? (name : String) : Option String :=
  match Text.splitLast? '.' name.toList with
  | some ([], _) => none
  | some (_, ending) => some (String.ofList ending)
  | none => none

/-- The extension of the file at a path. -/
def extension? (path : String) : Option String :=
  (fileName? path).bind extensionOfName?

/-- The path of something inside a directory. -/
def join (directory path : String) : String :=
  if Text.beginsWith "/" path || directory.isEmpty then path
  else if Text.endsWith "/" directory then directory ++ path
  else directory ++ "/" ++ path

/-- Whether a path is another one or lies below it. -/
def liesIn (path directory : String) : Bool :=
  (components directory).isPrefixOf (components path)

end ApiModel.Files
