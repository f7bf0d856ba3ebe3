import ApiModel.Files.Script.Run

/-!
# Programs

How the executable files of a tree are started, for the host that is made of a tree. A script names
its interpreter behind a mark at its beginning; the interpreter may be a script too. In the end a
program of the system runs.
-/

namespace ApiModel.Files

/-- A program of the system with its arguments, of which the first is its own name. -/
structure Launch where
  /-- The program. -/
  program : SystemProgram
  /-- The name. -/
  name : String
  /-- The other arguments. -/
  arguments : List String
deriving DecidableEq, Repr

/-- The interpreter that a script names, and the argument for it. -/
structure Interpreter where
  /-- The path of the interpreter. -/
  path : String
  /-- The argument. -/
  argument : Option String
deriving DecidableEq, Repr

/-! ## Interpreters -/

/-- How many bytes of a file tell what it is. -/
def headerSize : Nat := 256

/-- Whether a byte, as a character, is a blank. -/
def isHeaderBlank (c : Char) : Bool :=
  c == ' ' || c == '\t'

/-- Characters without the blanks at their end. -/
def trimEnd (line : List Char) : List Char :=
  (line.reverse.dropWhile isHeaderBlank).reverse

/-- The line that names an interpreter, which the header may cut off. Blanks do not count at its
end, unless the file or a zero byte ends it. A first word that is missing or cut off is no path. -/
def interpreterLine? (contents : Bytes) : Option (List Char) :=
  match (Text.spread (contents.take headerSize)).toList with
  | '#' :: '!' :: rest =>
    let line := rest.takeWhile fun c => c != '\n' && c != '\x00'
    let word := line.dropWhile isHeaderBlank
    match rest[line.length]? with
    | some '\n' => if word.isEmpty then none else some (trimEnd word)
    | some _ => some word
    | none =>
      if contents.length < headerSize then some word
      else if word.any isHeaderBlank then some (trimEnd word.dropLast)
      else none
  | _ => none

/-- The interpreter that a script names: the first word of the line is its path, and the rest is one
argument. -/
def Interpreter.of? (contents : Bytes) : Option Interpreter :=
  (interpreterLine? contents).map fun line =>
    let path := line.takeWhile fun c => !isHeaderBlank c
    let behind := line.drop path.length
    ⟨String.ofList path,
      if behind.isEmpty then none else some (String.ofList (behind.dropWhile isHeaderBlank))⟩

/-! ## Starting -/

/-- How many files a start may lead through. -/
def maxInterpreters : Nat := 6

/-- Finds the program that runs in the end. Texts have one character for each byte. -/
def launch (s : Script.State) : Nat → String → List String → Except FileFault Launch
  | levels, path, arguments =>
    if path.isEmpty then .error .notPermitted
    else
      match s.find path with
      | .error fault => .error fault
      | .ok (.directory _) => .error .notPermitted
      | .ok (.file _ false) => .error .notPermitted
      | .ok found =>
        match levels with
        | 0 => .error .tooManyLevels
        | levels + 1 =>
          match found with
          | .program program => .ok ⟨program, path, arguments⟩
          | .file contents _ =>
            match Interpreter.of? contents with
            | none => .error .notProgram
            | some interpreter =>
              launch s levels interpreter.path (interpreter.argument.toList ++ path :: arguments)
          | .directory _ => .error .notPermitted

/-- Finds the program that a call names, by a path or by the name that it has on every system. -/
def launchNamed (s : Script.State) (name : String) (arguments : List String) :
    Except FileFault Launch :=
  if name.toList.contains '/' then launch s maxInterpreters name arguments
  else if name == "." || name == ".." then .error .notPermitted
  else
    match FileTree.systemPrograms.lookup name with
    | some program => .ok ⟨program, name, arguments⟩
    | none => .error .notFound

/-! ## Running -/

/-- Runs the shell: options, then the path of a script and its arguments. -/
def runShell (s : Script.State) (name : String) : List String → Script.State
  | [] => s.finish 0
  | word :: rest =>
    if word == "-" || word == "--" then
      match rest with
      | [] => s.finish 0
      | path :: rest => runFile path rest
    else if Text.beginsWith "--" word then (s.complain (name ++ ": 0: Illegal option --")).finish 2
    else if Text.beginsWith "-" word then
      runShell (if word.toList.contains 'e' then { s with strict := true } else s) name rest
    else runFile word rest
where
  /-- Runs a script of the shell. -/
  runFile (path : String) (arguments : List String) : Script.State :=
    match s.contents path with
    | .ok contents =>
      Script.State.runScript { s with name := path, arguments := arguments } contents
    | .error _ => (s.complain (name ++ ": 0: cannot open " ++ path ++ ": No such file")).finish 2

/-- Runs the program that the first argument names. -/
def runEnv (s : Script.State) : List String → Script.State
  | [] => s.finish 0
  | name :: arguments =>
    match FileTree.systemPrograms.lookup name with
    | some .shell => runShell s name arguments
    | some .failure => s.finish 1
    | some _ => s.finish 0
    | none => (s.complain ("env: '" ++ name ++ "': No such file or directory")).finish 127

/-- Runs a program of the system. -/
def Launch.run (l : Launch) (s : Script.State) : Script.State :=
  match l.program with
  | .success => s.finish 0
  | .failure => s.finish 1
  | .env => runEnv s l.arguments
  | .shell => runShell s l.name l.arguments

end ApiModel.Files
