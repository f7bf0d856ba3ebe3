import ApiModel.Files.Host
import ApiModel.Files.Path
import ApiModel.Files.Script.Pattern
import ApiModel.Files.Script.Token
import ApiModel.Files.Tree

/-!
# What a script sees and has done

The state of a script: the tree that it runs in, its arguments and parameters, where its descriptors
lead, and what it has written. Texts have one character for each byte.
-/

namespace ApiModel.Files.Script

/-- Where something that is written goes. -/
inductive Outlet where
  /-- To the usual output, which is not kept. -/
  | output
  /-- To the report of faults. -/
  | report
  /-- To the next command of a pipeline. -/
  | next
  /-- To the end of a file. -/
  | file (path : String)
deriving DecidableEq, Repr

/-- How the innermost loop is left. -/
inductive Leaving where
  /-- For good. -/
  | loop
  /-- For the next round. -/
  | round
deriving DecidableEq, Repr

/-- What a script sees and has done. -/
structure State where
  /-- The tree that it runs in. -/
  root : FileTree
  /-- Its name. -/
  name : String
  /-- Its arguments. -/
  arguments : List String
  /-- The values of parameters, latest first. -/
  bindings : List (String × String) := []
  /-- The files outside of the tree that it has written, latest first. -/
  written : List (String × Bytes) := []
  /-- The report of faults. -/
  report : Bytes := []
  /-- What the next command of a pipeline reads. -/
  passed : Bytes := []
  /-- What can be read. -/
  input : Bytes := []
  /-- Where output goes. -/
  outlet : Outlet := .output
  /-- Where complaints go. -/
  complaints : Outlet := .report
  /-- Whether a command that fails ends the script. -/
  strict : Bool := false
  /-- The status of the last command. -/
  status : Nat := 0
  /-- How the innermost loop is being left. -/
  leaving : Option Leaving := none
  /-- How the script has ended. -/
  ending : Option Ending := none

namespace State

/-- Whether no more commands are done for now. -/
def stopped (s : State) : Bool :=
  s.ending.isSome || s.leaving.isSome

/-! ## Files -/

/-- The name in the tree of a text with one character for each byte. -/
def treeName? (path : String) : Option String :=
  Text.ofBytes? (Text.gather path)

/-- What lies at a path of the tree. -/
def find (s : State) (path : String) : Except FileFault FileTree :=
  match treeName? path with
  | some path => s.root.find path
  | none => .error .notFound

/-- Whether a path names a directory. -/
def isDirectory (s : State) (path : String) : Bool :=
  match s.find path with
  | .ok (.directory _) => true
  | _ => false

/-- The contents of a file. -/
def contents (s : State) (path : String) : Except FileFault Bytes :=
  match s.written.lookup path with
  | some contents => .ok contents
  | none =>
    match treeName? path with
    | some path => s.root.readFile path
    | none => .error .notFound

/-- The directory that a file is put into. -/
def directoryOf (path : String) : String :=
  match Text.splitLast? '/' path.toList with
  | some ([], _) => "/"
  | some (directory, _) => String.ofList directory
  | none => "."

/-- Whether a file can be made or replaced. -/
def admits (s : State) (path : String) : Bool :=
  !path.isEmpty && s.isDirectory (directoryOf path) && !s.isDirectory path

/-- The state with a file of some contents. -/
def put (s : State) (path : String) (contents : Bytes) : State :=
  if Text.beginsWith "/" path then { s with written := (path, contents) :: s.written }
  else
    match treeName? path with
    | none => s
    | some path =>
      let executable :=
        match s.root.find path with
        | .ok (.file _ executable) => executable
        | _ => false
      { s with root := FileTree.put (.file contents executable) s.root (components path) }

/-! ## Output -/

/-- The state after something has been written. -/
def write (s : State) (outlet : Outlet) (contents : Bytes) : State :=
  match outlet with
  | .output => s
  | .report => { s with report := s.report ++ contents }
  | .next => { s with passed := s.passed ++ contents }
  | .file path => s.put path ((s.contents path).toOption.getD [] ++ contents)

/-- The state after a text has been said. -/
def say (s : State) (text : String) : State :=
  s.write s.outlet (Text.gather text)

/-- The state after a complaint. -/
def complain (s : State) (text : String) : State :=
  s.write s.complaints (Text.gather (text ++ "\n"))

/-- The state after a failure that is complained about. -/
def fail (s : State) (status : Nat) (text : String) : State :=
  { s.complain text with status := status }

/-- The beginning of a complaint about a line. -/
def place (s : State) (line : Nat) : String :=
  s.name ++ ": " ++ Nat.repr line ++ ": "

/-- The state once the script has ended with a status. -/
def finish (s : State) (status : Nat) : State :=
  { s with status := status, ending := some (.status status) }

/-! ## Words -/

/-- The value of a parameter, if it has one. -/
def value? (s : State) (name : String) : Option String :=
  match name.toList with
  | ['0'] => some s.name
  | ['#'] => some (Nat.repr s.arguments.length)
  | ['?'] => some (Nat.repr s.status)
  | ['$'] => some "$"
  | ['*'] => some (" ".intercalate s.arguments)
  | letters =>
    if letters.all Char.isDigit then
      match name.toNat? with
      | some (index + 1) => s.arguments[index]?
      | _ => none
    else s.bindings.lookup name

/-- The value of a parameter; a missing one is empty. -/
def value (s : State) (name : String) : String :=
  (s.value? name).getD ""

end State

/-- A part of an expanded word. -/
inductive Mark where
  /-- A letter. -/
  | letter (letter : Letter)
  /-- The word is there, even if it has no letters. -/
  | presence
  /-- Words part here; where they do not, a character stands. -/
  | gap (value : Char)
deriving DecidableEq, Repr

/-- The marks of a value, which parts at blanks unless it is quoted. -/
def marksOfValue (quoted : Bool) (value : List Char) : List Mark :=
  value.map fun c =>
    if !quoted && " \t\n".toList.contains c then .gap c else .letter ⟨quoted, c⟩

/-- The letters of marks, when words do not part. -/
def lettersOf (marks : List Mark) : List Letter :=
  marks.filterMap fun mark =>
    match mark with
    | .letter letter => some letter
    | .presence => none
    | .gap c => some ⟨false, c⟩

/-- The text of letters. -/
def textOf (letters : List Letter) : String :=
  String.ofList (letters.map Letter.value)

/-- The marks of arguments, between which words part. -/
def marksOfArguments (quoted : Bool) : List String → List Mark
  | [] => []
  | [last] => (if quoted then [.presence] else []) ++ marksOfValue quoted last.toList
  | first :: rest =>
    (if quoted then [.presence] else []) ++ marksOfValue quoted first.toList
      ++ .gap ' ' :: marksOfArguments quoted rest

/-- A mark of a word that takes the place of a value: quoted if the value is, and else words part at
its blanks. -/
def Mark.asValue (quoted : Bool) : Mark → Mark
  | .letter plain =>
    if quoted then .letter { plain with quoted := true }
    else if !plain.quoted && " \t\n".toList.contains plain.value then .gap plain.value
    else .letter plain
  | .presence => .presence
  | .gap c => if quoted then .letter ⟨true, c⟩ else .gap c

mutual

/-- The marks of a piece. -/
def State.marks (s : State) : Piece → List Mark
  | .text quoted letters =>
    (if quoted then [.presence] else []) ++ letters.map fun c => .letter ⟨quoted, c⟩
  | .value quoted name => marksOfValue quoted (s.value name).toList
  | .size name => marksOfValue true (Nat.repr (s.value name).length).toList
  | .trimmed quoted name cut pattern =>
    let pattern := patternOf (lettersOf (s.marksOfWord pattern))
    let remaining := if cut.atEnd then withoutEnd else withoutStart
    marksOfValue quoted (remaining cut.longest pattern (s.value name).toList)
  | .replaced quoted name rule word =>
    let found := (s.value? name).filter fun value => !(rule.emptyIsMissing && value.isEmpty)
    if found.isSome == rule.ofPresent then (s.marksOfWord word).map (Mark.asValue quoted)
    else marksOfValue quoted (found.getD "").toList
  | .arguments quoted => marksOfArguments quoted s.arguments

/-- The marks of a word. -/
def State.marksOfWord (s : State) : List Piece → List Mark
  | [] => []
  | piece :: rest => s.marks piece ++ s.marksOfWord rest

end

/-- The words into which marks part. -/
def fieldsOf : List Mark → List (List Letter)
  | [] => []
  | .gap _ :: rest => fieldsOf rest
  | first :: rest =>
    let isGap (mark : Mark) : Bool :=
      match mark with
      | .gap _ => true
      | _ => false
    let here := first :: rest.takeWhile fun mark => !isGap mark
    lettersOf here :: fieldsOf (rest.dropWhile fun mark => !isGap mark)
termination_by marks => marks.length
decreasing_by
  · simp
  · exact Nat.lt_succ_of_le (List.dropWhile_suffix _).length_le

/-- The text of a word that does not part. -/
def State.text (s : State) (word : Word) : String :=
  textOf (lettersOf (s.marksOfWord word))

/-- Whether the pattern of a branch matches a text. -/
def State.matches (s : State) (subject : String) (pattern : Word) : Bool :=
  covers (patternOf (lettersOf (s.marksOfWord pattern))) subject.toList

/-! ## Names of files -/

/-- The paths below a directory that match patterns for their parts, in order. A name that begins
with a dot has to be meant. -/
def pathsBelow : FileTree → List (List Letter) → List String
  | _, [] => []
  | .directory entries, part :: rest =>
    let pattern := patternOf part
    let names := entries.filterMap fun (name, inner) =>
      let name := (Text.spread (Text.toBytes name)).toList
      let meant := part.head?.map Letter.value == some '.' || name.head? != some '.'
      if meant && covers pattern name then some (String.ofList name, inner) else none
    match rest with
    | [] => names.map Prod.fst
    | rest => names.flatMap fun (name, inner) =>
      (pathsBelow inner rest).map fun path => name ++ "/" ++ path
  | .file _ _, _ :: _ => []
  | .program _, _ :: _ => []
termination_by _ parts => parts.length

/-- The texts that a word stands for: the names of files if it is a pattern that matches some, and
else the word itself. -/
def State.filesOrText (s : State) (letters : List Letter) : List String :=
  let absolute := letters.head?.any fun letter => letter.value == '/'
  if !absolute && (patternOf letters).any Matcher.isOpen then
    let parts := letters.splitBy fun a b => a.value != '/' && b.value != '/'
    match pathsBelow s.root (parts.filter fun part => part.all fun letter =>
      letter.value != '/') with
    | [] => [textOf letters]
    | paths => paths
  else [textOf letters]

/-- The texts of a word. -/
def State.texts (s : State) (word : Word) : List String :=
  (fieldsOf (s.marksOfWord word)).flatMap s.filesOrText

end ApiModel.Files.Script
