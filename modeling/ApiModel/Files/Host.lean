import ApiModel.Error
import ApiModel.Text.Basic

/-!
# The host

What building a model needs from the outside: files, directories and the program that compiles
schemas. It is left open how a host does these things.
-/

namespace ApiModel.Files

/-- A call of the schema compiler. -/
structure CompilerCall where
  /-- The program. -/
  program : String
  /-- The arguments, without the one that says where the compiled schemas go. -/
  arguments : List String
deriving DecidableEq, Repr

/-- How a program ends. -/
inductive Ending where
  /-- With a status. -/
  | status (code : Nat)
  /-- By a signal. -/
  | signal (number : Nat)
deriving DecidableEq, Repr

/-- The names of the signals that end a program, and their numbers. -/
def signalNumbers : List (String × Nat) :=
  [("HUP", 1), ("INT", 2), ("QUIT", 3), ("ILL", 4), ("TRAP", 5), ("ABRT", 6),
    ("BUS", 7), ("FPE", 8), ("KILL", 9), ("USR1", 10), ("SEGV", 11), ("USR2", 12), ("PIPE", 13),
    ("ALRM", 14), ("TERM", 15)]

/-- The text of an ending. -/
def Ending.message : Ending → String
  | .status code => "exit status: " ++ Nat.repr code
  | .signal number =>
    let names := signalNumbers.filterMap fun (name, n) => if n == number then some name else none
    "signal: " ++ Nat.repr number ++ names.foldl
      (fun text name => text ++ " (SIG" ++ name ++ ")") ""

/-- What became of a call of the schema compiler. -/
inductive CompilerResult where
  /-- The program could not be started. -/
  | notStarted (fault : FileFault)
  /-- The program ended and did not succeed, and told why. -/
  | failed (ending : Ending) (report : Bytes)
  /-- The program succeeded, but what it should have written cannot be read. -/
  | unreadable (path : String) (fault : FileFault)
  /-- The compiled schemas. -/
  | compiled (contents : Bytes)
deriving DecidableEq, Repr

/-- What a host offers. -/
structure Host (m : Type → Type) where
  /-- The contents of a file. -/
  readFile : String → m (Except FileFault Bytes)
  /-- Whether a path names a directory. -/
  isDirectory : String → m Bool
  /-- The names in a directory. -/
  namesIn : String → m (Except FileFault (List String))
  /-- The schema compiler that was chosen, if one was. -/
  compiler : m (Option String)
  /-- Calls the schema compiler. -/
  compile : CompilerCall → m CompilerResult

end ApiModel.Files
