import ApiModel.Text.Utf8

/-!
# Scripts

The shell language that the executable files of a tree are written in, as far as they use it: simple
commands with redirections, lists, pipelines, loops and choices. A compiler of schemas that stands
in a tree is such a script: it looks at its arguments, writes a descriptor set or a report, and ends
with a status, and that is what creating a model depends on. A script is a sequence of bytes, and
each byte counts as one character here. What commands do is told in other modules.
-/

namespace ApiModel.Files.Script

/-- Which end of a value a pattern is taken away from, and how much of it. -/
structure Cut where
  /-- Whether it is the end of the value and not its beginning. -/
  atEnd : Bool
  /-- Whether as much as possible goes. -/
  longest : Bool
deriving DecidableEq, Repr

/-- When a word takes the place of a value. -/
structure Replacement where
  /-- Whether the word stands for a value that is there, and not for a missing one. -/
  ofPresent : Bool
  /-- Whether an empty value counts as a missing one. -/
  emptyIsMissing : Bool
deriving DecidableEq, Repr

/-- A part of a word. -/
inductive Piece where
  /-- Text, between quotes or not. -/
  | text (quoted : Bool) (letters : List Char)
  /-- The value of a parameter. -/
  | value (quoted : Bool) (name : String)
  /-- How long the value of a parameter is. -/
  | size (name : String)
  /-- The value of a parameter without what a pattern matches at one end. -/
  | trimmed (quoted : Bool) (name : String) (cut : Cut) (pattern : List Piece)
  /-- The value of a parameter, or a word in its place. -/
  | replaced (quoted : Bool) (name : String) (rule : Replacement) (word : List Piece)
  /-- All arguments of the script, each on its own. -/
  | arguments (quoted : Bool)
deriving Repr

/-- A word. -/
abbrev Word := List Piece

/-- What a redirection does. -/
inductive Direction where
  /-- Writes to a new file. -/
  | create
  /-- Writes behind what a file holds. -/
  | append
  /-- Reads a file. -/
  | read
  /-- Goes where another descriptor leads. -/
  | follow
  /-- Reads the target itself. -/
  | here
deriving DecidableEq, Repr

/-- A change of where a descriptor leads. -/
structure Redirection where
  /-- The descriptor. -/
  descriptor : Nat
  /-- What is done. -/
  direction : Direction
  /-- The file, the other descriptor, or the text. -/
  target : Word
deriving Repr

/-- A command. -/
inductive Command where
  /-- Values for parameters, and a tool with its arguments; the line is told when something
  fails. -/
  | simple (line : Nat) (bindings : List (String × Word)) (words : List Word)
      (redirections : List Redirection)
  /-- Commands for each of some words in turn. -/
  | loop (name : String) (words : List Word) (body : List Command)
  /-- Commands for as long as a condition holds, or until it does. -/
  | repeated (whileTrue : Bool) (condition body : List Command)
  /-- The commands of the first branch that has a matching pattern. -/
  | choice (subject : Word) (branches : List (List Word × List Command))
  /-- Commands that depend on whether a condition holds. -/
  | branch (condition body otherwise : List Command)
  /-- A command, and another one if the first succeeds. -/
  | both (first second : Command)
  /-- A command, and another one if the first fails. -/
  | either (first second : Command)
  /-- A command that succeeds where another one fails. -/
  | negated (command : Command)
  /-- A command that reads what another one writes. -/
  | piped (first second : Command)
  /-- Commands together; what they change may be kept to themselves. -/
  | group (apart : Bool) (body : List Command)
  /-- A command with redirections for all of it; the line is told when one of them fails. -/
  | redirected (line : Nat) (command : Command) (redirections : List Redirection)

end ApiModel.Files.Script
