import ApiModel.Files.Script.Token

/-!
# Commands of scripts

How tokens make up commands. A script is read line by line, where a command may go over several
lines, so that what stands before a fault is still done.
-/

namespace ApiModel.Files.Script

/-- The text of a word without quotes and parameters. -/
def bareText? : Word → Option (List Char)
  | [.text false letters] => some letters
  | _ => none

/-- Whether a token is a word of the language itself. -/
def Token.isKeyword (name : String) : Token → Bool
  | .word _ pieces => bareText? pieces == some name.toList
  | _ => false

/-- The words of the language itself that end commands. -/
def closingKeywords : List String :=
  ["then", "do", "done", "fi", "elif", "else", "esac", "\x7d"]

/-- Whether a token ends a list of commands inside another one. -/
def Token.endsList (token : Token) : Bool :=
  match token with
  | .closing => true
  | .branchStop => true
  | token => closingKeywords.any token.isKeyword

/-- Whether a token ends a line. -/
def Token.isNewline : Token → Bool
  | .newline => true
  | _ => false

/-- The tokens behind the ends of lines. -/
def skipLines (input : List Token) : List Token :=
  input.dropWhile Token.isNewline

/-- The tokens behind a keyword. -/
def expect (name : String) : List Token → Option (List Token)
  | token :: rest => if token.isKeyword name then some rest else none
  | [] => none

/-- The tokens behind a closing bracket. -/
def expectClosing : List Token → Option (List Token)
  | .closing :: rest => some rest
  | _ => none

/-- Reads redirections. -/
def redirections : List Token → List Redirection × List Token
  | .redirection descriptor direction :: .word _ target :: rest =>
    let (others, rest) := redirections rest
    (⟨descriptor, direction, target⟩ :: others, rest)
  | rest => ([], rest)

/-- The name and the value of a word that sets a parameter. -/
def binding? : Word → Option (String × Word)
  | .text false letters :: rest =>
    match Text.splitFirst? '=' letters with
    | some (name, []) => if isName name then some (String.ofList name, rest) else none
    | some (name, value) =>
      if isName name then some (String.ofList name, attach (.text false value) rest) else none
    | none => none
  | _ => none

/-- A simple command as far as it is read. -/
structure Parts where
  /-- The values for parameters. -/
  bindings : List (String × Word) := []
  /-- The words. -/
  words : List Word := []
  /-- The redirections. -/
  redirections : List Redirection := []

/-- Reads the parts of a simple command. Values for parameters stand before all other words. -/
def parts (p : Parts) : List Token → Parts × List Token
  | .redirection descriptor direction :: .word _ target :: rest =>
    parts { p with redirections := p.redirections ++ [⟨descriptor, direction, target⟩] } rest
  | .word _ pieces :: rest =>
    match (if p.words.isEmpty then binding? pieces else none) with
    | some binding => parts { p with bindings := p.bindings ++ [binding] } rest
    | none => parts { p with words := p.words ++ [pieces] } rest
  | rest => (p, rest)

/-- The line on which a command begins. -/
def lineOf : List Token → Nat
  | .word line _ :: _ => line
  | _ :: .word line _ :: _ => line
  | _ => 0

/-- Reads a simple command, which has at least one part. -/
def simple (input : List Token) : Option (Command × List Token) :=
  let (p, rest) := parts {} input
  if p.bindings.isEmpty && p.words.isEmpty && p.redirections.isEmpty then none
  else if input.head?.any Token.endsList then none
  else some (.simple (lineOf input) p.bindings p.words p.redirections, rest)

/-- Reads the words up to the next other token. -/
def wordsOf : List Token → List Word × List Token
  | .word _ pieces :: rest =>
    let (words, after) := wordsOf rest
    (pieces :: words, after)
  | rest => ([], rest)

/-- Reads the words of a loop, which are all arguments unless they are told. -/
def loopWords (input : List Token) : Option (List Word × List Token) :=
  match expect "in" (skipLines input) with
  | some rest =>
    match wordsOf rest with
    | (words, .stop :: rest) => some (words, rest)
    | (words, .newline :: rest) => some (words, rest)
    | _ => none
  | none =>
    match input with
    | .stop :: rest => some ([[.arguments true]], rest)
    | rest => some ([[.arguments true]], rest)

/-- Reads the patterns of a branch behind the first of them, up to the bracket. -/
def morePatterns : List Token → Option (List Word × List Token)
  | .closing :: rest => some ([], rest)
  | .bar :: .word _ pattern :: rest => (morePatterns rest).map fun (patterns, rest) =>
    (pattern :: patterns, rest)
  | _ => none

/-- Reads the patterns of a branch. -/
def patterns : List Token → Option (List Word × List Token)
  | .opening :: .word _ pattern :: rest => (morePatterns rest).map fun (others, rest) =>
    (pattern :: others, rest)
  | .word _ pattern :: rest => (morePatterns rest).map fun (others, rest) =>
    (pattern :: others, rest)
  | _ => none

mutual

/-- Reads commands; inside of another command they may go over several lines. Every step takes a
token or goes into a smaller part of the language. -/
def list : Nat → Bool → List Token → Option (List Command × List Token)
  | 0, _, _ => none
  | fuel + 1, inside, input =>
    let input := if inside then skipLines input else input
    if input.head?.all fun token => token.isNewline || (inside && token.endsList)
      then some ([], input)
    else do
      let (first, rest) ← chain fuel input
      match rest with
      | .stop :: rest => (list fuel inside rest).map fun (others, rest) => (first :: others, rest)
      | .background :: rest => (list fuel inside rest).map fun (others, rest) =>
        (.group true [first] :: others, rest)
      | .newline :: rest =>
        if inside then (list fuel inside rest).map fun (others, rest) => (first :: others, rest)
        else some ([first], .newline :: rest)
      | rest => some ([first], rest)

/-- Reads a pipeline and those that depend on it. -/
def chain : Nat → List Token → Option (Command × List Token)
  | 0, _ => none
  | fuel + 1, input => do
    let (first, rest) ← pipeline fuel input
    chainRest fuel first rest

/-- Reads the pipelines that depend on what comes before them. -/
def chainRest : Nat → Command → List Token → Option (Command × List Token)
  | 0, _, _ => none
  | fuel + 1, first, .both :: rest => do
    let (second, rest) ← pipeline fuel (skipLines rest)
    chainRest fuel (.both first second) rest
  | fuel + 1, first, .either :: rest => do
    let (second, rest) ← pipeline fuel (skipLines rest)
    chainRest fuel (.either first second) rest
  | _ + 1, first, rest => some (first, rest)

/-- Reads a pipeline. -/
def pipeline : Nat → List Token → Option (Command × List Token)
  | 0, _ => none
  | fuel + 1, input => do
    match expect "!" input with
    | some rest => (pipeline fuel rest).map fun (command, rest) => (.negated command, rest)
    | none =>
      let (first, rest) ← command fuel input
      match rest with
      | .bar :: rest => (pipeline fuel (skipLines rest)).map fun (others, rest) =>
        (.piped first others, rest)
      | rest => some (first, rest)

/-- Reads a command with its redirections. -/
def command : Nat → List Token → Option (Command × List Token)
  | 0, _ => none
  | fuel + 1, input =>
    match compound fuel input with
    | none => none
    | some none => simple input
    | some (some (found, rest)) =>
      match redirections rest with
      | ([], rest) => some (found, rest)
      | (changes, rest) => some (.redirected (lineOf input) found changes, rest)

/-- Reads a command that holds others; the outer result is missing where such a command is faulty,
and the inner one where another kind of command stands. -/
def compound : Nat → List Token → Option (Option (Command × List Token))
  | 0, _ => none
  | fuel + 1, input => do
    match input with
    | .opening :: rest =>
      let (body, rest) ← list fuel true rest
      return some (.group true body, ← expectClosing rest)
    | first :: rest =>
      if first.isKeyword "\x7b" then do
        let (body, rest) ← list fuel true rest
        return some (.group false body, ← expect "\x7d" rest)
      else if first.isKeyword "for" then do
        match rest with
        | .word _ name :: rest =>
          let name ← (bareText? name).filter isName
          let (words, rest) ← loopWords rest
          let (body, rest) ← list fuel true (← expect "do" (skipLines rest))
          return some (.loop (String.ofList name) words body, ← expect "done" rest)
        | _ => none
      else if first.isKeyword "while" || first.isKeyword "until" then do
        let (condition, rest) ← list fuel true rest
        let (body, rest) ← list fuel true (← expect "do" rest)
        return some (.repeated (first.isKeyword "while") condition body, ← expect "done" rest)
      else if first.isKeyword "if" then do
        let (found, rest) ← conditional fuel rest
        return some (found, rest)
      else if first.isKeyword "case" then do
        match rest with
        | .word _ subject :: rest =>
          let (found, rest) ← branches fuel (← expect "in" (skipLines rest))
          return some (.choice subject found, rest)
        | _ => none
      else return none
    | [] => return none

/-- Reads a condition and what depends on it, up to the end of the whole. -/
def conditional : Nat → List Token → Option (Command × List Token)
  | 0, _ => none
  | fuel + 1, input => do
    let (condition, rest) ← list fuel true input
    let (body, rest) ← list fuel true (← expect "then" rest)
    match rest with
    | next :: rest =>
      if next.isKeyword "elif" then do
        let (otherwise, rest) ← conditional fuel rest
        return (.branch condition body [otherwise], rest)
      else if next.isKeyword "else" then do
        let (otherwise, rest) ← list fuel true rest
        return (.branch condition body otherwise, ← expect "fi" rest)
      else return (.branch condition body [], ← expect "fi" (next :: rest))
    | [] => none

/-- Reads the branches of a choice up to its end. -/
def branches : Nat → List Token → Option (List (List Word × List Command) × List Token)
  | 0, _ => none
  | fuel + 1, input => do
    let input := skipLines input
    match expect "esac" input with
    | some rest => some ([], rest)
    | none =>
      let (found, rest) ← patterns input
      let (body, rest) ← list fuel true rest
      match rest with
      | .branchStop :: rest =>
        let (others, rest) ← branches fuel rest
        return ((found, body) :: others, rest)
      | rest => return ([(found, body)], ← expect "esac" rest)

end

/-- Reads the commands of the next line, which may end on a later one. -/
def nextLine (input : List Token) : Option (List Command × List Token) := do
  let (found, rest) ← list (8 * input.length + 8) false input
  if rest.head?.all Token.isNewline then some (found, rest) else none

end ApiModel.Files.Script
