import ApiModel.Files.Script

/-!
# Tokens of scripts

Words, operators and the ends of lines. A script whose words do not end is malformed from there on,
but the tokens before still count.
-/

namespace ApiModel.Files.Script

/-- A token of a script. -/
inductive Token where
  /-- A word, and the line that it stands on. -/
  | word (line : Nat) (pieces : Word)
  /-- The end of a line. -/
  | newline
  /-- The end of a command on a line. -/
  | stop
  /-- The end of a branch. -/
  | branchStop
  /-- The mark behind a command that is not waited for. -/
  | background
  /-- The mark between commands of which the second needs the success of the first. -/
  | both
  /-- The mark between commands of which the second needs the failure of the first. -/
  | either
  /-- The bar between the commands of a pipeline or the patterns of a branch. -/
  | bar
  /-- An opening bracket. -/
  | opening
  /-- A closing bracket. -/
  | closing
  /-- A redirection, whose target follows. -/
  | redirection (descriptor : Nat) (direction : Direction)
  /-- Something that is no token. -/
  | malformed
deriving Repr

/-! ## Words -/

/-- Whether a character may stand in the name of a parameter. -/
def isNameChar (c : Char) : Bool :=
  c.isAlphanum || c == '_'

/-- Whether a text is the name of a parameter that can be set. -/
def isName (text : List Char) : Bool :=
  !text.isEmpty && text.all isNameChar && !(text.head?.any Char.isDigit)

/-- Whether a character is a parameter of its own. -/
def isSpecial (c : Char) : Bool :=
  "@*#?$!-".toList.contains c

/-- Whether a character ends a word outside of quotes. -/
def endsWord (c : Char) : Bool :=
  " \t\n;|&()<>".toList.contains c

/-- What surrounds a part of a word, and so tells where it ends and which characters are special. -/
inductive Surrounding where
  /-- Nothing. -/
  | bare
  /-- Double quotes. -/
  | quotes
  /-- The braces of a parameter. -/
  | braces
  /-- The lines of a text for a command to read. -/
  | lines
deriving DecidableEq, Repr

/-- Puts a piece before a word. Texts that are quoted alike become one. -/
def attach (piece : Piece) (word : Word) : Word :=
  match piece, word with
  | .text quoted letters, .text alike more :: rest =>
    if quoted == alike then .text quoted (letters ++ more) :: rest else piece :: word
  | _, _ => piece :: word

/-- What stands between double quotes. All arguments may be none, anything else is there even if it
is empty. -/
def quotedWord : Word → Word
  | [.arguments true] => [.arguments true]
  | inner => attach (.text true []) inner

/-- The piece for the value of a parameter. -/
def valueOf (quoted : Bool) (name : List Char) : Piece :=
  if name == ['@'] then .arguments quoted else .value quoted (String.ofList name)

/-- Reads the name of a parameter between braces. -/
def bracedName : List Char → Option (List Char × List Char)
  | [] => none
  | c :: rest =>
    if isSpecial c then some ([c], rest)
    else
      let name := (c :: rest).takeWhile isNameChar
      if name.isEmpty then none else some (name, (c :: rest).drop name.length)

/-- Reads what is done to a value, with the mark of it. -/
def replacement? : List Char → Option (Replacement × List Char)
  | ':' :: '-' :: rest => some (⟨false, true⟩, rest)
  | ':' :: '+' :: rest => some (⟨true, true⟩, rest)
  | '-' :: rest => some (⟨false, false⟩, rest)
  | '+' :: rest => some (⟨true, false⟩, rest)
  | _ => none

/-- Reads which end of a value is cut. -/
def cut? : List Char → Option (Cut × List Char)
  | '#' :: '#' :: rest => some (⟨false, true⟩, rest)
  | '#' :: rest => some (⟨false, false⟩, rest)
  | '%' :: '%' :: rest => some (⟨true, true⟩, rest)
  | '%' :: rest => some (⟨true, false⟩, rest)
  | _ => none

mutual

/-- Reads pieces of a word up to where the surrounding ends; every round takes a character. -/
def pieces : Nat → Surrounding → List Char → Option (Word × List Char)
  | 0, _, _ => none
  | _ + 1, around, [] => if around == .bare || around == .lines then some ([], []) else none
  | fuel + 1, around, c :: rest =>
    let quoted := around == .quotes || around == .lines
    let followedBy (piece : Piece) (rest : List Char) : Option (Word × List Char) :=
      (pieces fuel around rest).map fun (others, rest) => (attach piece others, rest)
    if c == '"' && around != .lines then
      if quoted then some ([], rest)
      else
        match pieces fuel .quotes rest with
        | none => none
        | some (inner, rest) =>
          (pieces fuel around rest).map fun (others, rest) => (quotedWord inner ++ others, rest)
    else if c == '$' then
      match expansion fuel quoted rest with
      | none => none
      | some (piece, rest) => followedBy piece rest
    else if c == '\\' then
      match rest with
      | [] => followedBy (.text quoted ['\\']) []
      | '\n' :: rest => pieces fuel around rest
      | d :: rest =>
        let isSpecial := "$\\`".toList.contains d || (d == '"' && around == .quotes)
        if quoted && !isSpecial then followedBy (.text true ['\\', d]) rest
        else followedBy (.text true [d]) rest
    else if "`".toList.contains c then none
    else if c == '\'' && !quoted then
      match rest.dropWhile (· != '\'') with
      | [] => none
      | _ :: after => followedBy (.text true (rest.takeWhile (· != '\''))) after
    else if c == '\x7d' && around == .braces then some ([], rest)
    else if endsWord c && around == .bare then some ([], c :: rest)
    else followedBy (.text quoted [c]) rest

/-- Reads what a dollar sign begins; alone it stands for itself. -/
def expansion : Nat → Bool → List Char → Option (Piece × List Char)
  | 0, _, _ => none
  | _ + 1, quoted, [] => some (.text quoted ['$'], [])
  | fuel + 1, quoted, c :: rest =>
    if c == '\x7b' then braced fuel quoted rest
    else if c == '(' then none
    else if isSpecial c || c.isDigit then some (valueOf quoted [c], rest)
    else
      let name := (c :: rest).takeWhile isNameChar
      if name.isEmpty then some (.text quoted ['$'], c :: rest)
      else some (valueOf quoted name, (c :: rest).drop name.length)

/-- Reads a parameter between braces behind the opening one. -/
def braced : Nat → Bool → List Char → Option (Piece × List Char)
  | 0, _, _ => none
  | fuel + 1, quoted, input => do
    let (name, rest) ← bracedName input
    match rest, cut? rest, replacement? rest with
    | '\x7d' :: rest, _, _ => some (valueOf quoted name, rest)
    | _, some (cut, rest), _ =>
      (pieces fuel .braces rest).map fun (pattern, rest) =>
        (.trimmed quoted (String.ofList name) cut pattern, rest)
    | _, _, some (rule, rest) =>
      (pieces fuel .braces rest).map fun (word, rest) =>
        (.replaced quoted (String.ofList name) rule word, rest)
    | _, _, _ =>
      if name == ['#'] then do
        let (name, rest) ← bracedName rest
        if rest.head? == some '\x7d' then some (.size (String.ofList name), rest.drop 1) else none
      else none

end

/-! ## Operators -/

/-- Reads a redirection, before which a descriptor may stand. -/
def redirection? (input : List Char) : Option (Token × List Char) :=
  let digits := input.takeWhile Char.isDigit
  let descriptor (usual : Nat) : Nat :=
    match digits with
    | [digit] => digit.toNat - '0'.toNat
    | _ => usual
  if 1 < digits.length then none
  else
    match input.drop digits.length with
    | '>' :: '>' :: rest => some (.redirection (descriptor 1) .append, rest)
    | '>' :: '&' :: rest => some (.redirection (descriptor 1) .follow, rest)
    | '>' :: '|' :: rest => some (.redirection (descriptor 1) .create, rest)
    | '>' :: rest => some (.redirection (descriptor 1) .create, rest)
    | '<' :: '&' :: rest => some (.redirection (descriptor 0) .follow, rest)
    | '<' :: rest => some (.redirection (descriptor 0) .read, rest)
    | _ => none

/-! ## Texts to read -/

/-- The lines of a text up to the one that ends it, and what comes behind. Tabs before a line may
not count. Every round takes a line. -/
def linesUpTo (ending : List Char) (tabsCount : Bool) : Nat → List Char → List Char × List Char
  | 0, input => ([], input)
  | _ + 1, [] => ([], [])
  | fuel + 1, input =>
    let whole := input.takeWhile (· != '\n')
    let behind := input.drop (whole.length + 1)
    let line := if tabsCount then whole else whole.dropWhile (· == '\t')
    if line == ending then ([], behind)
    else
      let (others, behind) := linesUpTo ending tabsCount fuel behind
      (line ++ '\n' :: others, behind)

/-- A text for a command to read, and the script without it. -/
structure Inset where
  /-- The text. -/
  text : Word
  /-- The script. -/
  rest : List Char
  /-- How many lines were taken out. -/
  lines : Nat

/-- Reads the word that ends a text to read, and takes the text out of the lines behind. -/
def inset? (input : List Char) : Option Inset := do
  let tabsCount := input.head? != some '-'
  let input := if tabsCount then input else input.drop 1
  let (ending, rest) ← pieces (input.length + 2) .bare
    (input.dropWhile fun c => c == ' ' || c == '\t')
  let letters := ending.flatMap fun piece =>
    match piece with
    | .text _ letters => letters
    | _ => []
  let isQuoted := ending.any fun piece =>
    match piece with
    | .text quoted _ => quoted
    | _ => false
  let here := rest.takeWhile (· != '\n')
  let (body, behind) := linesUpTo letters tabsCount (rest.length + 1) (rest.drop (here.length + 1))
  let text ← if isQuoted then some [.text true body] else
    (pieces (body.length + 2) .lines body).map Prod.fst
  return ⟨text, here ++ '\n' :: behind, rest.count '\n' - behind.count '\n' - 1⟩

/-- Reads an operator. -/
def operator? : List Char → Option (Token × List Char)
  | ';' :: ';' :: rest => some (.branchStop, rest)
  | ';' :: rest => some (.stop, rest)
  | '&' :: '&' :: rest => some (.both, rest)
  | '&' :: rest => some (.background, rest)
  | '|' :: '|' :: rest => some (.either, rest)
  | '|' :: rest => some (.bar, rest)
  | '(' :: rest => some (.opening, rest)
  | ')' :: rest => some (.closing, rest)
  | input => redirection? input

/-- Reads the tokens of a script from a line on. Some lines behind the line may have been taken out.
Every round takes a character. -/
def tokens : Nat → Nat → Nat → List Char → List Token
  | 0, _, _, _ => []
  | _ + 1, _, _, [] => []
  | fuel + 1, line, taken, c :: rest =>
    if c == ' ' || c == '\t' then tokens fuel line taken rest
    else if c == '\n' then .newline :: tokens fuel (line + 1 + taken) 0 rest
    else if c == '#' then tokens fuel line taken (rest.dropWhile (· != '\n'))
    else if c == '\\' && rest.head? == some '\n' then tokens fuel (line + 1) taken (rest.drop 1)
    else if c == '<' && rest.head? == some '<' then
      match inset? (rest.drop 1) with
      | some inset =>
        .redirection 0 .here :: .word line inset.text
          :: tokens fuel line (taken + inset.lines) inset.rest
      | none => [.malformed]
    else
      match operator? (c :: rest) with
      | some (token, rest) => token :: tokens fuel line taken rest
      | none =>
        match pieces (rest.length + 2) .bare (c :: rest) with
        | none => [.malformed]
        | some (pieces, after) =>
          let lines := (c :: rest).count '\n' - after.count '\n'
          .word line pieces :: tokens fuel (line + lines) taken after

/-- The tokens of a script. -/
def tokensOf (script : Bytes) : List Token :=
  let input := (Text.spread script).toList
  tokens (input.length + 1) 1 0 input

end ApiModel.Files.Script
