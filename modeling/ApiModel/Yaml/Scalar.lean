import ApiModel.Yaml.Cursor

/-!
# Scalars

The three kinds of scalars of a document: quoted, plain and block scalars. Line breaks inside a
quoted or plain scalar fold into spaces, blank lines into line breaks. The fuel of a loop bounds its
rounds, each of which moves the cursor; the length of the rest is enough.
-/

namespace ApiModel.Yaml

/-- A scalar and where the document goes on. -/
structure Scalar where
  /-- The text. -/
  text : List Char
  /-- The rest of the document. -/
  cursor : Cursor
  /-- Whether a line break came behind the text. -/
  broken : Bool := false

/-- The blanks between two pieces of a scalar. -/
structure Gap where
  /-- Spaces and tabs of the first line. -/
  spaces : List Char := []
  /-- The first line break, empty before it. -/
  firstBreak : List Char := []
  /-- The line breaks after it. -/
  laterBreaks : List Char := []
  /-- Whether a line break was met. -/
  broken : Bool := false

namespace Gap

/-- The gap behind a line break. -/
def withBreak (gap : Gap) (text : List Char) : Gap :=
  if gap.broken then { gap with laterBreaks := gap.laterBreaks ++ text }
  else { gap with spaces := [], firstBreak := text, broken := true }

/-- The text that stands for a gap: its spaces, or its folded line breaks. -/
def folded (gap : Gap) : List Char :=
  if gap.broken then
    if gap.firstBreak.head? == some '\n' then
      if gap.laterBreaks.isEmpty then [' '] else gap.laterBreaks
    else gap.firstBreak ++ gap.laterBreaks
  else gap.spaces

end Gap

/-! ## Quoted scalars -/

/-- The value of a hexadecimal digit. -/
def hexValue? (c : Char) : Option Nat :=
  if c.isDigit then some (c.toNat - '0'.toNat)
  else if 'a' ≤ c ∧ c ≤ 'f' then some (c.toNat - 'a'.toNat + 10)
  else if 'A' ≤ c ∧ c ≤ 'F' then some (c.toNat - 'A'.toNat + 10)
  else none

/-- The value of hexadecimal digits. -/
def hexNumber? (digits : List Char) : Option Nat :=
  digits.foldlM (fun value c => (hexValue? c).map (value * 16 + ·)) 0

/-- The character that a letter behind a backslash stands for. -/
def escaped? : Char → Option Char
  | '0' => some '\x00'
  | 'a' => some '\x07'
  | 'b' => some '\x08'
  | 't' => some '\t'
  | '\t' => some '\t'
  | 'n' => some '\n'
  | 'v' => some '\x0b'
  | 'f' => some '\x0c'
  | 'r' => some '\r'
  | 'e' => some '\x1b'
  | ' ' => some ' '
  | '"' => some '"'
  | '/' => some '/'
  | '\\' => some '\\'
  | 'N' => some '\u0085'
  | '_' => some '\u00a0'
  | 'L' => some '\u2028'
  | 'P' => some '\u2029'
  | _ => none

/-- How many digits follow the letter of an escaped code point. -/
def escapeDigits? : Char → Option Nat
  | 'x' => some 2
  | 'u' => some 4
  | 'U' => some 8
  | _ => none

/-- The character with a code point, if there is one. -/
def charOfCode? (code : Nat) : Option Char :=
  if code.isValidChar then some (Char.ofNat code) else none

/-- Reads what follows a backslash: the character and how long its spelling is. -/
def readEscape (c : Cursor) : Option (Char × Nat) :=
  match escaped? c.head with
  | some char => some (char, 1)
  | none => do
    let count ← escapeDigits? c.head
    let digits := (c.rest.drop 1).take count
    if digits.length < count then none
    else
      let char ← charOfCode? (← hexNumber? digits)
      return (char, count + 1)

/-- Reads the characters of a quoted scalar up to a gap or the closing quote; the text is reversed.
A backslash before a line break ends the piece with a broken gap. -/
def readQuotedPiece (single : Bool) : Nat → List Char → Cursor →
    Option (List Char × Cursor × Bool)
  | 0, _, _ => none
  | fuel + 1, text, c =>
    if isGap c.head then some (text, c, false)
    else if single then
      if c.head == '\'' then
        if c.ahead 1 == '\'' then readQuotedPiece single fuel ('\'' :: text) (c.skip 2)
        else some (text, c, false)
      else readQuotedPiece single fuel (c.head :: text) (c.skip 1)
    else if c.head == '"' then some (text, c, false)
    else if c.head == '\\' then
      if isBreak (c.ahead 1) then some (text, (c.skip 1).nextLine, true)
      else
        match readEscape (c.skip 1) with
        | none => none
        | some (char, length) => readQuotedPiece single fuel (char :: text) (c.skip (1 + length))
    else readQuotedPiece single fuel (c.head :: text) (c.skip 1)

/-- Reads the spaces and line breaks inside a quoted scalar. -/
def readQuotedGap : Nat → Gap → Cursor → Gap × Cursor
  | 0, gap, c => (gap, c)
  | fuel + 1, gap, c =>
    if isSpace c.head then
      readQuotedGap fuel
        (if gap.broken then gap else { gap with spaces := gap.spaces ++ [c.head] }) (c.skip 1)
    else if isBreak c.head then readQuotedGap fuel (gap.withBreak c.breakText) c.nextLine
    else (gap, c)

/-- Reads the pieces and gaps of a quoted scalar; the text before is reversed. -/
def readQuotedFrom (single : Bool) : Nat → List Char → Cursor → Option Scalar
  | 0, _, _ => none
  | fuel + 1, text, c =>
    if c.atDocumentMarks || c.atEnd then none
    else
      match readQuotedPiece single (c.rest.length + 1) text c with
      | none => none
      | some (text, after, escapedBreak) =>
        let quote := if single then '\'' else '"'
        if after.head == quote then some ⟨text.reverse, after.skip 1, false⟩
        else
          let (gap, next) :=
            readQuotedGap after.rest.length { broken := escapedBreak } after
          readQuotedFrom single fuel (gap.folded.reverse ++ text) next

/-- Reads a quoted scalar that begins here. -/
def readQuoted (single : Bool) (c : Cursor) : Option Scalar :=
  readQuotedFrom single (c.rest.length + 1) [] (c.skip 1)

/-! ## Plain scalars -/

/-- Whether a character separates the items of flow collections. -/
def isFlowMark (c : Char) : Bool :=
  c == ',' || c == '[' || c == ']' || c == '\x7b' || c == '\x7d'

/-- Reads the characters of a plain scalar up to a gap or a mark that ends it; the text is reversed.
In flow collections a colon before a mark is a fault. -/
def readPlainPiece (inFlow : Bool) : Nat → List Char → Cursor → Option (List Char × Cursor)
  | 0, _, _ => none
  | fuel + 1, text, c =>
    if isGap c.head then some (text, c)
    else if inFlow && c.head == ':' && (isFlowMark (c.ahead 1) || c.ahead 1 == '?') then none
    else if (c.head == ':' && isGap (c.ahead 1)) || (inFlow && isFlowMark c.head) then
      some (text, c)
    else readPlainPiece inFlow fuel (c.head :: text) (c.skip 1)

/-- Reads the spaces and line breaks behind a piece of a plain scalar. A tab before the indentation
is a fault. -/
def readPlainGap (indent : Int) : Nat → Gap → Cursor → Option (Gap × Cursor)
  | 0, gap, c => some (gap, c)
  | fuel + 1, gap, c =>
    if isSpace c.head then
      if gap.broken && (c.column : Int) < indent && c.head == '\t' then none
      else
        readPlainGap indent fuel
          (if gap.broken then gap else { gap with spaces := gap.spaces ++ [c.head] }) (c.skip 1)
    else if isBreak c.head then readPlainGap indent fuel (gap.withBreak c.breakText) c.nextLine
    else some (gap, c)

/-- Reads the pieces and gaps of a plain scalar; the text before is reversed, and the gap before the
next piece counts only if the piece is not empty. -/
def readPlainFrom (inFlow : Bool) (indent : Int) :
    Nat → List Char → Gap → Cursor → Option Scalar
  | 0, _, _, _ => none
  | fuel + 1, text, gap, c =>
    if c.atDocumentMarks || c.head == '#' then some ⟨text.reverse, c, gap.broken⟩
    else
      match readPlainPiece inFlow (c.rest.length + 1) [] c with
      | none => none
      | some (piece, after) =>
        let text := if piece.isEmpty then text else piece ++ gap.folded.reverse ++ text
        let before : Gap := if piece.isEmpty then gap else {}
        if isSpace after.head || isBreak after.head then
          match readPlainGap indent after.rest.length before after with
          | none => none
          | some (gap, next) =>
            if !inFlow && (next.column : Int) < indent then
              some ⟨text.reverse, next, gap.broken⟩
            else readPlainFrom inFlow indent fuel text gap next
        else some ⟨text.reverse, after, before.broken⟩

/-- Reads a plain scalar that begins here, inside a block of the given indentation. -/
def readPlainScalar (inFlow : Bool) (indent : Int) (c : Cursor) : Option Scalar :=
  readPlainFrom inFlow (indent + 1) (c.rest.length + 1) [] {} c

/-! ## Block scalars -/

/-- What happens to the line breaks at the end of a block scalar. -/
inductive Chomping where
  /-- All are dropped. -/
  | strip
  /-- One is kept. -/
  | clip
  /-- All are kept. -/
  | keep
deriving DecidableEq, Repr

/-- The header of a block scalar. -/
structure BlockHeader where
  /-- What happens to the last line breaks. -/
  chomping : Chomping
  /-- The indentation beyond that of the block around, if it is told. -/
  increment : Option Nat
  /-- Where the header ends. -/
  cursor : Cursor

/-- The chomping that a mark tells. -/
def chomping? (c : Char) : Option Chomping :=
  if c == '+' then some .keep else if c == '-' then some .strip else none

/-- Reads the indentation and the chomping of a block scalar, in either order. -/
def readBlockMarks (c : Cursor) : Option BlockHeader :=
  match chomping? c.head with
  | some chomping =>
    let next := c.skip 1
    if next.head.isDigit then
      if next.head == '0' then none
      else some ⟨chomping, some (next.head.toNat - '0'.toNat), next.skip 1⟩
    else some ⟨chomping, none, next⟩
  | none =>
    if c.head.isDigit then
      if c.head == '0' then none
      else
        let next := c.skip 1
        let increment := some (c.head.toNat - '0'.toNat)
        match chomping? next.head with
        | some chomping => some ⟨chomping, increment, next.skip 1⟩
        | none => some ⟨.clip, increment, next⟩
    else some ⟨.clip, none, c⟩

/-- Moves over spaces and a comment to the end of the line. -/
def skipToLineEnd (c : Cursor) : Cursor :=
  let next := c.skipWhile isSpace
  if next.head == '#' then next.skipWhile fun c => !isBreakOrEnd c else next

/-- Moves over a line break, if there is one. -/
def skipBreak (c : Cursor) : Cursor :=
  if isBreak c.head then c.nextLine else c

/-- Reads the header of a block scalar up to the next line. -/
def readBlockHeader (c : Cursor) : Option BlockHeader :=
  match readBlockMarks c with
  | none => none
  | some header =>
    let atEnd := skipToLineEnd header.cursor
    if isBreakOrEnd atEnd.head then some { header with cursor := skipBreak atEnd } else none

/-- The blank lines before a line of a block scalar. -/
structure BlockBreaks where
  /-- Their line breaks. -/
  breaks : List Char
  /-- The widest indentation that was met. -/
  widest : Nat
  /-- Where the next line has its first character. -/
  cursor : Cursor

/-- Reads blank lines and the indentation behind them; no indentation is known before the first
line, and a tab in its place is a fault. -/
def readBlockBreaks (indent : Option Nat) : Nat → BlockBreaks → Option BlockBreaks
  | 0, found => some found
  | fuel + 1, found =>
    let room (c : Cursor) : Nat :=
      match indent with
      | none => c.rest.length
      | some indent => indent - c.column
    let c := found.cursor
    let next := c.skip (((c.rest.take (room c)).takeWhile (· == ' ')).length)
    let widest := max found.widest next.column
    let inside : Bool :=
      match indent with
      | none => true
      | some indent => next.column < indent
    if inside && next.head == '\t' then none
    else if isBreak next.head then
      readBlockBreaks indent fuel ⟨found.breaks ++ next.breakText, widest, next.nextLine⟩
    else some ⟨found.breaks, widest, next⟩

/-- The lines of a block scalar as far as they are read. -/
structure BlockText where
  /-- The text, reversed. -/
  text : List Char := []
  /-- The line break behind the last line. -/
  leadingBreak : List Char := []
  /-- The blank lines behind it. -/
  trailingBreaks : List Char := []
  /-- Whether the last line began with a blank. -/
  leadingBlank : Bool := false

/-- The line breaks before the next line: folded where both neighbours begin with a visible
character, as they stand otherwise. -/
def BlockText.join (block : BlockText) (literal nextBlank : Bool) : List Char :=
  if !literal && block.leadingBreak.head? == some '\n' && !block.leadingBlank && !nextBlank then
    (if block.trailingBreaks.isEmpty then [' '] else []) ++ block.trailingBreaks
  else block.leadingBreak ++ block.trailingBreaks

/-- Reads the lines of a block scalar. -/
def readBlockLines (literal : Bool) (indent : Nat) :
    Nat → BlockText → Cursor → Option (BlockText × Cursor)
  | 0, _, _ => none
  | fuel + 1, block, c =>
    if c.column == indent && !c.atEnd then
      let blank := isSpace c.head
      let line := c.span fun c => !isBreakOrEnd c
      let lineEnd := c.skip line.length
      let text := line.reverse ++ (block.join literal blank).reverse ++ block.text
      let leadingBreak := if isBreak lineEnd.head then lineEnd.breakText else []
      match readBlockBreaks (some indent) (c.rest.length + 1) ⟨[], 0, skipBreak lineEnd⟩ with
      | none => none
      | some found =>
        readBlockLines literal indent fuel ⟨text, leadingBreak, found.breaks, blank⟩
          found.cursor
    else some (block, c)

/-- The text of a block scalar with its last line breaks chomped. -/
def BlockText.chomped (block : BlockText) (chomping : Chomping) : List Char :=
  block.text.reverse ++
    match chomping with
    | .strip => []
    | .clip => block.leadingBreak
    | .keep => block.leadingBreak ++ block.trailingBreaks

/-- Reads a block scalar whose mark stands here, inside a block of the given indentation. -/
def readBlockScalar (literal : Bool) (outer : Int) (c : Cursor) : Option Scalar := do
  let header ← readBlockHeader (c.skip 1)
  let told := header.increment.map fun increment =>
    if 0 ≤ outer then outer.toNat + increment else increment
  let fuel := c.rest.length + 1
  let found ← readBlockBreaks told fuel ⟨[], 0, header.cursor⟩
  let indent := told.getD (max found.widest (max (outer + 1).toNat 1))
  let (block, rest) ←
    readBlockLines literal indent fuel { trailingBreaks := found.breaks } found.cursor
  return ⟨block.chomped header.chomping, rest, false⟩

end ApiModel.Yaml
