import ApiModel.Text.Basic

/-!
# Places in a document

The rest of a document from some character on, with the position, line and column of that character.
Positions count bytes of the UTF-8 encoding, columns count characters. The end of the document reads
as a zero character, which no document holds.
-/

namespace ApiModel.Yaml

/-- Whether a character may stand in a document. -/
def isPrintable (c : Char) : Bool :=
  let n := c.toNat
  n == 0x09 || n == 0x0A || n == 0x0D || (0x20 ≤ n && n ≤ 0x7E) || n == 0x85
    || (0xA0 ≤ n && n ≤ 0xD7FF) || (0xE000 ≤ n && n ≤ 0xFFFD) || 0x10000 ≤ n

/-- Whether a character is a space or a tab. -/
def isSpace (c : Char) : Bool :=
  c == ' ' || c == '\t'

/-- Whether a character breaks the line. -/
def isBreak (c : Char) : Bool :=
  c == '\r' || c == '\n' || c == '\u0085' || c == '\u2028' || c == '\u2029'

/-- Whether a character breaks the line or ends the document. -/
def isBreakOrEnd (c : Char) : Bool :=
  isBreak c || c == '\x00'

/-- Whether a character is a space, a tab or a line break, or ends the document. -/
def isGap (c : Char) : Bool :=
  isSpace c || isBreakOrEnd c

/-- Whether a character may stand in the names of anchors, directives and tag handles. -/
def isWordChar (c : Char) : Bool :=
  c.isAlphanum || c == '_' || c == '-'

/-- How many bytes encode some characters. -/
def byteCount (chars : List Char) : Nat :=
  chars.foldl (fun count c => count + c.utf8Size) 0

/-- The rest of a document and where it begins. -/
structure Cursor where
  /-- The characters that are left. -/
  rest : List Char
  /-- How many bytes came before. -/
  index : Nat := 0
  /-- How many lines came before. -/
  line : Nat := 0
  /-- How many characters of the line came before. -/
  column : Nat := 0
deriving Repr, Inhabited

namespace Cursor

/-- The next character. -/
def head (c : Cursor) : Char :=
  c.rest.headD '\x00'

/-- The character at a distance from the next one. -/
def ahead (c : Cursor) (distance : Nat) : Char :=
  c.rest.getD distance '\x00'

/-- Whether the document ends here. -/
def atEnd (c : Cursor) : Bool :=
  c.rest.isEmpty

/-- Moves over characters of one line. -/
def skip (c : Cursor) (count : Nat) : Cursor :=
  { c with
    rest := c.rest.drop count
    index := c.index + byteCount (c.rest.take count)
    column := c.column + count }

/-- The characters of one line that satisfy a test, up to the first that does not. -/
def span (c : Cursor) (test : Char → Bool) : List Char :=
  c.rest.takeWhile test

/-- Moves over the characters of one line that satisfy a test. -/
def skipWhile (c : Cursor) (test : Char → Bool) : Cursor :=
  c.skip (c.span test).length

/-- Moves over a line break. -/
def nextLine (c : Cursor) : Cursor :=
  let count := if c.head == '\r' && c.ahead 1 == '\n' then 2 else 1
  { rest := c.rest.drop count
    index := c.index + byteCount (c.rest.take count)
    line := c.line + 1
    column := 0 }

/-- The line break as it counts in a text: the two Unicode separators stay, all others are one line
feed. -/
def breakText (c : Cursor) : List Char :=
  if c.head == '\u2028' || c.head == '\u2029' then [c.head] else ['\n']

/-- Whether the line begins with three marks and a gap. -/
def atMarks (c : Cursor) (mark : Char) : Bool :=
  c.column == 0 && c.head == mark && c.ahead 1 == mark && c.ahead 2 == mark && isGap (c.ahead 3)

/-- Whether the line begins with the marks that separate documents. -/
def atDocumentMarks (c : Cursor) : Bool :=
  c.atMarks '-' || c.atMarks '.'

end Cursor

end ApiModel.Yaml
