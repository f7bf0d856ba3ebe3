import ApiModel.Yaml.Cursor
import ApiModel.Yaml.Plain

/-!
# Styles of scalars

How a text is written as a scalar: plainly, between single or double quotes, or as a block of its
lines. The style follows from what the text holds and from what it would be read as.
-/

namespace ApiModel.Yaml

/-- The style of a scalar. -/
inductive Style where
  /-- As it stands. -/
  | plain
  /-- Between single quotes. -/
  | single
  /-- Between double quotes, with escapes. -/
  | double
  /-- As a block of lines. -/
  | literal
deriving DecidableEq, Repr

/-- Whether a character is written as it stands: the line feed and what is neither a control
character nor a mark of the byte order. -/
def isShown (c : Char) : Bool :=
  let n := c.toNat
  n == 0x0A || (0x20 ≤ n && n ≤ 0x7E) ||
    (0xA0 ≤ n && n != 0xFEFF && n != 0xFFFE && n != 0xFFFF)

/-- Whether two neighbours somewhere in a text satisfy a test. -/
def anyNeighbours (test : Char → Char → Bool) : List Char → Bool
  | a :: b :: rest => test a b || anyNeighbours test (b :: rest)
  | _ => false

/-- Whether a text begins with three dashes or three points, as marks of documents do. -/
def beginsWithMark : List Char → Bool
  | '-' :: '-' :: '-' :: _ => true
  | '.' :: '.' :: '.' :: _ => true
  | _ => false

/-- Whether a character cannot begin a plain scalar. -/
def isIndicator (c : Char) : Bool :=
  ['#', ',', '[', ']', '\x7b', '\x7d', '&', '*', '!', '|', '>', '\'', '"', '%', '@', '`'].contains c

/-- Whether the beginning of a text means something else to a reader. -/
def beginsWithIndicator : List Char → Bool
  | [] => false
  | c :: rest =>
    isIndicator c || ((c == '?' || c == ':' || c == '-') && isGap (rest.headD '\x00'))

/-- Whether a text has a colon before a gap, or a number sign behind one. -/
def hasInnerIndicator (cs : List Char) : Bool :=
  cs.getLast? == some ':'
    || anyNeighbours (fun a b => (a == ':' && isGap b) || (isGap a && b == '#')) cs

/-- Whether a text begins or ends with a space or a line break. -/
def hasOuterGap (cs : List Char) : Bool :=
  let isOuter (c : Char) : Bool := c == ' ' || isBreak c
  cs.head?.any isOuter || cs.getLast?.any isOuter

/-- Whether a text has characters that only double quotes take: those that are not shown, and a
space before a line break. -/
def needsEscapes (cs : List Char) : Bool :=
  cs.any (fun c => !isShown c) || anyNeighbours (fun a b => a == ' ' && isBreak b) cs

/-- Whether a line of a text begins with a space. -/
def hasIndentedLine (cs : List Char) : Bool :=
  anyNeighbours (fun a b => isBreak a && b == ' ') cs

/-- Whether a text may stand plainly. -/
def plainAllowed (cs : List Char) : Bool :=
  !(needsEscapes cs || hasIndentedLine cs || hasOuterGap cs || cs.any isBreak || beginsWithMark cs
    || beginsWithIndicator cs || hasInnerIndicator cs)

/-- Whether a text may stand between single quotes. -/
def singleAllowed (cs : List Char) : Bool :=
  !(needsEscapes cs || hasIndentedLine cs)

/-- Whether a text may stand as a block of lines. -/
def literalAllowed (cs : List Char) : Bool :=
  !(needsEscapes cs || cs.getLast? == some ' ')

/-- The style of a text that is no key. -/
def valueStyle (text : String) : Style :=
  let cs := text.toList
  if cs.contains '\n' then if literalAllowed cs then .literal else .double
  else if plainAllowed cs && !readsAsOther text then .plain
  else if singleAllowed cs then .single
  else .double

/-- The most bytes that a key may have on the line of its value. -/
def maxSimpleKey : Nat := 128

/-- Whether a text may stand as a key on the line of its value. -/
def isSimpleKey (text : String) : Bool :=
  !text.toList.any isBreak && text.utf8ByteSize ≤ maxSimpleKey

end ApiModel.Yaml
