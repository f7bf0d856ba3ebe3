import ApiModel.Yaml.Scalar

/-!
# Tokens

The tokens of a document stream: marks of documents and collections, keys and values, anchors, tags
and scalars. The start of a block collection is known only when its first key or item is, so it may
be put before tokens that were found earlier.
-/

namespace ApiModel.Yaml

/-- A token. -/
inductive Token where
  /-- The stream ends. -/
  | streamEnd
  /-- A version of the language. -/
  | version (major minor : Nat)
  /-- A handle for tags. -/
  | tagHandle (handle : List Char)
  /-- A document starts. -/
  | documentStart
  /-- A document ends. -/
  | documentEnd
  /-- A block sequence starts. -/
  | blockSequenceStart
  /-- A block mapping starts. -/
  | blockMappingStart
  /-- A block collection ends. -/
  | blockEnd
  /-- A flow sequence starts. -/
  | flowSequenceStart
  /-- A flow sequence ends. -/
  | flowSequenceEnd
  /-- A flow mapping starts. -/
  | flowMappingStart
  /-- A flow mapping ends. -/
  | flowMappingEnd
  /-- An item of a block sequence follows. -/
  | blockEntry
  /-- Another item of a flow collection follows. -/
  | flowEntry
  /-- A key follows. -/
  | key
  /-- A value follows. -/
  | value
  /-- A reference to an anchor. -/
  | alias (name : List Char)
  /-- A name for the node that follows. -/
  | anchor (name : List Char)
  /-- A type for the node that follows, of which only the handle matters. -/
  | tag (handle : List Char)
  /-- A scalar, plain or not. -/
  | scalar (plain : Bool) (text : String)
deriving DecidableEq, Repr

/-- A place where a key may have begun without a mark of its own. -/
structure SimpleKey where
  /-- Whether only a key may stand there. -/
  required : Bool
  /-- How many tokens came before. -/
  position : Nat
  /-- How many bytes came before. -/
  index : Nat
  /-- The line. -/
  line : Nat
  /-- The column. -/
  column : Nat
deriving Repr

/-- The state of reading tokens. -/
structure Lexer where
  /-- The rest of the document. -/
  cursor : Cursor
  /-- The tokens so far. -/
  tokens : Array Token := #[]
  /-- How many flow collections are open. -/
  flowLevel : Nat := 0
  /-- The indentation of the innermost block collection. -/
  indent : Int := -1
  /-- The indentations around it, innermost first. -/
  outerIndents : List Int := []
  /-- Whether a key may begin here. -/
  keyAllowed : Bool := true
  /-- The possible key of the innermost flow collection. -/
  simpleKey : Option SimpleKey := none
  /-- The possible keys around it, innermost first. -/
  outerKeys : List (Option SimpleKey) := []
  /-- Whether the stream has ended. -/
  done : Bool := false

namespace Lexer

/-- Adds a token. -/
def push (s : Lexer) (token : Token) : Lexer :=
  { s with tokens := s.tokens.push token }

/-- Puts a token at an earlier place. -/
def insertAt (s : Lexer) (position : Nat) (token : Token) : Lexer :=
  { s with tokens := s.tokens.insertIdxIfInBounds position token }

/-- Moves over characters of one line. -/
def skip (s : Lexer) (count : Nat) : Lexer :=
  { s with cursor := s.cursor.skip count }

/-- How many bytes a key without a mark of its own may have. -/
def keyLimit : Nat := 1024

/-- Whether a possible key is too far back to be one: on another line, or too long. -/
def SimpleKey.stale (key : SimpleKey) (c : Cursor) : Bool :=
  key.line < c.line || key.index + keyLimit < c.index

/-- Forgets a possible key that is too far back; one that is required must not be. -/
def refreshKey (c : Cursor) : Option SimpleKey → Option (Option SimpleKey)
  | none => some none
  | some key =>
    if SimpleKey.stale key c then if key.required then none else some none else some (some key)

/-- Forgets the possible keys that are too far back. -/
def refreshKeys (s : Lexer) : Option Lexer := do
  let simpleKey ← refreshKey s.cursor s.simpleKey
  let outerKeys ← s.outerKeys.mapM (refreshKey s.cursor)
  return { s with simpleKey, outerKeys }

/-- Forgets the possible key; one that is required must not be. -/
def dropKey (s : Lexer) : Option Lexer :=
  match s.simpleKey with
  | some key => if key.required then none else some { s with simpleKey := none }
  | none => some s

/-- Remembers that a key may begin here. -/
def saveKey (s : Lexer) : Option Lexer :=
  if s.keyAllowed then
    let c := s.cursor
    let required := s.flowLevel == 0 && s.indent == (c.column : Int)
    (dropKey s).map fun s =>
      { s with simpleKey := some ⟨required, s.tokens.size, c.index, c.line, c.column⟩ }
  else some s

/-- Opens a block collection that is indented further than the one around it. -/
def openBlock (s : Lexer) (column : Nat) (position : Nat) (token : Token) : Lexer :=
  if s.flowLevel == 0 && s.indent < (column : Int) then
    { s with indent := column, outerIndents := s.indent :: s.outerIndents }.insertAt position token
  else s

/-- The indentations that are left, and the block ends, when everything deeper than a column
closes. -/
def closing (column : Int) : Int → List Int → Array Token → Int × List Int × Array Token
  | indent, [], tokens => (indent, [], tokens)
  | indent, outer :: rest, tokens =>
    if column < indent then closing column outer rest (tokens.push .blockEnd)
    else (indent, outer :: rest, tokens)

/-- Closes the block collections that are indented further than a column. -/
def closeBlocks (s : Lexer) (column : Int) : Lexer :=
  if s.flowLevel == 0 then
    let (indent, outerIndents, tokens) := closing column s.indent s.outerIndents s.tokens
    { s with indent, outerIndents, tokens }
  else s

/-- Moves over gaps and comments to the next token; a line break lets a key begin. -/
def skipGaps : Nat → Lexer → Lexer
  | 0, s => s
  | fuel + 1, s =>
    let c := s.cursor
    let c := if c.column == 0 && c.head == '\ufeff' then c.skip 1 else c
    let tabs := s.flowLevel > 0 || !s.keyAllowed
    let c := c.skipWhile fun x => x == ' ' || (tabs && x == '\t')
    let c := if c.head == '#' then c.skipWhile fun x => !isBreakOrEnd x else c
    if isBreak c.head then
      skipGaps fuel { s with cursor := c.nextLine, keyAllowed := s.keyAllowed || s.flowLevel == 0 }
    else { s with cursor := c }

/-! ## Directives, anchors and tags -/

/-- Reads a number of at most nine digits. -/
def readNumber (c : Cursor) : Option (Nat × Cursor) :=
  let digits := c.span Char.isDigit
  if digits.isEmpty || 9 < digits.length then none
  else some (digits.foldl (fun n d => n * 10 + (d.toNat - '0'.toNat)) 0, c.skip digits.length)

/-- Reads a tag handle: word characters behind and before an exclamation mark, the second of which
may be missing in a tag. -/
def readHandle (directive : Bool) (c : Cursor) : Option (List Char × Cursor) :=
  if c.head != '!' then none
  else
    let word := (c.skip 1).span isWordChar
    let next := c.skip (1 + word.length)
    if next.head == '!' then some ('!' :: word ++ ['!'], next.skip 1)
    else if directive && !word.isEmpty then none
    else some ('!' :: word, next)

/-- Whether a character may stand in a tag. -/
def isTagChar (verbatim : Bool) (c : Char) : Bool :=
  isWordChar c || ";/?:@&=+$.%!~*'()".toList.contains c
    || (verbatim && (c == ',' || c == '[' || c == ']'))

/-- The value of two hexadecimal digits behind a percent sign. -/
def percentByte? (c : Cursor) : Option Nat :=
  if c.head == '%' then hexNumber? [c.ahead 1, c.ahead 2] else none

/-- How many bytes a character has whose first byte is given. -/
def sequenceWidth? (byte : Nat) : Option Nat :=
  if byte < 0x80 then some 1
  else if 0xC0 ≤ byte ∧ byte < 0xE0 then some 2
  else if 0xE0 ≤ byte ∧ byte < 0xF0 then some 3
  else if 0xF0 ≤ byte ∧ byte < 0xF8 then some 4
  else none

/-- Moves over the escaped bytes of one character. -/
def skipPercent (c : Cursor) : Option Cursor := do
  let width ← sequenceWidth? (← percentByte? c)
  let follows (i : Nat) : Bool :=
    match percentByte? (c.skip (3 * (i + 1))) with
    | some byte => 0x80 ≤ byte && byte < 0xC0
    | none => false
  if (List.range (width - 1)).all follows then some (c.skip (3 * width)) else none

/-- Moves over the characters of a tag. -/
def skipTagText (verbatim : Bool) : Nat → Cursor → Option Cursor
  | 0, c => some c
  | fuel + 1, c =>
    if c.head == '%' then
      match skipPercent c with
      | some next => skipTagText verbatim fuel next
      | none => none
    else if isTagChar verbatim c.head then skipTagText verbatim fuel (c.skip 1)
    else some c

/-- Moves over the characters of a tag, of which at least one is needed unless a handle came
before. -/
def readTagText (verbatim headed : Bool) (c : Cursor) : Option Cursor := do
  let next ← skipTagText verbatim c.rest.length c
  if next.index == c.index && !headed then none else some next

/-- Reads what follows the name of the version directive. -/
def readVersion (c : Cursor) : Option (Token × Cursor) := do
  let (major, dot) ← readNumber (c.skipWhile isSpace)
  if dot.head != '.' then none
  else
    let (minor, next) ← readNumber (dot.skip 1)
    return (.version major minor, next)

/-- Reads what follows the name of the tag directive. -/
def readTagDirective (c : Cursor) : Option (Token × Cursor) := do
  let (handle, space) ← readHandle true (c.skipWhile isSpace)
  if !isSpace space.head then none
  else
    let next ← readTagText true false (space.skipWhile isSpace)
    if isGap next.head then some (.tagHandle handle, next) else none

/-- Reads a directive up to the next line. -/
def readDirective (c : Cursor) : Option (Token × Cursor) := do
  let start := c.skip 1
  let name := start.span isWordChar
  let next := start.skip name.length
  if !isGap next.head then none
  else
    let (token, behind) ←
      if name == "YAML".toList then readVersion next
      else if name == "TAG".toList then readTagDirective next
      else none
    let lineEnd := skipToLineEnd behind
    if isBreakOrEnd lineEnd.head then some (token, skipBreak lineEnd) else none

/-- Reads the name of an anchor or alias behind its mark. -/
def readAnchor (c : Cursor) : Option (List Char × Cursor) :=
  let name := (c.skip 1).span isWordChar
  let next := c.skip (1 + name.length)
  if name.isEmpty || !(isGap next.head || "?:,]\x7d%@`".toList.contains next.head) then none
  else some (name, next)

/-- Reads a tag; the handle is empty where none has to be known. -/
def readTag (c : Cursor) : Option (List Char × Cursor) :=
  if c.ahead 1 == '<' then do
    let next ← readTagText true false (c.skip 2)
    if next.head == '>' then some ([], next.skip 1) else none
  else do
    let (handle, next) ← readHandle false c
    if 2 ≤ handle.length && handle.getLast? == some '!' then
      return (handle, ← readTagText false false next)
    else
      let behind ← readTagText false true next
      return (if handle.length == 1 && behind.index == next.index then [] else ['!'], behind)

/-! ## Fetching tokens -/

/-- Ends the stream. -/
def fetchEnd (s : Lexer) : Option Lexer :=
  let c := s.cursor
  let s :=
    if c.column == 0 then s
    else { s with cursor := { c with line := c.line + 1, column := 0 } }
  (dropKey (s.closeBlocks (-1))).map fun s =>
    { s with keyAllowed := false, done := true }.push .streamEnd

/-- Takes a directive. -/
def fetchDirective (s : Lexer) : Option Lexer := do
  let s ← dropKey (s.closeBlocks (-1))
  let (token, cursor) ← readDirective s.cursor
  return { s with cursor, keyAllowed := false }.push token

/-- Takes the marks that start or end a document. -/
def fetchDocumentMarks (s : Lexer) (token : Token) : Option Lexer :=
  (dropKey (s.closeBlocks (-1))).map fun s =>
    { s.skip 3 with keyAllowed := false }.push token

/-- Opens a flow collection. -/
def fetchFlowStart (s : Lexer) (token : Token) : Option Lexer :=
  (saveKey s).map fun s =>
    { s.skip 1 with
      flowLevel := s.flowLevel + 1
      outerKeys := s.simpleKey :: s.outerKeys
      simpleKey := none
      keyAllowed := true }.push token

/-- Closes a flow collection. -/
def fetchFlowEnd (s : Lexer) (token : Token) : Option Lexer :=
  (dropKey s).map fun s =>
    match s.outerKeys with
    | key :: rest =>
      { s.skip 1 with
        flowLevel := s.flowLevel - 1
        simpleKey := key
        outerKeys := rest
        keyAllowed := false }.push token
    | [] => { s.skip 1 with keyAllowed := false }.push token

/-- Takes the comma of a flow collection. -/
def fetchFlowEntry (s : Lexer) : Option Lexer :=
  (dropKey s).map fun s => { s.skip 1 with keyAllowed := true }.push .flowEntry

/-- Takes the dash of a block sequence. -/
def fetchBlockEntry (s : Lexer) : Option Lexer :=
  if s.flowLevel == 0 && !s.keyAllowed then none
  else
    (dropKey (s.openBlock s.cursor.column s.tokens.size .blockSequenceStart)).map fun s =>
      { s.skip 1 with keyAllowed := true }.push .blockEntry

/-- Takes the mark of a key. -/
def fetchKey (s : Lexer) : Option Lexer :=
  if s.flowLevel == 0 && !s.keyAllowed then none
  else
    (dropKey (s.openBlock s.cursor.column s.tokens.size .blockMappingStart)).map fun s =>
      { s.skip 1 with keyAllowed := s.flowLevel == 0 }.push .key

/-- Takes the mark of a value; a key that may have begun before it becomes one. -/
def fetchValue (s : Lexer) : Option Lexer :=
  match s.simpleKey with
  | some key =>
    let s := (s.insertAt key.position .key).openBlock key.column key.position .blockMappingStart
    some ({ s.skip 1 with simpleKey := none, keyAllowed := false }.push .value)
  | none =>
    if s.flowLevel == 0 && !s.keyAllowed then none
    else
      let s := s.openBlock s.cursor.column s.tokens.size .blockMappingStart
      some ({ s.skip 1 with keyAllowed := s.flowLevel == 0 }.push .value)

/-- Takes an anchor or alias. -/
def fetchAnchor (s : Lexer) (token : List Char → Token) : Option Lexer := do
  let s ← saveKey s
  let (name, cursor) ← readAnchor s.cursor
  return { s with cursor, keyAllowed := false }.push (token name)

/-- Takes a tag, behind which a gap is needed. -/
def fetchTag (s : Lexer) : Option Lexer := do
  let s ← saveKey s
  let (handle, cursor) ← readTag s.cursor
  if isGap cursor.head || (s.flowLevel > 0 && cursor.head == ',') then
    return { s with cursor, keyAllowed := false }.push (.tag handle)
  else none

/-- Takes a block scalar. -/
def fetchBlockScalar (s : Lexer) (literal : Bool) : Option Lexer := do
  let s ← dropKey s
  let scalar ← readBlockScalar literal s.indent s.cursor
  return { s with cursor := scalar.cursor, keyAllowed := true }.push
    (.scalar false (String.ofList scalar.text))

/-- Takes a quoted scalar. -/
def fetchQuoted (s : Lexer) (single : Bool) : Option Lexer := do
  let s ← saveKey s
  let scalar ← readQuoted single s.cursor
  return { s with cursor := scalar.cursor, keyAllowed := false }.push
    (.scalar false (String.ofList scalar.text))

/-- Takes a plain scalar. -/
def fetchPlain (s : Lexer) : Option Lexer := do
  let s ← saveKey s
  let scalar ← readPlainScalar (s.flowLevel > 0) s.indent s.cursor
  return { s with cursor := scalar.cursor, keyAllowed := scalar.broken }.push
    (.scalar true (String.ofList scalar.text))

/-- Whether a plain scalar may begin here. -/
def atPlain (s : Lexer) : Bool :=
  let c := s.cursor
  !(isGap c.head || "-?:,[]\x7b\x7d#&*!|>'\"%@`".toList.contains c.head)
    || (c.head == '-' && !isSpace (c.ahead 1))
    || (s.flowLevel == 0 && (c.head == '?' || c.head == ':') && !isGap (c.ahead 1))

/-- Takes the next token. -/
def fetch (s : Lexer) : Option Lexer := do
  let s ← refreshKeys (skipGaps (s.cursor.rest.length + 1) s)
  let c := s.cursor
  let s := s.closeBlocks c.column
  let inFlow := s.flowLevel > 0
  if c.atEnd then s.fetchEnd
  else if c.column == 0 && c.head == '%' then s.fetchDirective
  else if c.atMarks '-' then s.fetchDocumentMarks .documentStart
  else if c.atMarks '.' then s.fetchDocumentMarks .documentEnd
  else if c.head == '[' then s.fetchFlowStart .flowSequenceStart
  else if c.head == '\x7b' then s.fetchFlowStart .flowMappingStart
  else if c.head == ']' then s.fetchFlowEnd .flowSequenceEnd
  else if c.head == '\x7d' then s.fetchFlowEnd .flowMappingEnd
  else if c.head == ',' then s.fetchFlowEntry
  else if c.head == '-' && isGap (c.ahead 1) then s.fetchBlockEntry
  else if c.head == '?' && (inFlow || isGap (c.ahead 1)) then s.fetchKey
  else if c.head == ':' && (inFlow || isGap (c.ahead 1)) then s.fetchValue
  else if c.head == '*' then s.fetchAnchor .alias
  else if c.head == '&' then s.fetchAnchor .anchor
  else if c.head == '!' then s.fetchTag
  else if c.head == '|' && !inFlow then s.fetchBlockScalar true
  else if c.head == '>' && !inFlow then s.fetchBlockScalar false
  else if c.head == '\'' then s.fetchQuoted true
  else if c.head == '"' then s.fetchQuoted false
  else if s.atPlain then s.fetchPlain
  else none

/-- Takes all tokens; every one but the last moves the cursor. -/
def fetchAll : Nat → Lexer → Option Lexer
  | 0, _ => none
  | fuel + 1, s =>
    if s.done then some s
    else
      match s.fetch with
      | none => none
      | some s => fetchAll fuel s

end Lexer

/-- The tokens of a text, unless it has a fault. -/
def Token.scan (text : List Char) : Option (List Token) :=
  if text.all isPrintable then
    (Lexer.fetchAll (text.length + 2) { cursor := { rest := text } }).map fun s => s.tokens.toList
  else none

end ApiModel.Yaml
