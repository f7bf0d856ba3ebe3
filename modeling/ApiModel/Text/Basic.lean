/-!
# Text operations

Prefixes, suffixes, splitting, joining and replacement on strings, each defined through the list of
characters, and the sequence-of-bytes side of texts.
-/

namespace ApiModel

/-- A sequence of bytes, as documents and files hold it. -/
abbrev Bytes := List UInt8

namespace Text

/-- The text after a given beginning, if it has that beginning. -/
def stripPrefix? (start text : String) : Option String :=
  (start.toList.isPrefixOf? text.toList).map String.ofList

/-- The text before a given ending, if it has that ending. -/
def stripSuffix? (ending text : String) : Option String :=
  (ending.toList.isSuffixOf? text.toList).map String.ofList

/-- Whether a text has a given beginning. -/
def beginsWith (start text : String) : Bool :=
  start.toList.isPrefixOf text.toList

/-- Whether a text has a given ending. -/
def endsWith (ending text : String) : Bool :=
  ending.toList.isSuffixOf text.toList

/-- The pieces between the separators; a text without separator is one piece. -/
def pieces (separator : Char → Bool) : List Char → List (List Char)
  | [] => [[]]
  | c :: rest =>
    if separator c then [] :: pieces separator rest
    else match pieces separator rest with
      | [] => [[c]]
      | piece :: more => (c :: piece) :: more

/-- Splits a text at every occurrence of a character. -/
def splitAt (separator : Char) (text : String) : List String :=
  (pieces (· == separator) text.toList).map String.ofList

/-- The parts before and after the first occurrence of a character. -/
def splitFirst? (separator : Char) : List Char → Option (List Char × List Char)
  | [] => none
  | c :: rest =>
    if c == separator then some ([], rest)
    else (splitFirst? separator rest).map fun (before, after) => (c :: before, after)

/-- The parts before and after the last occurrence of a character. -/
def splitLast? (separator : Char) : List Char → Option (List Char × List Char)
  | [] => none
  | c :: rest =>
    match splitLast? separator rest with
    | some (before, after) => some (c :: before, after)
    | none => if c == separator then some ([], rest) else none

/-- The text without the dots at its beginning. -/
def dropDots (text : String) : String :=
  String.ofList (text.toList.dropWhile (· == '.'))

/-- The text with its first occurrence of a pattern replaced, if the pattern occurs. -/
def replaceFirst? (pattern replacement : List Char) : List Char → Option (List Char)
  | [] => if pattern.isEmpty then some replacement else none
  | c :: rest =>
    match pattern.isPrefixOf? (c :: rest) with
    | some after => some (replacement ++ after)
    | none => (replaceFirst? pattern replacement rest).map (c :: ·)

/-- The text that a sequence of bytes encodes in UTF-8, if it is well formed. -/
def ofBytes? (bytes : Bytes) : Option String :=
  String.fromUTF8? (ByteArray.mk bytes.toArray)

/-- The UTF-8 encoding of a text. -/
def toBytes (text : String) : Bytes :=
  text.toUTF8.toList

end Text

end ApiModel
